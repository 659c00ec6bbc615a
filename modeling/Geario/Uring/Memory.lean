import Geario.Buffers.Address
import Geario.Lib.Run
import Geario.Lib.Slab
/-!
# The memory an io_uring driver gives to the kernel

A request holds addresses, and the kernel uses them until the last completion.
They are taken from the operation, which is kept in a slab: those of a single
page from the page in the entry, those of several pages from a vector that does
not move, and the free space of a receive buffer from the buffer. The slab moves
its entries when it grows, and a `more` completion takes the operation out of
its entry for a while; neither moves the vectors or the buffers. So a request
stays what it was unless it is for a single inline page, or the stream is gone
when `more` is reported, which drops the page before the kernel is done with it.

What the rest of the program does with its memory is left open, as long as it
leaves alone what the operations have handles on.
-/
open Lib (Reach Slab of_bind of_map)
open List Option Multiset
open Geario.Buffers
open Geario.Buffers.BytePages (pagesRefs)

namespace Geario.Uring.Memory

inductive Place
  /-- in an entry of the slab, after it was moved `gen` times -/
  | entry (gen key : Nat)
  | pages (a i : Nat)
  | taken
  deriving DecidableEq

inductive Operation
  | Recv (id v : Nat)
  | Send (id : Nat) (buf : BytePage)
  | Writev (id a : Nat)
  /-- `Poll`, `Shutdown`, `Close` and `Nop` have no buffers. -/
  | Other

structure Vectors where
  pages : List BytePage
  iovecs : List (Addr Place × Nat)

/-- What the kernel was told, with the bytes that were to be sent. -/
inductive Request
  | recv (v offset len : Nat)
  | send (addr : Addr Place) (data : List UInt8)
  | writev (a : Nat) (data : List (List UInt8))

def iovecs (h : Heap) (a : Nat) (pages : List BytePage) : List (Addr Place × Nat) :=
  pages.mapIdx fun i p => (p.as_ptr h (.pages a i), (p.content h).length)

namespace Operation

def request (h : Heap) (vectors : Slab Vectors) (place : Place) : Operation → Option Request
  | Recv _ v => (h.vecs v).map fun b => .recv v (b.offset + b.len) b.remaining
  | Send _ buf => some (.send (buf.as_ptr h place) (buf.content h))
  | Writev _ a => (vectors.get a).map fun x => .writev a (x.pages.map (BytePage.content h))
  | Other => none

def refs (vectors : Slab Vectors) : Operation → Multiset Ref
  | Recv _ v => {.own v}
  | Send _ buf => buf.refs
  | Writev _ a => (vectors.get a).elim 0 fun x => pagesRefs x.pages
  | Other => 0

def release (vectors : Slab Vectors) : Operation → Slab Vectors
  | Writev _ a => vectors.remove a
  | _ => vectors

end Operation

structure Driver where
  heap : Heap
  /-- an entry is `none` while its operation is handled -/
  ops : Slab (Option Operation)
  entries : Nat
  capacity : Nat
  /-- how often the slab was moved -/
  gen : Nat
  vectors : Slab Vectors
  streams : Slab Unit
  /-- the operation that is handled; what is to be put back -/
  taken : Option (Nat × Option Operation)
  requests : Slab Request

namespace Driver

inductive Step
  | register (id key : Nat)
  | remove (id : Nat)
  | recv (id v key : Nat)
  | send (id : Nat) (pages : List BytePage) (a key : Nat)
  | add_operation (key : Nat)
  /-- a completion, and what its handler does with the entry before and after it submits others -/
  | completed (k : Nat) (more : Bool)
  | handled
  | canceled (k : Nat)
  | memory (heap : Heap)

variable {h h' : Heap} {s s' : Driver} {i : Step} {k key : Nat} {op : Operation} {vectors vectors' : Slab Vectors}

def new (heap : Heap) : Driver :=
  { heap, ops := Slab.empty.insert 0 (some .Other), entries := 1, capacity := 4, gen := 0, vectors := .empty, streams := .empty,
    taken := none, requests := .empty }

def insert (s : Driver) (key : Nat) (op : Operation) : Option Driver :=
  if s.ops.contains key ∨ s.entries < key then none
  else
    some
      { s with
        ops := s.ops.insert key (some op)
        entries := max s.entries (key + 1)
        capacity := if key < s.capacity then s.capacity else max 4 (2 * s.capacity)
        gen := if key < s.capacity then s.gen else s.gen + 1 }

def submit (s : Driver) (key : Nat) (op : Operation) : Option Driver :=
  (s.insert key op).map fun s =>
    { s with requests := (op.request s.heap s.vectors (.entry s.gen key)).elim s.requests (s.requests.insert key) }

def send (s : Driver) (id : Nat) (pages : List BytePage) (a key : Nat) : Option Driver :=
  match pages with
  | [] => none
  | [buf] => s.submit key (.Send id buf)
  | pages =>
    if s.vectors.contains a then none
    else
      { s with vectors := s.vectors.insert a { pages, iovecs := iovecs s.heap a pages } }.submit key (.Writev id a)

def take (s : Driver) (k : Nat) : Option (Operation × Driver) :=
  if s.taken.isSome then none else (s.ops.get k).join.map fun op => (op, { s with ops := s.ops.insert k none })

def completed (s : Driver) (k : Nat) (more : Bool) : Option Driver :=
  (s.take k).bind fun (op, s) =>
    if more then
      match op with
      | .Send _ _ => some { s with taken := some (k, some op) }
      | _ => none
    else some { s with taken := some (k, none), requests := s.requests.remove k, vectors := op.release s.vectors }

def handled (s : Driver) : Option Driver :=
  s.taken.map fun t =>
    match t with
    | (k, some (.Send id buf)) =>
      { s with
        taken := none
        ops := if s.streams.contains id then s.ops.insert k (some (.Send id buf)) else s.ops.remove k }
    | (k, _) => { s with taken := none, ops := s.ops.remove k }

def canceled (s : Driver) (k : Nat) : Option Driver :=
  (s.take k).map fun (op, s) =>
    { s with ops := s.ops.remove k, requests := s.requests.remove k, vectors := op.release s.vectors }

def step (s : Driver) : Step → Option Driver
  | .register id key =>
    if s.streams.contains id ∨ s.taken.isSome then none
    else { s with streams := s.streams.insert id () }.submit key .Other
  | .remove id => if s.taken.isSome then none else some { s with streams := s.streams.remove id }
  | .recv id v key => s.submit key (.Recv id v)
  | .send id pages a key => s.send id pages a key
  | .add_operation key => s.submit key .Other
  | .completed k more => s.completed k more
  | .handled => s.handled
  | .canceled k => s.canceled k
  | .memory heap => some { s with heap }

def operation (s : Driver) (k : Nat) : Option Operation :=
  match s.taken with
  | some (j, op) => if k = j then op else (s.ops.get k).join
  | none => (s.ops.get k).join

def place (s : Driver) (k : Nat) : Place :=
  match s.taken with
  | some (j, _) => if k = j then .taken else .entry s.gen k
  | none => .entry s.gen k

def values (s : Driver) : Place → Option BytePage
  | .entry gen key =>
    match s.ops.get key with
    | some (some (.Send _ buf)) => if gen = s.gen then some buf else none
    | _ => none
  | .pages a i => (s.vectors.get a).bind fun x => x.pages[i]?
  | .taken =>
    match s.taken with
    | some (_, some (.Send _ buf)) => some buf
    | _ => none

def load (s : Driver) (e : Addr Place × Nat) : Option (List UInt8) := BytePage.load s.heap s.values e.2 e.1

def handles (s : Driver) (k : Nat) : Multiset Ref := (s.operation k).elim 0 (Operation.refs s.vectors)

/-- The request is for memory of its own operation: for the bytes that were submitted, or for the free space of a buffer
that no other operation reaches. -/
def Holds (s : Driver) (k : Nat) : Request → Prop
  | .recv v offset len =>
    ∃ id b, s.operation k = some (.Recv id v) ∧ s.heap.vecs v = some b ∧ offset = b.offset + b.len ∧ len = b.remaining ∧
      offset + len ≤ b.mem.length ∧ ∀ j, j ≠ k → ∀ r ∈ s.handles j, r.ptr = v → r.Before b
  | .send addr data =>
    ∃ id buf, s.operation k = some (.Send id buf) ∧ addr = buf.as_ptr s.heap (s.place k) ∧ s.load (addr, data.length) = some data
  | .writev a data =>
    ∃ id x, s.operation k = some (.Writev id a) ∧ (∀ j id', s.operation j = some (.Writev id' a) → j = k) ∧ s.vectors.get a = some x ∧
      x.iovecs = iovecs s.heap a x.pages ∧ x.iovecs.map s.load = data.map some

/-! ## What is assumed of a run -/

def Live (h : Heap) (r : Ref) : Prop := ∃ b, h.vecs r.ptr = some b ∧ b.Wf ∧ r.Within b

/-- The handles `R'` end before what the owners among `R` may write. -/
def Clear (h : Heap) (R R' : Multiset Ref) : Prop :=
  ∀ v b, .own v ∈ R → h.vecs v = some b → ∀ r ∈ R', r.ptr = v → r.Before b

def Lent (s : Driver) (R : Multiset Ref) : Prop :=
  (∀ r ∈ R, Live s.heap r) ∧ ∀ k, Clear s.heap R (s.handles k) ∧ Clear s.heap (s.handles k) R

def Same (h h' : Heap) (r : Ref) : Prop :=
  ∀ b, h.vecs r.ptr = some b → ∃ b', h'.vecs r.ptr = some b' ∧ b'.Wf ∧ r.Within b' ∧ r.read b' = r.read b ∧
    match r with
    | .win _ _ _ => True
    | _ => b'.offset = b.offset ∧ b'.len = b.len ∧ b'.remaining = b.remaining

lemma lent_zero (s : Driver) : s.Lent 0 := by
  refine ⟨fun r hr => absurd hr (notMem_zero r), fun j => ⟨?_, ?_⟩⟩
  · exact fun v b hv => absurd hv (notMem_zero _)
  · exact fun v b _ _ r hr => absurd hr (notMem_zero r)

/-- Buffers are used as handles allow it. -/
def Fair (s : Driver) : Step → Prop
  | .recv _ v _ => s.Lent {.own v}
  | .send _ pages _ _ => s.Lent (pagesRefs pages)
  | .memory heap => ∀ k, ∀ r ∈ s.handles k, Same s.heap heap r
  | _ => True

/-- No inline page is sent alone, and `more` is reported while the stream is there. -/
def InPlace (s : Driver) : Step → Prop
  | .send _ [buf] _ _ => ¬buf.Inline
  | .handled => ∀ k id buf, s.taken = some (k, some (.Send id buf)) → s.streams.contains id = true
  | _ => True

/-! ## What every state keeps -/

/-- Submitted again now, every operation would give the same request. -/
structure Kept (s : Driver) : Prop where
  same : ∀ k q, s.requests.get k = some q → ∃ op, s.operation k = some op ∧ op.request s.heap s.vectors (s.place k) = some q
  made : ∀ k id a, s.operation k = some (.Writev id a) → ∃ x, s.vectors.get a = some x ∧ x.iovecs = iovecs s.heap a x.pages
  sole : ∀ j k id id' a, s.operation j = some (.Writev id a) → s.operation k = some (.Writev id' a) → j = k
  elsewhere : ∀ k id buf, s.operation k = some (.Send id buf) → ¬buf.Inline
  live : ∀ k, ∀ r ∈ s.handles k, Live s.heap r
  clear : ∀ j k, j ≠ k → Clear s.heap (s.handles j) (s.handles k)
  slot : ∀ k back, s.taken = some (k, back) → s.ops.get k = some none ∧ ∀ op, back = some op → ∃ id buf, op = .Send id buf

lemma as_ptr_place {p : BytePage} (hi : ¬p.Inline) (place place' : Place) : p.as_ptr h place = p.as_ptr h place' := by
  by_cases heq : place = place'
  · rw [heq]
  · exact (BytePage.as_ptr_eq_iff heq).2 hi

lemma request_congr (hi : ∀ id buf, op = .Send id buf → ¬buf.Inline)
    (hv : ∀ id a, op = .Writev id a → vectors'.get a = vectors.get a) (place place' : Place) :
    op.request h vectors' place' = op.request h vectors place := by
  cases op with
  | Recv id v => rfl
  | Send id buf => rw [Operation.request, Operation.request, as_ptr_place (hi id buf rfl) place' place]
  | Writev id a => rw [Operation.request, Operation.request, hv id a rfl]
  | Other => rfl

lemma refs_congr (hv : ∀ id a, op = .Writev id a → vectors'.get a = vectors.get a) : op.refs vectors' = op.refs vectors := by
  cases op with
  | Writev id a => rw [Operation.refs, Operation.refs, hv id a rfl]
  | _ => rfl

lemma handles_eq (hop : s.operation k = some op) : s.handles k = op.refs s.vectors := by rw [handles, hop]; rfl

lemma mem_handles {r : Ref} (hr : r ∈ s.handles k) : ∃ op, s.operation k = some op ∧ r ∈ op.refs s.vectors := by
  cases hop : s.operation k with
  | none =>
    rw [handles, hop] at hr
    exact absurd hr (notMem_zero r)
  | some op =>
    rw [handles_eq hop] at hr
    exact ⟨op, rfl, hr⟩

lemma operation_of_not_taken (ht : s.taken = none) (k : Nat) : s.operation k = (s.ops.get k).join := by rw [operation, ht]

lemma handles_sub (hop : ∀ j op, s'.operation j = some op → s.operation j = some op)
    (hvec : ∀ j id a, s'.operation j = some (.Writev id a) → s'.vectors.get a = s.vectors.get a) :
    ∀ j, ∀ r ∈ s'.handles j, r ∈ s.handles j := by
  intro j r hr
  obtain ⟨op, hj, hr⟩ := mem_handles hr
  rw [handles_eq (hop j op hj)]
  rwa [refs_congr fun id a heq => hvec j id a (heq ▸ hj)] at hr

lemma kept_of_sub (hk : s.Kept) (hheap : s'.heap = s.heap) (hop : ∀ j op, s'.operation j = some op → s.operation j = some op)
    (hvec : ∀ j id a, s'.operation j = some (.Writev id a) → s'.vectors.get a = s.vectors.get a)
    (hreq : ∀ j q, s'.requests.get j = some q → s.requests.get j = some q ∧ s'.operation j = s.operation j)
    (hslot : ∀ k back, s'.taken = some (k, back) →
      s'.ops.get k = some none ∧ ∀ op, back = some op → ∃ id buf, op = .Send id buf) : s'.Kept := by
  have hhandles := handles_sub hop hvec
  refine ⟨?_, ?_, ?_, ?_, ?_, ?_, hslot⟩
  · intro j q hq
    obtain ⟨hq, heq⟩ := hreq j q hq
    obtain ⟨op, hj, hr⟩ := hk.same j q hq
    refine ⟨op, heq.trans hj, ?_⟩
    rw [hheap, ← hr]
    refine request_congr ?_ ?_ _ _
    · rintro id buf rfl
      exact hk.elsewhere j id buf hj
    · rintro id a rfl
      exact hvec j id a (heq.trans hj)
  · intro j id a hj
    obtain ⟨x, hx, hmade⟩ := hk.made j id a (hop j _ hj)
    exact ⟨x, (hvec j id a hj).trans hx, hheap ▸ hmade⟩
  · intro j j' id id' a hj hj'
    exact hk.sole j j' id id' a (hop j _ hj) (hop j' _ hj')
  · intro j id buf hj
    exact hk.elsewhere j id buf (hop j _ hj)
  · intro j r hr
    rw [hheap]
    exact hk.live j r (hhandles j r hr)
  · intro j j' hne v b hv hb r hr
    rw [hheap] at hb
    exact hk.clear j j' hne v b (hhandles j _ hv) hb r (hhandles j' r hr)

structure Added (s s' : Driver) (key : Nat) (op : Operation) : Prop where
  heap : s'.heap = s.heap
  vectors : s'.vectors = s.vectors
  taken : s'.taken = s.taken
  vacant : s.ops.get key = none
  ops : ∀ j, s'.ops.get j = if j = key then some (some op) else s.ops.get j
  requests : ∀ j q, s'.requests.get j = some q →
    (j = key ∧ op.request s.heap s.vectors (.entry s'.gen key) = some q) ∨ s.requests.get j = some q

lemma submit_added (hst : s.submit key op = some s') : Added s s' key op := by
  obtain ⟨s1, hins, rfl⟩ := of_map hst
  obtain ⟨hfree, rfl⟩ := Lib.of_ite_not hins
  refine ⟨rfl, rfl, rfl, ?_, fun j => Slab.get_insert _ _ _ _, ?_⟩
  · simp only [Slab.contains, not_or, not_isSome_iff_eq_none] at hfree
    exact hfree.1
  · intro j q hq
    cases hr : op.request s.heap s.vectors (.entry (if key < s.capacity then s.gen else s.gen + 1) key) with
    | none =>
      rw [hr] at hq
      exact .inr hq
    | some q' =>
      rw [hr, elim_some, Slab.get_insert] at hq
      split at hq
      next heq => exact .inl ⟨heq, hq⟩
      · exact .inr hq

namespace Added

section

variable (ha : Added s s' key op)
include ha

section

variable (hk : s.Kept)
include hk

lemma not_taken {back : Option Operation} (ht : s.taken = some (k, back)) : k ≠ key := by
  rintro rfl
  have hslot := (hk.slot k back ht).1
  rw [ha.vacant] at hslot
  cases hslot

lemma operation_eq (j : Nat) : s'.operation j = if j = key then some op else s.operation j := by
  have hjoin : (s'.ops.get j).join = if j = key then some op else (s.ops.get j).join := by
    rw [ha.ops]
    split <;> rfl
  unfold operation
  rw [ha.taken, hjoin]
  cases ht : s.taken with
  | none => rfl
  | some t =>
    dsimp only
    by_cases heq : j = t.1
    · rw [if_pos heq, if_neg (heq ▸ ha.not_taken hk ht), if_pos heq]
    · rw [if_neg heq, if_neg heq]

lemma operation_key : s'.operation key = some op := by
  rw [ha.operation_eq hk, if_pos rfl]

lemma operation_of_before {j : Nat} {o : Operation} (hj : s.operation j = some o) : j ≠ key ∧ s'.operation j = some o := by
  have hne : j ≠ key := by
    rintro rfl
    unfold operation at hj
    rw [ha.vacant] at hj
    cases ht : s.taken with
    | none =>
      rw [ht] at hj
      cases hj
    | some t =>
      rw [ht] at hj
      dsimp only at hj
      rw [if_neg fun heq => ha.not_taken hk ht heq.symm] at hj
      cases hj
  rw [ha.operation_eq hk, if_neg hne]
  exact ⟨hne, hj⟩

lemma place_key : s'.place key = .entry s'.gen key := by
  unfold place
  rw [ha.taken]
  cases ht : s.taken with
  | none => rfl
  | some t => exact if_neg fun heq => ha.not_taken hk ht heq.symm

lemma cases_operation {j : Nat} {o : Operation} (hj : s'.operation j = some o) :
    (j = key ∧ o = op) ∨ (j ≠ key ∧ s.operation j = some o) := by
  rw [ha.operation_eq hk] at hj
  split at hj
  next heq => exact .inl ⟨heq, (some.inj hj).symm⟩
  next hne => exact .inr ⟨hne, hj⟩

lemma handles_key : s'.handles key = op.refs s.vectors := by
  rw [handles_eq (ha.operation_key hk), ha.vectors]

lemma handles_other {j : Nat} (hne : j ≠ key) : s'.handles j = s.handles j := by
  rw [handles, handles, ha.operation_eq hk, if_neg hne, ha.vectors]

end

end

end Added

lemma kept_submit (hk : s.Kept) (hlent : s.Lent (op.refs s.vectors)) (hi : ∀ id buf, op = .Send id buf → ¬buf.Inline)
    (hmade : ∀ id a, op = .Writev id a → ∃ x, s.vectors.get a = some x ∧ x.iovecs = iovecs s.heap a x.pages)
    (hsole : ∀ j id id' a, op = .Writev id a → s.operation j ≠ some (.Writev id' a)) (hst : s.submit key op = some s') :
    s'.Kept := by
  have ha := submit_added hst
  refine ⟨?_, ?_, ?_, ?_, ?_, ?_, ?_⟩
  · intro j q hq
    rw [ha.heap, ha.vectors]
    rcases ha.requests j q hq with ⟨rfl, hr⟩ | hq
    · exact ⟨op, ha.operation_key hk, by rw [ha.place_key hk]; exact hr⟩
    · obtain ⟨o, hj, hr⟩ := hk.same j q hq
      refine ⟨o, (ha.operation_of_before hk hj).2, ?_⟩
      rw [← hr]
      refine request_congr ?_ (fun _ _ _ => rfl) _ _
      rintro id buf rfl
      exact hk.elsewhere j id buf hj
  · intro j id a hj
    rw [ha.heap, ha.vectors]
    rcases ha.cases_operation hk hj with ⟨-, heq⟩ | ⟨-, hj⟩
    · exact hmade id a heq.symm
    · exact hk.made j id a hj
  · intro j j' id id' a hj hj'
    rcases ha.cases_operation hk hj with ⟨rfl, heq⟩ | ⟨-, hj⟩
    · rcases ha.cases_operation hk hj' with ⟨rfl, -⟩ | ⟨-, hj'⟩
      · rfl
      · exact absurd hj' (hsole j' id id' a heq.symm)
    · rcases ha.cases_operation hk hj' with ⟨rfl, heq⟩ | ⟨-, hj'⟩
      · exact absurd hj (hsole j id' id a heq.symm)
      · exact hk.sole j j' id id' a hj hj'
  · intro j id buf hj
    rcases ha.cases_operation hk hj with ⟨-, heq⟩ | ⟨-, hj⟩
    · exact hi id buf heq.symm
    · exact hk.elsewhere j id buf hj
  · intro j r hr
    rw [ha.heap]
    by_cases heq : j = key
    · rw [heq, ha.handles_key hk] at hr
      exact hlent.1 r hr
    · rw [ha.handles_other hk heq] at hr
      exact hk.live j r hr
  · intro j j' hne
    rw [ha.heap]
    by_cases heq : j = key
    · rw [heq, ha.handles_key hk, ha.handles_other hk fun h => hne (heq.trans h.symm)]
      exact (hlent.2 j').1
    · by_cases heq' : j' = key
      · rw [heq', ha.handles_key hk, ha.handles_other hk heq]
        exact (hlent.2 j).2
      · rw [ha.handles_other hk heq, ha.handles_other hk heq']
        exact hk.clear j j' hne
  · intro k back ht
    rw [ha.taken] at ht
    rw [ha.ops, if_neg (ha.not_taken hk ht)]
    exact hk.slot k back ht

lemma kept_send {id a : Nat} {pages : List BytePage} (hk : s.Kept) (hlent : s.Lent (pagesRefs pages))
    (hi : InPlace s (.send id pages a key)) (hst : s.send id pages a key = some s') : s'.Kept := by
  unfold send at hst
  split at hst
  · cases hst
  next buf =>
    have hrefs : pagesRefs [buf] = buf.refs := add_zero _
    rw [hrefs] at hlent
    refine kept_submit hk ?_ ?_ ?_ ?_ hst
    · exact hlent
    · intro id' buf' heq
      cases heq
      exact hi
    all_goals nofun
  · obtain ⟨hfree, hst⟩ := ite_none_left_eq_some.1 hst
    have hvacant : s.vectors.get a = none := by
      rw [Slab.contains, Bool.not_eq_true, isSome_eq_false_iff, isNone_iff_eq_none] at hfree
      exact hfree
    -- the vectors in use are not the new ones
    have hused : ∀ j id' a', s.operation j = some (.Writev id' a') → a' ≠ a := by
      rintro j id' a' hj rfl
      obtain ⟨x, hx, -⟩ := hk.made j id' a' hj
      rw [hvacant] at hx
      cases hx
    have hget : ∀ j id' a', s.operation j = some (.Writev id' a') →
        (s.vectors.insert a { pages, iovecs := iovecs s.heap a pages }).get a' = s.vectors.get a' :=
      fun j id' a' hj => (Slab.get_insert _ _ _ _).trans (if_neg (hused j id' a' hj))
    have hk' : Kept { s with vectors := s.vectors.insert a { pages, iovecs := iovecs s.heap a pages } } :=
      kept_of_sub hk rfl (fun _ _ hj => hj) hget (fun _ _ hq => ⟨hq, rfl⟩) hk.slot
    have hsub : ∀ j, ∀ r ∈ handles { s with vectors := s.vectors.insert a { pages, iovecs := iovecs s.heap a pages } } j,
        r ∈ s.handles j := handles_sub (fun _ _ hj => hj) hget
    refine kept_submit hk' ?_ ?_ ?_ ?_ hst
    · have hrefs : Operation.refs (s.vectors.insert a { pages, iovecs := iovecs s.heap a pages }) (.Writev id a) =
          pagesRefs pages := by
        rw [Operation.refs, Slab.get_insert_self]
        rfl
      rw [hrefs]
      refine ⟨hlent.1, fun j => ⟨?_, ?_⟩⟩
      · intro v b hv hb r hr
        exact (hlent.2 j).1 v b hv hb r (hsub j r hr)
      · intro v b hv hb r hr
        exact (hlent.2 j).2 v b (hsub j _ hv) hb r hr
    · nofun
    · intro id' a' heq
      cases heq
      exact ⟨_, Slab.get_insert_self _ _ _, rfl⟩
    · intro j id₁ id₂ a' heq hj
      cases heq
      exact hused j id₂ a hj rfl

/-! ## The end of an operation -/

lemma take_eq {s₁ : Driver} (ht : s.take k = some (op, s₁)) :
    s.taken = none ∧ s.operation k = some op ∧ s₁ = { s with ops := s.ops.insert k none } := by
  obtain ⟨hnot, ht⟩ := ite_none_left_eq_some.1 ht
  obtain ⟨o, ho, heq⟩ := of_map ht
  cases heq
  have hnone : s.taken = none := by
    rw [Bool.not_eq_true, isSome_eq_false_iff, isNone_iff_eq_none] at hnot
    exact hnot
  exact ⟨hnone, (operation_of_not_taken hnone k).trans ho, rfl⟩

lemma kept_ended (hk : s.Kept) (hop : s.operation k = some op) (hheap : s'.heap = s.heap)
    (hoper : ∀ j, s'.operation j = if j = k then none else s.operation j) (hvec : s'.vectors = op.release s.vectors)
    (hreq : s'.requests = s.requests.remove k) (hslot : ∀ j back, s'.taken = some (j, back) →
      s'.ops.get j = some none ∧ ∀ o, back = some o → ∃ id buf, o = .Send id buf) : s'.Kept := by
  have hsub : ∀ j o, s'.operation j = some o → j ≠ k ∧ s.operation j = some o := by
    intro j o hj
    rw [hoper] at hj
    obtain ⟨hne, hj⟩ := ite_none_left_eq_some.1 hj
    exact ⟨hne, hj⟩
  refine kept_of_sub hk hheap (fun j o hj => (hsub j o hj).2) ?_ ?_ hslot
  · intro j id a hj
    obtain ⟨hne, hj⟩ := hsub j _ hj
    rw [hvec]
    cases op with
    | Writev id' a' =>
      have hdiff : a ≠ a' := by
        rintro rfl
        exact hne (hk.sole j k id id' a hj hop)
      rw [Operation.release, Slab.get_remove, if_neg hdiff]
    | _ => rfl
  · intro j q hq
    rw [hreq] at hq
    obtain ⟨hne, hq⟩ := Slab.get_of_remove hq
    exact ⟨hq, by rw [hoper, if_neg hne]⟩

lemma kept_completed {more : Bool} (hk : s.Kept) (hst : s.completed k more = some s') : s'.Kept := by
  obtain ⟨⟨op, s₁⟩, htake, hst⟩ := of_bind hst
  obtain ⟨hnone, hop, rfl⟩ := take_eq htake
  have hget : ∀ j, ((s.ops.insert k none).get j).join = if j = k then none else s.operation j := by
    intro j
    rw [Slab.get_insert, operation_of_not_taken hnone]
    split <;> rfl
  dsimp only at hst
  split at hst
  · split at hst
    next id buf =>
      cases hst
      -- the operation has only moved
      have hoper : ∀ j, operation { s with ops := s.ops.insert k none, taken := some (k, some (.Send id buf)) } j =
          s.operation j := by
        intro j
        unfold operation
        dsimp only
        split
        next heq =>
          rw [heq, ← hop]
          rfl
        next hne =>
          rw [hget, if_neg hne]
          rfl
      refine kept_of_sub hk rfl (fun j o hj => (hoper j).symm.trans hj) (fun _ _ _ _ => rfl) (fun j q hq => ⟨hq, hoper j⟩) ?_
      intro j back ht
      cases ht
      refine ⟨Slab.get_insert_self _ _ _, ?_⟩
      intro o ho
      cases ho
      exact ⟨id, buf, rfl⟩
    · cases hst
  · cases hst
    refine kept_ended hk hop rfl ?_ rfl rfl ?_
    · intro j
      rw [operation]
      dsimp only
      split
      · rfl
      next hne => rw [hget, if_neg hne]
    · intro j back ht
      cases ht
      exact ⟨Slab.get_insert_self _ _ _, nofun⟩

lemma kept_handled (hk : s.Kept) (hi : InPlace s .handled) (hst : s.handled = some s') : s'.Kept := by
  obtain ⟨t, ht, rfl⟩ := of_map hst
  -- the entry has what the handler had
  have hmoved : ∀ {ops : Slab (Option Operation)}, (∀ j, (ops.get j).join = s.operation j) →
      Kept { s with taken := none, ops } := by
    intro ops hops
    refine kept_of_sub hk rfl (fun j o hj => ?_) (fun _ _ _ _ => rfl) (fun j q hq => ⟨hq, hops j⟩) nofun
    rw [← hops]
    exact hj
  have hother : ∀ j, j ≠ t.1 → (s.ops.get j).join = s.operation j := by
    intro j hne
    rw [operation, ht]
    exact (if_neg hne).symm
  have hself : s.operation t.1 = t.2 := by
    rw [operation, ht]
    exact if_pos rfl
  split
  next k id buf =>
    rw [if_pos (hi k id buf ht)]
    refine hmoved fun j => ?_
    rw [Slab.get_insert]
    split
    next heq =>
      rw [heq]
      exact hself.symm
    next hne => exact hother j hne
  next k back hback =>
    have hgone : back = none := by
      cases back with
      | none => rfl
      | some o =>
        obtain ⟨id, buf, rfl⟩ := (hk.slot k _ ht).2 o rfl
        exact (hback id buf rfl).elim
    refine hmoved fun j => ?_
    rw [Slab.get_remove]
    split
    next heq =>
      rw [heq, show s.operation k = back from hself, hgone]
      rfl
    next hne => exact hother j hne

lemma kept_canceled (hk : s.Kept) (hst : s.canceled k = some s') : s'.Kept := by
  obtain ⟨⟨op, s₁⟩, htake, rfl⟩ := of_map hst
  obtain ⟨hnone, hop, rfl⟩ := take_eq htake
  refine kept_ended hk hop rfl ?_ rfl rfl ?_
  · intro j
    rw [operation]
    rw [hnone]
    dsimp only
    rw [Slab.get_remove, Slab.get_insert, operation_of_not_taken hnone]
    split <;> rfl
  · intro j back ht
    rw [hnone] at ht
    cases ht

/-! ## The rest of the program -/

lemma Same.content {r : Ref} (hs : Same h h' r) (hl : Live h r) : r.content h' = r.content h := by
  obtain ⟨b, hb, -, -⟩ := hl
  obtain ⟨b', hb', -, -, hread, -⟩ := hs b hb
  rw [Ref.content_eq hb, Ref.content_eq hb', hread]

lemma Same.live {r : Ref} (hs : Same h h' r) (hl : Live h r) : Live h' r := by
  obtain ⟨b, hb, -, -⟩ := hl
  obtain ⟨b', hb', hwf, hwithin, -⟩ := hs b hb
  exact ⟨b', hb', hwf, hwithin⟩

lemma page_same {p : BytePage} (hs : ∀ r ∈ p.refs, Same h h' r) (hl : ∀ r ∈ p.refs, Live h r) :
    p.content h' = p.content h ∧ ∀ place : Place, p.as_ptr h' place = p.as_ptr h place := by
  refine ⟨BytePage.content_congr fun r hr => (hs r hr).content (hl r hr), fun place => ?_⟩
  cases p with
  | bytes st => cases st <;> rfl
  | storage v =>
    obtain ⟨b, hb, -, -⟩ := hl (.page v) (Multiset.mem_singleton_self _)
    obtain ⟨b', hb', -, -, -, hoff, -⟩ := hs (.page v) (Multiset.mem_singleton_self _) b hb
    rw [BytePage.as_ptr, BytePage.as_ptr, show h.vecs v = some b from hb, show h'.vecs v = some b' from hb']
    exact congrArg _ hoff
  | vec data => rfl

lemma iovecs_same {a : Nat} {l : List BytePage} (hs : ∀ r ∈ pagesRefs l, Same h h' r) (hl : ∀ r ∈ pagesRefs l, Live h r) :
    iovecs h' a l = iovecs h a l ∧ l.map (BytePage.content h') = l.map (BytePage.content h) := by
  have hpage : ∀ p ∈ l, p.content h' = p.content h ∧ ∀ place : Place, p.as_ptr h' place = p.as_ptr h place := by
    intro p hp
    exact page_same (fun r hr => hs r (BytePages.mem_pagesRefs hp hr)) fun r hr => hl r (BytePages.mem_pagesRefs hp hr)
  constructor
  · refine ext_getElem? fun i => ?_
    rw [iovecs, iovecs, getElem?_mapIdx, getElem?_mapIdx]
    cases hi : l[i]? with
    | none => rfl
    | some p =>
      obtain ⟨hc, hptr⟩ := hpage p (mem_of_getElem? hi)
      rw [map_some, map_some, hc, hptr]
  · exact map_congr_left fun p hp => (hpage p hp).1

lemma request_same (hs : ∀ r ∈ op.refs vectors, Same h h' r) (hl : ∀ r ∈ op.refs vectors, Live h r) (place : Place) :
    op.request h' vectors place = op.request h vectors place := by
  cases op with
  | Recv id v =>
    obtain ⟨b, hb, -, -⟩ := hl (.own v) (Multiset.mem_singleton_self _)
    obtain ⟨b', hb', -, -, -, hoff, hlen, hroom⟩ := hs (.own v) (Multiset.mem_singleton_self _) b hb
    rw [Operation.request, Operation.request, show h.vecs v = some b from hb, show h'.vecs v = some b' from hb',
      map_some, map_some, hoff, hlen, hroom]
  | Send id buf =>
    obtain ⟨hc, hptr⟩ := page_same hs hl
    rw [Operation.request, Operation.request, hc, hptr]
  | Writev id a =>
    rw [Operation.request, Operation.request]
    cases hx : vectors.get a with
    | none => rfl
    | some x =>
      rw [Operation.refs, hx] at hs hl
      rw [map_some, map_some, (iovecs_same (a := a) hs hl).2]
  | Other => rfl

lemma kept_memory (hk : s.Kept) (hs : ∀ k, ∀ r ∈ s.handles k, Same s.heap h r) : Kept { s with heap := h } := by
  refine ⟨?_, ?_, hk.sole, hk.elsewhere, fun k r hr => (hs k r hr).live (hk.live k r hr), ?_, hk.slot⟩
  · intro k q hq
    obtain ⟨op, hop, hr⟩ := hk.same k q hq
    have hhandles := handles_eq hop
    refine ⟨op, hop, ?_⟩
    rw [request_same (h := s.heap) (hhandles ▸ hs k) (hhandles ▸ hk.live k)]
    exact hr
  · intro k id a (hop : s.operation k = some (.Writev id a))
    obtain ⟨x, hx, hmade⟩ := hk.made k id a hop
    have hhandles : s.handles k = pagesRefs x.pages := by
      rw [handles_eq hop, Operation.refs, hx]
      rfl
    exact ⟨x, hx, hmade.trans (iovecs_same (hhandles ▸ hs k) (hhandles ▸ hk.live k)).1.symm⟩
  · intro j k hne v b' hv hb' r hr hptr
    obtain ⟨b, hb, -, -⟩ := hk.live j _ hv
    obtain ⟨b₁, hb₁, -, -, -, hoff, -⟩ := hs j _ hv b hb
    cases hb'.symm.trans hb₁
    have hbefore := hk.clear j k hne v b hv hb r hr hptr
    cases r with
    | own | page => exact hbefore
    | win w off len =>
      rw [Ref.Before, hoff]
      exact hbefore

lemma kept_step (hk : s.Kept) (hfair : Fair s i) (hi : InPlace s i) (hst : s.step i = some s') : s'.Kept := by
  -- an operation without buffers
  have hother : ∀ {s₁ : Driver} {key : Nat}, s₁.Kept → s₁.submit key .Other = some s' → s'.Kept := by
    intro s₁ key hk hst
    refine kept_submit hk ?_ ?_ ?_ ?_ hst
    · exact s₁.lent_zero
    all_goals nofun
  cases i with
  | register id key =>
    obtain ⟨-, hst⟩ := ite_none_left_eq_some.1 hst
    have hk' : Kept { s with streams := s.streams.insert id () } := { hk with }
    exact hother hk' hst
  | remove id =>
    obtain ⟨-, rfl⟩ := Lib.of_ite_not hst
    exact { hk with }
  | recv id v key =>
    refine kept_submit hk ?_ ?_ ?_ ?_ hst
    · exact hfair
    all_goals nofun
  | send id pages a key => exact kept_send hk hfair hi hst
  | add_operation key => exact hother hk hst
  | completed k more => exact kept_completed hk hst
  | handled => exact kept_handled hk hi hst
  | canceled k => exact kept_canceled hk hst
  | memory heap =>
    cases hst
    exact kept_memory hk hfair

lemma kept_new (h : Heap) : (new h).Kept := by
  have hnone : ∀ k op, (new h).operation k = some op → op = .Other := by
    intro k op hop
    rw [operation_of_not_taken rfl, new, Slab.get_insert] at hop
    split at hop
    · exact (some.inj hop).symm
    · cases hop
  have hhandles : ∀ k r, r ∉ (new h).handles k := by
    intro k r hr
    obtain ⟨op, hop, hr⟩ := mem_handles hr
    rw [hnone k op hop] at hr
    exact notMem_zero r hr
  refine ⟨nofun, ?_, ?_, ?_, fun k r hr => absurd hr (hhandles k r), fun j k _ v b hv => absurd hv (hhandles j _), nofun⟩
  · intro k id a hop
    cases hnone k _ hop
  · intro j k id id' a hop
    cases hnone j _ hop
  · intro k id buf hop
    cases hnone k _ hop

/-! ## Requests -/

lemma Kept.load_send {id : Nat} {buf : BytePage} (hk : s.Kept) (hop : s.operation k = some (.Send id buf)) (place : Place) :
    s.load (buf.as_ptr s.heap place, (buf.content s.heap).length) = some (buf.content s.heap) := by
  have hlive := hk.live k
  rw [handles_eq hop] at hlive
  exact BytePage.load_of_not_inline hlive (hk.elsewhere k id buf hop) place s.values

lemma Kept.load_iovecs {id a : Nat} {x : Vectors} (hk : s.Kept) (hop : s.operation k = some (.Writev id a))
    (hx : s.vectors.get a = some x) :
    (iovecs s.heap a x.pages).map s.load = (x.pages.map (BytePage.content s.heap)).map some := by
  have hlive : ∀ r ∈ pagesRefs x.pages, Live s.heap r := by
    have hlive := hk.live k
    rw [handles_eq hop, Operation.refs, hx] at hlive
    exact hlive
  refine ext_getElem? fun i => ?_
  rw [iovecs, getElem?_map, getElem?_mapIdx, getElem?_map, getElem?_map]
  cases hi : x.pages[i]? with
  | none => rfl
  | some p =>
    have hvalue : s.values (.pages a i) = some p := by
      rw [values, hx]
      exact hi
    have hpage : p.Live s.heap := fun r hr => hlive r (BytePages.mem_pagesRefs (mem_of_getElem? hi) hr)
    exact congrArg some (BytePage.load_as_ptr hpage hvalue)

lemma Kept.holds {q : Request} (hk : s.Kept) (hq : s.requests.get k = some q) : s.Holds k q := by
  obtain ⟨op, hop, hr⟩ := hk.same k q hq
  cases op with
  | Recv id v =>
    obtain ⟨b, hb, rfl⟩ := of_map hr
    have hown : .own v ∈ s.handles k := by
      rw [handles_eq hop]
      exact Multiset.mem_singleton_self _
    obtain ⟨b', hb', hwf, -⟩ := hk.live k _ hown
    cases hb.symm.trans hb'
    refine ⟨id, b, hop, hb, rfl, rfl, ?_, fun j hne => hk.clear k j hne.symm v b hown hb⟩
    have := hwf.window
    have := hwf.room
    omega
  | Send id buf =>
    cases hr
    exact ⟨id, buf, hop, rfl, hk.load_send hop _⟩
  | Writev id a =>
    obtain ⟨x, hx, rfl⟩ := of_map hr
    obtain ⟨x', hx', hmade⟩ := hk.made k id a hop
    cases hx.symm.trans hx'
    refine ⟨id, x, hop, fun j id' hj => hk.sole j k id' id a hj hop, hx, hmade, ?_⟩
    rw [hmade]
    exact hk.load_iovecs hop hx
  | Other => cases hr

/-- If no inline page is sent alone and streams are there when `more` is reported, the memory of every request stays what
it was when the request was queued. -/
theorem requests_hold (hr : Reach step (fun s i => Fair s i ∧ InPlace s i) (new h) s) {q : Request}
    (hq : s.requests.get k = some q) : s.Holds k q := by
  have hk : s.Kept := hr.inv Kept (kept_new h) fun _ _ _ hk hok hst => kept_step hk hok.1 hok.2 hst
  exact hk.holds hq

/-- Two pages, one of them inline, go out together; the slab grows while they are sent. -/
theorem requests_hold_grown : ∃ s : Driver, s.gen = 1 ∧ s.Holds 2 (.writev 0 [[1, 2], [3]]) := by
  have hinit : Reach step (fun s i => Fair s i ∧ InPlace s i) (new .empty) (new .empty) := .refl
  have hregister := hinit.step (i := Step.register 0 1) ⟨trivial, trivial⟩ rfl
  have hsend := hregister.step (i := Step.send 0 [.bytes (.static [1, 2]), .bytes (.inline [3] (by decide))] 0 2)
    ⟨lent_zero _, trivial⟩ rfl
  have hthree := hsend.step (i := Step.add_operation 3) ⟨trivial, trivial⟩ rfl
  have hfour := hthree.step (i := Step.add_operation 4) ⟨trivial, trivial⟩ rfl
  exact ⟨_, rfl, requests_hold hfour rfl⟩

/-- An inline page is sent alone and the slab grows. A page is sent without copying it, its stream is removed, and `more`
drops the page with the request outstanding. -/
theorem requests_dangle :
    (∃ s : Driver, ∃ addr : Addr Place, Reach step Fair (new .empty) s ∧ s.requests.get 2 = some (.send addr [1, 2]) ∧
      s.load (addr, 2) = none ∧ ¬s.Holds 2 (.send addr [1, 2])) ∧
    ∃ s : Driver, ∃ q : Request, Reach step Fair (new .empty) s ∧ s.requests.get 2 = some q ∧ s.operation 2 = none ∧
      ¬s.Holds 2 q := by
  have hinit : Reach step Fair (new .empty) (new .empty) := .refl
  have hregister := hinit.step (i := Step.register 0 1) trivial rfl
  constructor
  · have hsend := hregister.step (i := Step.send 0 [.bytes (.inline [1, 2] (by decide))] 0 2) (lent_zero _) rfl
    have hthree := hsend.step (i := Step.add_operation 3) trivial rfl
    have hfour := hthree.step (i := Step.add_operation 4) trivial rfl
    refine ⟨_, _, hfour, rfl, rfl, ?_⟩
    rintro ⟨id, buf, -, -, hload⟩
    cases hload
  · have hsend := hregister.step (i := Step.send 0 [.bytes (.static [1, 2])] 0 2) (lent_zero _) rfl
    have hremove := hsend.step (i := Step.remove 0) trivial rfl
    have hmore := hremove.step (i := Step.completed 2 true) trivial rfl
    have hdrop := hmore.step (i := Step.handled) trivial rfl
    refine ⟨_, _, hdrop, rfl, rfl, ?_⟩
    rintro ⟨id, buf, hop, -⟩
    cases hop

end Driver

end Geario.Uring.Memory
