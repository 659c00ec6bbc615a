import Geario.Buffers.Header
/-!
# Handles

Every live handle is a reference to a buffer: the owner of the tail (a
`BytesMut`, or the current page of a `BytePages`), a page that reads through
the header, or a window of its own (`Bytes`).

`Safe h R` is memory safety for the handles `R`: the headers are right, the
reference counts are the numbers of handles, no handle reaches outside its
allocation. `Owned h R` is what keeps the handles apart: an owner shares its
buffer only with windows that end before its own. A call is described by
`Keeps h A F h' A'`: it turned the handles `A` of the acting party into `A'`
and left every other handle, `F`, what it was. Without `Owned` it still leaves
alone what is on buffers it does not own.
-/
open Lib Multiset Function

namespace Geario.Buffers

open Heap

inductive Ref
  | own (v : Nat)
  | page (v : Nat)
  | win (v off len : Nat)
  deriving DecidableEq

namespace Ref

def ptr : Ref → Nat
  | own v | page v | win v _ _ => v

def read (s : SharedVec) : Ref → List UInt8
  | own _ | page _ => s.as_ref
  | win _ off len => slice s.mem off len

/-- The window is inside the allocation. An empty window may point anywhere. -/
def Within (s : SharedVec) : Ref → Prop
  | own _ | page _ => True
  | win _ off len => off + len ≤ s.mem.length ∨ len = 0

/-- The handle ends before the part of the buffer that its owner may write. -/
def Before (s : SharedVec) : Ref → Prop
  | own _ | page _ => False
  | win _ off len => off + len ≤ s.offset ∨ len = 0

def content (h : Heap) (r : Ref) : List UInt8 :=
  match h.vecs r.ptr with
  | some s => r.read s
  | none => []

end Ref

def Heap.room (h : Heap) (v : Nat) : Nat :=
  match h.vecs v with
  | some s => s.remaining
  | none => 0

/-- A buffer that waits in the cache. -/
structure SharedVec.Spare (s : SharedVec) (size : BytePageSize) : Prop where
  ref_count : s.ref_count = 1
  len : s.len = 0
  offset : s.offset = METADATA_SIZE
  length : s.mem.length = METADATA_SIZE + size.capacity
  untagged : s.size = .Unset

/-- The buffers are sound for the handles `R`. -/
structure Safe (h : Heap) (R : Multiset Ref) : Prop where
  fresh : ∀ {v s}, h.vecs v = some s → v < h.next
  wf : ∀ {v s}, h.vecs v = some s → s.Wf
  counted : ∀ {v s}, h.vecs v = some s → s.ref_count = R.countP (·.ptr = v) + h.cached v
  within : ∀ {r}, r ∈ R → ∃ s, h.vecs r.ptr = some s ∧ r.Within s
  cached : ∀ {size v}, v ∈ h.cache size → size ≠ .Unset ∧ ∃ s, h.vecs v = some s ∧ s.Spare size

/-- Owners share their buffers only with windows that end before their own. -/
structure Owned (h : Heap) (R : Multiset Ref) : Prop where
  sole : ∀ v, R.count (.own v) ≤ 1
  before : ∀ {v s r}, .own v ∈ R → h.vecs v = some s → r ∈ R → r.ptr = v → r = .own v ∨ r.Before s

lemma mem_left {A F : Multiset Ref} : ∀ r ∈ A, r ∈ A + F := fun _ hr => mem_add.2 (.inl hr)

/-- From `h` to `h'` the handles `A` became `A'`; the handles `F` are as they were. -/
structure Keeps (h : Heap) (A F : Multiset Ref) (h' : Heap) (A' : Multiset Ref) : Prop where
  safe : Safe h' (A' + F)
  owned : Owned h (A + F) → Owned h' (A' + F)
  frame : Owned h (A + F) → ∀ r ∈ F, r.content h' = r.content h
  room : Owned h (A + F) → ∀ v, .own v ∈ F → h'.room v = h.room v
  others : ∀ r ∈ F, .own r.ptr ∉ A → r.content h' = r.content h ∧ .own r.ptr ∉ A'

/-- The part of `Keeps` that the other handles see. -/
structure Leaves (h : Heap) (A F : Multiset Ref) (h' : Heap) (A' : Multiset Ref) : Prop where
  owned : Owned h (A + F) → Owned h' (A' + F)
  frame : Owned h (A + F) → ∀ r ∈ F, r.content h' = r.content h
  room : Owned h (A + F) → ∀ v, .own v ∈ F → h'.room v = h.room v

variable {w : Nat}

section Content

variable {h : Heap} {v : Nat} {s s' : SharedVec} {r : Ref}

lemma Ref.content_eq (hv : h.vecs r.ptr = some s) : r.content h = r.read s := by rw [Ref.content, hv]

section

variable (hv : h.vecs v = some s)
include hv

lemma Ref.content_own : Ref.content h (.own v) = s.as_ref := Ref.content_eq hv

lemma Ref.content_page : Ref.content h (.page v) = s.as_ref := Ref.content_eq hv

lemma Ref.content_win {off len : Nat} : Ref.content h (.win v off len) = slice s.mem off len :=
  Ref.content_eq hv

lemma Heap.room_eq : h.room v = s.remaining := by rw [room, hv]

end

@[simp] lemma Heap.vecs_put_self : (h.put v s).vecs v = some s := update_self ..

lemma Heap.vecs_put : (h.put v s).vecs w = if w = v then some s else h.vecs w := by
  exact update_apply ..

lemma Heap.vecs_put_ne (hw : w ≠ v) : (h.put v s).vecs w = h.vecs w := update_of_ne hw ..

lemma Heap.put_put : (h.put v s).put v s' = h.put v s' := by
  simp only [put, update_idem]

lemma Heap.put_eq_self (hv : h.vecs v = some s) : h.put v s = h := by
  rw [put, ← hv, update_eq_self]

lemma Ref.content_put_ne (hr : r.ptr ≠ v) : r.content (h.put v s) = r.content h := by
  rw [Ref.content, vecs_put, if_neg hr, Ref.content]

lemma Heap.room_put_ne (hw : w ≠ v) : (h.put v s).room w = h.room w := by
  rw [room, vecs_put, if_neg hw, room]

lemma Ref.content_put (hv : h.vecs v = some s) (hr : r.ptr = v → r.read s' = r.read s) :
    r.content (h.put v s') = r.content h := by
  by_cases hrv : r.ptr = v
  · subst hrv
    rw [Ref.content_eq vecs_put_self, Ref.content_eq hv, hr rfl]
  · exact Ref.content_put_ne hrv

end Content

variable {S B : Multiset Ref}

lemma Safe.cast {h : Heap} {R : Multiset Ref} (hs : Safe h R) (e : R = S) : Safe h S := e ▸ hs

lemma Owned.cast {h : Heap} {R : Multiset Ref} (ho : Owned h R) (e : R = S) : Owned h S := e ▸ ho

namespace Keeps

variable {h h' h'' : Heap} {A A' A'' F C : Multiset Ref}

lemma cast {D : Multiset Ref} (k : Keeps h A F h' A') (e : A = B) (e' : A' = D) : Keeps h B F h' D := e ▸ e' ▸ k

lemma refl (hs : Safe h (A + F)) : Keeps h A F h A :=
  ⟨hs, id, fun _ _ _ => rfl, fun _ _ _ => rfl, fun _ _ hn => ⟨rfl, hn⟩⟩

lemma trans (k : Keeps h A F h' A') (k' : Keeps h' A' F h'' A'') : Keeps h A F h'' A'' where
  safe := k'.safe
  owned := fun ho => k'.owned (k.owned ho)
  frame := fun ho r hr => (k'.frame (k.owned ho) r hr).trans (k.frame ho r hr)
  room := fun ho v hv => (k'.room (k.owned ho) v hv).trans (k.room ho v hv)
  others := fun r hr hn =>
    have ⟨e, hn⟩ := k.others r hr hn
    have ⟨e', hn⟩ := k'.others r hr hn
    ⟨e'.trans e, hn⟩

lemma leaves (k : Keeps h A F h' A') : Leaves h A F h' A' := { k with }

lemma widen (k : Keeps h A (C + F) h' A') : Keeps h (A + C) F h' (A' + C) where
  safe := by rw [add_assoc]; exact k.safe
  owned := by rw [add_assoc, add_assoc]; exact k.owned
  frame := by rw [add_assoc]; exact fun ho r hr => k.frame ho r (mem_add.2 (.inr hr))
  room := by rw [add_assoc]; exact fun ho v hv => k.room ho v (mem_add.2 (.inr hv))
  others := fun r hr hn => by
    rw [mem_add, not_or] at hn ⊢
    obtain ⟨e, hn'⟩ := k.others r (mem_add.2 (.inr hr)) hn.1
    exact ⟨e, hn', hn.2⟩

lemma widen_left (k : Keeps h A (C + F) h' A') : Keeps h (C + A) F h' (C + A') := by
  rw [add_comm C A, add_comm C A']
  exact k.widen

lemma exchange (k : Keeps h 0 (A + F) h' B) (k' : Keeps h' A (B + F) h'' 0) : Keeps h A F h'' B := by
  have hk := k.widen.trans k'.widen_left
  rwa [zero_add, add_zero] at hk

lemma owned_exchange (k : Keeps h 0 (A + F) h' B) (ho : Owned h (A + F)) : Owned h' (A + (B + F)) := by
  rw [add_left_comm]
  exact k.owned (by rwa [zero_add])

end Keeps

/-! ## What safety gives to a handle -/

variable {A' : Multiset Ref}

namespace Safe

variable {h : Heap} {R A F : Multiset Ref} {r a : Ref} {s : SharedVec} {v : Nat} {C : Multiset Ref}

lemma live (hs : Safe h R) (hr : r ∈ R) : ∃ s, h.vecs r.ptr = some s ∧ s.Wf ∧ r.Within s := by
  obtain ⟨s, hv, hw⟩ := hs.within hr
  exact ⟨s, hv, hs.wf hv, hw⟩

lemma left (hs : Safe h (A + C + F)) : Safe h (A + (C + F)) := by rwa [← add_assoc]

lemma right (hs : Safe h (C + A + F)) : Safe h (A + (C + F)) := by rwa [add_left_comm, ← add_assoc]

lemma swap (hs : Safe h (A + (C + F))) : Safe h (C + (A + F)) := by rwa [add_left_comm]

lemma live_own (hs : Safe h ({.own v} + F)) : ∃ s, h.vecs v = some s ∧ s.Wf := by
  obtain ⟨s, hv, hwf, -⟩ := hs.live (r := .own v) (by simp)
  exact ⟨s, hv, hwf⟩

lemma live_win {off len : Nat} (hs : Safe h ({.win v off len} + F)) :
    ∃ s, h.vecs v = some s ∧ s.Wf ∧ (off + len ≤ s.mem.length ∨ len = 0) :=
  hs.live (r := .win v off len) (by simp)

lemma countP_pos (hr : r ∈ R) : 0 < R.countP (·.ptr = r.ptr) := Multiset.countP_pos.2 ⟨r, hr, rfl⟩

lemma cached_pos {size : BytePageSize} (hv : v ∈ h.cache size) (hu : size ≠ .Unset) : 0 < h.cached v := by
  have hmem : size ∈ BytePageSize.slots := by cases size <;> first | decide | exact absurd rfl hu
  exact List.sum_pos_iff_exists_pos_nat.2 ⟨_, List.mem_map.2 ⟨size, hmem, rfl⟩, List.count_pos_iff.2 hv⟩

lemma not_cached (hs : Safe h R) (hr : r ∈ R) (size : BytePageSize) : r.ptr ∉ h.cache size := by
  intro hc
  obtain ⟨hu, s, hv, hsp⟩ := hs.cached hc
  have := hs.counted hv
  have := hsp.ref_count
  have := cached_pos hc hu
  have := countP_pos hr
  omega

lemma unique (hs : Safe h ({a} + F)) (hv : h.vecs a.ptr = some s) (h1 : s.ref_count = 1) : ∀ r ∈ F, r.ptr ≠ a.ptr := by
  intro r hr hp
  have hc := hs.counted hv
  rw [countP_add, h1] at hc
  have ha : 0 < ({a} : Multiset Ref).countP (·.ptr = a.ptr) := countP_pos (by simp)
  have hf : 0 < F.countP (·.ptr = a.ptr) := hp ▸ countP_pos hr
  omega

lemma countP_self (hA : ∀ r ∈ A, r.ptr = v) : A.countP (·.ptr = v) = A.card := countP_eq_card.2 hA

lemma countP_other (hA : ∀ r ∈ A, r.ptr = v) (hw : w ≠ v) : A.countP (·.ptr = w) = 0 :=
  countP_eq_zero.2 fun r hr hp => hw (hp.symm.trans (hA r hr))

lemma change {h' : Heap} (hs : Safe h (A + F)) (hA : ∀ r ∈ A, r.ptr = v) (hA' : ∀ r ∈ A', r.ptr = v)
    (hnext : h.next ≤ h'.next) (hother : ∀ w, w ≠ v → h'.vecs w = h.vecs w ∧ h'.cached w = h.cached w)
    (hself : ∀ s, h'.vecs v = some s → v < h'.next ∧ s.Wf ∧ s.ref_count = A'.card + F.countP (·.ptr = v) + h'.cached v)
    (hin : ∀ r ∈ A' + F, r.ptr = v → ∃ s, h'.vecs v = some s ∧ r.Within s) (hcache : ∀ size w, w ∈ h'.cache size →
      if w = v then size ≠ .Unset ∧ ∃ s, h'.vecs v = some s ∧ s.Spare size else w ∈ h.cache size) : Safe h' (A' + F) := by
  refine ⟨fun {w t} hw => ?_, fun {w t} hw => ?_, fun {w t} hw => ?_, fun {r} hr => ?_, fun {size w} hw => ?_⟩
  · by_cases hwv : w = v
    · exact hwv ▸ (hself t (hwv ▸ hw)).1
    · exact (hs.fresh ((hother w hwv).1 ▸ hw)).trans_le hnext
  · by_cases hwv : w = v
    · exact (hself t (hwv ▸ hw)).2.1
    · exact hs.wf ((hother w hwv).1 ▸ hw)
  · rw [countP_add]
    by_cases hwv : w = v
    · subst hwv
      rw [countP_self hA']
      exact (hself t hw).2.2
    · have hold := hs.counted ((hother w hwv).1 ▸ hw)
      rw [countP_add, countP_other hA hwv] at hold
      rw [countP_other hA' hwv, (hother w hwv).2]
      exact hold
  · by_cases hp : r.ptr = v
    · exact hp ▸ hin r hr hp
    · rw [(hother _ hp).1]
      exact hs.within (mem_add.2 (.inr ((mem_add.1 hr).resolve_left fun hr => hp (hA' r hr))))
  · have hc := hcache size w hw
    split at hc
    next hwv => exact hwv ▸ hc
    next hwv =>
      rw [(hother w hwv).1]
      exact hs.cached hc

section

variable (hs : Safe h (A + F)) (hv : h.vecs v = some s) (hne : A ≠ 0) (hA : ∀ r ∈ A, r.ptr = v)
include hs hv hne hA

lemma put {s' : SharedVec} (hA' : ∀ r ∈ A', r.ptr = v ∧ r.Within s') (hwf : s'.Wf)
    (hlen : s'.mem.length = s.mem.length) (hrc : s'.ref_count + A.card = s.ref_count + A'.card) :
    Safe (h.put v s') (A' + F) := by
  obtain ⟨a, ha⟩ := exists_mem_of_ne_zero hne
  have hnc : ∀ size, v ∉ h.cache size := fun size => hA a ha ▸ hs.not_cached (mem_add.2 (.inl ha)) size
  refine hs.change hA (fun r hr => (hA' r hr).1) le_rfl (fun w hw => ⟨vecs_put_ne hw, rfl⟩) (fun t ht => ?_)
    (fun r hr hp => ⟨s', vecs_put_self, ?_⟩) fun size w hw => ?_
  · cases vecs_put_self.symm.trans ht
    refine ⟨hs.fresh hv, hwf, ?_⟩
    have hold := hs.counted hv
    rw [countP_add, countP_self hA] at hold
    change _ = _ + h.cached v
    omega
  · rcases mem_add.1 hr with hr | hr
    · exact (hA' r hr).2
    · obtain ⟨t, ht, hw⟩ := hs.within (mem_add.2 (.inr hr))
      rw [hp, hv] at ht
      cases ht
      cases r with
      | win w off len => exact hw.imp_left (hlen ▸ ·)
      | _ => trivial
  · rw [if_neg]
    · exact hw
    · rintro rfl; exact hnc size hw

lemma convert (hA' : ∀ r ∈ A', r.ptr = v ∧ r.Within s) (hc : A.card = A'.card) : Safe h (A' + F) := by
  have := hs.put hv hne hA hA' (hs.wf hv) rfl (by rw [hc])
  rwa [put_eq_self hv] at this

end

end Safe

namespace Owned

variable {h : Heap} {R A F : Multiset Ref} {r : Ref} {s s' : SharedVec} {v : Nat}

lemma not_mem (ho : Owned h ({.own v} + F)) : .own v ∉ F := by
  intro hm
  have h1 := ho.sole v
  have h2 := count_pos.2 hm
  rw [count_add, count_singleton_self] at h1
  omega

lemma frame_before (ho : Owned h ({.own v} + F)) (hv : h.vecs v = some s) (hr : r ∈ F) (hp : r.ptr = v) : r.Before s := by
  rcases ho.before (mem_add.2 (.inl (mem_singleton_self _))) hv (mem_add.2 (.inr hr)) hp with
    h | h
  · exact absurd (h ▸ hr) ho.not_mem
  · exact h

lemma replace (ho : Owned h (A + F)) (hA : ∀ r ∈ A', ∀ v, r ≠ .own v)
    (hb : ∀ r ∈ A', .own r.ptr ∈ F → ∀ s, h.vecs r.ptr = some s → r.Before s) : Owned h (A' + F) := by
  have hF : ∀ {v}, .own v ∈ A' + F → .own v ∈ F := fun {v} hm =>
    (mem_add.1 hm).resolve_left fun hm => hA _ hm v rfl
  refine ⟨fun v => ?_, fun {v s r} hm hv hr hp => ?_⟩
  · have := ho.sole v
    rw [count_add] at this ⊢
    rw [count_eq_zero.2 fun hm => hA _ hm v rfl]
    omega
  · rcases mem_add.1 hr with hr | hr
    · exact .inr (hb r hr (hp ▸ hF hm) s (hp ▸ hv))
    · exact ho.before (mem_add.2 (.inr (hF hm))) hv (mem_add.2 (.inr hr)) hp

lemma adopt (ho : Owned h ({.page v} + F)) (hv : h.vecs v = some s) (hF : ∀ r ∈ F, r.ptr = v → r.Before s) :
    Owned h ({.own v} + F) := by
  refine ⟨fun w => ?_, fun {w t r} hm hw hr hp => ?_⟩
  · have := ho.sole w
    rw [count_add] at this ⊢
    rw [count_singleton]
    split
    next hwv =>
      cases hwv
      rw [count_eq_zero.2 fun hm => hF (.own v) hm rfl]
    · omega
  · by_cases hwv : w = v
    · subst hwv
      cases hv.symm.trans hw
      rcases mem_add.1 hr with hr | hr
      · exact .inl (mem_singleton.1 hr)
      · exact .inr (hF r hr hp)
    · have hold : ∀ y : Ref, y ∈ {.own v} + F → y.ptr = w → y ∈ F := fun y hy hyp =>
        (mem_add.1 hy).resolve_left fun hy => by
          obtain rfl := mem_singleton.1 hy
          exact hwv hyp.symm
      exact ho.before (mem_add.2 (.inr (hold _ hm rfl))) hw (mem_add.2 (.inr (hold r hr hp))) hp

lemma congr {h' : Heap} (ho : Owned h R)
    (hh : ∀ v s', .own v ∈ R → h'.vecs v = some s' → ∃ s, h.vecs v = some s ∧ s'.offset = s.offset) : Owned h' R := by
  refine ⟨ho.sole, fun {v s' r} hm hv hr hp => ?_⟩
  obtain ⟨s, hs, hoff⟩ := hh v s' hm hv
  refine (ho.before hm hs hr hp).imp_right fun hb => ?_
  cases r with
  | win w off len => exact hb.imp_left (hoff ▸ ·)
  | _ => exact hb

end Owned

/-! ## Running a call on the heap -/

section Programs

variable {h : Heap} {v : Nat} {s : SharedVec} {E : Panic → Prop} {α : Type}

lemma outcome_deref {Q : SharedVec → Heap → Prop} (hv : h.vecs v = some s) : Outcome (deref v) h E Q ↔ Q s h := by
  rw [Outcome, deref, hv]

lemma outcome_update {m : SharedVec.Upd α} {Q : α → Heap → Prop} (hv : h.vecs v = some s) :
    Outcome (update v m) h E Q ↔ Outcome m s E fun a s' => Q a (h.put v s') := by
  unfold Outcome update
  rw [hv]
  dsimp only
  cases m s <;> rfl

end Programs

end Geario.Buffers
