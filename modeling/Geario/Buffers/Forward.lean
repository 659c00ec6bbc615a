import Geario.Buffers.Programs
import Geario.Buffers.Integers
/-!
# Writing through a reference

`&mut T` and `Box<T>` pass on `remaining_mut`, `chunk_mut` and `advance_mut`. All
that writes is then the trait's own: the loop of `put`, which `put_slice` has with
one chunk, after an assertion that there is room. `put_u8` and the integers are
`put_slice` of their bytes. The types' own methods make room instead.
-/
open Lib Outcome

namespace Geario.Buffers

open BytePages

/-- A round copies to the chunk and advances, as `put_chunk` does. -/
def put_loop {τ : Type} (chunk_mut : τ → Mem (τ × Nat)) : Nat → τ → Chunks → Mem τ
  | 0, t, src => if src.flatten = [] then pure t else throw .fuel
  | fuel + 1, t, src =>
    if src.flatten = [] then pure t
    else do
      let (t, v) ← chunk_mut t
      let l ← put_chunk (Chunks.chunk src) v
      put_loop chunk_mut fuel t (src.advance l)

def put {τ : Type} (remaining_mut : τ → Mem Nat) (chunk_mut : τ → Mem (τ × Nat)) (t : τ) (src : Chunks) : Mem τ := do
  if (← remaining_mut t) ≥ src.flatten.length then put_loop chunk_mut src.flatten.length t src else throw .assertion

def BytesMut.remaining_mut (v : Nat) : Mem Nat := do return (← deref v).remaining

/-- The queue, and the buffer whose free space is the chunk. -/
def BytePages.chunk (b : BytePages) : Mem (BytePages × Nat) := do
  let (b, v) ← b.open_current
  return ({ b with current := some v }, v)

namespace Obj

def put (src : Chunks) : Obj → Mem Obj
  | buf v => do return buf (← Buffers.put BytesMut.remaining_mut (fun v => pure (v, v)) v src)
  | pages b => do return pages (← Buffers.put remaining_mut BytePages.chunk b src)
  | o => pure o

/-- The implementors of `BufMut`: `BytesMut` and `BytePages`. -/
def Writer : Obj → Prop
  | buf _ | pages _ => True
  | _ => False

def room (h : Heap) : Obj → Nat
  | buf v => h.room v
  | pages b => b.current.elim 0 h.room
  | _ => 0

def written (h : Heap) : Obj → List UInt8
  | buf v => Ref.content h (.own v)
  | pages b => b.content h
  | _ => []

/-- The bytes are appended, and the call does not panic. -/
def Appends (h : Heap) (src : Chunks) (o : Obj) : Prop :=
  Outcome (o.put src) h (fun _ => False) fun o' h' => o'.written h' = o.written h ++ src.flatten

end Obj

section

variable {h : Heap} {v : Nat} {F : Multiset Ref} {E : Panic → Prop} {src : List UInt8} {τ : Type}

lemma put_chunk_room (hs : Safe h ({.own v} + F)) : Outcome (put_chunk src v) h E fun a h' => h'.room v + a = h.room v := by
  obtain ⟨s, hv, hwf⟩ := hs.live_own
  simp only [put_chunk, outcome_bind]
  rw [outcome_deref hv, outcome_update hv, Heap.room_eq hv]
  refine (SharedVec.put_slice_spec hwf (by rw [List.length_take]; omega)).mono ?_
  rintro _ s' ⟨_, _, hrem⟩
  rw [List.length_take] at hrem
  rw [outcome_pure, Heap.room_eq Heap.vecs_put_self]
  omega

variable {chunk_mut : τ → Mem (τ × Nat)}

/-- With room for all of it, every round takes a whole chunk. -/
lemma put_loop_spec {t : τ} {fuel : Nat} {src : Chunks} (hch : chunk_mut t = pure (t, v))
    (hs : Safe h ({.own v} + F)) (hroom : src.flatten.length ≤ h.room v) (hf : src.flatten.length ≤ fuel) :
    Outcome (put_loop chunk_mut fuel t src) h E fun t' h' =>
      t' = t ∧ Keeps h {.own v} F h' {.own v} ∧ Ref.content h' (.own v) = Ref.content h (.own v) ++ src.flatten := by
  induction fuel generalizing h src with
  | zero =>
    have hnil : src.flatten = [] := List.eq_nil_of_length_eq_zero (by omega)
    rw [put_loop, if_pos hnil, hnil]
    exact ⟨rfl, .refl hs, (List.append_nil _).symm⟩
  | succ fuel ih =>
    rw [put_loop]
    refine ite (fun hnil => outcome_pure.2 ⟨rfl, .refl hs, by rw [hnil, List.append_nil]⟩) fun hne => ?_
    have hpos := List.length_pos_iff.2 (Chunks.chunk_ne_nil hne)
    obtain ⟨rest, hrest⟩ := Chunks.chunk_append src
    have hlen : src.flatten.length = (Chunks.chunk src).length + rest.length := by rw [hrest, List.length_append]
    rw [hch, outcome_bind, outcome_pure]
    refine (Outcome.both (put_chunk_spec hs) (put_chunk_room (E := E) hs)).seq fun a h1 ⟨⟨hk1, hc1, ha⟩, hroom1⟩ => ?_
    obtain rfl : a = (Chunks.chunk src).length := by omega
    have hadv : (src.advance (Chunks.chunk src).length).flatten = rest := by
      rw [Chunks.flatten_advance, hrest, List.drop_left]
    refine (ih hk1.safe (by rw [hadv]; omega) (by rw [hadv]; omega)).mono fun t' h' ⟨ht, hk, hc⟩ => ⟨ht, hk1.trans hk, ?_⟩
    rw [hc, hc1, hadv, List.take_length, List.append_assoc, ← hrest]

lemma outcome_remaining {R : Nat → Heap → Prop} (hs : Safe h ({.own v} + F)) :
    Outcome (BytesMut.remaining_mut v) h E R ↔ R (h.room v) h := by
  obtain ⟨s, hv, -⟩ := hs.live_own
  rw [BytesMut.remaining_mut, outcome_bind, outcome_deref hv, outcome_pure, Heap.room_eq hv]

variable {remaining_mut : τ → Mem Nat} {Q : τ → Heap → Prop}

lemma outcome_put {t : τ} {src : Chunks} {n : Nat}
 (hrem : ∀ R : Nat → Heap → Prop, Outcome (remaining_mut t) h E R ↔ R n h) :
    Outcome (put remaining_mut chunk_mut t src) h E Q ↔
      if src.flatten.length ≤ n then Outcome (put_loop chunk_mut src.flatten.length t src) h E Q else E .assertion := by
  rw [put, outcome_bind, hrem]
  split <;> rfl

lemma put_iff {t : τ} {src : Chunks}
    (hrem : ∀ R, Outcome (remaining_mut t) h (fun _ => False) R ↔ R (h.room v) h) (hch : chunk_mut t = pure (t, v))
    (hs : Safe h ({.own v} + F))
    (hQ : ∀ h', Keeps h {.own v} F h' {.own v} → Ref.content h' (.own v) = Ref.content h (.own v) ++ src.flatten → Q t h') :
    Outcome (put remaining_mut chunk_mut t src) h (fun _ => False) Q ↔ src.flatten.length ≤ h.room v := by
  rw [outcome_put hrem]
  split
  next hge => exact iff_of_true ((put_loop_spec hch hs hge le_rfl).mono fun t' h' ⟨ht, hk, hc⟩ => ht ▸ hQ h' hk hc) hge
  next hlt => exact iff_of_false id hlt

end

namespace World

variable {w : World} {i : Nat} {o : Obj}

/-- In every state, and whatever the bytes: they are appended just when the current buffer has room for all of them. -/
theorem appends_iff (hr : Reach step (fun w op => w.Fits op ∧ w.Calm op) .empty w) (hi : w.objs.get i = some o) (hw : o.Writer)
    (src : Chunks) : o.Appends w.heap src ↔ src.flatten.length ≤ o.room w.heap := by
  obtain ⟨hs, ho⟩ := apart_of_reach hr
  have hs := hs.cast (refsOf_remove hi)
  have ho := ho.cast (refsOf_remove hi)
  simp only [Obj.Appends]
  cases o with
  | buf v =>
    simp only [Obj.put, outcome_bind, outcome_pure]
    exact put_iff (fun _ => outcome_remaining hs) rfl hs fun h' _ hc => hc
  | pages b =>
    simp only [Obj.put, outcome_bind, outcome_pure]
    obtain ⟨size, pages, _ | v⟩ := b
    · rw [outcome_put (n := 0) fun _ => Iff.rfl]
      split
      next hge =>
        have hnil : src.flatten = [] := List.eq_nil_of_length_eq_zero (by omega)
        rw [hnil, List.length_nil, put_loop, if_pos hnil]
        exact iff_of_true (outcome_pure.2 (List.append_nil _).symm) (Nat.zero_le _)
      next hlt => exact iff_of_false id hlt
    · have hsv : Safe w.heap ({.own v} + (pagesRefs pages + refsOf (w.objs.remove i).values)) := hs.right
      have hov : Owned w.heap ({.own v} + (pagesRefs pages + refsOf (w.objs.remove i).values)) :=
        ho.cast (by rw [Obj.refs, BytePages.refs, curRefs_some]; abel)
      refine put_iff (fun _ => outcome_remaining hsv) rfl hsv fun h' hk hc => ?_
      rw [Obj.written, Obj.written, content, content, pagesContent_keeps hk hov mem_left,
        curContent_some, curContent_some, hc, List.append_assoc]
  | bytes | page | lent => exact hw.elim

theorem appends_with_capacity : ∃ w : World, w.view 0 = some (.buf []) ∧ (Obj.buf 0).Appends w.heap [[1], [2, 3]] :=
  ⟨_, rfl, (appends_iff (i := 0) (.step (i := .make 0 (.buf_with_capacity 8)) .refl
    ⟨fits_of_fetch rfl (show METADATA_SIZE + 8 < 2 ^ 32 by decide), calm_of_fetch rfl trivial⟩ rfl) rfl trivial _).2
    (by decide)⟩

/-- One byte for a full buffer, and for a queue without a current page. -/
theorem put_u8_refused : ∃ w : World, Reach step (fun _ _ => True) .empty w ∧
    w.view 0 = some (.buf [7]) ∧ w.view 1 = some (.pages []) ∧
    (Obj.buf 0).put [[1]] w.heap = .error .assertion ∧
    (Obj.pages ⟨.Size4, [], none⟩).put [[1]] w.heap = .error .assertion :=
  ⟨_, .of_steps [.make 0 (.buf_copy [7]), .make 1 (.pages_new .Size4)] rfl, rfl, rfl, rfl, rfl⟩

end World

end Geario.Buffers
