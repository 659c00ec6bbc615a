import Geario.Buffers.Rules
/-!
# `Bytes`

A `Bytes` is a `Storage` of one of four kinds: up to 23 bytes inside the handle
itself, a window of a shared buffer, a static slice, or memory behind a vtable
supplied by the user (`StorageExt`). Of the last the model keeps the bytes and
whether its `clone` shares or declines; the vtable is taken to answer the same
as long as the handle lives.

The methods are followed by their rules: what becomes of the handle, of the
piece it returns, and that nobody else is touched.
-/
open Lib

namespace Geario.Buffers

inductive Storage
  | inline (data : List UInt8) (fits : data.length ≤ INLINE_CAP)
  | vec (v offset len : Nat)
  | static (data : List UInt8)
  | stext (data : List UInt8) (shares : Bool)
  deriving DecidableEq

namespace Storage

def len : Storage → Nat
  | inline data _ | static data | stext data _ => data.length
  | vec _ _ len => len

def empty : Storage := inline [] (Nat.zero_le _)

def from_static (data : List UInt8) : Storage := static data

def from_stext (data : List UInt8) (shares : Bool) : Storage := stext data shares

def from_ptr_inline (data : List UInt8) : Mem Storage :=
  if h : data.length ≤ INLINE_CAP then pure (inline data h) else throw .assertion

def from_slice_with_capacity (cap : Nat) (src : List UInt8) : Mem Storage := do
  let v ← SharedVec.create .Unset cap src
  return vec v METADATA_SIZE src.length

def from_slice (src : List UInt8) : Mem Storage :=
  if src.length ≤ INLINE_CAP then from_ptr_inline src else from_slice_with_capacity src.length src

def as_ref : Storage → Mem (List UInt8)
  | inline data _ | static data | stext data _ => pure data
  | vec v offset len => do
    let s ← deref v
    if offset + len ≤ s.mem.length ∨ len = 0 then return slice s.mem offset len else throw .memory

def capacity : Storage → Mem Nat
  | inline _ _ => pure INLINE_CAP
  | static data | stext data _ => pure data.length
  | vec v _ _ => do
    let s ← deref v
    return s.capacity

def drop : Storage → Mem Unit
  | vec v _ _ => release_shared_vec v
  | _ => pure ()

def shallow_clone (st : Storage) : Mem Storage :=
  match st with
  | inline _ _ | static _ => pure st
  | vec v _ _ => do
    update v SharedVec.retain
    return st
  | stext data shares => if shares then pure st else from_slice data

/-- The sum of the two `usize` is not bounded here. -/
def set_start (st : Storage) (start : Nat) : Mem Storage :=
  if start = 0 then pure st
  else match st with
    | vec v offset len => pure (vec v (offset + start) (if len ≥ start then len - start else 0))
    | inline data _ => if start ≤ INLINE_CAP then from_ptr_inline (data.drop start) else throw .assertion
    | stext data _ => if start ≤ data.length then from_slice (data.drop start) else throw .assertion
    | static data => if start ≤ data.length then pure (static (data.drop start)) else throw .assertion

def set_end (st : Storage) (stop : Nat) : Mem Storage :=
  match st with
  | vec v offset len => pure (vec v offset (min len stop))
  | inline data _ => if stop ≤ INLINE_CAP then from_ptr_inline (data.take stop) else throw .assertion
  | stext data _ => from_slice (data.take stop)
  | static data => if stop ≤ data.length then pure (static (data.take stop)) else throw .assertion

def set_len (st : Storage) (len : Nat) : Mem Storage :=
  match st with
  | vec v offset _ => do
    let s ← deref v
    if len ≤ s.capacity then return vec v offset len else throw .assertion
  | stext data _ =>
    if len = data.length then pure st
    else if len ≤ data.length then from_slice (data.take len) else throw .assertion
  | inline data _ => from_ptr_inline (data.take len)
  | static data => if len ≤ data.length then pure (static (data.take len)) else throw .assertion

def get_u8 (st : Storage) : Mem (UInt8 × Storage) := do
  match ← st.as_ref with
  | b :: _ => return (b, ← st.set_start 1)
  | [] => throw .assertion

def replace_inline (st : Storage) (data : List UInt8) : Mem Storage := do
  let st' ← from_ptr_inline data
  st.drop
  return st'

def split_off_other (st : Storage) (data : List UInt8) (at_ : Nat) (create_inline : Bool) : Mem Storage :=
  if create_inline ∧ st.len - at_ ≤ INLINE_CAP then from_ptr_inline (data.drop at_)
  else do
    let other ← st.shallow_clone
    other.set_start at_

def split_off_self (st : Storage) (data : List UInt8) (at_ : Nat) (create_inline : Bool) : Mem Storage :=
  if create_inline ∧ at_ ≤ INLINE_CAP then st.replace_inline (data.take at_) else st.set_end at_

def split_off (st : Storage) (at_ : Nat) (create_inline : Bool) : Mem (Storage × Storage) := do
  let data ← st.as_ref
  let other ← st.split_off_other data at_ create_inline
  let st' ← st.split_off_self data at_ create_inline
  return (st', other)

def split_to_other (st : Storage) (data : List UInt8) (at_ : Nat) : Mem Storage :=
  if at_ ≤ INLINE_CAP then from_ptr_inline (data.take at_)
  else do
    let other ← st.shallow_clone
    other.set_end at_

def split_to (st : Storage) (at_ : Nat) : Mem (Storage × Storage) := do
  let data ← st.as_ref
  let other ← st.split_to_other data at_
  let st' ← st.set_start at_
  return (st', other)

def truncate (st : Storage) (len : Nat) : Mem Storage := do
  if len ≤ st.len then
    if len < INLINE_CAP then
      let data ← st.as_ref
      st.replace_inline (data.take len)
    else st.set_len len
  else return st

def trimdown (st : Storage) : Mem Storage :=
  match st with
  | inline _ _ | static _ => pure st
  | _ => do
    let data ← st.as_ref
    if st.len ≤ INLINE_CAP then st.replace_inline data
    else
      let unused ← sub_checked (← st.capacity) st.len
      if unused ≥ 64 then
        let st' ← from_slice_with_capacity st.len data
        st.drop
        return st'
      else return st

end Storage

namespace Bytes

def slice (st : Storage) (first last : Nat) : Mem Storage :=
  if first ≤ last ∧ last ≤ st.len then
    if last - first ≤ INLINE_CAP then do
      let data ← st.as_ref
      Storage.from_slice ((data.take last).drop first)
    else do
      let ret ← st.shallow_clone
      let ret ← ret.set_end last
      ret.set_start first
  else throw .assertion

def split_off (st : Storage) (at_ : Nat) : Mem (Storage × Storage) :=
  if at_ ≤ st.len then
    if at_ = st.len then pure (st, Storage.empty)
    else if at_ = 0 then pure (Storage.empty, st)
    else st.split_off at_ true
  else throw .assertion

def split_to (st : Storage) (at_ : Nat) : Mem (Storage × Storage) :=
  if at_ ≤ st.len then
    if at_ = st.len then pure (Storage.empty, st)
    else if at_ = 0 then pure (st, Storage.empty)
    else st.split_to at_
  else throw .assertion

def advance_to (st : Storage) (cnt : Nat) : Mem Storage := st.set_start cnt

def truncate (st : Storage) (len : Nat) : Mem Storage := st.truncate len

def trimdown (st : Storage) : Mem Storage := st.trimdown

def clear (st : Storage) : Mem Storage := do
  st.drop
  return Storage.empty

end Bytes

/-! ## What a handle shows -/

namespace Storage

variable {h h' : Heap} {A A' F : Multiset Ref} {E : Panic → Prop} {st : Storage} {n m : Nat}

def refs : Storage → Multiset Ref
  | vec v offset len => {.win v offset len}
  | _ => 0

def content (h : Heap) : Storage → List UInt8
  | inline data _ | static data | stext data _ => data
  | vec v offset len => Ref.content h (.win v offset len)

/-- Memory behind a vtable can be copied into a buffer. -/
def Small : Storage → Prop
  | stext data _ => METADATA_SIZE + data.length < 2 ^ 32
  | _ => True

lemma content_congr (hr : ∀ r ∈ st.refs, r.content h' = r.content h) : st.content h' = st.content h := by
  cases st with
  | vec v offset len => exact hr _ (Multiset.mem_singleton_self _)
  | _ => rfl

lemma content_keeps (k : Keeps h A F h' A') (ho : Owned h (A + F)) (hF : ∀ r ∈ st.refs, r ∈ F) :
    st.content h' = st.content h := content_congr fun r hr => k.frame ho r (hF r hr)

lemma length_content (hs : Safe h (st.refs + F)) : (st.content h).length = st.len := by
  cases st with
  | vec v offset len =>
    obtain ⟨s, hv, -, hw⟩ := Safe.live_win hs
    rw [content, Ref.content_win hv, Storage.len]
    rcases hw with hw | rfl
    · exact length_slice hw
    · rw [slice_zero, List.length_nil]
  | _ => rfl

lemma as_ref_spec {Q : List UInt8 → Heap → Prop} (hs : Safe h (st.refs + F)) :
    Outcome st.as_ref h E Q ↔ Q (st.content h) h := by
  cases st with
  | vec v offset len =>
    obtain ⟨s, hv, -, hw⟩ := Safe.live_win hs
    simp only [as_ref, outcome_bind]
    rw [outcome_deref hv, if_pos hw, outcome_pure, content, Ref.content_win hv]
  | _ => exact Iff.rfl

lemma narrow {v offset len : Nat} (hs : Safe h ({.win v offset len} + F)) (hm : n + m ≤ len ∨ m = 0) :
    Keeps h {.win v offset len} F h {.win v (offset + n) m} ∧
      Ref.content h (.win v (offset + n) m) = ((Ref.content h (.win v offset len)).drop n).take m := by
  obtain ⟨s, hv, -, hw⟩ := hs.live_win
  refine ⟨Keeps.convert hs hv rfl (fun hw => ?_) (by simp) fun hb => ?_, ?_⟩
  · rcases hw with hw | hw
    · exact hm.imp (by omega) id
    · exact .inr (by omega)
  · rcases hb with hb | hb
    · exact hm.imp (by omega) id
    · exact .inr (by omega)
  · rw [Ref.content_win hv, Ref.content_win hv, drop_slice]
    rcases hm with hm | rfl
    · rw [take_slice (by omega)]
    · rw [slice_zero, List.take_zero]

/-! ## Making and dropping handles -/

variable {data src : List UInt8}

lemma from_ptr_inline_spec (hl : data.length ≤ INLINE_CAP) :
    Outcome (from_ptr_inline data) h E fun st h' => h' = h ∧ st = inline data hl := by
  rw [from_ptr_inline, dif_pos hl, outcome_pure]
  exact ⟨rfl, rfl⟩

lemma from_slice_with_capacity_spec (hs : Safe h F) (hsm : METADATA_SIZE + n < 2 ^ 32)
    (hn : src.length ≤ n) :
    Outcome (from_slice_with_capacity n src) h E fun st h' =>
      Keeps h 0 F h' st.refs ∧ st.content h' = src ∧ st.Small := by
  refine (create_spec hs hsm hn (by simp)).seq fun v h' ⟨_, hv, hk⟩ => ⟨hk _ rfl (.inl ?_), ?_, trivial⟩
  · rw [SharedVec.length_init hn]
    omega
  · rw [content, Ref.content_win hv]
    exact slice_splice_self (by rw [List.length_replicate]; omega)

lemma from_slice_spec (hs : Safe h F) (hsm : METADATA_SIZE + src.length < 2 ^ 32) :
    Outcome (from_slice src) h E fun st h' => Keeps h 0 F h' st.refs ∧ st.content h' = src ∧ st.Small := by
  refine Outcome.ite (fun hl => ?_) fun _ => from_slice_with_capacity_spec hs hsm (Nat.le_refl _)
  refine (from_ptr_inline_spec hl).mono ?_
  rintro _ _ ⟨rfl, rfl⟩
  exact ⟨.refl (by rwa [zero_add]), rfl, trivial⟩

section

variable (hs : Safe h (st.refs + F))
include hs

lemma drop_spec : Outcome st.drop h E fun _ h' => Keeps h st.refs F h' 0 := by
  cases st with
  | vec v offset len => exact (release_spec hs).mono fun _ _ hk => hk.1
  | _ => exact .refl hs

lemma replace_inline_spec (hl : data.length ≤ INLINE_CAP) :
    Outcome (st.replace_inline data) h E fun st' h' => Keeps h st.refs F h' 0 ∧ st' = inline data hl := by
  refine (from_ptr_inline_spec hl).seq ?_
  rintro _ _ ⟨rfl, rfl⟩
  exact (drop_spec hs).seq fun _ h' hk => ⟨hk, rfl⟩

lemma shallow_clone_spec (hsm : st.Small) (hab : E .abort) :
    Outcome st.shallow_clone h E fun st' h' =>
      Keeps h st.refs F h' (st.refs + st'.refs) ∧ (Owned h (st.refs + F) → st.content h' = st.content h) ∧
        st'.content h' = st.content h ∧ st'.len = st.len ∧ st'.Small := by
  cases st with
  | vec v offset len =>
    obtain ⟨s, hv, -, -⟩ := Safe.live_win hs
    have hsame : ∀ r : Ref, r.content (h.put v { s with ref_count := s.ref_count + 1 }) = r.content h := fun r =>
      Ref.content_put hv fun _ => by cases r <;> rfl
    simp only [shallow_clone, outcome_bind]
    rw [outcome_update hv]
    simp only [SharedVec.retain, outcome_bind, outcome_get]
    refine Outcome.ite (fun _ => hab) fun _ => ?_
    exact ⟨Keeps.retain (r := .win v offset len) hs (by simp) hv, fun _ => hsame _, hsame _, rfl, trivial⟩
  | stext data shares =>
    cases shares with
    | true => exact ⟨.refl hs, fun _ => rfl, rfl, rfl, hsm⟩
    | false =>
      refine (from_slice_spec (F := F) (by simpa [refs] using hs) hsm).mono fun st' h' ⟨hk, hc, hsm'⟩ => ?_
      refine ⟨?_, fun _ => rfl, hc, ?_, hsm'⟩
      · rw [show (stext data false).refs + st'.refs = st'.refs from zero_add _]
        exact hk
      · rw [← length_content hk.safe, hc]
        rfl
  | _ => exact ⟨.refl hs, fun _ => rfl, rfl, rfl, trivial⟩

end

end Storage

end Geario.Buffers
