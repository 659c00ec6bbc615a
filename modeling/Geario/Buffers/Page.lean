import Geario.Buffers.BytesMut
/-!
# `BytePage`

A page of a write buffer: a `Bytes`, a `StorageVec` or a vector. A page made
from a `StorageVec` reads through the header of the buffer, and its clone is a
second pointer to the same header. The calls that move the header's window
(`advance_to`, and `read`, which uses it) or take the header over (`BytesMut::from`)
are therefore safe for memory but not for the clone; their rules say what has
to be known of the other handles.
-/
open Lib Option Multiset

namespace Geario.Buffers

open Storage

inductive BytePage
  | bytes (st : Storage)
  | storage (v : Nat)
  | vec (data : List UInt8)
  deriving DecidableEq

namespace BytePage

def len : BytePage → Mem Nat
  | bytes st => pure st.len
  | storage v => do return (← deref v).len
  | vec data => pure data.length

def is_empty (p : BytePage) : Mem Bool := do return (← p.len) == 0

def as_ref : BytePage → Mem (List UInt8)
  | bytes st => st.as_ref
  | storage v => do return (← deref v).as_ref
  | vec data => pure data

def drop : BytePage → Mem Unit
  | bytes st => st.drop
  | storage v => release_shared_vec v
  | vec _ => pure ()

def freeze : BytePage → Mem Storage
  | bytes st => pure st
  | storage v => StorageVec.freeze v
  | vec data => Storage.from_slice data

def split_to (p : BytePage) (at_ : Nat) : Mem (BytePage × BytePage) := do
  let st ← p.freeze
  let (st', buf) ← Bytes.split_to st (min at_ st.len)
  return (bytes st', bytes buf)

def advance_to (p : BytePage) (cnt : Nat) : Mem BytePage :=
  match p with
  | bytes st => do return bytes (← Bytes.advance_to st cnt)
  | storage v => do
    update v (SharedVec.set_start (cnt % 2 ^ 32))
    return p
  | vec data => if cnt ≤ data.length then do return bytes (← Storage.from_slice (data.drop cnt)) else throw .bounds

/-- `Ok` with the storage, or `Err` with the page. -/
def into_storage (p : BytePage) : Mem (Nat ⊕ BytePage) :=
  match p with
  | storage v => do
    let s ← deref v
    if s.remaining ≠ 0 ∧ s.ref_count = 1 then return .inl v else return .inr p
  | _ => pure (.inr p)

def clone : BytePage → Mem BytePage
  | bytes st => do return bytes (← st.shallow_clone)
  | storage v => do return storage (← StorageVec.clone v)
  | vec data => do return bytes (← Storage.from_slice data)

/-- `io::Read::read` into `dst_len` bytes: what was read, and the page. -/
def read (p : BytePage) (dst_len : Nat) : Mem (List UInt8 × BytePage) := do
  let data ← p.as_ref
  let len := min data.length dst_len
  if len > 0 then return (data.take len, ← p.advance_to len) else return ([], p)

def into_mut : BytePage → Mem Nat
  | bytes st => do
    let data ← st.as_ref
    let v ← BytesMut.copy_from_slice data
    st.drop
    return v
  | storage v => pure v
  | vec data => BytesMut.copy_from_slice data

/-! ## Rules -/

def refs : BytePage → Multiset Ref
  | bytes st => st.refs
  | storage v => {.page v}
  | vec _ => 0

def content (h : Heap) : BytePage → List UInt8
  | bytes st => st.content h
  | storage v => Ref.content h (.page v)
  | vec data => data

def Small : BytePage → Prop
  | bytes st => st.Small
  | storage _ => True
  | vec data => METADATA_SIZE + data.length < 2 ^ 32

variable {h h' : Heap} {A A' F : Multiset Ref} {E : Panic → Prop} {p : BytePage} {n v : Nat}

lemma content_congr (hr : ∀ r ∈ p.refs, r.content h' = r.content h) : p.content h' = p.content h := by
  cases p with
  | bytes st => exact content_congr hr
  | storage v => exact hr _ (mem_singleton_self _)
  | vec data => rfl

lemma content_keeps (k : Keeps h A F h' A') (ho : Owned h (A + F)) (hF : ∀ r ∈ p.refs, r ∈ F) :
    p.content h' = p.content h := content_congr fun r hr => k.frame ho r (hF r hr)

lemma live_page (hs : Safe h ({.page v} + F)) : ∃ s, h.vecs v = some s ∧ s.Wf := by
  obtain ⟨s, hv, hwf, -⟩ := hs.live (r := .page v) (by simp)
  exact ⟨s, hv, hwf⟩

section

variable (hs : Safe h (p.refs + F))
include hs

lemma outcome_len {Q : Nat → Heap → Prop} : Outcome p.len h E Q ↔ Q (p.content h).length h := by
  cases p with
  | bytes st => rw [content, length_content hs]; exact Iff.rfl
  | storage v =>
    obtain ⟨s, hv, hwf⟩ := live_page hs
    simp only [len, outcome_bind, outcome_pure]
    rw [outcome_deref hv, content, Ref.content_page hv, hwf.length_as_ref]
  | vec data => exact Iff.rfl

lemma outcome_is_empty {Q : Bool → Heap → Prop} : Outcome p.is_empty h E Q ↔ Q (p.content h).isEmpty h := by
  simp only [is_empty, outcome_bind, outcome_pure]
  rw [outcome_len hs]
  cases p.content h <;> rfl

lemma outcome_as_ref {Q : List UInt8 → Heap → Prop} : Outcome p.as_ref h E Q ↔ Q (p.content h) h := by
  cases p with
  | bytes st => exact as_ref_spec hs
  | storage v =>
    obtain ⟨s, hv, -⟩ := live_page hs
    simp only [as_ref, outcome_bind, outcome_pure]
    rw [outcome_deref hv, content, Ref.content_page hv]
  | vec data => exact Iff.rfl

lemma drop_spec : Outcome p.drop h E fun _ h' => Keeps h p.refs F h' 0 := by
  cases p with
  | bytes st => exact drop_spec hs
  | storage v => exact (release_spec (r := .page v) hs).mono fun _ _ hk => hk.1
  | vec data => exact .refl hs

lemma freeze_spec (hsm : p.Small) :
    Outcome p.freeze h E fun st h' => Keeps h p.refs F h' st.refs ∧ st.content h' = p.content h ∧ st.Small := by
  cases p with
  | bytes st => exact ⟨.refl hs, rfl, hsm⟩
  | storage v => exact StorageVec.freeze_spec (.inr rfl) hs
  | vec data => exact from_slice_spec (by simpa [refs] using hs) hsm

lemma split_to_spec (hsm : p.Small) (hab : E .abort) :
    Outcome (p.split_to n) h E fun q h' =>
      Keeps h p.refs F h' (q.1.refs + q.2.refs) ∧
        (Owned h (p.refs + F) → q.1.content h' = (p.content h).drop n ∧ q.2.content h' = (p.content h).take n) := by
  refine (freeze_spec hs hsm).seq fun st h1 ⟨hk1, hc1, hsm1⟩ => ?_
  have hlen := length_content hk1.safe
  refine (Bytes.split_to_spec hk1.safe hsm1 hab fun hlt => absurd hlt (by omega)).seq fun q h2 ⟨hk2, hc2⟩ => ?_
  refine outcome_pure.2 ⟨hk1.trans hk2, fun ho => ?_⟩
  obtain ⟨hd, ht⟩ := hc2 (hk1.owned ho)
  change q.1.content h2 = _ ∧ q.2.content h2 = _
  rw [hd, ht, ← hlen, hc1, min_comm, drop_min_length, take_min_length]
  exact ⟨rfl, rfl⟩

lemma clone_spec (hsm : p.Small) (hab : E .abort) :
    Outcome p.clone h E fun q h' =>
      Keeps h p.refs F h' (p.refs + q.refs) ∧
        (Owned h (p.refs + F) → p.content h' = p.content h ∧ q.content h' = p.content h) ∧ q.Small := by
  cases p with
  | bytes st =>
    refine (shallow_clone_spec hs hsm hab).seq ?_
    rintro st' h' ⟨hk, hst, hc, -, hsm'⟩
    exact outcome_pure.2 ⟨hk, fun ho => ⟨hst ho, hc⟩, hsm'⟩
  | storage v =>
    obtain ⟨s, hv, -⟩ := live_page hs
    have hsame : ∀ r : Ref, r.content (h.put v { s with ref_count := s.ref_count + 1 }) = r.content h := fun r =>
      Ref.content_put hv fun _ => by cases r <;> rfl
    simp only [clone, StorageVec.clone, outcome_bind]
    rw [outcome_update hv]
    simp only [SharedVec.retain, outcome_bind, outcome_get]
    refine Outcome.ite (fun _ => hab) fun _ => ?_
    exact ⟨Keeps.retain (r := .page v) hs (by simp) hv, fun _ => ⟨hsame _, hsame _⟩, trivial⟩
  | vec data =>
    have hs : Safe h F := by simpa [refs] using hs
    refine (from_slice_spec hs hsm).seq ?_
    rintro st' h' ⟨hk, hc, hsm'⟩
    refine outcome_pure.2 ⟨?_, fun _ => ⟨rfl, hc⟩, hsm'⟩
    rw [show (vec data).refs + (bytes st').refs = st'.refs from zero_add _]
    exact hk

lemma into_storage_spec :
    Outcome p.into_storage h E fun x h' => h' = h ∧
      match x with
      | .inl v => Keeps h p.refs F h {.own v} ∧ Ref.content h (.own v) = p.content h ∧ 0 < h.room v
      | .inr q => q = p := by
  cases p with
  | storage v =>
    obtain ⟨s, hv, hwf⟩ := live_page hs
    simp only [into_storage, outcome_bind]
    rw [outcome_deref hv]
    refine Outcome.ite (fun hc => ?_) fun _ => outcome_pure.2 ⟨rfl, rfl⟩
    have hlast := hs.unique (a := .page v) hv hc.2
    refine outcome_pure.2 ⟨rfl, ⟨?_, fun ho => ?_, fun _ _ _ => rfl, fun _ _ _ => rfl, fun r hr _ => ⟨rfl, fun hm => ?_⟩⟩, rfl, ?_⟩
    · refine hs.convert hv (by simp [refs]) (by simp [refs, Ref.ptr]) (fun r hr => ?_) (by simp [refs])
      obtain rfl := mem_singleton.1 hr
      exact ⟨rfl, trivial⟩
    · exact ho.adopt hv fun r hr hp => absurd hp (hlast r hr)
    · exact hlast r hr (Ref.own.inj (mem_singleton.1 hm))
    · rw [Heap.room_eq hv]
      omega
  | _ => exact outcome_pure.2 ⟨rfl, rfl⟩

end

def Solitary (F : Multiset Ref) (v : Nat) : Prop := .page v ∉ F ∧ .own v ∉ F

lemma advance_storage_spec (hs : Safe h ({.page v} + F))
    (hass : (Ref.content h (.page v)).length < n → E .assertion) :
    Outcome (update v (SharedVec.set_start (n % 2 ^ 32))) h E fun _ h' =>
      Safe h' ({.page v} + F) ∧ (n = 0 ∨ Solitary F v → Keeps h {.page v} F h' {.page v}) ∧
        (n ≤ (Ref.content h (.page v)).length → Ref.content h' (.page v) = (Ref.content h (.page v)).drop n) := by
  obtain ⟨s, hv, hwf⟩ := live_page hs
  have hlen : (Ref.content h (.page v)).length = s.len := by rw [Ref.content_page hv, hwf.length_as_ref]
  have hw := hwf.window
  have hr := hwf.room
  have hsm := hwf.small
  rw [outcome_update hv]
  rcases Nat.eq_zero_or_pos n with rfl | hpos
  · rw [Nat.zero_mod, SharedVec.set_start, outcome_bind, outcome_get, if_neg (by simp), outcome_pure, Heap.put_eq_self hv]
    exact ⟨hs, fun _ => .refl hs, fun _ => rfl⟩
  rcases lt_or_ge s.capacity (n % 2 ^ 32) with hlt | hge
  · refine (SharedVec.set_start_beyond hlt).weaken ?_
    rintro _ rfl
    refine hass (lt_of_not_ge fun hle => ?_)
    omega
  refine (SharedVec.set_start_spec hwf hge).mono ?_
  rintro _ s' ⟨hm, hc, -, hmem⟩
  have hsafe : Safe (h.put v s') ({.page v} + F) := by
    refine hs.put hv (by simp) (by simp [Ref.ptr]) (fun r hr => ?_) hm.wf hm.length (by rw [hm.ref_count])
    obtain rfl := mem_singleton.1 hr
    exact ⟨rfl, trivial⟩
  refine ⟨hsafe, fun hno => ?_, fun hn => ?_⟩
  · obtain ⟨hpage, hown⟩ := hno.resolve_left (ne_of_gt hpos)
    -- the other handles on the buffer are windows
    have hsame : ∀ r ∈ F, r.content (h.put v s') = r.content h := fun r hr => Ref.content_put hv fun hp => by
      cases r with
      | own w => obtain rfl : w = v := hp; exact absurd hr hown
      | page w => obtain rfl : w = v := hp; exact absurd hr hpage
      | win w off len => rw [Ref.read, Ref.read, hmem]
    refine ⟨hsafe, fun ho => ho.congr fun w t hw ht => ?_, fun _ => hsame, fun _ w hw => ?_, fun r hr _ => ⟨hsame r hr, by simp⟩⟩
    · have hwv : w ≠ v := by
        rintro rfl
        exact hown ((mem_add.1 hw).resolve_left (by simp))
      rw [Heap.vecs_put_ne hwv] at ht
      exact ⟨t, ht, rfl⟩
    · refine Heap.room_put_ne ?_
      rintro rfl
      exact hown hw
  · rw [Ref.content_page Heap.vecs_put_self, hc, Ref.content_page hv, Nat.mod_eq_of_lt (by omega)]

def Alone (F : Multiset Ref) : BytePage → Prop
  | storage v => Solitary F v
  | _ => True

section

variable (hs : Safe h (p.refs + F))
include hs

lemma advance_to_spec (hsm : p.Small)
    (hbad : (p.content h).length < n → E .assertion ∧ E .bounds) :
    Outcome (p.advance_to n) h E fun q h' =>
      Safe h' (q.refs + F) ∧ (n = 0 ∨ p.Alone F → Keeps h p.refs F h' q.refs) ∧
        (n ≤ (p.content h).length → q.content h' = (p.content h).drop n) := by
  cases p with
  | bytes st =>
    have hlen := length_content hs
    refine (set_start_spec hs hsm fun hlt => (hbad (by rwa [content, hlen])).1).seq fun st' h' ⟨hk, hc, _⟩ => ?_
    exact outcome_pure.2 ⟨hk.safe, fun _ => hk, fun _ => hc⟩
  | storage v => exact (advance_storage_spec hs fun hlt => (hbad hlt).1).seq fun _ h' hk => outcome_pure.2 hk
  | vec data =>
    refine Outcome.ite (fun hn => ?_) fun hn => (hbad (lt_of_not_ge hn)).2
    have hsm : METADATA_SIZE + data.length < 2 ^ 32 := hsm
    have hs : Safe h F := by simpa [refs] using hs
    refine (from_slice_spec hs (by rw [List.length_drop]; omega)).seq fun st' h' ⟨hk, hc, _⟩ => ?_
    exact outcome_pure.2 ⟨hk.safe, fun _ => hk, fun _ => hc⟩

lemma read_spec (hsm : p.Small) :
    Outcome (p.read n) h E fun q h' =>
      Safe h' (q.2.refs + F) ∧ (min (p.content h).length n = 0 ∨ p.Alone F → Keeps h p.refs F h' q.2.refs) ∧
        q.1 = (p.content h).take n ∧ q.2.content h' = (p.content h).drop n := by
  simp only [read, outcome_bind]
  rw [outcome_as_ref hs]
  have htake := take_min_length (l := p.content h) (n := n)
  have hdrop := drop_min_length (l := p.content h) (n := n)
  refine Outcome.ite (fun hpos => ?_) fun h0 => ?_
  · refine (advance_to_spec hs hsm fun hlt => absurd hlt (by omega)).seq fun q h' ⟨hs', hk, hc⟩ => ?_
    exact outcome_pure.2 ⟨hs', hk, htake, hdrop ▸ hc (by omega)⟩
  · have h0 : min (p.content h).length n = 0 := by omega
    rw [h0] at htake hdrop
    exact outcome_pure.2 ⟨hs, fun _ => .refl hs, htake, hdrop⟩

/-- All that shares the buffer of the page ends before its window. -/
def Adoptable (h : Heap) (F : Multiset Ref) : BytePage → Prop
  | storage v => ∀ r ∈ F, r.ptr = v → ∀ s, h.vecs v = some s → r.Before s
  | _ => True

lemma into_mut_spec (hfit : METADATA_SIZE + (p.content h).length < 2 ^ 32) :
    Outcome p.into_mut h E fun v h' =>
      Safe h' ({.own v} + F) ∧ (p.Adoptable h F → Leaves h p.refs F h' {.own v}) ∧
        (Owned h (p.refs + F) → Ref.content h' (.own v) = p.content h) := by
  cases p with
  | bytes st =>
    simp only [into_mut, BytesMut.copy_from_slice, StorageVec.from_slice, outcome_bind]
    rw [as_ref_spec hs]
    refine (create_own_spec hs hfit (le_refl _) (by simp)).mono ?_
    rintro v h' ⟨-, hk, hc, -⟩
    refine (drop_spec hk.safe.swap).mono fun _ h'' hk' => outcome_pure.2 ?_
    have hx := hk.exchange hk'
    refine ⟨hx.safe, fun _ => hx.leaves, fun ho => ?_⟩
    rw [hk'.frame (hk.owned_exchange ho) (.own v) (by simp), hc, content]
  | storage v =>
    obtain ⟨s, hv, -⟩ := live_page hs
    have hsafe : Safe h ({.own v} + F) := by
      refine hs.convert hv (by simp [refs]) (by simp [refs, Ref.ptr]) (fun r hr => ?_) (by simp [refs])
      obtain rfl := mem_singleton.1 hr
      exact ⟨rfl, trivial⟩
    refine outcome_pure.2 ⟨hsafe, fun had => ?_, fun _ => rfl⟩
    exact ⟨fun ho => ho.adopt hv fun r hr hp => had r hr hp s hv, fun _ _ _ => rfl, fun _ _ _ => rfl⟩
  | vec data =>
    have hs : Safe h F := by simpa [refs] using hs
    refine (create_own_spec hs hfit (le_refl _) (by simp)).mono ?_
    rintro v h' ⟨-, hk, hc, -⟩
    exact ⟨hk.safe, fun _ => hk.leaves, fun _ => hc⟩

end

end BytePage

/-! ## All of them -/

inductive PageOp
  | split_to (at_ : Nat)
  | advance_to (cnt : Nat)
  | read (dst_len : Nat)
  | clone
  deriving DecidableEq

namespace PageOp

def run (p : BytePage) : PageOp → Mem (BytePage × Option BytePage)
  | split_to at_ => do
    let (p', other) ← p.split_to at_
    return (p', some other)
  | advance_to cnt => do return (← p.advance_to cnt, none)
  | read dst_len => do return ((← p.read dst_len).2, none)
  | clone => do return (p, some (← p.clone))

def model (l : List UInt8) : PageOp → Option (List UInt8 × Option (List UInt8))
  | split_to at_ => some (l.drop at_, some (l.take at_))
  | advance_to cnt => if cnt ≤ l.length then some (l.drop cnt, none) else none
  | read dst_len => some (l.drop dst_len, none)
  | clone => some (l, some l)

def Ok (len : Nat) : PageOp → Prop
  | advance_to cnt => cnt ≤ len
  | _ => True

/-- The call does not move a header that another page reads through. -/
def Quiet (len : Nat) (p : BytePage) (F : Multiset Ref) : PageOp → Prop
  | advance_to cnt => cnt = 0 ∨ p.Alone F
  | read dst_len => min len dst_len = 0 ∨ p.Alone F
  | _ => True

def outRefs (out : Option BytePage) : Multiset Ref := out.elim 0 BytePage.refs

variable {h : Heap} {F : Multiset Ref} {E : Panic → Prop} {p : BytePage}

lemma run_spec (op : PageOp) (hs : Safe h (p.refs + F)) (hsm : p.Small) (hab : E .abort)
    (hbad : ¬ op.Ok (p.content h).length → E .assertion ∧ E .bounds) :
    Outcome (op.run p) h E fun q h' =>
      Safe h' (q.1.refs + outRefs q.2 + F) ∧
        (op.Quiet (p.content h).length p F → Keeps h p.refs F h' (q.1.refs + outRefs q.2)) ∧
        (Owned h (p.refs + F) → ∀ r, op.model (p.content h) = some r → (q.1.content h', q.2.map (·.content h')) = r) := by
  cases op with
  | split_to n =>
    refine (BytePage.split_to_spec hs hsm hab).seq fun q h' ⟨hk, hc⟩ =>
      outcome_pure.2 ⟨hk.safe, fun _ => hk, fun ho r hr => ?_⟩
    rw [← some.inj hr, map_some, (hc ho).1, (hc ho).2]
  | advance_to n =>
    refine (BytePage.advance_to_spec hs hsm fun hlt => hbad (not_le.2 hlt)).seq fun q h' ⟨hs', hk, hc⟩ => outcome_pure.2 ?_
    rw [outRefs, elim_none, add_zero]
    refine ⟨hs', hk, fun _ r hr => ?_⟩
    obtain ⟨hn, hr⟩ := ite_none_right_eq_some.1 hr
    rw [← some.inj hr, map_none, hc hn]
  | read n =>
    refine (BytePage.read_spec hs hsm).seq fun q h' ⟨hs', hk, _, hc⟩ => outcome_pure.2 ?_
    rw [outRefs, elim_none, add_zero]
    refine ⟨hs', hk, fun _ r hr => ?_⟩
    rw [← some.inj hr, map_none, hc]
  | clone =>
    refine (BytePage.clone_spec hs hsm hab).seq fun q h' ⟨hk, hc, _⟩ =>
      outcome_pure.2 ⟨hk.safe, fun _ => hk, fun ho r hr => ?_⟩
    rw [← some.inj hr, map_some, (hc ho).1, (hc ho).2]

end PageOp

end Geario.Buffers
