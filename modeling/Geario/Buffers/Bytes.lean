import Geario.Buffers.Storage
/-!
# The methods of `Bytes`

Each method with its rule: it acts on its handle, hands out at most one new
one, and shows what the same method shows on a plain list of bytes. `BytesOp`
is the list of them, `BytesOp.model` their meaning on lists.

Two methods of a shared handle compare its length with the capacity in the
header, which belongs to the owner of the tail. `BytesOp.Ok` says when that
comparison goes well.
-/
open Lib List Option Multiset

namespace Geario.Buffers

open Outcome Storage

def Heap.capacity (h : Heap) (v : Nat) : Nat :=
  match h.vecs v with
  | some s => s.capacity
  | none => 0

lemma Heap.capacity_eq {h : Heap} {v : Nat} {s : SharedVec} (hv : h.vecs v = some s) : h.capacity v = s.capacity := by
  rw [Heap.capacity, hv]

namespace Storage

variable {h h' : Heap} {A A' F : Multiset Ref} {E : Panic → Prop} {st : Storage} {n m : Nat}

section

variable (hs : Safe h (st.refs + F))
include hs

section

variable (hsm : st.Small)
include hsm

lemma set_start_spec (hass : st.len < n → E .assertion) :
    Outcome (st.set_start n) h E fun st' h' =>
      Keeps h st.refs F h' st'.refs ∧ st'.content h' = (st.content h).drop n ∧ st'.Small := by
  refine ite (fun h0 => ?_) fun _ => ?_
  · rw [outcome_pure, h0]
    exact ⟨.refl hs, rfl, hsm⟩
  cases st with
  | vec v offset len =>
    obtain ⟨m, hm, hval⟩ : ∃ m, (if len ≥ n then len - n else 0) = m ∧ m = len - n := ⟨_, rfl, by split <;> omega⟩
    obtain ⟨hk, hc⟩ := narrow (n := n) (m := m) hs (by omega)
    have hlen := length_content hs
    rw [outcome_pure, hm]
    refine ⟨hk, hc.trans (take_of_length_le ?_), trivial⟩
    rw [length_drop]
    exact le_of_eq (by rw [hval]; exact congrArg (· - n) hlen)
  | inline data fits =>
    refine ite (fun hn => ?_) fun hn => hass (lt_of_le_of_lt fits (by omega))
    refine (from_ptr_inline_spec (by rw [length_drop]; omega)).mono ?_
    rintro _ _ ⟨rfl, rfl⟩
    exact ⟨.refl hs, rfl, trivial⟩
  | stext data shares =>
    refine ite (fun hn => ?_) fun hn => hass (lt_of_not_ge hn)
    refine from_slice_spec (by simpa [refs] using hs) ?_
    have : METADATA_SIZE + data.length < 2 ^ 32 := hsm
    rw [length_drop]
    omega
  | static data =>
    refine ite (fun hn => ?_) fun hn => hass (lt_of_not_ge hn)
    exact ⟨.refl hs, rfl, trivial⟩

lemma set_end_spec (hn : n ≤ st.len) :
    Outcome (st.set_end n) h E fun st' h' =>
      Keeps h st.refs F h' st'.refs ∧ st'.content h' = (st.content h).take n ∧ st'.len = n ∧ st'.Small := by
  cases st with
  | vec v offset len =>
    have hn : n ≤ len := hn
    obtain ⟨hk, hc⟩ := narrow (n := 0) (m := n) hs (.inl (by omega))
    rw [set_end, outcome_pure, min_eq_right hn]
    exact ⟨hk, hc, rfl, trivial⟩
  | inline data fits =>
    refine ite (fun _ => ?_) fun hn' => absurd (le_trans hn fits) hn'
    refine (from_ptr_inline_spec (by rw [length_take]; omega)).mono ?_
    rintro _ _ ⟨rfl, rfl⟩
    exact ⟨.refl hs, rfl, length_take_of_le hn, trivial⟩
  | stext data shares =>
    have hsm : METADATA_SIZE + data.length < 2 ^ 32 := hsm
    have hs : Safe h F := by simpa [refs] using hs
    refine (from_slice_spec hs (by rw [length_take]; omega)).mono fun st' h' hk => ⟨hk.1, hk.2.1, ?_, hk.2.2⟩
    rw [← length_content hk.1.safe, hk.2.1, length_take_of_le hn]
  | static data =>
    refine ite (fun _ => ?_) fun hn' => absurd hn hn'
    exact ⟨.refl hs, rfl, length_take_of_le hn, trivial⟩

lemma piece_spec {small : Prop} [Decidable small] {data : List UInt8} {f : Storage → Mem Storage} (hab : E .abort) (hl : small → data.length ≤ INLINE_CAP)
    (hf : ∀ {st' h' G}, Safe h' (st'.refs + G) → st'.Small → st'.len = st.len → st'.content h' = st.content h →
      Outcome (f st') h' E fun st'' h'' => Keeps h' st'.refs G h'' st''.refs ∧ st''.content h'' = data) :
    Outcome (if small then from_ptr_inline data else st.shallow_clone >>= f) h E fun other h' =>
      Keeps h st.refs F h' (st.refs + other.refs) ∧
        (Owned h (st.refs + F) → st.content h' = st.content h ∧ other.content h' = data) := by
  refine ite (fun hsmall => ?_) fun _ => ?_
  · refine (from_ptr_inline_spec (hl hsmall)).mono ?_
    rintro _ _ ⟨rfl, rfl⟩
    rw [show st.refs + (inline data _).refs = st.refs from add_zero _]
    exact ⟨.refl hs, fun _ => ⟨rfl, rfl⟩⟩
  · refine (shallow_clone_spec hs hsm hab).seq fun st' h' ⟨hk, hst, hc, hlen, hsm'⟩ => ?_
    refine (hf hk.safe.right hsm' hlen hc).mono fun st'' h'' ⟨hk', hc'⟩ => ⟨hk.trans hk'.widen_left, fun ho => ⟨?_, hc'⟩⟩
    have ho' := hk.owned ho
    rw [add_assoc, add_left_comm] at ho'
    rw [content_keeps hk' ho' mem_left, hst ho]

lemma split_to_spec (hab : E .abort) (hn : n ≤ st.len) :
    Outcome (st.split_to n) h E fun p h' =>
      Keeps h st.refs F h' (p.1.refs + p.2.refs) ∧
        (Owned h (st.refs + F) → p.1.content h' = (st.content h).drop n ∧ p.2.content h' = (st.content h).take n) := by
  simp only [split_to, outcome_bind]
  rw [as_ref_spec hs]
  refine mono (piece_spec hs hsm hab (fun hi => ?_) fun hs' hsm' hlen hc => ?_) fun other h' ⟨hk, hst⟩ => ?_
  · rw [length_take]
    omega
  · refine (set_end_spec hs' hsm' (hlen ▸ hn)).mono fun st'' h'' ⟨hk, hc', _⟩ => ⟨hk, hc ▸ hc'⟩
  · refine (set_start_spec hk.safe.left hsm fun hlt => absurd hn (not_le.2 hlt)).mono fun st' h'' ⟨hk', hc, _⟩ => ?_
    refine ⟨hk.trans hk'.widen, fun ho => ?_⟩
    have ho' := hk.owned ho
    rw [add_assoc] at ho'
    exact ⟨(hst ho).1 ▸ hc, (content_keeps hk' ho' mem_left).trans (hst ho).2⟩

lemma split_off_spec (hab : E .abort) (hn : n ≤ st.len) :
    Outcome (st.split_off n true) h E fun p h' =>
      Keeps h st.refs F h' (p.1.refs + p.2.refs) ∧
        (Owned h (st.refs + F) → p.1.content h' = (st.content h).take n ∧ p.2.content h' = (st.content h).drop n) := by
  have hlen := length_content hs
  simp only [split_off, outcome_bind]
  rw [as_ref_spec hs]
  refine mono (piece_spec hs hsm hab (fun hi => ?_) fun hs' hsm' hlen' hc => ?_) fun other h' ⟨hk, hst⟩ => ?_
  · rw [length_drop, hlen]
    exact hi.2
  · refine (set_start_spec hs' hsm' fun hlt => absurd hn (by omega)).mono fun st'' h'' ⟨hk, hc', _⟩ => ⟨hk, hc ▸ hc'⟩
  -- the handle keeps its front: as a copy inside, or by ending earlier
  have hself : Outcome (st.split_off_self (st.content h) n true) h' E fun st' h'' =>
      Keeps h' st.refs (other.refs + F) h'' st'.refs ∧
        (Owned h (st.refs + F) → st'.content h'' = (st.content h).take n) := by
    refine ite (fun hi => ?_) fun _ => ?_
    · refine (replace_inline_spec hk.safe.left (by rw [length_take]; omega)).mono ?_
      rintro _ h'' ⟨hk', rfl⟩
      exact ⟨hk', fun _ => rfl⟩
    · exact (set_end_spec hk.safe.left hsm hn).mono fun st' h'' ⟨hk', hc, _⟩ => ⟨hk', fun ho => (hst ho).1 ▸ hc⟩
  refine hself.mono fun st' h'' ⟨hk', hc⟩ => ⟨hk.trans hk'.widen, fun ho => ?_⟩
  have ho' := hk.owned ho
  rw [add_assoc] at ho'
  exact ⟨hc ho, (content_keeps hk' ho' mem_left).trans (hst ho).2⟩

end

end

/-- The header leaves room for `n` bytes of a shared handle. -/
def Room (h : Heap) (n : Nat) : Storage → Prop
  | vec v _ _ => n ≤ h.capacity v
  | _ => True

section

variable (hs : Safe h (st.refs + F))
include hs

lemma truncate_spec (hsm : st.Small)
    (hass : INLINE_CAP ≤ n → n ≤ st.len → ¬ st.Room h n → E .assertion) :
    Outcome (st.truncate n) h E fun st' h' => Keeps h st.refs F h' st'.refs ∧ st'.content h' = (st.content h).take n := by
  have hlen := length_content hs
  refine ite (fun hn => ite (fun hi => ?_) fun hi => ?_) fun hn => ?_
  · rw [outcome_bind, as_ref_spec hs]
    refine (replace_inline_spec hs (by rw [length_take]; omega)).mono ?_
    rintro _ h' ⟨hk, rfl⟩
    exact ⟨hk, rfl⟩
  · cases st with
    | vec v offset len =>
      obtain ⟨s, hv, -, -⟩ := Safe.live_win hs
      simp only [set_len, outcome_bind]
      rw [outcome_deref hv]
      refine ite (fun _ => ?_) fun hcap => hass (le_of_not_gt hi) hn ?_
      · exact narrow (n := 0) hs (.inl (by rw [zero_add]; exact hn))
      · rwa [Room, Heap.capacity_eq hv]
    | inline data fits =>
      refine (from_ptr_inline_spec (by rw [length_take]; omega)).mono ?_
      rintro _ _ ⟨rfl, rfl⟩
      exact ⟨.refl hs, rfl⟩
    | stext data shares =>
      refine ite (fun hnl => ?_) fun _ => ite (fun _ => ?_) fun hn' => absurd hn hn'
      · exact ⟨.refl hs, (take_of_length_le (le_of_eq hnl.symm)).symm⟩
      · have hs : Safe h F := by simpa [refs] using hs
        have hsm : METADATA_SIZE + data.length < 2 ^ 32 := hsm
        exact (from_slice_spec hs (by rw [length_take]; omega)).mono fun st' h' hk => ⟨hk.1, hk.2.1⟩
    | static data => exact ite (fun _ => ⟨.refl hs, rfl⟩) fun hn' => absurd hn hn'
  · exact outcome_pure.2 ⟨.refl hs, (take_of_length_le (by omega)).symm⟩

lemma trimdown_spec (hof : INLINE_CAP < st.len → ¬ st.Room h st.len → E .overflow) :
    Outcome st.trimdown h E fun st' h' =>
      Keeps h st.refs F h' st'.refs ∧ (Owned h (st.refs + F) → st'.content h' = st.content h) := by
  have hlen := length_content hs
  -- a short handle is copied inside, whatever it was
  have hshort : st.len ≤ INLINE_CAP → Outcome (st.replace_inline (st.content h)) h E fun st' h' =>
      Keeps h st.refs F h' st'.refs ∧ (Owned h (st.refs + F) → st'.content h' = st.content h) := fun hl => by
    refine (replace_inline_spec hs (hlen ▸ hl)).mono ?_
    rintro _ h' ⟨hk, rfl⟩
    exact ⟨hk, fun _ => rfl⟩
  cases st with
  | vec v offset len =>
    obtain ⟨s, hv, hwf, hw⟩ := Safe.live_win hs
    simp only [trimdown, outcome_bind]
    rw [as_ref_spec hs]
    refine ite hshort fun hl => ?_
    have hl : INLINE_CAP < len := lt_of_not_ge hl
    simp only [capacity, outcome_bind, outcome_pure]
    rw [outcome_deref hv]
    rcases lt_or_ge s.capacity len with hcap | hcap
    · rw [outcome_sub_underflow (show s.capacity < (vec v offset len).len from hcap)]
      exact hof hl (by rw [Room, Heap.capacity_eq hv]; exact not_le.2 hcap)
    rw [outcome_sub (show (vec v offset len).len ≤ s.capacity from hcap)]
    refine ite (fun _ => ?_) fun _ => outcome_pure.2 ⟨.refl hs, fun _ => rfl⟩
    have hsm : METADATA_SIZE + len < 2 ^ 32 := by
      have := hwf.small
      have := hwf.window
      have := hwf.data
      omega
    refine (from_slice_with_capacity_spec hs hsm (le_of_eq hlen)).seq ?_
    rintro st' h' ⟨hk, hc, -⟩
    have hs' : Safe h' ((vec v offset len).refs + (st'.refs + F)) := hk.safe.swap
    refine (drop_spec hs').seq fun _ h'' hk' => ⟨hk.exchange hk', fun ho => ?_⟩
    rw [content_keeps hk' (hk.owned_exchange ho) mem_left, hc]
  | stext data shares =>
    refine ite hshort fun hl => ?_
    simp only [capacity, outcome_bind, outcome_pure]
    rw [outcome_sub (show (stext data shares).len ≤ data.length from le_refl _)]
    refine ite (fun hge => ?_) fun _ => outcome_pure.2 ⟨.refl hs, fun _ => rfl⟩
    change data.length - data.length ≥ 64 at hge
    omega
  | _ => exact ⟨.refl hs, fun _ => rfl⟩

lemma get_u8_spec (hsm : st.Small) (hass : st.len = 0 → E .assertion) :
    Outcome st.get_u8 h E fun p h' =>
      Keeps h st.refs F h' p.2.refs ∧ p.1 :: p.2.content h' = st.content h := by
  have hlen := length_content hs
  simp only [get_u8, outcome_bind]
  rw [as_ref_spec hs]
  cases hc : st.content h with
  | nil => exact hass (by rw [← hlen, hc]; rfl)
  | cons b rest =>
    have hpos : ¬ st.len < 1 := by rw [← hlen, hc, length_cons]; omega
    refine (set_start_spec hs hsm fun hlt => absurd hlt hpos).seq fun st' h' ⟨hk, hc', _⟩ => outcome_pure.2 ⟨hk, ?_⟩
    rw [hc', hc, drop_one, tail_cons]

end

end Storage

namespace Bytes

variable {h : Heap} {F : Multiset Ref} {E : Panic → Prop} {st : Storage} {n first last : Nat}

section

variable (hs : Safe h (st.refs + F))
include hs

lemma slice_spec (hsm : st.Small) (hab : E .abort) (hass : ¬ (first ≤ last ∧ last ≤ st.len) → E .assertion) :
    Outcome (slice st first last) h E fun other h' =>
      Keeps h st.refs F h' (st.refs + other.refs) ∧
        (Owned h (st.refs + F) →
          st.content h' = st.content h ∧ other.content h' = ((st.content h).take last).drop first) := by
  refine ite (fun hin => ite (fun hi => ?_) fun _ => ?_) hass
  · have hl : (((st.content h).take last).drop first).length ≤ INLINE_CAP := by
      rw [length_drop, length_take]
      omega
    rw [outcome_bind, as_ref_spec hs, from_slice, if_pos hl]
    refine (from_ptr_inline_spec hl).mono ?_
    rintro _ _ ⟨rfl, rfl⟩
    rw [show st.refs + (inline _ hl).refs = st.refs from add_zero _]
    exact ⟨.refl hs, fun _ => ⟨rfl, rfl⟩⟩
  · refine (shallow_clone_spec hs hsm hab).seq fun ret h1 ⟨hk, hst, hc, hlen', hsm'⟩ => ?_
    refine (set_end_spec hk.safe.right hsm' (hlen' ▸ hin.2)).seq fun ret h2 ⟨hk2, hc2, hl2, hsm2⟩ => ?_
    refine (set_start_spec hk2.safe hsm2 fun hlt => absurd hin.1 (by omega)).mono fun ret h3 ⟨hk3, hc3, _⟩ => ?_
    have hk23 := hk2.trans hk3
    refine ⟨hk.trans hk23.widen_left, fun ho => ⟨?_, by rw [hc3, hc2, hc]⟩⟩
    have ho' := hk.owned ho
    rw [add_assoc, add_left_comm] at ho'
    rw [content_keeps hk23 ho' mem_left, hst ho]

lemma split_trivial : Keeps h st.refs F h (st.refs + empty.refs) ∧ Keeps h st.refs F h (empty.refs + st.refs) := by
  rw [show empty.refs = 0 from rfl, add_zero, zero_add]
  exact ⟨.refl hs, .refl hs⟩

section

variable (hsm : st.Small) (hab : E .abort) (hass : st.len < n → E .assertion)
include hsm hab hass

lemma split_to_spec :
    Outcome (split_to st n) h E fun p h' =>
      Keeps h st.refs F h' (p.1.refs + p.2.refs) ∧
        (Owned h (st.refs + F) → p.1.content h' = (st.content h).drop n ∧ p.2.content h' = (st.content h).take n) := by
  have hlen := length_content hs
  refine ite (fun hn => ite (fun he => ?_) fun _ => ite (fun h0 => ?_) fun _ => ?_) fun hn =>
    hass (lt_of_not_ge hn)
  · refine outcome_pure.2 ⟨(split_trivial hs).2, fun _ => ⟨?_, ?_⟩⟩
    · rw [drop_of_length_le (by omega)]
      rfl
    · rw [take_of_length_le (by omega)]
  · rw [h0]
    exact outcome_pure.2 ⟨(split_trivial hs).1, fun _ => ⟨rfl, rfl⟩⟩
  · exact Storage.split_to_spec hs hsm hab hn

lemma split_off_spec :
    Outcome (split_off st n) h E fun p h' =>
      Keeps h st.refs F h' (p.1.refs + p.2.refs) ∧
        (Owned h (st.refs + F) → p.1.content h' = (st.content h).take n ∧ p.2.content h' = (st.content h).drop n) := by
  have hlen := length_content hs
  refine ite (fun hn => ite (fun he => ?_) fun _ => ite (fun h0 => ?_) fun _ => ?_) fun hn =>
    hass (lt_of_not_ge hn)
  · refine outcome_pure.2 ⟨(split_trivial hs).1, fun _ => ⟨?_, ?_⟩⟩
    · rw [take_of_length_le (by omega)]
    · rw [drop_of_length_le (by omega)]
      rfl
  · rw [h0]
    exact outcome_pure.2 ⟨(split_trivial hs).2, fun _ => ⟨rfl, rfl⟩⟩
  · exact Storage.split_off_spec hs hsm hab hn

end

lemma clear_spec :
    Outcome (clear st) h E fun st' h' => Keeps h st.refs F h' st'.refs ∧ st'.content h' = [] :=
  (drop_spec hs).seq fun _ _ hk => outcome_pure.2 ⟨hk, rfl⟩

end

end Bytes

/-! ## All of them -/

/-- The methods of `Bytes` that act on the handle or hand out another one. -/
inductive BytesOp
  | clone
  | slice (first last : Nat)
  | split_to (at_ : Nat)
  | split_off (at_ : Nat)
  | truncate (len : Nat)
  | advance_to (cnt : Nat)
  | get_u8
  | trimdown
  | clear
  deriving DecidableEq

namespace BytesOp

def run (st : Storage) : BytesOp → Mem (Storage × Option Storage)
  | clone => do return (st, some (← st.shallow_clone))
  | slice first last => do return (st, some (← Bytes.slice st first last))
  | split_to at_ => do
    let (st', other) ← Bytes.split_to st at_
    return (st', some other)
  | split_off at_ => do
    let (st', other) ← Bytes.split_off st at_
    return (st', some other)
  | truncate len => do return (← Bytes.truncate st len, none)
  | advance_to cnt => do return (← Bytes.advance_to st cnt, none)
  | get_u8 => do return ((← st.get_u8).2, none)
  | trimdown => do return (← Bytes.trimdown st, none)
  | clear => do return (← Bytes.clear st, none)

/-- The same on a list of bytes; nothing where the documentation promises nothing but a panic. -/
def model (l : List UInt8) : BytesOp → Option (List UInt8 × Option (List UInt8))
  | clone => some (l, some l)
  | slice first last => if first ≤ last ∧ last ≤ l.length then some (l, some ((l.take last).drop first)) else none
  | split_to at_ => if at_ ≤ l.length then some (l.drop at_, some (l.take at_)) else none
  | split_off at_ => if at_ ≤ l.length then some (l.take at_, some (l.drop at_)) else none
  | truncate len => some (l.take len, none)
  | advance_to cnt => if cnt ≤ l.length then some (l.drop cnt, none) else none
  | get_u8 => if 1 ≤ l.length then some (l.drop 1, none) else none
  | trimdown => some (l, none)
  | clear => some ([], none)

/-- The call is in range, and a header it looks at is that of a buffer with enough capacity left. -/
def Ok (h : Heap) (st : Storage) : BytesOp → Prop
  | clone | clear => True
  | slice first last => first ≤ last ∧ last ≤ st.len
  | split_to n | split_off n | advance_to n => n ≤ st.len
  | get_u8 => 1 ≤ st.len
  | truncate n => INLINE_CAP ≤ n → n ≤ st.len → st.Room h n
  | trimdown => INLINE_CAP < st.len → st.Room h st.len

variable {h : Heap} {F : Multiset Ref} {E : Panic → Prop} {st : Storage}

def outRefs (out : Option Storage) : Multiset Ref := out.elim 0 Storage.refs

/-- A method leaves every other handle alone and does to its own what it does to a list; it panics only if not `Ok`. -/
lemma run_spec (op : BytesOp) (hs : Safe h (st.refs + F)) (hsm : st.Small) (hab : E .abort)
    (hbad : ¬ op.Ok h st → E .assertion ∧ E .overflow) :
    Outcome (op.run st) h E fun p h' =>
      Keeps h st.refs F h' (p.1.refs + outRefs p.2) ∧
        (Owned h (st.refs + F) → ∀ r, op.model (st.content h) = some r → (p.1.content h', p.2.map (·.content h')) = r) := by
  cases op with
  | clone =>
    refine (shallow_clone_spec hs hsm hab).seq fun st' h' ⟨hk, hst, hc, _⟩ => ⟨hk, fun ho r hr => ?_⟩
    rw [← some.inj hr, map_some, hst ho, hc]
  | slice first last =>
    refine (Bytes.slice_spec hs hsm hab fun hn => (hbad hn).1).seq fun st' h' ⟨hk, hc⟩ => ⟨hk, fun ho r hr => ?_⟩
    obtain ⟨-, hr⟩ := ite_none_right_eq_some.1 hr
    rw [← some.inj hr, map_some, (hc ho).1, (hc ho).2]
  | split_to n =>
    refine (Bytes.split_to_spec hs hsm hab fun hn => (hbad (not_le.2 hn)).1).seq fun p h' ⟨hk, hc⟩ =>
      ⟨hk, fun ho r hr => ?_⟩
    obtain ⟨-, hr⟩ := ite_none_right_eq_some.1 hr
    rw [← some.inj hr, map_some, (hc ho).1, (hc ho).2]
  | split_off n =>
    refine (Bytes.split_off_spec hs hsm hab fun hn => (hbad (not_le.2 hn)).1).seq fun p h' ⟨hk, hc⟩ =>
      ⟨hk, fun ho r hr => ?_⟩
    obtain ⟨-, hr⟩ := ite_none_right_eq_some.1 hr
    rw [← some.inj hr, map_some, (hc ho).1, (hc ho).2]
  | truncate n =>
    refine (truncate_spec hs hsm fun h1 h2 h3 => (hbad fun hok => h3 (hok h1 h2)).1).seq fun st' h' ⟨hk, hc⟩ => ?_
    refine ⟨by rwa [outRefs, elim_none, add_zero], fun _ r hr => ?_⟩
    rw [← some.inj hr, hc, map_none]
  | advance_to n =>
    refine (set_start_spec hs hsm fun hn => (hbad (not_le.2 hn)).1).seq fun st' h' ⟨hk, hc, _⟩ => ?_
    refine ⟨by rwa [outRefs, elim_none, add_zero], fun _ r hr => ?_⟩
    obtain ⟨-, hr⟩ := ite_none_right_eq_some.1 hr
    rw [← some.inj hr, hc, map_none]
  | get_u8 =>
    refine (get_u8_spec hs hsm fun h0 => (hbad fun hok => absurd hok (by rw [Ok]; omega)).1).seq fun p h' ⟨hk, hc⟩ => ?_
    refine ⟨by rwa [outRefs, elim_none, add_zero], fun _ r hr => ?_⟩
    obtain ⟨-, hr⟩ := ite_none_right_eq_some.1 hr
    rw [← some.inj hr, ← hc, map_none, drop_one, tail_cons]
  | trimdown =>
    refine (trimdown_spec hs fun h1 h2 => (hbad fun hok => h2 (hok h1)).2).seq fun st' h' ⟨hk, hc⟩ => ?_
    refine ⟨by rwa [outRefs, elim_none, add_zero], fun ho r hr => ?_⟩
    rw [← some.inj hr, hc ho, map_none]
  | clear =>
    refine (Bytes.clear_spec hs).seq fun st' h' ⟨hk, hc⟩ => ?_
    refine ⟨by rwa [outRefs, elim_none, add_zero], fun _ r hr => ?_⟩
    rw [← some.inj hr, hc, map_none]

end BytesOp

end Geario.Buffers
