import Geario.Buffers.Heap
/-!
# What the header methods do

`Wf` is the bookkeeping of a `SharedVec`: the window of the writing handle ends
where the allocation ends, and is made of content and free space. `Mutates s
s'` is what the owner of the tail may do to it: the allocation stays the same
size and nothing before the window changes, unless the owner holds the only
reference. Each method is such a change, with its effect on the content.
-/
open Lib

namespace Geario.Buffers

section Arithmetic

variable {σ : Type} {s : σ} {E : Panic → Prop} {Q : Nat → σ → Prop} {a b : Nat}

lemma outcome_sub (h : b ≤ a) : Outcome (sub_checked a b) s E Q ↔ Q (a - b) s := by
  rw [sub_checked, if_pos h, outcome_pure]

lemma outcome_sub_underflow (h : a < b) : Outcome (sub_checked a b) s E Q ↔ E .overflow := by
  rw [sub_checked, if_neg (Nat.not_le.2 h), outcome_throw]

end Arithmetic

namespace SharedVec

/-- The header describes the allocation it stands in. -/
structure Wf (s : SharedVec) : Prop where
  data : METADATA_SIZE ≤ s.offset
  window : s.offset + s.capacity = s.mem.length
  room : s.capacity = s.len + s.remaining
  small : s.mem.length < 2 ^ 32
  tagged : s.size ≠ .Unset → s.mem.length = METADATA_SIZE + s.size.capacity

/-- A change the owner of the tail may make. -/
structure Mutates (s s' : SharedVec) : Prop where
  wf : s'.Wf
  ref_count : s'.ref_count = s.ref_count
  length : s'.mem.length = s.mem.length
  front : s.ref_count = 1 ∨ s.offset ≤ s'.offset ∧ s'.mem.take s.offset = s.mem.take s.offset

variable {s s' s'' : SharedVec} {E : Panic → Prop} {n pos : Nat} {src : List UInt8} {Q : Unit → SharedVec → Prop}

lemma Mutates.refl (hs : s.Wf) : Mutates s s := ⟨hs, rfl, rfl, .inr ⟨Nat.le_refl _, rfl⟩⟩

/-! ## Content -/

lemma Wf.length_as_ref (hs : s.Wf) : s.as_ref.length = s.len := by
  have := hs.window
  have := hs.room
  exact length_slice (by omega)

lemma outcome_write (h : pos + src.length ≤ s.mem.length) :
    Outcome (write pos src) s E Q ↔ Q () { s with mem := splice s.mem pos src } := by
  simp only [write, outcome_bind, outcome_get, if_pos h, outcome_set]

section

variable (hs : s.Wf)
include hs

lemma outcome_set_len (h : n ≤ s.capacity) :
    Outcome (set_len n) s E Q ↔ Q () { s with len := n, remaining := s.capacity - n } := by
  have := hs.window
  have := hs.small
  have hmod : n % 2 ^ 32 = n := Nat.mod_eq_of_lt (by omega)
  simp only [set_len, outcome_bind, outcome_get, hmod, if_pos h, outcome_set]

lemma mutates_append (h : src.length ≤ s.remaining) :
    let s' := { s with mem := splice s.mem (s.offset + s.len) src, len := s.len + src.length,
                       remaining := s.capacity - (s.len + src.length) }
    Mutates s s' ∧ s'.as_ref = s.as_ref ++ src := by
  have hw := hs.window
  have hr := hs.room
  have hfit : s.offset + s.len + src.length ≤ s.mem.length := by omega
  have hlen := length_splice hfit
  refine ⟨⟨⟨hs.data, ?_, ?_, ?_, fun hu => ?_⟩, rfl, hlen, .inr ⟨Nat.le_refl _, ?_⟩⟩, ?_⟩
  · exact hw.trans hlen.symm
  · exact (Nat.add_sub_cancel' (by dsimp only; omega)).symm
  · exact hlen ▸ hs.small
  · exact hlen.trans (hs.tagged hu)
  · exact take_splice (by omega) (by omega)
  · exact slice_splice_end (by omega)

lemma mutates_beyond (h : src.length ≤ s.remaining) :
    let s' := { s with mem := splice s.mem (s.offset + s.len) src }
    Mutates s s' ∧ s'.as_ref = s.as_ref ∧ s'.remaining = s.remaining := by
  have hw := hs.window
  have hr := hs.room
  have hfit : s.offset + s.len + src.length ≤ s.mem.length := by omega
  have hlen := length_splice hfit
  refine ⟨⟨⟨hs.data, hw.trans hlen.symm, hr, hlen ▸ hs.small, fun hu => hlen.trans (hs.tagged hu)⟩, rfl, hlen,
    .inr ⟨Nat.le_refl _, take_splice (by omega) (by omega)⟩⟩, ?_, rfl⟩
  exact slice_eq_of_take (take_splice (Nat.le_refl _) (by omega)) (Nat.le_refl _)

lemma set_len_spec (h : n ≤ s.remaining) :
    Outcome (set_len (s.len + n)) s E fun _ s' =>
      Mutates s s' ∧ (∃ d, d.length = n ∧ s'.as_ref = s.as_ref ++ d) ∧ s'.remaining + n = s.remaining := by
  have hw := hs.window
  have hr := hs.room
  rw [outcome_set_len hs (by omega)]
  refine ⟨⟨{ hs with window := hw, room := ?_ }, rfl, rfl, .inr ⟨Nat.le_refl _, rfl⟩⟩,
    ⟨slice s.mem (s.offset + s.len) n, length_slice (by omega), slice_add⟩, ?_⟩
  all_goals
    dsimp only
    omega

/-! ## The methods -/

lemma put_slice_spec (h : src.length ≤ s.remaining) :
    Outcome (put_slice src) s E fun _ s' =>
      Mutates s s' ∧ s'.as_ref = s.as_ref ++ src ∧ s'.remaining + src.length = s.remaining := by
  have hw := hs.window
  have hr := hs.room
  have hfit : s.offset + s.len + src.length ≤ s.mem.length := by omega
  have hwf := (mutates_beyond hs h).1.wf
  obtain ⟨hm, hc⟩ := mutates_append hs h
  simp only [put_slice, outcome_bind, outcome_get]
  rw [outcome_write hfit, outcome_set_len hwf (show s.len + src.length ≤ s.capacity by omega)]
  refine ⟨hm, hc, ?_⟩
  change s.capacity - (s.len + src.length) + src.length = s.remaining
  omega

lemma fill_spec {v : UInt8} (h : n ≤ s.remaining) :
    Outcome (fill n v) s E fun _ s' => Mutates s s' ∧ s'.as_ref = s.as_ref ++ List.replicate n v := by
  have := hs.room
  have hfit : (List.replicate n v).length ≤ s.remaining := by rwa [List.length_replicate]
  have hput := put_slice_spec (E := E) hs hfit
  simp only [put_slice, List.length_replicate] at hput
  simp only [fill, outcome_bind, outcome_get, if_pos (show s.len ≤ s.capacity by omega)] at hput ⊢
  exact hput.mono fun _ _ h => h.mono fun _ _ h => ⟨h.1, h.2.1⟩

lemma put_u8_spec {b : UInt8} (h : 1 ≤ s.remaining) :
    Outcome (put_u8 b) s E fun _ s' => Mutates s s' ∧ s'.as_ref = s.as_ref ++ [b] := by
  have hw := hs.window
  have hr := hs.room
  have := hs.small
  have hfit : [b].length ≤ s.remaining := h
  obtain ⟨hm, hc⟩ := mutates_append hs hfit
  have hrem : s.remaining - 1 = s.capacity - (s.len + 1) := by omega
  simp only [put_u8, add_u32, sub_checked, outcome_bind, outcome_get, if_pos (show s.len + 1 < 2 ^ 32 by omega), if_pos h,
    outcome_pure, outcome_set]
  rw [hrem]
  refine (outcome_write ?_).2 ⟨hm, hc⟩
  dsimp only
  omega

lemma put_u8_full {b : UInt8} (h : s.remaining = 0) : Outcome (put_u8 b) s (· = .overflow) Q := by
  have := hs.window
  have := hs.room
  have := hs.small
  have := hs.data
  have : METADATA_SIZE = 24 := rfl
  simp only [put_u8, add_u32, sub_checked, outcome_bind, outcome_get, if_pos (show s.len + 1 < 2 ^ 32 by omega), h,
    outcome_pure, if_neg (show ¬ 1 ≤ 0 by decide), outcome_throw]

lemma set_start_spec (h : n ≤ s.capacity) :
    Outcome (set_start n) s E fun _ s' =>
      Mutates s s' ∧ s'.as_ref = s.as_ref.drop n ∧ s'.offset = s.offset + n ∧ s'.mem = s.mem := by
  have hw := hs.window
  have hr := hs.room
  have hsm := hs.small
  have hd := hs.data
  simp only [set_start, outcome_bind, outcome_get]
  by_cases h0 : n = 0
  · rw [if_neg (by simpa using h0), outcome_pure, h0]
    exact ⟨.refl hs, rfl, rfl, rfl⟩
  -- the new length and free space, whichever side of the content `n` is on
  obtain ⟨len, hlen, hval⟩ : ∃ len, (if s.len > n then s.len - n else 0) = len ∧ len = s.len - n :=
    ⟨_, rfl, by split <;> omega⟩
  simp only [if_pos h0, if_pos h, add_u32, sub_checked, outcome_bind, hlen]
  rw [if_pos (show s.offset + n < 2 ^ 32 by omega), outcome_pure, if_pos (show len ≤ s.capacity by omega), outcome_pure,
    if_pos (show n ≤ s.capacity - len by omega), outcome_pure,
    if_pos (show s.capacity - len - n + len < 2 ^ 32 by omega), outcome_pure, outcome_set]
  refine ⟨⟨⟨?_, ?_, ?_, hsm, hs.tagged⟩, rfl, rfl, .inr ⟨?_, rfl⟩⟩, ?_, rfl, rfl⟩
  · exact Nat.le_trans hd (Nat.le_add_right _ _)
  · change s.offset + n + (s.capacity - len - n + len) = s.mem.length
    omega
  · exact Nat.add_comm _ _
  · exact Nat.le_add_right _ _
  · rw [as_ref, as_ref, drop_slice, hval]

end

lemma set_start_beyond (h : s.capacity < n) : Outcome (set_start n) s (· = .assertion) Q := by
  simp only [set_start, outcome_bind, outcome_get, if_pos (show n ≠ 0 by omega), if_neg (show ¬ n ≤ s.capacity by omega),
    outcome_throw]

lemma truncate_spec (hs : s.Wf) : Outcome (truncate n) s E fun _ s' => Mutates s s' ∧ s'.as_ref = s.as_ref.take n := by
  have hw := hs.window
  have hr := hs.room
  have hsm := hs.small
  have hd := hs.data
  simp only [truncate, outcome_bind, outcome_get]
  split
  next h =>
    obtain ⟨rfl, h1, -⟩ := h
    have hmod : (s.offset + s.capacity - METADATA_SIZE) % 2 ^ 32 = s.mem.length - METADATA_SIZE := by
      rw [hw, Nat.mod_eq_of_lt (by omega)]
    rw [outcome_set, hmod]
    refine ⟨⟨⟨Nat.le_refl _, Nat.add_sub_cancel' (by dsimp only; omega), (Nat.zero_add _).symm, hsm, hs.tagged⟩, rfl, rfl, .inl h1⟩, ?_⟩
    rw [List.take_zero, as_ref, slice_zero]
  · split
    next hlt =>
      rw [outcome_set_len hs (by omega)]
      refine ⟨⟨⟨hd, hw, (Nat.add_sub_cancel' (by dsimp only; omega)).symm, hsm, hs.tagged⟩, rfl, rfl, .inr ⟨Nat.le_refl _, rfl⟩⟩, ?_⟩
      exact (take_slice (Nat.le_of_lt hlt)).symm
    next hge =>
      exact ⟨.refl hs, (List.take_of_length_le (by rw [hs.length_as_ref]; omega)).symm⟩

lemma reclaim_spec (hs : s.Wf) (h1 : s.ref_count = 1) :
    Outcome reclaim s E fun _ s' =>
      Mutates s s' ∧ s'.as_ref = s.as_ref ∧ s'.remaining = s.mem.length - s.len - METADATA_SIZE := by
  have hw := hs.window
  have hr := hs.room
  have hsm := hs.small
  have hd := hs.data
  have hmod : (s.mem.length - s.len - METADATA_SIZE) % 2 ^ 32 = s.mem.length - s.len - METADATA_SIZE :=
    Nat.mod_eq_of_lt (by omega)
  simp only [reclaim, add_u32, outcome_bind, outcome_get, hw, hmod]
  rw [if_pos (by omega), outcome_pure, outcome_set]
  split
  · have hfit : METADATA_SIZE + s.as_ref.length ≤ s.mem.length := by rw [hs.length_as_ref]; omega
    have hlen := length_splice hfit
    refine (outcome_write ?_).2 ?_
    · exact hfit
    refine ⟨⟨⟨Nat.le_refl _, ?_, rfl, hlen ▸ hsm, fun hu => hlen.trans (hs.tagged hu)⟩, rfl, hlen, .inl h1⟩, ?_, rfl⟩
    · change METADATA_SIZE + (s.len + (s.mem.length - s.len - METADATA_SIZE)) = (splice s.mem METADATA_SIZE s.as_ref).length
      omega
    · have := slice_splice_self (d := s.as_ref) (show METADATA_SIZE ≤ s.mem.length by omega)
      rwa [hs.length_as_ref] at this
  next h0 =>
    have h0 : s.len = 0 := by simpa using h0
    refine ⟨⟨⟨Nat.le_refl _, ?_, rfl, hsm, hs.tagged⟩, rfl, rfl, .inl h1⟩, ?_, rfl⟩
    · change METADATA_SIZE + (s.len + (s.mem.length - s.len - METADATA_SIZE)) = s.mem.length
      omega
    · rw [as_ref, as_ref, h0, slice_zero, slice_zero]

lemma write_at_spec (hs : s.Wf) (h : pos + src.length ≤ s.len) :
    Outcome (write_at pos src) s E fun _ s' => Mutates s s' ∧ s'.as_ref = splice s.as_ref pos src := by
  have hw := hs.window
  have hr := hs.room
  have hfit : s.offset + pos + src.length ≤ s.mem.length := by omega
  have hlen := length_splice hfit
  simp only [write_at, outcome_bind, outcome_get, if_pos h]
  rw [outcome_write hfit]
  refine ⟨⟨⟨hs.data, hw.trans hlen.symm, hr, hlen ▸ hs.small, fun hu => hlen.trans (hs.tagged hu)⟩, rfl, hlen,
    .inr ⟨Nat.le_refl _, take_splice (by omega) (by omega)⟩⟩, ?_⟩
  exact slice_splice_inside h (by dsimp only; omega)

lemma write_at_beyond (h : ¬ pos + src.length ≤ s.len) : Outcome (write_at pos src) s (· = .bounds) Q := by
  simp only [write_at, outcome_bind, outcome_get, if_neg h, outcome_throw]

end SharedVec

end Geario.Buffers
