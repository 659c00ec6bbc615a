import Mathlib
/-!
# Buffers

A buffer is a list. `slice l off n` reads `n` elements from `off`, `splice l
pos d` overwrites the elements from `pos` on with `d`. Reads below `pos` see
the old buffer, a read that covers what was written sees it.
-/

open List

namespace Lib

variable {α : Type} {l l' d : List α} {off n m pos : Nat}

/-- The `n` elements from `off` on. -/
def slice (l : List α) (off n : Nat) : List α := (l.drop off).take n

def splice (l : List α) (pos : Nat) (d : List α) : List α := l.take pos ++ d ++ l.drop (pos + d.length)

@[simp] lemma slice_zero : slice l off 0 = [] := take_zero

lemma length_slice (h : off + n ≤ l.length) : (slice l off n).length = n := by
  rw [slice, length_take, length_drop]
  omega

lemma length_splice (h : pos + d.length ≤ l.length) : (splice l pos d).length = l.length := by
  rw [splice, length_append, length_append, length_take, length_drop]
  omega

lemma drop_slice (k : Nat) : (slice l off n).drop k = slice l (off + k) (n - k) := by
  rw [slice, slice, drop_take, drop_drop]

lemma take_slice (h : m ≤ n) : (slice l off n).take m = slice l off m := by
  rw [slice, slice, take_take, Nat.min_eq_left h]

lemma slice_add : slice l off (m + n) = slice l off m ++ slice l (off + m) n := by
  rw [slice, slice, slice, take_add, drop_drop]

lemma slice_eq_of_take (h : l'.take m = l.take m) (hm : off + n ≤ m) : slice l' off n = slice l off n := by
  have hcut : ∀ x : List α, slice x off n = slice (x.take m) off n := fun x => by
    rw [slice, slice, drop_take, take_take, Nat.min_eq_left (by omega)]
  rw [hcut l', hcut l, h]

lemma take_splice (hm : m ≤ pos) (hpos : pos ≤ l.length) : (splice l pos d).take m = l.take m := by
  rw [splice, append_assoc, take_append_of_le_length (by rw [length_take]; omega), take_take, Nat.min_eq_left hm]

lemma slice_splice_self (hpos : pos ≤ l.length) : slice (splice l pos d) pos d.length = d := by
  have htake : (l.take pos).length = pos := by rw [length_take]; omega
  rw [slice, splice, append_assoc, drop_append_of_le_length (by omega), drop_of_length_le (by omega), nil_append, take_left]

lemma slice_splice_end (h : off + n ≤ l.length) :
    slice (splice l (off + n) d) off (n + d.length) = slice l off n ++ d := by
  rw [slice_add, slice_splice_self h, slice_eq_of_take (take_splice (Nat.le_refl _) h) (Nat.le_refl _)]

lemma slice_splice_inside (hn : pos + d.length ≤ n) (h : off + n ≤ l.length) :
    slice (splice l (off + pos) d) off n = splice (slice l off n) pos d := by
  obtain ⟨k, rfl⟩ : ∃ k, n = pos + d.length + k := ⟨n - (pos + d.length), by omega⟩
  have hlen : (l.take (off + pos) ++ d).length = off + (pos + d.length) := by
    rw [length_append, length_take]; omega
  have htail : slice (splice l (off + pos) d) (off + (pos + d.length)) k = slice l (off + (pos + d.length)) k := by
    rw [slice, splice, drop_append_of_le_length (by omega), drop_of_length_le (by omega), nil_append, slice, Nat.add_assoc]
  rw [slice_add, slice_splice_end (by omega), htail, splice, take_slice (by omega), drop_slice, Nat.add_sub_cancel_left]

lemma take_min_length {l : List α} {n : Nat} : l.take (min l.length n) = l.take n := by
  rw [Nat.min_comm, ← take_take, take_length]

lemma drop_min_length {l : List α} {n : Nat} : l.drop (min l.length n) = l.drop n := by
  rcases Nat.le_total l.length n with hle | hle
  · rw [Nat.min_eq_left hle, drop_of_length_le (Nat.le_refl _), drop_of_length_le hle]
  · rw [Nat.min_eq_right hle]

end Lib
