import Mathlib
/-!
# Incremental decoders

A decoder looks at the front of a buffer and either needs more or returns an
item and how much of the buffer it was made of. `items` is what a whole buffer
decodes to. An item that is already complete is not changed by what follows, so
the items of a buffer can be taken out one by one while it grows
(`items_append`).
-/

namespace Lib

structure Decoder (α ι : Type) where
  decode : List α → Option (ι × Nat)
  /-- an item consumes something, and no more than there is -/
  consumes : ∀ {b x n}, decode b = some (x, n) → 0 < n ∧ n ≤ b.length
  stable : ∀ {b r}, decode b = some r → ∀ c, decode (b ++ c) = some r

namespace Decoder

variable {α ι : Type} (d : Decoder α ι) {b : List α} {x : ι} {n : Nat}

lemma length_drop_lt (h : d.decode b = some (x, n)) : (b.drop n).length < b.length := by
  obtain ⟨hpos, hle⟩ := d.consumes h
  rw [List.length_drop]
  omega

/-- Decoding from the start until more is needed. -/
def items (b : List α) : List ι :=
  match _h : d.decode b with
  | none => []
  | some (x, n) => x :: items (b.drop n)
termination_by b.length
decreasing_by exact d.length_drop_lt _h

variable {d}

lemma items_of_none (h : d.decode b = none) : d.items b = [] := by
  rw [items]
  split
  · rfl
  next hs =>
    rw [h] at hs
    cases hs

lemma items_of_some (h : d.decode b = some (x, n)) : d.items b = x :: d.items (b.drop n) := by
  rw [items]
  split
  next hs =>
    rw [h] at hs
    cases hs
  next hs =>
    rw [h] at hs
    cases hs
    rfl

lemma items_append (h : d.decode b = some (x, n)) (c : List α) : d.items (b ++ c) = x :: d.items (b.drop n ++ c) := by
  rw [items_of_some (d.stable h c), List.drop_append_of_le_length (d.consumes h).2]

end Decoder

end Lib
