import Mathlib
/-!
# A growing ring buffer

A `VecDeque` keeps its elements in an array of `cap` cells, from `head` on and
wrapping around at the end, so its contents come as two slices. What is kept
here is the list of the elements and the two numbers that decide where it is
cut. `push_back` doubles a full array and moves the smaller part; `drain_front`
is `drain(0..n)`.
-/

namespace Lib

structure VecDeque (α : Type) where
  items : List α
  cap : Nat
  head : Nat
  fits : items.length ≤ cap
  inside : head = 0 ∨ head < cap

namespace VecDeque

variable {α : Type}

def with_capacity (cap : Nat) : VecDeque α :=
  { items := [], cap, head := 0, fits := Nat.zero_le _, inside := .inl rfl }

def first (d : VecDeque α) : Nat := min d.items.length (d.cap - d.head)

def as_slices (d : VecDeque α) : List α × List α := (d.items.take d.first, d.items.drop d.first)

/-- A wrapped deque is made contiguous when its second part is the smaller one and fits, else the first part moves to the
new end. -/
def grow (d : VecDeque α) : VecDeque α :=
  let cap := max (2 * d.cap) 4
  let tail := d.items.length - (d.cap - d.head)
  { items := d.items, cap
    head := if tail = 0 ∨ (tail < d.cap - d.head ∧ tail ≤ cap - d.cap) then d.head else cap - (d.cap - d.head)
    fits := Nat.le_trans d.fits (by omega)
    inside := by
      have := d.inside
      have := d.fits
      split <;> omega }

def push_back (d : VecDeque α) (x : α) : VecDeque α :=
  if h : d.items.length < d.cap then
    { d with items := d.items ++ [x], fits := by rw [List.length_append]; exact h }
  else
    { d.grow with
      items := d.items ++ [x]
      fits := by
        have := d.fits
        rw [List.length_append, List.length_singleton, grow]
        dsimp only
        omega }

def drain_front (d : VecDeque α) (n : Nat) : VecDeque α :=
  { d with
    items := d.items.drop n
    head := if d.items.length ≤ n then 0 else if d.head + n < d.cap then d.head + n else d.head + n - d.cap
    fits := by
      have := d.fits
      rw [List.length_drop]
      omega
    inside := by
      have := d.fits
      have := d.inside
      split
      · omega
      · split <;> omega }

variable {d : VecDeque α} {x : α} {n : Nat}

@[simp] lemma items_push_back : (d.push_back x).items = d.items ++ [x] := by
  unfold push_back
  split <;> rfl

@[simp] lemma items_drain_front : (d.drain_front n).items = d.items.drop n := rfl

lemma first_le : d.first ≤ d.items.length := Nat.min_le_left _ _

lemma first_pos (h : d.items ≠ []) : 0 < d.first := by
  have := List.length_pos_of_ne_nil h
  have := d.fits
  have := d.inside
  rw [first]
  omega

lemma length_first_slice : d.as_slices.1.length = d.first := by
  rw [as_slices, List.length_take, Nat.min_eq_left first_le]

end VecDeque

end Lib
