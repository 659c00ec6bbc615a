import Geario.Io.State
/-!
# Pages on their way to the socket

A driver takes pages out of the write buffer, offers them to the socket in one
call, advances them by what was accepted and puts the rest back. How the
content of the buffer is cut into pages depends on how it was written, so the
cuts are an argument: `take` may return a page of any length, also an empty one,
and returns nothing only when the buffer is empty.
-/

open List Option

namespace Geario.Io

def gather (items size : Nat) (cuts : List Nat) (buf : Data) : Option (List Data × Data) :=
  match items, cuts with
  | 0, [] => some ([], buf)
  | 0, _ :: _ => none
  | _ + 1, [] => if size = 0 ∨ buf = [] then some ([], buf) else none
  | items + 1, k :: cuts =>
    if size ≠ 0 ∧ k ≤ buf.length then
      (gather items (size - k) cuts (buf.drop k)).map fun r => (buf.take k :: r.1, r.2)
    else none

def advance (n : Nat) : List Data → List Data
  | [] => []
  | page :: pages =>
    let len := min page.length n
    page.drop len :: if n - len = 0 then pages else advance (n - len) pages

def prepend_all (pages : List Data) (buf : Data) : Data := pages.foldr (fun page buf => if page = [] then buf else page ++ buf) buf

def IoState.processed (s : IoState) : IoState := { s with buffer := s.buffer.process_write_buf }

def IoState.with_write (s : IoState) (write : Data) : IoState := { s with buffer.write := write }

variable {items size n : Nat} {cuts : List Nat} {buf rest : Data} {pages : List Data}

lemma gather_flatten (h : gather items size cuts buf = some (pages, rest)) : pages.flatten ++ rest = buf := by
  induction items generalizing size cuts buf pages with
  | zero =>
    cases cuts with
    | nil =>
      cases h
      rfl
    | cons k cuts => cases h
  | succ items ih =>
    cases cuts with
    | nil =>
      obtain ⟨-, h⟩ := ite_none_right_eq_some.1 h
      cases h
      rfl
    | cons k cuts =>
      obtain ⟨-, h⟩ := ite_none_right_eq_some.1 h
      obtain ⟨r, hr, heq⟩ := map_eq_some_iff.1 h
      cases heq
      rw [flatten_cons, append_assoc, ih hr, take_append_drop]

lemma advance_flatten : (advance n pages).flatten = pages.flatten.drop n := by
  induction pages generalizing n with
  | nil => rw [advance, flatten_nil, drop_nil]
  | cons page pages ih =>
    rw [advance, flatten_cons, flatten_cons, drop_append]
    congr 1
    · rcases Nat.le_total page.length n with hle | hle
      · rw [Nat.min_eq_left hle, drop_length, drop_of_length_le hle]
      · rw [Nat.min_eq_right hle]
    · rcases Nat.le_total page.length n with hle | hle
      · rw [Nat.min_eq_left hle]
        split
        next h0 => rw [h0, drop_zero]
        · exact ih
      · rw [Nat.min_eq_right hle, Nat.sub_self, if_pos rfl, Nat.sub_eq_zero_of_le hle, drop_zero]

lemma prepend_all_eq : prepend_all pages buf = pages.flatten ++ buf := by
  induction pages with
  | nil => rfl
  | cons page pages ih =>
    rw [prepend_all, foldr_cons, ← prepend_all, ih, flatten_cons, append_assoc]
    split
    next h => rw [h, nil_append]
    · rfl

end Geario.Io
