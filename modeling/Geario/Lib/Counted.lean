import Geario.Lib.Parties
/-!
# Reference counts

Allocations with a strong count, and a list of what is held: one entry for each
handle. `Counted` says that the counts are right and that an allocation was freed
once when its count came to zero, and not before. A handle keeps what it holds
alive (`Counted.alive`).
-/

open Lib List

namespace Lib

/-- An allocation: its strong count, how often it was freed, and what is in it. -/
structure Cell (α : Type) where
  strong : Nat
  frees : Nat
  val : α
  deriving DecidableEq

namespace Cell

variable {α : Type}

def retain (c : Cell α) : Cell α := { c with strong := c.strong + 1 }

def release (c : Cell α) : Cell α :=
  { c with strong := c.strong - 1, frees := if c.strong = 1 then c.frees + 1 else c.frees }

def put (f : α → α) (c : Cell α) : Cell α := { c with val := f c.val }

end Cell

def freed {α : Type} (cells : List (Cell α)) (i : Nat) : Bool :=
  match cells[i]? with
  | some c => c.frees ≠ 0
  | none => true

structure Counted {α : Type} (cells : List (Cell α)) (held : List Nat) : Prop where
  count {i : Nat} {c : Cell α} (h : cells[i]? = some c) : c.strong = held.count i
  frees {i : Nat} {c : Cell α} (h : cells[i]? = some c) : c.frees = if c.strong = 0 then 1 else 0
  lt {i : Nat} (h : i ∈ held) : i < cells.length

namespace Counted

variable {α : Type} {cells : List (Cell α)} {held held' : List Nat} {i : Nat}

lemma nil : Counted ([] : List (Cell α)) [] := ⟨nofun, nofun, nofun⟩

section

variable (h : Counted cells held)
include h

lemma perm (hp : held.Perm held') : Counted cells held' where
  count hc := (h.count hc).trans (hp.count_eq _)
  frees := h.frees
  lt hi := h.lt (hp.mem_iff.2 hi)

lemma alive (hi : i ∈ held) : freed cells i = false := by
  have hc := getElem?_eq_getElem (h.lt hi)
  have hpos := count_pos_iff.2 hi
  have hfrees := h.frees hc
  rw [h.count hc, if_neg (Nat.ne_of_gt hpos)] at hfrees
  rw [freed, hc]
  exact decide_eq_false (not_not_intro hfrees)

lemma alloc (a : α) : Counted (cells ++ [⟨1, 0, a⟩]) (cells.length :: held) where
  count {j c} hc := by
    rcases at_of_append hc with hc | ⟨rfl, rfl⟩
    · have hne : cells.length ≠ j := Nat.ne_of_gt (at_lt hc)
      rw [count_cons_of_ne hne]
      exact h.count hc
    · have hnot : held.count cells.length = 0 := count_eq_zero.2 fun hm => Nat.lt_irrefl _ (h.lt hm)
      rw [count_cons_self, hnot]
  frees {j c} hc := by
    rcases at_of_append hc with hc | ⟨-, rfl⟩
    · exact h.frees hc
    · rfl
  lt {j} hj := by
    rw [length_append]
    rcases mem_cons.1 hj with rfl | hj
    · exact Nat.lt_succ_self _
    · exact Nat.lt_succ_of_lt (h.lt hj)

lemma retain (hi : i ∈ held) : Counted (cells.modify i Cell.retain) (i :: held) where
  count {j c} hc := by
    rcases at_of_modify hc with ⟨rfl, c', hc', rfl⟩ | ⟨hne, hc⟩
    · rw [count_cons_self, Cell.retain, h.count hc']
    · rw [count_cons_of_ne hne.symm]
      exact h.count hc
  frees {j c} hc := by
    rcases at_of_modify hc with ⟨rfl, c', hc', rfl⟩ | ⟨-, hc⟩
    · have hpos := count_pos_iff.2 hi
      rw [Cell.retain, h.frees hc', h.count hc', if_neg (Nat.ne_of_gt hpos), if_neg (Nat.succ_ne_zero _)]
    · exact h.frees hc
  lt {j} hj := by
    rw [length_modify]
    rcases mem_cons.1 hj with rfl | hj
    · exact h.lt hi
    · exact h.lt hj

end

lemma release (h : Counted cells (i :: held)) : Counted (cells.modify i Cell.release) held where
  count {j c} hc := by
    rcases at_of_modify hc with ⟨rfl, c', hc', rfl⟩ | ⟨hne, hc⟩
    · rw [Cell.release, h.count hc', count_cons_self, Nat.add_sub_cancel]
    · rw [h.count hc, count_cons_of_ne hne.symm]
  frees {j c} hc := by
    rcases at_of_modify hc with ⟨rfl, c', hc', rfl⟩ | ⟨-, hc⟩
    · have hcount := h.count hc'
      rw [count_cons_self] at hcount
      have hfrees := h.frees hc'
      rw [if_neg (by omega)] at hfrees
      show (if c'.strong = 1 then c'.frees + 1 else c'.frees) = if c'.strong - 1 = 0 then 1 else 0
      rw [hfrees]
      by_cases h1 : c'.strong = 1
      · rw [if_pos h1, if_pos (by omega)]
      · rw [if_neg h1, if_neg (by omega)]
    · exact h.frees hc
  lt {j} hj := by
    rw [length_modify]
    exact h.lt (mem_cons_of_mem _ hj)

lemma put (h : Counted cells held) (f : α → α) : Counted (cells.modify i (Cell.put f)) held where
  count {j c} hc := by
    rcases at_of_modify hc with ⟨rfl, c', hc', rfl⟩ | ⟨-, hc⟩
    · rw [← h.count hc', Cell.put]
    · exact h.count hc
  frees {j c} hc := by
    rcases at_of_modify hc with ⟨rfl, c', hc', rfl⟩ | ⟨-, hc⟩
    · rw [Cell.put, h.frees hc']
    · exact h.frees hc
  lt hj := by
    rw [length_modify]
    exact h.lt hj

end Counted

section Contents

variable {α : Type} {cells : List (Cell α)} {i j : Nat} {c : Cell α}

lemma val_of_modify (f : Cell α → Cell α) (hf : ∀ c, (f c).val = c.val) (h : (cells.modify i f)[j]? = some c) :
    ∃ c', cells[j]? = some c' ∧ c.val = c'.val := by
  rcases at_of_modify h with ⟨rfl, c', hc', rfl⟩ | ⟨-, hc⟩
  · exact ⟨c', hc', hf c'⟩
  · exact ⟨c, hc, rfl⟩

lemma val_of_retain (h : (cells.modify i Cell.retain)[j]? = some c) : ∃ c', cells[j]? = some c' ∧ c.val = c'.val :=
  val_of_modify Cell.retain (fun _ => rfl) h

lemma val_of_release (h : (cells.modify i Cell.release)[j]? = some c) : ∃ c', cells[j]? = some c' ∧ c.val = c'.val :=
  val_of_modify Cell.release (fun _ => rfl) h

end Contents

lemma perm_eraseIdx {α : Type} {l : List α} {j : Nat} {a : α} (h : l[j]? = some a) : l.Perm (a :: l.eraseIdx j) := by
  obtain ⟨hlt, rfl⟩ := List.getElem?_eq_some_iff.1 h
  exact (getElem_cons_eraseIdx_perm hlt).symm

end Lib
