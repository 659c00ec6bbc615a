import Mathlib
/-!
# Parties

A list that holds, for each party of a system, the point its program has
reached. One party moves at a time (`List.set`), and new ones come at the end,
so that an index stays the name of a party.
-/

open List

namespace Lib

variable {α : Type} {l : List α} {i : Nat} {a b : α}

lemma at_lt (h : l[i]? = some a) : i < l.length := by
  obtain ⟨hlt, -⟩ := List.getElem?_eq_some_iff.1 h
  exact hlt

lemma at_append (h : l[i]? = some a) {l' : List α} : (l ++ l')[i]? = some a :=
  (getElem?_append_left (at_lt h)).trans h

lemma at_set (h : l[i]? = some a) (b : α) : (l.set i b)[i]? = some b :=
  getElem?_set_self (at_lt h)

lemma at_set_other {j : Nat} {x : α} (h : l[i]? = some a) (hx : l[j]? = some x) (hne : x ≠ a) (b : α) : (l.set i b)[j]? = some x := by
  refine (getElem?_set_ne ?_).trans hx
  rintro rfl
  exact hne (Option.some.inj (hx.symm.trans h))

lemma at_of_set {j : Nat} {x : α} (h : (l.set i b)[j]? = some x) : (j = i ∧ x = b) ∨ (j ≠ i ∧ l[j]? = some x) := by
  rcases eq_or_ne i j with rfl | hne
  · obtain ⟨hlt, heq⟩ := List.getElem?_eq_some_iff.1 h
    exact .inl ⟨rfl, heq.symm.trans (getElem_set_self _)⟩
  · exact .inr ⟨hne.symm, (getElem?_set_ne hne).symm.trans h⟩

lemma at_modify {f : α → α} (h : l[i]? = some a) : (l.modify i f)[i]? = some (f a) := by
  rw [getElem?_modify, h]
  exact congrArg some (if_pos rfl)

lemma at_of_modify {f : α → α} {j : Nat} {x : α} (h : (l.modify i f)[j]? = some x) :
    (j = i ∧ ∃ a, l[i]? = some a ∧ x = f a) ∨ (j ≠ i ∧ l[j]? = some x) := by
  rw [getElem?_modify] at h
  obtain ⟨a, ha, hx⟩ := Option.map_eq_some_iff.1 h
  rcases eq_or_ne i j with rfl | hne
  · rw [if_pos rfl] at hx
    exact .inl ⟨rfl, a, ha, hx.symm⟩
  · rw [if_neg hne] at hx
    exact .inr ⟨hne.symm, hx ▸ ha⟩

lemma at_of_append {x : α} (h : (l ++ [b])[i]? = some x) : l[i]? = some x ∨ (i = l.length ∧ x = b) := by
  by_cases hi : i < l.length
  · rw [getElem?_append_left hi] at h
    exact .inl h
  · rw [getElem?_append_right (Nat.le_of_not_lt hi)] at h
    obtain ⟨hlt, heq⟩ := List.getElem?_eq_some_iff.1 h
    have hlt : i - l.length < 1 := hlt
    refine .inr ⟨by omega, heq.symm.trans ?_⟩
    exact getElem_singleton _

lemma sum_set {f : α → Nat} (h : l[i]? = some a) (b : α) : ((l.set i b).map f).sum + f a = (l.map f).sum + f b := by
  induction l generalizing i with
  | nil => cases h
  | cons x xs ih =>
    cases i with
    | zero =>
      cases h
      simp only [set_cons_zero, map_cons, sum_cons]
      omega
    | succ i =>
      have hrest := ih h
      simp only [set_cons_succ, map_cons, sum_cons]
      omega

lemma countP_set {p : α → Bool} (h : l[i]? = some a) (b : α) :
    (l.set i b).countP p + (if p a then 1 else 0) = l.countP p + if p b then 1 else 0 := by
  induction l generalizing i with
  | nil => cases h
  | cons x xs ih =>
    cases i with
    | zero =>
      cases h
      simp only [set_cons_zero, countP_cons]
      omega
    | succ i =>
      have hrest := ih h
      simp only [set_cons_succ, countP_cons]
      omega

lemma exists_mem_set {p : α → Prop} (h : l[i]? = some a) (hkeep : p a → p b) (hp : ∃ x ∈ l, p x) : ∃ x ∈ l.set i b, p x := by
  obtain ⟨x, hx, hpx⟩ := hp
  obtain ⟨j, hj⟩ := mem_iff_getElem?.1 hx
  rcases eq_or_ne i j with rfl | hne
  · cases hj.symm.trans h
    exact ⟨b, mem_of_getElem? (at_set h b), hkeep hpx⟩
  · exact ⟨x, mem_of_getElem? ((getElem?_set_ne hne).trans hj), hpx⟩

end Lib
