import Mathlib
/-!
# Ordered maps of sets

A map from keys to finite sets, as the list of its entries in the order of the
keys. A key can have the empty set. `Has` is the relation that the map stands
for; every operation is described by what it does to it.
-/

open List

namespace Lib

structure SetMap (κ α : Type) [LinearOrder κ] where
  entries : List (κ × Finset α)
  sorted : entries.Pairwise (·.1 < ·.1)

namespace SetMap

variable {κ α : Type} [LinearOrder κ] {m : SetMap κ α} {key k bound : κ} {a b : α} {s : Finset α} {l : List (κ × Finset α)}

def empty : SetMap κ α := ⟨[], .nil⟩

def isEmpty (m : SetMap κ α) : Bool := m.entries.isEmpty

def Has (m : SetMap κ α) (k : κ) (a : α) : Prop := ∃ s, (k, s) ∈ m.entries ∧ a ∈ s

lemma not_has_of_isEmpty (h : m.isEmpty) : ¬ m.Has k a := by
  rintro ⟨s, hs, -⟩
  rw [isEmpty_iff.1 h] at hs
  cases hs

/-! ## Elements come and go -/

section

variable [DecidableEq α]

def insertList (key : κ) (a : α) : List (κ × Finset α) → List (κ × Finset α)
  | [] => [(key, {a})]
  | (k, s) :: l =>
    if key < k then (key, {a}) :: (k, s) :: l
    else if key = k then (k, Insert.insert a s) :: l
    else (k, s) :: insertList key a l

lemma key_of_mem_insertList {e : κ × Finset α} (h : e ∈ insertList key a l) : e.1 = key ∨ ∃ t, (e.1, t) ∈ l := by
  induction l with
  | nil =>
    obtain rfl := mem_singleton.1 h
    exact .inl rfl
  | cons x l ih =>
    unfold insertList at h
    split at h
    · rcases mem_cons.1 h with rfl | h
      · exact .inl rfl
      · exact .inr ⟨_, h⟩
    · split at h
      case isTrue heq =>
        rcases mem_cons.1 h with rfl | h
        · exact .inl heq.symm
        · exact .inr ⟨_, mem_cons_of_mem _ h⟩
      case isFalse =>
        rcases mem_cons.1 h with rfl | h
        · exact .inr ⟨_, mem_cons_self⟩
        · rcases ih h with h | ⟨t, ht⟩
          · exact .inl h
          · exact .inr ⟨t, mem_cons_of_mem _ ht⟩

lemma pairwise_insertList (h : l.Pairwise (·.1 < ·.1)) : (insertList key a l).Pairwise (·.1 < ·.1) := by
  induction l with
  | nil => exact pairwise_singleton _ _
  | cons x l ih =>
    obtain ⟨hlt, hrest⟩ := pairwise_cons.1 h
    unfold insertList
    split
    case isTrue hk =>
      refine pairwise_cons.2 ⟨fun e he => ?_, h⟩
      rcases mem_cons.1 he with rfl | he
      · exact hk
      · exact lt_trans hk (hlt e he)
    case isFalse hk =>
      split
      case isTrue => exact pairwise_cons.2 ⟨hlt, hrest⟩
      case isFalse hne =>
        refine pairwise_cons.2 ⟨fun e he => ?_, ih hrest⟩
        rcases key_of_mem_insertList he with heq | ⟨t, ht⟩
        · exact heq ▸ lt_of_le_of_ne (not_lt.1 hk) (Ne.symm hne)
        · exact hlt (e.1, t) ht

def insert (m : SetMap κ α) (key : κ) (a : α) : SetMap κ α := ⟨insertList key a m.entries, pairwise_insertList m.sorted⟩

lemma mem_insertList (h : l.Pairwise (·.1 < ·.1)) :
    (∃ s, (k, s) ∈ insertList key a l ∧ b ∈ s) ↔ (k = key ∧ b = a) ∨ ∃ s, (k, s) ∈ l ∧ b ∈ s := by
  induction l with
  | nil => simp [insertList]
  | cons x l ih =>
    obtain ⟨hlt, hrest⟩ := pairwise_cons.1 h
    obtain ⟨k', s'⟩ := x
    unfold insertList
    split
    · simp only [mem_cons, Prod.mk.injEq]
      constructor
      · rintro ⟨s, ⟨rfl, rfl⟩ | hs, hb⟩
        · exact .inl ⟨rfl, Finset.mem_singleton.1 hb⟩
        · exact .inr ⟨s, hs, hb⟩
      · rintro (⟨rfl, rfl⟩ | ⟨s, hs, hb⟩)
        · exact ⟨_, .inl ⟨rfl, rfl⟩, Finset.mem_singleton_self _⟩
        · exact ⟨s, .inr hs, hb⟩
    · split
      case isTrue heq =>
        subst heq
        simp only [mem_cons, Prod.mk.injEq]
        constructor
        · rintro ⟨s, ⟨rfl, rfl⟩ | hs, hb⟩
          · rcases Finset.mem_insert.1 hb with rfl | hb
            · exact .inl ⟨rfl, rfl⟩
            · exact .inr ⟨s', .inl ⟨rfl, rfl⟩, hb⟩
          · exact .inr ⟨s, .inr hs, hb⟩
        · rintro (⟨rfl, rfl⟩ | ⟨s, ⟨rfl, rfl⟩ | hs, hb⟩)
          · exact ⟨_, .inl ⟨rfl, rfl⟩, Finset.mem_insert_self _ _⟩
          · exact ⟨_, .inl ⟨rfl, rfl⟩, Finset.mem_insert_of_mem hb⟩
          · exact ⟨s, .inr hs, hb⟩
      case isFalse =>
        have ih := ih hrest
        simp only [mem_cons, Prod.mk.injEq]
        constructor
        · rintro ⟨s, ⟨rfl, rfl⟩ | hs, hb⟩
          · exact .inr ⟨s, .inl ⟨rfl, rfl⟩, hb⟩
          · rcases ih.1 ⟨s, hs, hb⟩ with h | ⟨s, hs, hb⟩
            · exact .inl h
            · exact .inr ⟨s, .inr hs, hb⟩
        · rintro (h | ⟨s, ⟨rfl, rfl⟩ | hs, hb⟩)
          · obtain ⟨s, hs, hb⟩ := ih.2 (.inl h)
            exact ⟨s, .inr hs, hb⟩
          · exact ⟨s, .inl ⟨rfl, rfl⟩, hb⟩
          · obtain ⟨s, hs, hb⟩ := ih.2 (.inr ⟨s, hs, hb⟩)
            exact ⟨s, .inr hs, hb⟩

lemma has_insert : (m.insert key a).Has k b ↔ (k = key ∧ b = a) ∨ m.Has k b := mem_insertList m.sorted

def erase (m : SetMap κ α) (key : κ) (a : α) : SetMap κ α :=
  ⟨m.entries.map fun e => (e.1, if e.1 = key then e.2.erase a else e.2), List.pairwise_map.2 m.sorted⟩

lemma has_erase : (m.erase key a).Has k b ↔ m.Has k b ∧ ¬ (k = key ∧ b = a) := by
  constructor
  · rintro ⟨s, hs, hb⟩
    obtain ⟨⟨k', t⟩, ht, heq⟩ := mem_map.1 hs
    cases heq
    split at hb
    case isTrue hk =>
      obtain ⟨hne, hb⟩ := Finset.mem_erase.1 hb
      exact ⟨⟨t, ht, hb⟩, fun h => hne h.2⟩
    case isFalse hk => exact ⟨⟨t, ht, hb⟩, fun h => hk h.1⟩
  · rintro ⟨⟨s, hs, hb⟩, hnot⟩
    refine ⟨_, mem_map.2 ⟨_, hs, rfl⟩, ?_⟩
    split
    case isTrue hk => exact Finset.mem_erase.2 ⟨fun h => hnot ⟨hk, h⟩, hb⟩
    case isFalse => exact hb

lemma isEmpty_erase : (m.erase key a).isEmpty = m.isEmpty := isEmpty_map

end

/-! ## The first entries are taken -/

/-- Entries are removed from the front while their key is not above the bound. -/
def takeList (bound : κ) : List (κ × Finset α) → List (Finset α) × List (κ × Finset α)
  | [] => ([], [])
  | (k, s) :: l =>
    if k ≤ bound then
      let r := takeList bound l
      (s :: r.1, r.2)
    else ([], (k, s) :: l)

lemma takeList_suffix (bound : κ) (l : List (κ × Finset α)) : (takeList bound l).2 <:+ l := by
  induction l with
  | nil => exact suffix_refl _
  | cons e l ih =>
    unfold takeList
    split
    · exact ih.trans (suffix_cons _ _)
    · exact suffix_refl _

def take (m : SetMap κ α) (bound : κ) : List (Finset α) × SetMap κ α :=
  ((takeList bound m.entries).1, ⟨(takeList bound m.entries).2, m.sorted.sublist (takeList_suffix bound m.entries).sublist⟩)

lemma mem_takeList (h : l.Pairwise (·.1 < ·.1)) :
    (s ∈ (takeList bound l).1 ↔ ∃ k ≤ bound, (k, s) ∈ l) ∧ ((k, s) ∈ (takeList bound l).2 ↔ (k, s) ∈ l ∧ bound < k) := by
  induction l with
  | nil => simp [takeList]
  | cons x l ih =>
    obtain ⟨hlt, hrest⟩ := pairwise_cons.1 h
    obtain ⟨k', s'⟩ := x
    obtain ⟨ih1, ih2⟩ := ih hrest
    unfold takeList
    split
    case isTrue hk =>
      refine ⟨?_, ?_⟩
      · rw [mem_cons, ih1]
        constructor
        · rintro (rfl | ⟨q, hq, hm⟩)
          · exact ⟨k', hk, mem_cons_self⟩
          · exact ⟨q, hq, mem_cons_of_mem _ hm⟩
        · rintro ⟨q, hq, hm⟩
          rcases mem_cons.1 hm with heq | hm
          · exact .inl (Prod.mk.inj heq).2
          · exact .inr ⟨q, hq, hm⟩
      · rw [ih2, mem_cons]
        constructor
        · exact fun ⟨hm, hb⟩ => ⟨.inr hm, hb⟩
        · rintro ⟨heq | hm, hb⟩
          · cases heq
            exact absurd hk (not_le.2 hb)
          · exact ⟨hm, hb⟩
    case isFalse hk =>
      have hk := not_le.1 hk
      -- the keys that follow are larger still
      have hall : ∀ q t, (q, t) ∈ (k', s') :: l → bound < q := by
        intro q t hm
        rcases mem_cons.1 hm with heq | hm
        · exact (Prod.mk.inj heq).1 ▸ hk
        · exact lt_trans hk (hlt _ hm)
      refine ⟨⟨nofun, ?_⟩, fun hm => ⟨hm, hall _ _ hm⟩, fun hm => hm.1⟩
      rintro ⟨q, hq, hm⟩
      exact absurd hq (not_le.2 (hall q s hm))

lemma mem_take : (∃ s ∈ (m.take bound).1, a ∈ s) ↔ ∃ k ≤ bound, m.Has k a := by
  constructor
  · rintro ⟨s, hs, ha⟩
    obtain ⟨k, hk, hm⟩ := (mem_takeList (k := bound) m.sorted).1.1 hs
    exact ⟨k, hk, s, hm, ha⟩
  · rintro ⟨k, hk, s, hm, ha⟩
    exact ⟨s, (mem_takeList (k := bound) m.sorted).1.2 ⟨k, hk, hm⟩, ha⟩

lemma has_take : (m.take bound).2.Has k a ↔ m.Has k a ∧ bound < k := by
  constructor
  · rintro ⟨s, hs, ha⟩
    obtain ⟨hm, hk⟩ := (mem_takeList m.sorted).2.1 hs
    exact ⟨⟨s, hm, ha⟩, hk⟩
  · rintro ⟨⟨s, hm, ha⟩, hk⟩
    exact ⟨s, (mem_takeList m.sorted).2.2 ⟨hm, hk⟩, ha⟩

end SetMap

end Lib
