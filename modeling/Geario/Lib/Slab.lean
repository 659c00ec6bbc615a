import Mathlib
/-!
# Slabs

A slab stores values under natural-number keys. An insertion goes to a vacant
key; which one is up to the allocator, so `insert` takes the key and a caller
assumes only that it was vacant. `values` lists what is stored, in no
particular order: it is what draining the slab yields.
-/

namespace Lib

open AList

def Slab (α : Type) : Type := AList (fun _ : Nat => α)

namespace Slab

variable {α : Type} {s : Slab α} {a : α}

def empty : Slab α := (∅ : AList fun _ : Nat => α)

def get (s : Slab α) (k : Nat) : Option α := AList.lookup k s

def contains (s : Slab α) (k : Nat) : Bool := (s.get k).isSome

def insert (s : Slab α) (k : Nat) (a : α) : Slab α := AList.insert k a s

def remove (s : Slab α) (k : Nat) : Slab α := AList.erase k s

def is_empty (s : Slab α) : Bool := (AList.entries s).isEmpty

def values (s : Slab α) : List α := (AList.entries s).map (·.2)

@[simp] lemma get_empty (k : Nat) : (empty : Slab α).get k = none := rfl

lemma get_insert (s : Slab α) (k j : Nat) (a : α) : (s.insert k a).get j = if j = k then some a else s.get j := by
  split
  · rename_i h; subst h; exact lookup_insert s
  · rename_i h; exact lookup_insert_ne h

@[simp] lemma get_insert_self (s : Slab α) (k : Nat) (a : α) : (s.insert k a).get k = some a := by
  simp [get_insert]

lemma get_remove (s : Slab α) (k j : Nat) : (s.remove k).get j = if j = k then none else s.get j := by
  split
  · rename_i h; subst h; exact lookup_erase j s
  · rename_i h; exact lookup_erase_ne h

@[simp] lemma get_remove_self (s : Slab α) (k : Nat) : (s.remove k).get k = none := by
  simp [get_remove]

variable {k : Nat}

lemma get_of_remove {j : Nat} (h : (s.remove k).get j = some a) : j ≠ k ∧ s.get j = some a := by
  rw [get_remove] at h
  split at h
  · cases h
  next hne => exact ⟨hne, h⟩

lemma forall_insert {P : Nat → α → Prop} (ha : P k a)
    (h : ∀ j b, j ≠ k → s.get j = some b → P j b) : ∀ j b, (s.insert k a).get j = some b → P j b := by
  intro j b hj
  rw [get_insert] at hj
  split at hj
  next heq =>
    cases hj
    exact heq ▸ ha
  next hne => exact h j b hne hj

lemma mem_values : a ∈ s.values ↔ ∃ k, s.get k = some a := by
  simp only [values, get, List.mem_map]
  constructor
  · rintro ⟨⟨k, b⟩, hm, rfl⟩
    exact ⟨k, mem_lookup_iff.2 hm⟩
  · rintro ⟨k, hk⟩
    exact ⟨⟨k, a⟩, mem_lookup_iff.1 hk, rfl⟩

lemma is_empty_iff : s.is_empty ↔ ∀ k, s.get k = none := by
  rw [is_empty, List.isEmpty_iff]
  constructor
  · intro h k
    have : s = (∅ : AList fun _ : Nat => α) := ext h
    rw [this]; rfl
  · intro h
    apply List.eq_nil_iff_forall_not_mem.2
    rintro ⟨k, a⟩ hm
    have := mem_lookup_iff.2 hm
    rw [show lookup k s = none from h k] at this
    cases this

lemma is_empty_false_iff : s.is_empty = false ↔ ∃ k a, s.get k = some a := by
  rw [← Bool.not_eq_true, is_empty_iff]
  push Not
  simp only [Option.ne_none_iff_exists', ne_eq]

lemma values_insert (s : Slab α) (k : Nat) (a : α) : (s.insert k a).values = a :: (s.remove k).values :=
  congrArg (List.map fun e : (_ : Nat) × α => e.2) (entries_insert (β := fun _ => α) (a := k) (b := a) (s := s))

lemma remove_vacant (h : s.get k = none) : s.remove k = s :=
  ext (List.kerase_of_notMem_keys fun hm => lookup_eq_none.1 h (mem_keys.2 hm))

lemma values_perm (h : s.get k = some a) : s.values.Perm (a :: (s.remove k).values) := by
  refine List.Perm.map _ (List.lookup_ext s.nodupKeys (s.insert k a).nodupKeys fun j b => ?_)
  change b ∈ s.get j ↔ b ∈ (s.insert k a).get j
  rw [get_insert]
  split
  next hj => rw [hj, h]
  · exact Iff.rfl

end Slab

end Lib
