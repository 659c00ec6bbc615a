import Mathlib
/-!
# Runs of a transition function

`Reach step ok init s` says that `s` is reached from `init` by steps that were
all allowed in the state they were taken in. Properties of a whole run are
proved by `Reach.inv`. `run` takes given steps one after the other, which is how
a particular run is shown to exist (`Reach.of_run`, `Reach.of_steps`, and `Reach.of_run_map` when
only some things are asked of the state it ends in, `Reach.of_run_step` when they
are asked of one more step). A rank that falls with every step bounds the length
of a run (`length_add_rank_le`). What a step was taken under, and where it led, is
read off its guard by `of_ite`, and off its parts by `of_guard`, `of_bind` and
`of_map`.
-/

open Option

namespace Lib

variable {σ ι : Type} {step : σ → ι → Option σ} {ok ok' : σ → ι → Prop} {init s s' t : σ} {is : List ι}

/-- The states reached from `init` by allowed steps. -/
inductive Reach (step : σ → ι → Option σ) (ok : σ → ι → Prop) (init : σ) : σ → Prop
  | refl : Reach step ok init init
  | step {s s' i} : Reach step ok init s → ok s i → step s i = some s' → Reach step ok init s'

namespace Reach

/-- An invariant of the initial state that every allowed step keeps. -/
lemma inv (I : σ → Prop) (h0 : I init) (hs : ∀ s i s', I s → ok s i → step s i = some s' → I s')
    (h : Reach step ok init s) : I s := by
  induction h with
  | refl => exact h0
  | step _ hok hst ih => exact hs _ _ _ ih hok hst

lemma trans (h : Reach step ok init s) (h' : Reach step ok s t) : Reach step ok init t := by
  induction h' with
  | refl => exact h
  | step _ hok hst ih => exact .step ih hok hst

/-- A loop that leads from every state of a family to the next one. -/
lemma iterate (I : Nat → σ → Prop) (h0 : ∃ s, Reach step ok init s ∧ I 0 s) {n : Nat}
    (hs : ∀ k s, k < n → I k s → ∃ s', Reach step ok s s' ∧ I (k + 1) s') :
    ∃ s, Reach step ok init s ∧ I n s := by
  induction n with
  | zero => exact h0
  | succ n ih =>
    obtain ⟨s, hr, hi⟩ := ih fun k s hk => hs k s (by omega)
    obtain ⟨s', hr', hi'⟩ := hs n s (by omega) hi
    exact ⟨s', hr.trans hr', hi'⟩

end Reach

alias ⟨of_guard, _⟩ := Option.ite_none_right_eq_some

alias ⟨of_bind, _⟩ := Option.bind_eq_some_iff

alias ⟨of_map, _⟩ := Option.map_eq_some_iff

lemma of_ite {p : Prop} [Decidable p] (h : (if p then some s else none) = some s') : p ∧ s = s' := by
  obtain ⟨hp, h⟩ := ite_none_right_eq_some.1 h
  exact ⟨hp, some.inj h⟩

lemma of_ite_not {p : Prop} [Decidable p] (h : (if p then none else some s) = some s') : ¬ p ∧ s = s' := by
  obtain ⟨hp, h⟩ := ite_none_left_eq_some.1 h
  exact ⟨hp, some.inj h⟩

def run (step : σ → ι → Option σ) (ok : σ → ι → Prop) [∀ s i, Decidable (ok s i)] : σ → List ι → Option σ
  | s, [] => some s
  | s, i :: is => if ok s i then (step s i).bind (run step ok · is) else none

lemma Reach.of_run [∀ s i, Decidable (ok s i)] (h : run step ok s is = some t) : Reach step ok s t := by
  induction is generalizing s with
  | nil => exact some.inj h ▸ .refl
  | cons i is ih =>
    rw [run] at h
    split at h
    next hok =>
      obtain ⟨s', hst, hrun⟩ := bind_eq_some_iff.1 h
      exact (Reach.refl.step hok hst).trans (ih hrun)
    · cases h

lemma Reach.of_steps [∀ s i, Decidable (ok s i)] (is : List ι) (h : run step ok s is = some t) : Reach step ok s t :=
  .of_run h

/-- Steps that keep an invariant and make a rank smaller. -/
lemma length_add_rank_le [∀ s i, Decidable (ok s i)] {I : σ → Prop} {p : ι → Prop} (rank : σ → Nat)
    (hs : ∀ s i s', p i → I s → ok s i → step s i = some s' → I s' ∧ rank s' < rank s) (hp : ∀ i ∈ is, p i)
    (hi : I s) (h : run step ok s is = some t) : I t ∧ is.length + rank t ≤ rank s := by
  induction is generalizing s with
  | nil =>
    cases h
    exact ⟨hi, Nat.le_of_eq (Nat.zero_add _)⟩
  | cons i is ih =>
    rw [run] at h
    split at h
    case isTrue hok =>
      obtain ⟨s', hst, hrun⟩ := bind_eq_some_iff.1 h
      obtain ⟨hi', hlt⟩ := hs s i s' (hp i List.mem_cons_self) hi hok hst
      obtain ⟨ht, hle⟩ := ih (fun i h => hp i (List.mem_cons_of_mem _ h)) hi' hrun
      rw [List.length_cons]
      exact ⟨ht, by omega⟩
    case isFalse => cases h

lemma Reach.of_run_map {β : Type} [∀ s i, Decidable (ok s i)] (f : σ → β) {b : β}
    (h : (run step ok s is).map f = some b) : ∃ t, Reach step ok s t ∧ f t = b := by
  obtain ⟨t, ht, hb⟩ := map_eq_some_iff.1 h
  exact ⟨t, .of_run ht, hb⟩

lemma Reach.of_run_step {β : Type} [∀ s i, Decidable (ok s i)] (f : σ → σ → β) {b : β} {i : ι}
    (h : ((run step ok s is).bind fun t => (step t i).map (f t)) = some b) :
    ∃ t t', Reach step ok s t ∧ step t i = some t' ∧ f t t' = b := by
  obtain ⟨t, ht, hb⟩ := bind_eq_some_iff.1 h
  obtain ⟨t', ht', hb⟩ := map_eq_some_iff.1 hb
  exact ⟨t, t', .of_run ht, ht', hb⟩

end Lib
