import Geario.Lib.Run
/-!
# Infinite runs

A `Run` is an infinite sequence of states and of the steps between them. What is
assumed of the scheduler and of the outside world is said of such runs. A
quantity that never grows is constant from some point on (`eventually_const`),
so that it is enough to refute that nothing changes any more. `Run.ensures` is
the rule for one step that is known to come.

`Run.of_loop` is the run that takes given steps and then the same step for ever.
-/

namespace Lib

variable {σ ι : Type} {step : σ → ι → Option σ} {init : σ}

structure Run (step : σ → ι → Option σ) (init : σ) where
  state : Nat → σ
  act : Nat → ι
  start : state 0 = init
  next : ∀ n, step (state n) (act n) = some (state (n + 1))

namespace Run

lemma reach_of {ok : σ → ι → Prop} (r : Run step init) (h : ∀ n, ok (r.state n) (r.act n)) (n : Nat) :
    Reach step ok init (r.state n) := by
  induction n with
  | zero =>
    rw [r.start]
    exact .refl
  | succ n ih => exact .step ih (h n) (r.next n)

lemma reach (r : Run step init) (n : Nat) : Reach step (fun _ _ => True) init (r.state n) := r.reach_of (fun _ => trivial) n

/-- A step that stays enabled is taken at some time. -/
def WeaklyFair (r : Run step init) (enabled : σ → Prop) (taken : ι → Prop) : Prop :=
  ∀ n, ∃ m ≥ n, enabled (r.state m) → taken (r.act m)

variable {taken : ι → Prop} {n : Nat}

/-- `P` stays until `Q` holds, and the step that is enabled meanwhile leads to `Q`. -/
lemma ensures {r : Run step init} {enabled P Q : σ → Prop} (hfair : r.WeaklyFair enabled taken)
    (hen : ∀ s, P s → enabled s) (h : P (r.state n))
    (hstay : ∀ m ≥ n, P (r.state m) → P (r.state (m + 1)) ∨ Q (r.state (m + 1)))
    (hdone : ∀ m ≥ n, P (r.state m) → taken (r.act m) → Q (r.state (m + 1))) : ∃ m ≥ n, Q (r.state m) := by
  refine Classical.byContradiction fun hnever => ?_
  have hall : ∀ m ≥ n, P (r.state m) := by
    intro m hm
    induction m, hm using Nat.le_induction with
    | base => exact h
    | succ m hm ih => exact (hstay m hm ih).resolve_right fun hq => hnever ⟨m + 1, Nat.le_succ_of_le hm, hq⟩
  obtain ⟨m, hm, ha⟩ := hfair n
  exact hnever ⟨m + 1, Nat.le_succ_of_le hm, hdone m hm (hall m hm) (ha (hen _ (hall m hm)))⟩

end Run

lemma eventually_const {f : Nat → Nat} (h : ∀ m ≥ n, f (m + 1) ≤ f m) : ∃ k ≥ n, ∀ m ≥ k, f m = f k := by
  induction hv : f n using Nat.strongRecOn generalizing n with
  | ind v ih =>
    by_cases hless : ∃ m ≥ n, f m < f n
    · obtain ⟨m, hm, hlt⟩ := hless
      obtain ⟨k, hk, hconst⟩ := ih (f m) (hv ▸ hlt) (fun j hj => h j (Nat.le_trans hm hj)) rfl
      exact ⟨k, Nat.le_trans hm hk, hconst⟩
    · refine ⟨n, Nat.le_refl n, fun m hm => ?_⟩
      have hle : f m ≤ f n := by
        induction m, hm using Nat.le_induction with
        | base => exact Nat.le_refl _
        | succ m hm ih => exact Nat.le_trans (h m hm) ih
      exact Nat.le_antisymm hle (Nat.le_of_not_lt fun hlt => hless ⟨m, hm, hlt⟩)

def trace (step : σ → ι → Option σ) (init : σ) (act : Nat → ι) : Nat → σ
  | 0 => init
  | n + 1 => (step (trace step init act n) (act n)).getD (trace step init act n)

namespace Run

variable {is : List ι} {i : ι}
  {hloop : step (trace step init (is.getD · i) is.length) i = some (trace step init (is.getD · i) is.length)}
  {hsome : ∀ n < is.length, (step (trace step init (is.getD · i) n) (is.getD n i)).isSome = true}

lemma trace_loop (hloop : step (trace step init (is.getD · i) is.length) i = some (trace step init (is.getD · i) is.length))
 (hn : is.length ≤ n) : trace step init (is.getD · i) n = trace step init (is.getD · i) is.length := by
  induction n, hn using Nat.le_induction with
  | base => rfl
  | succ n hn ih =>
    rw [trace, ih, List.getD_eq_default _ _ hn, hloop]
    rfl

def of_loop (is : List ι) (i : ι)
    (hsome : ∀ n < is.length, (step (trace step init (is.getD · i) n) (is.getD n i)).isSome = true)
    (hloop : step (trace step init (is.getD · i) is.length) i = some (trace step init (is.getD · i) is.length)) :
    Run step init where
  state := trace step init (is.getD · i)
  act := (is.getD · i)
  start := rfl
  next n := by
    rcases Nat.lt_or_ge n is.length with hn | hn
    · obtain ⟨s, hs⟩ := Option.isSome_iff_exists.1 (hsome n hn)
      rw [trace, hs]
      rfl
    · rw [trace_loop hloop hn, trace_loop hloop (Nat.le_succ_of_le hn), List.getD_eq_default _ _ hn, hloop]

lemma of_loop_all {q : Nat → σ → ι → Prop}
    (h : ∀ n < is.length, q n (trace step init (is.getD · i) n) (is.getD n i))
    (hlast : ∀ n, q n (trace step init (is.getD · i) is.length) i) (n : Nat) :
    q n ((of_loop is i hsome hloop).state n) ((of_loop is i hsome hloop).act n) := by
  rcases Nat.lt_or_ge n is.length with hn | hn
  · exact h n hn
  · change q n (trace step init (is.getD · i) n) (is.getD n i)
    rw [trace_loop hloop hn, List.getD_eq_default _ _ hn]
    exact hlast n

lemma weaklyFair_of_loop {enabled : σ → Prop}
    (h : ¬ enabled (trace step init (is.getD · i) is.length)) : (of_loop is i hsome hloop).WeaklyFair enabled taken := by
  refine fun n => ⟨max n is.length, Nat.le_max_left _ _, fun hen => absurd ?_ h⟩
  rw [← trace_loop hloop (Nat.le_max_right n is.length)]
  exact hen

end Run

end Lib
