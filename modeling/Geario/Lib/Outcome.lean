import Mathlib
/-!
# Outcomes of a stateful computation that may fail

`Outcome m s E Q` says what `m` does when it is started in `s`: it returns a
value and a state with `Q`, or fails with an error in `E`. With `E` empty this
is total correctness; with `E` everything it is partial correctness. The simp
lemmas run a program step by step, `Outcome.mono` uses the rule of a function
that has been specified already.
-/

namespace Lib

variable {σ ε α β : Type} {m : StateT σ (Except ε) α} {f : α → StateT σ (Except ε) β} {s : σ}
  {E E' : ε → Prop} {Q Q' : α → σ → Prop} {R : β → σ → Prop} {P : PUnit → σ → Prop}

/-- What `m` does from `s`: `Q` when it returns, `E` when it fails. -/
def Outcome (m : StateT σ (Except ε) α) (s : σ) (E : ε → Prop) (Q : α → σ → Prop) : Prop :=
  match m s with
  | .ok r => Q r.1 r.2
  | .error e => E e

lemma outcome_pure {a : α} : Outcome (pure a) s E Q ↔ Q a s := Iff.rfl

lemma outcome_throw {e : ε} : Outcome (throw e : StateT σ (Except ε) α) s E Q ↔ E e := Iff.rfl

lemma outcome_bind : Outcome (m >>= f) s E R ↔ Outcome m s E fun a s' => Outcome (f a) s' E R := by
  unfold Outcome
  change (match (m s >>= fun p => f p.1 p.2 : Except ε (β × σ)) with | .ok r => R r.1 r.2 | .error e => E e) ↔ _
  cases m s with
  | ok | error => exact Iff.rfl

lemma outcome_get {P : σ → σ → Prop} : Outcome (get : StateT σ (Except ε) σ) s E P ↔ P s s := Iff.rfl

lemma outcome_set {s' : σ} : Outcome (set s' : StateT σ (Except ε) PUnit) s E P ↔ P ⟨⟩ s' := Iff.rfl

lemma outcome_modify {g : σ → σ} : Outcome (modify g : StateT σ (Except ε) PUnit) s E P ↔ P ⟨⟩ (g s) := Iff.rfl

namespace Outcome

section

variable (h : Outcome m s E Q)
include h

lemma mono (hQ : ∀ a s', Q a s' → Q' a s') : Outcome m s E Q' := by
  unfold Outcome at h ⊢
  cases hm : m s with
  | ok r => rw [hm] at h; exact hQ _ _ h
  | error e => rw [hm] at h; exact h

lemma weaken (hE : ∀ e, E e → E' e) : Outcome m s E' Q := by
  unfold Outcome at h ⊢
  cases hm : m s with
  | ok r => rw [hm] at h; exact h
  | error e => rw [hm] at h; exact hE _ h

lemma both (h' : Outcome m s E' Q') : Outcome m s E fun a s' => Q a s' ∧ Q' a s' := by
  unfold Outcome at h h' ⊢
  cases hm : m s with
  | ok r => rw [hm] at h h'; exact ⟨h, h'⟩
  | error e => rw [hm] at h; exact h

/-- The sequencing rule: what `m` achieves is what the rest starts from. -/
lemma seq (hf : ∀ a s', Q a s' → Outcome (f a) s' E R) : Outcome (m >>= f) s E R :=
  outcome_bind.2 (h.mono hf)

lemma of_ok {a : α} {s' : σ} (hm : m s = .ok (a, s')) : Q a s' := by
  unfold Outcome at h
  rw [hm] at h
  exact h

lemma of_error {e : ε} (hm : m s = .error e) : E e := by
  unfold Outcome at h
  rw [hm] at h
  exact h

end

lemma total (h : Outcome m s (fun _ => False) Q) : ∃ a s', m s = .ok (a, s') ∧ Q a s' := by
  unfold Outcome at h
  cases hm : m s with
  | ok r => rw [hm] at h; exact ⟨r.1, r.2, rfl, h⟩
  | error e => rw [hm] at h; exact h.elim

lemma fails (h : Outcome m s E fun _ _ => False) : ∃ e, m s = .error e ∧ E e := by
  unfold Outcome at h
  cases hm : m s with
  | ok r => rw [hm] at h; exact h.elim
  | error e => rw [hm] at h; exact ⟨e, rfl, h⟩

lemma ite {c : Prop} [Decidable c] {m' : StateT σ (Except ε) α} (ht : c → Outcome m s E Q)
    (hf : ¬ c → Outcome m' s E Q) : Outcome (if c then m else m') s E Q := by
  split
  · exact ht ‹_›
  · exact hf ‹_›

/-- The rule of a loop over a list: `I` holds of what is left of it, the accumulator and the state. -/
lemma foldlM {g : β → α → StateT σ (Except ε) β} {I : List α → β → σ → Prop} {l : List α} {b : β}
    (step : ∀ {a l b s}, I (a :: l) b s → Outcome (g b a) s E (I l)) (h : I l b s) :
    Outcome (l.foldlM g b) s E (I []) := by
  induction l generalizing b s with
  | nil => exact h
  | cons a l ih =>
    exact (step h).seq fun b' s' h' => ih h'

end Outcome

end Lib
