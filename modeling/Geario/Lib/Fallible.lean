import Mathlib
/-!
# Fallible programs

`Holds I E r` says that the result of a program that may fail has `I`, and that
its error has `E`. A loop (`List.foldlM`) has them when each turn does, where `I`
may speak of the elements the loop has gone through.
-/

namespace Lib

variable {ε σ τ α : Type} {I : σ → Prop} {J : τ → Prop} {E : ε → Prop}

def Holds (I : σ → Prop) (E : ε → Prop) : Except ε σ → Prop
  | .ok s => I s
  | .error e => E e

lemma Holds.bind {r : Except ε σ} {f : σ → Except ε τ} (h : Holds I E r) (hf : ∀ s, I s → Holds J E (f s)) : Holds J E (r >>= f) := by
  cases r with
  | ok s => exact hf s h
  | error e => exact h

lemma Holds.map {r : Except ε σ} {f : σ → τ} (h : Holds I E r) (hf : ∀ s, I s → J (f s)) : Holds J E (r.map f) := by
  cases r with
  | ok s => exact hf s h
  | error e => exact h

lemma Holds.foldlM {f : σ → α → Except ε σ} {l : List α} {s : σ} (I : List α → σ → Prop) (h0 : I [] s)
    (hs : ∀ done a s, a ∈ l → I done s → Holds (I (done ++ [a])) E (f s a)) : Holds (I l) E (l.foldlM f s) := by
  induction l generalizing I s with
  | nil => exact h0
  | cons a l ih =>
    refine (hs [] a s List.mem_cons_self h0).bind fun s' hs' => ?_
    exact ih (fun done => I (a :: done)) hs' fun done b s hb => hs (a :: done) b s (List.mem_cons_of_mem _ hb)

lemma foldlM_some {f : σ → α → Option σ} {l : List α} {s : σ} (I : List α → σ → Prop) (h0 : I [] s)
    (hs : ∀ done a s, a ∈ l → I done s → ∃ s', f s a = some s' ∧ I (done ++ [a]) s') : ∃ s', l.foldlM f s = some s' ∧ I l s' := by
  induction l generalizing I s with
  | nil => exact ⟨s, rfl, h0⟩
  | cons a l ih =>
    obtain ⟨s', hf, hs'⟩ := hs [] a s List.mem_cons_self h0
    obtain ⟨t, ht, hI⟩ := ih (fun done => I (a :: done)) hs' fun done b s hb => hs (a :: done) b s (List.mem_cons_of_mem _ hb)
    exact ⟨t, by rw [List.foldlM_cons, hf]; exact ht, hI⟩

end Lib
