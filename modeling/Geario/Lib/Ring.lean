import Geario.Lib.Window
/-!
# Searching a ring of slots

A word of `n` bits records which slots of a ring are in use. Rotating it to
slot `c % n` and counting trailing zeros finds the first used slot at or after
`c`: `ring_next`. With ticks that lie in the window of the clock this is the
earliest tick (`ring_least`).
-/

namespace Lib

open Nat

variable {n : Nat}

lemma getLsbD_rotateRight_of_lt (w : BitVec n) {c i : Nat} (hi : i < n) :
    (w.rotateRight (c % n)).getLsbD i = w.getLsbD ((c + i) % n) := by
  have hc : c % n < n := mod_lt _ (by omega)
  rw [BitVec.getLsbD_rotateRight, mod_mod]
  have key : (c + i) % n = if c % n + i < n then c % n + i else c % n + i - n := by
    rw [← mod_add_mod]
    split
    · exact mod_eq_of_lt ‹_›
    · rw [mod_eq_sub_mod (by omega), mod_eq_of_lt (by omega)]
  rw [key]
  split
  · rw [decide_eq_true (show i < n - c % n by omega), cond_true]
  · rw [decide_eq_false (show ¬ i < n - c % n by omega), cond_false, decide_eq_true hi, Bool.true_and]
    congr 1
    omega

/-- The first used slot at or after `c`, as a distance from `c`. -/
lemma ring_next {w : BitVec n} (hw : w ≠ 0) (c : Nat) :
    let pos := (w.rotateRight (c % n)).ctz.toNat
    pos < n ∧ w.getLsbD ((c + pos) % n) = true ∧ ∀ i < pos, w.getLsbD ((c + i) % n) = false := by
  intro pos
  have hr : w.rotateRight (c % n) ≠ 0 := by
    intro h0
    apply hw
    apply BitVec.eq_of_getLsbD_eq
    intro j hj
    have hn : 0 < n := by omega
    have := getLsbD_rotateRight_of_lt w (c := c) (i := (j + n - c % n) % n) (mod_lt _ hn)
    rw [h0] at this
    have hc : c % n < n := mod_lt _ hn
    have e : (c + (j + n - c % n) % n) % n = j := by
      rw [add_mod_mod, ← mod_add_mod, show c % n + (j + n - c % n) = j + n by omega, add_mod_right, mod_eq_of_lt hj]
    rw [e] at this
    simpa using this.symm
  have hlt : pos < n := by
    have := (BitVec.ctz_lt_iff_ne_zero (x := w.rotateRight (c % n))).2 hr
    exact lt_of_lt_of_le this (by rw [BitVec.natCast_eq_ofNat, BitVec.toNat_ofNat]; exact mod_le _ _)
  refine ⟨hlt, ?_, fun i hi => ?_⟩
  · rw [← getLsbD_rotateRight_of_lt w hlt]
    exact BitVec.getLsbD_true_ctz_of_ne_zero hr
  · rw [← getLsbD_rotateRight_of_lt w (by omega)]
    exact BitVec.getLsbD_false_of_lt_ctz hi

/-- The search of a ring whose used slots are those of the ticks in `S`. -/
lemma ring_least {g c : Nat} (hg : 0 < g) {w : BitVec n} (hw : w ≠ 0) {S : Set Nat}
    (hS : ∀ E ∈ S, Window g n c E) (hbit : ∀ j < n, w.getLsbD j ↔ ∃ E ∈ S, E / g % n = j) :
    IsLeast S ((c ⌈/⌉ g + (w.rotateRight (c ⌈/⌉ g % n)).ctz.toNat) * g) := by
  obtain ⟨hlt, hset, hclear⟩ := ring_next hw (c ⌈/⌉ g)
  generalize (w.rotateRight (c ⌈/⌉ g % n)).ctz.toNat = pos at hlt hset hclear
  have hn : 0 < n := by omega
  constructor
  · obtain ⟨E, hE, hj⟩ := (hbit _ (mod_lt _ hn)).1 hset
    have hW := hS E hE
    have : E / g = c ⌈/⌉ g + pos :=
      Window.eq_of_mod_eq (hW.ceil_le hg) hW.near (by omega) (by omega) hj
    rw [← this, hW.mul_div]
    exact hE
  · intro E hE
    have hW := hS E hE
    rw [← hW.mul_div]
    apply Nat.mul_le_mul_right
    have hle := hW.ceil_le hg
    by_contra hlt'
    have := hclear (E / g - c ⌈/⌉ g) (by omega)
    rw [show c ⌈/⌉ g + (E / g - c ⌈/⌉ g) = E / g by omega] at this
    have hb := (hbit _ (mod_lt _ hn)).2 ⟨E, hE, rfl⟩
    rw [this] at hb
    cases hb

end Lib
