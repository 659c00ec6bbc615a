import Mathlib
/-!
# Slots of a rotating window

A ring of `n` slots with granularity `g` stores a tick `E`, a multiple of `g`,
as `E / g % n` only. `Window g n c E` says that `E` is ahead of the clock `c`
and at most `n` slots away from the clock rounded up, which is what makes the
slot number enough to recover `E`: `Window.unique`. The clock may move on as
long as it does not reach `E` (`Window.mono`), and rounding an expiry up by one
granule puts it into the window (`Window.round_up`).
-/

namespace Lib

open Nat

lemma ceilDiv_mono {g a b : Nat} (hg : 0 < g) (h : a ≤ b) : a ⌈/⌉ g ≤ b ⌈/⌉ g := by
  rw [ceilDiv_le_iff_le_mul hg]
  exact h.trans ((ceilDiv_le_iff_le_mul hg).1 le_rfl)

lemma ceilDiv_mul {a g k : Nat} (hg : 0 < g) (hk : 0 < k) : (a ⌈/⌉ g) ⌈/⌉ k = a ⌈/⌉ (g * k) := by
  apply eq_of_forall_ge_iff
  intro c
  rw [ceilDiv_le_iff_le_mul hk, ceilDiv_le_iff_le_mul hg, ceilDiv_le_iff_le_mul (Nat.mul_pos hg hk), Nat.mul_assoc]

lemma le_mul_ceilDiv {a g : Nat} (hg : 0 < g) : a ≤ g * (a ⌈/⌉ g) := (ceilDiv_le_iff_le_mul hg).1 le_rfl

lemma ceilDiv_le_div {c E g : Nat} (hg : 0 < g) (hd : g ∣ E) (h : c ≤ E) : c ⌈/⌉ g ≤ E / g := by
  rw [ceilDiv_le_iff_le_mul hg, Nat.mul_div_cancel' hd]
  exact h

lemma div_lt_ceilDiv_succ {c g : Nat} (hg : 0 < g) : (c + g - 1) / g ≤ c ⌈/⌉ g := by
  rw [div_le_iff_le_mul_add_pred hg]
  have := le_mul_ceilDiv (a := c) hg
  omega

/-- `E` is ahead of the clock `c`, and at most `n` slots of size `g` ahead of
the clock rounded up. -/
structure Window (g n c E : Nat) : Prop where
  dvd : g ∣ E
  ahead : c < E
  near : E / g < c ⌈/⌉ g + n

namespace Window

variable {g n c E F t : Nat}

lemma ceil_le (hg : 0 < g) (h : Window g n c E) : c ⌈/⌉ g ≤ E / g :=
  ceilDiv_le_div hg h.dvd h.ahead.le

lemma mul_div (h : Window g n c E) : E / g * g = E := Nat.div_mul_cancel h.dvd

lemma lt_add (hg : 0 < g) (h : Window g n c E) : E < c + n * g := by
  have h1 : g * (E / g + 1) ≤ g * (c ⌈/⌉ g + n) := mul_le_mul_left g h.near
  have h2 : c ⌈/⌉ g * g < c + g := by
    rw [ceilDiv_eq_add_pred_div]
    have := div_mul_le_self (c + g - 1) g
    omega
  have h3 := h.mul_div
  rw [mul_comm] at h2 h3
  rw [mul_add, mul_add, mul_one, h3, mul_comm g n] at h1
  omega

lemma mono (hg : 0 < g) (h : Window g n c E) (hct : c ≤ t) (ht : t < E) : Window g n t E where
  dvd := h.dvd
  ahead := ht
  near := lt_of_lt_of_le h.near (Nat.add_le_add_right (ceilDiv_mono hg hct) n)

lemma eq_of_mod_eq {a b : Nat} (ha : c ≤ a) (ha' : a < c + n) (hb : c ≤ b) (hb' : b < c + n)
    (h : a % n = b % n) : a = b := by
  have hac : (a - c) % n = (b - c) % n := by
    have h1 : a ≡ b [MOD n] := h
    rw [← Nat.sub_add_cancel ha, ← Nat.sub_add_cancel hb] at h1
    exact Nat.ModEq.add_right_cancel' c h1
  rw [mod_eq_of_lt (by omega), mod_eq_of_lt (by omega)] at hac
  omega

lemma unique (hg : 0 < g) (h : Window g n c E) (h' : Window g n c F) (hs : E / g % n = F / g % n) : E = F := by
  have := eq_of_mod_eq (h.ceil_le hg) h.near (h'.ceil_le hg) h'.near hs
  rw [← h.mul_div, ← h'.mul_div, this]

/-- When the clock jumps to a multiple `t` of the granularity that no tick of
the window precedes, the slot of `t` holds only `t` itself. -/
lemma eq_of_slot (hg : 0 < g) (h : Window g n c E) (hct : c < t) (htE : t ≤ E) (hd : g ∣ t)
    (hs : E / g % n = t / g % n) : E = t := by
  have hle : t / g ≤ E / g := Nat.div_le_div_right htE
  have hc : c ⌈/⌉ g ≤ t / g := ceilDiv_le_div hg hd hct.le
  have hn := h.near
  have := eq_of_mod_eq hle (by omega) le_rfl (by omega) hs
  rw [← h.mul_div, this, Nat.div_mul_cancel hd]

/-- Rounding `c + d` up by a granule gives a tick of the window, for every
`d` that leaves one slot free. -/
lemma round_up (hg : 0 < g) {d : Nat} (hd : d < n * g) : Window g (n + 1) c (((c + d) / g + 1) * g) where
  dvd := dvd_mul_left _ _
  ahead := by
    have := lt_mul_div_succ (c + d) hg
    rw [mul_comm] at this
    omega
  near := by
    rw [Nat.mul_div_cancel _ hg]
    have h1 : (c + d) / g ≤ (c + g - 1 + n * g - g) / g := Nat.div_le_div_right (by omega)
    have h2 := div_lt_ceilDiv_succ (c := c) hg
    have hn : 0 < n := pos_of_ne_zero fun h => by subst h; omega
    obtain ⟨k, rfl⟩ : ∃ k, n = k + 1 := ⟨n - 1, by omega⟩
    have h3 : c + g - 1 + (k + 1) * g - g = c + g - 1 + k * g := by rw [add_mul]; omega
    rw [h3, add_mul_div_right _ _ hg] at h1
    omega

end Window

end Lib
