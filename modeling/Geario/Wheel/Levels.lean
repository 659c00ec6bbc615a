import Geario.Lib.Window
/-!
# Levels of the timer wheel

The wheel has eight levels of 64 slots. A slot of level `lvl` stands for
`lvl_gran lvl = 8 ^ lvl` ticks of 16 ms. `calc_wheel_index` chooses a level
from the distance `delta` and rounds the expiry up to that level's granularity;
`calc_wheel_index_window` says that the result always lies in the window of its
level, as long as the tick counter does not run into the end of `u64`.

Ticks are `u64` in the source. They are natural numbers here, and `wrap64` is
applied wherever the source's arithmetic can wrap around.
-/
open Lib

namespace Geario.Wheel

open Nat

def U64_MAX : Nat := 2 ^ 64 - 1

def wrap64 (n : Nat) : Nat := n % 2 ^ 64

lemma wrap64_of_lt {n : Nat} (h : n < 2 ^ 64) : wrap64 n = n := mod_eq_of_lt h

def LVL_CLK_SHIFT : Nat := 3
def LVL_CLK_DIV : Nat := 1 <<< LVL_CLK_SHIFT
def LVL_CLK_MASK : Nat := LVL_CLK_DIV - 1

def lvl_shift (n : Nat) : Nat := n * LVL_CLK_SHIFT

def lvl_gran (n : Nat) : Nat := 1 <<< lvl_shift n

def UNITS : Nat := 4

def to_units (n : Nat) : Nat := n >>> UNITS

def to_millis (n : Nat) : Nat := wrap64 (n <<< UNITS)

def LVL_BITS : Nat := 6
def LVL_SIZE : Nat := 1 <<< LVL_BITS
def LVL_MASK : Nat := LVL_SIZE - 1
def LVL_DEPTH : Nat := 8

/-- The time start value for each level to select the bucket at enqueue time. -/
def lvl_start (lvl : Nat) : Nat := (LVL_SIZE - 1) <<< ((lvl - 1) * LVL_CLK_SHIFT)

def lvl_offs (n : Nat) : Nat := n * LVL_SIZE

def WHEEL_TIMEOUT_CUTOFF : Nat := lvl_start LVL_DEPTH
def WHEEL_TIMEOUT_MAX : Nat := WHEEL_TIMEOUT_CUTOFF - lvl_gran (LVL_DEPTH - 1)
def WHEEL_SIZE : Nat := LVL_SIZE * LVL_DEPTH

/-- The sum wraps as in a build without overflow checks. -/
def calc_index (expires lvl : Nat) : Nat × Nat :=
  let expires := wrap64 (expires + lvl_gran lvl) >>> lvl_shift lvl
  (lvl_offs lvl + (expires &&& LVL_MASK), wrap64 (expires <<< lvl_shift lvl))

def calc_wheel_index (elapsed expires delta : Nat) : Nat × Nat :=
  if delta < lvl_start 1 then calc_index expires 0
  else if delta < lvl_start 2 then calc_index expires 1
  else if delta < lvl_start 3 then calc_index expires 2
  else if delta < lvl_start 4 then calc_index expires 3
  else if delta < lvl_start 5 then calc_index expires 4
  else if delta < lvl_start 6 then calc_index expires 5
  else if delta < lvl_start 7 then calc_index expires 6
  else if delta < lvl_start 8 then calc_index expires 7
  else if delta ≥ WHEEL_TIMEOUT_CUTOFF then
    -- obscenely large timeouts expire at the capacity limit of the wheel
    calc_index (wrap64 (elapsed + WHEEL_TIMEOUT_MAX)) (LVL_DEPTH - 1)
  else calc_index expires (LVL_DEPTH - 1)

def wheel_level (delta : Nat) : Nat :=
  if delta < lvl_start 1 then 0
  else if delta < lvl_start 2 then 1
  else if delta < lvl_start 3 then 2
  else if delta < lvl_start 4 then 3
  else if delta < lvl_start 5 then 4
  else if delta < lvl_start 6 then 5
  else if delta < lvl_start 7 then 6
  else 7

/-! ## Constants in closed form -/

lemma shiftLeft_three (x n : Nat) : x <<< (n * 3) = x * 8 ^ n := by
  rw [Nat.shiftLeft_eq, mul_comm n 3, Nat.pow_mul]

@[simp] lemma lvl_gran_eq (n : Nat) : lvl_gran n = 8 ^ n := by
  rw [lvl_gran, lvl_shift, LVL_CLK_SHIFT, shiftLeft_three, one_mul]

lemma shiftRight_lvl (x n : Nat) : x >>> lvl_shift n = x / 8 ^ n := by
  rw [lvl_shift, LVL_CLK_SHIFT, Nat.shiftRight_eq_div_pow, mul_comm n 3, Nat.pow_mul]

lemma shiftLeft_lvl (x n : Nat) : x <<< lvl_shift n = x * 8 ^ n := shiftLeft_three x n

lemma and_lvl_mask (x : Nat) : x &&& LVL_MASK = x % 64 :=
  and_two_pow_sub_one_eq_mod x 6

lemma and_clk_mask (x : Nat) : x &&& LVL_CLK_MASK = x % 8 :=
  and_two_pow_sub_one_eq_mod x 3

lemma to_units_eq (n : Nat) : to_units n = n / 16 := shiftRight_eq_div_pow n 4

lemma lvl_start_eq (k : Nat) : lvl_start k = 63 * 8 ^ (k - 1) := shiftLeft_three 63 (k - 1)

lemma cutoff_eq : WHEEL_TIMEOUT_CUTOFF = 63 * 8 ^ 7 := by decide

lemma wheel_level_le (delta : Nat) : wheel_level delta ≤ 7 := by
  unfold wheel_level
  repeat (split; · omega)
  omega

lemma lt_of_wheel_level {delta : Nat} (h : delta < WHEEL_TIMEOUT_CUTOFF) : delta < 63 * 8 ^ wheel_level delta := by
  rw [cutoff_eq] at h
  generalize hl : wheel_level delta = lvl
  unfold wheel_level at hl
  repeat' split at hl
  all_goals subst hl
  all_goals simp only [lvl_start_eq] at *
  all_goals omega

/-- The chain of comparisons is a choice of level, except beyond the cutoff. -/
lemma calc_wheel_index_eq (elapsed expires delta : Nat) :
    calc_wheel_index elapsed expires delta =
      if delta < WHEEL_TIMEOUT_CUTOFF then calc_index expires (wheel_level delta)
      else calc_index (wrap64 (elapsed + WHEEL_TIMEOUT_MAX)) 7 := by
  have hc : WHEEL_TIMEOUT_CUTOFF = lvl_start 8 := rfl
  have hmono : ∀ k, k ∈ [1, 2, 3, 4, 5, 6, 7] → lvl_start k ≤ lvl_start 8 := by decide
  unfold calc_wheel_index wheel_level
  rw [hc]
  by_cases h8 : delta < lvl_start 8
  · repeat (split; · rfl)
    rfl
  · have hk : ∀ k ∈ [1, 2, 3, 4, 5, 6, 7], ¬ delta < lvl_start k := fun k hk h =>
      h8 (lt_of_lt_of_le h (hmono k hk))
    rw [if_neg (hk 1 (by decide)), if_neg (hk 2 (by decide)), if_neg (hk 3 (by decide)), if_neg (hk 4 (by decide)),
      if_neg (hk 5 (by decide)), if_neg (hk 6 (by decide)), if_neg (hk 7 (by decide)), if_neg h8,
      if_pos (le_of_not_gt h8), if_neg h8]
    rfl

/-! ## Where a timer is placed -/

/-- The bucket of level `lvl` that stands for the tick `E`. -/
def bucket_of (lvl E : Nat) : Nat := lvl * 64 + E / 8 ^ lvl % 64

lemma calc_index_eq {expires lvl : Nat} (h : expires + 8 ^ lvl < 2 ^ 64) :
    calc_index expires lvl = (bucket_of lvl ((expires / 8 ^ lvl + 1) * 8 ^ lvl), (expires / 8 ^ lvl + 1) * 8 ^ lvl) := by
  have hg : 0 < 8 ^ lvl := Nat.pow_pos (by omega)
  have hle : (expires / 8 ^ lvl + 1) * 8 ^ lvl < 2 ^ 64 := by
    have := div_mul_le_self expires (8 ^ lvl)
    rw [add_mul, one_mul]
    omega
  simp only [calc_index, lvl_gran_eq]
  rw [wrap64_of_lt h, shiftRight_lvl, shiftLeft_lvl, and_lvl_mask, add_div_right _ hg,
    wrap64_of_lt hle, bucket_of, Nat.mul_div_cancel _ hg]
  rfl

/-- Bucket `idx` stands for the tick `E`, in the window of its level. -/
structure Placed (elapsed idx E : Nat) : Prop where
  level : ∃ lvl, lvl < 8 ∧ idx = bucket_of lvl E ∧ Window (8 ^ lvl) 64 elapsed E
  bound : E < U64_MAX

lemma calc_wheel_index_window {elapsed delta idx E : Nat} (he : elapsed + 2 ^ 27 < U64_MAX)
    (h : calc_wheel_index elapsed (wrap64 (elapsed + delta)) delta = (idx, E)) : Placed elapsed idx E := by
  have hmax : WHEEL_TIMEOUT_MAX = 62 * 8 ^ 7 := by decide
  have hu : U64_MAX = 2 ^ 64 - 1 := rfl
  rw [calc_wheel_index_eq] at h
  have key : ∀ lvl d, lvl < 8 → d < 63 * 8 ^ lvl → calc_index (wrap64 (elapsed + d)) lvl = (idx, E) →
      Placed elapsed idx E := by
    intro lvl d hl hd hc
    have hg : 8 ^ lvl ≤ 8 ^ 7 := Nat.pow_le_pow_right (by omega) (by omega)
    rw [wrap64_of_lt (by omega), calc_index_eq (by omega), Prod.mk.injEq] at hc
    obtain ⟨rfl, rfl⟩ := hc
    refine ⟨⟨lvl, hl, rfl, Window.round_up (Nat.pow_pos (by omega)) hd⟩, ?_⟩
    have := div_mul_le_self (elapsed + d) (8 ^ lvl)
    rw [add_mul, one_mul]
    omega
  split at h
  next hd => exact key _ _ (by have := wheel_level_le delta; omega) (lt_of_wheel_level hd) h
  · exact key 7 (62 * 8 ^ 7) (by omega) (by omega) (hmax ▸ h)

end Geario.Wheel
