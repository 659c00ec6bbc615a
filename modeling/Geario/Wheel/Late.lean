import Geario.Wheel.Runs
/-!
# How late a timer can be

A timer set to `m` milliseconds at low-resolution time `now` is due when its tick
is reached, 16 ms for each tick after the last firing. The level of its bucket is
chosen from the distance to the *last firing*, not to `now`. While only long
timers are pending the last firing can be far back, and then a short timer lands
on a coarse level. `due_by_iff` says exactly when the rounding stays within one
level of the timer's own; `short_timer_behind_a_long_one` is a second that takes
more than fourteen.
-/
open Lib

namespace Geario.Wheel

lemma as_millis_eq (dur : Nat) : as_millis dur = wrap64 (dur / 1000000) := by
  unfold as_millis
  congr 1
  omega

namespace World

/-- The timer's tick is reached no later than `t`, when firings keep time. -/
def DueBy (w : World) (hnd t : Nat) : Prop :=
  match w.timer.elapsed_time, w.queue hnd with
  | some T, some E => T + from_millis (16 * (E - w.timer.elapsed)) ≤ t
  | _, _ => False

instance (w : World) (hnd t : Nat) : Decidable (w.DueBy hnd t) := by
  unfold DueBy
  split <;> infer_instance

/-- `now + m`, and the granularity of the level above the timer's own. -/
def lateBound (now : Nat) (m : Nat) : Nat :=
  now + from_millis m + from_millis (16 * (1 + lvl_gran (wheel_level (to_units m) + 1)))

def ticksAway (s : TimerInner) (m : Nat) (r : Readings) : Nat :=
  to_units ((s.low_now r - s.base r) / 1000000 + m)

/-- The next slot boundary of the level chosen for that distance is at most one
granule of the level above the timer's own away. -/
def Near (s : TimerInner) (m : Nat) (r : Readings) : Prop :=
  WHEEL_TIMEOUT_CUTOFF ≤ ticksAway s m r ∨
    8 ^ wheel_level (ticksAway s m r) - (s.elapsed + ticksAway s m r) % 8 ^ wheel_level (ticksAway s m r) ≤
      1 + 8 ^ (wheel_level (to_units m) + 1)

variable {s : TimerInner} {r : Readings}

variable {m least d : Nat}

lemma near_of_level (h : wheel_level (ticksAway s m r) ≤ wheel_level (to_units m) + 1): Near s m r := by
  right
  have := Nat.pow_le_pow_right (show 0 < 8 by omega) h
  omega

lemma delta_eq (least : Nat) (hb : s.base r ≤ s.low_now r)
    (hnw : (s.low_now r - s.base r) / 1000000 + m < 2 ^ 64) : s.delta m least r = max (ticksAway s m r) least := by
  have hx : wrap64 ((s.low_now r - s.base r) / 1000000) = (s.low_now r - s.base r) / 1000000 :=
    wrap64_of_lt (by omega)
  unfold TimerInner.delta TimerInner.distance ticksAway
  rw [if_pos hb, as_millis_eq, hx, wrap64_of_lt hnw]

lemma target_snd (he : s.elapsed + 2 ^ 27 < U64_MAX) :
    (s.target m least r).2 =
      if s.delta m least r < WHEEL_TIMEOUT_CUTOFF then
        ((s.elapsed + s.delta m least r) / 8 ^ wheel_level (s.delta m least r) + 1) * 8 ^ wheel_level (s.delta m least r)
      else ((s.elapsed + 62 * 8 ^ 7) / 8 ^ 7 + 1) * 8 ^ 7 := by
  have hu : U64_MAX = 2 ^ 64 - 1 := rfl
  have hmax : WHEEL_TIMEOUT_MAX = 62 * 8 ^ 7 := by decide
  have hcut := cutoff_eq
  unfold TimerInner.target
  rw [calc_wheel_index_eq]
  split
  · have hl := wheel_level_le (s.delta m least r)
    have hg : 8 ^ wheel_level (s.delta m least r) ≤ 8 ^ 7 := Nat.pow_le_pow_right (by omega) hl
    rw [wrap64_of_lt (by omega), calc_index_eq (by omega)]
  · rw [hmax, wrap64_of_lt (by omega), calc_index_eq (by omega)]

lemma round_up_sub {e g : Nat} (hg : 0 < g) : ((e + d) / g + 1) * g - e = d + (g - (e + d) % g) := by
  have h1 := Nat.div_add_mod (e + d) g
  have h2 := Nat.mod_lt (e + d) hg
  rw [Nat.mul_comm g] at h1
  rw [Nat.add_mul, Nat.one_mul]
  omega

lemma late_iff {T now n G : Nat} (hT : T ≤ now) (hd : d = ((now - T) / 1000000 + m) / 16) :
    T + from_millis (16 * (d + n)) ≤ now + from_millis m + from_millis (16 * (1 + G)) ↔ n ≤ 1 + G := by
  unfold from_millis
  omega

lemma due_iff (he : s.elapsed + 2 ^ 27 < U64_MAX)
    (hl : least ≤ 1) (hb : s.base r ≤ s.low_now r) (hnw : (s.low_now r - s.base r) / 1000000 + m < 2 ^ 64) :
    s.base r + from_millis (16 * ((s.target m least r).2 - s.elapsed)) ≤ lateBound (s.low_now r) m ↔ Near s m r := by
  have hcut := cutoff_eq
  have hd : ticksAway s m r = ((s.low_now r - s.base r) / 1000000 + m) / 16 := to_units_eq _
  have hdelta := delta_eq least hb hnw
  rw [target_snd he, lateBound, lvl_gran_eq, Near]
  by_cases hbig : WHEEL_TIMEOUT_CUTOFF ≤ ticksAway s m r
  · -- beyond the capacity of the wheel the tick is before the timeout
    rw [hdelta, if_neg (by omega)]
    refine ⟨fun _ => .inl hbig, fun _ => ?_⟩
    have hle : ((s.elapsed + 62 * 8 ^ 7) / 8 ^ 7 + 1) * 8 ^ 7 - s.elapsed ≤ ticksAway s m r := by omega
    generalize ((s.elapsed + 62 * 8 ^ 7) / 8 ^ 7 + 1) * 8 ^ 7 - s.elapsed = n at hle
    unfold from_millis
    omega
  · rw [hdelta, if_pos (by omega)]
    by_cases h0 : ticksAway s m r < least
    · -- a reset is at least one tick away
      have h1 : max (ticksAway s m r) least = 1 := by omega
      have hz : ticksAway s m r = 0 := by omega
      have hw1 : wheel_level 1 = 0 := by decide
      have hw0 : wheel_level 0 = 0 := by decide
      have hpos : 0 < 8 ^ (wheel_level (to_units m) + 1) := Nat.pow_pos (by omega)
      rw [h1, hw1, round_up_sub (by decide), hz, hw0, Nat.pow_zero, Nat.mod_one, Nat.mod_one]
      refine ⟨fun _ => .inr (by omega), fun _ => ?_⟩
      unfold from_millis
      omega
    · rw [max_eq_left (by omega), round_up_sub (Nat.pow_pos (by omega)), late_iff hb hd]
      exact ⟨.inr, fun h => h.resolve_left hbig⟩

/-- A timer is due within the granularity of the level above its own exactly
when the level of its bucket is fine enough for where the clock stands; a level
at most one above its own always is. -/
theorem due_by_iff {w w' : World} {op : Op} {hnd m least : Nat} {r : Readings}
    (hreach : Reach step Ordinary init w)
    (hop : op.sets = some (hnd, m, least, r)) (hv : w.Valid op) (hr : w.InRange op) (hm : 1 ≤ m)
    (hb : w.timer.base r ≤ w.timer.low_now r)
    (hnw : (w.timer.low_now r - w.timer.base r) / 1000000 + m < 2 ^ 64) (hst : w.step op = some w') :
    (w'.DueBy hnd (lateBound (w.timer.low_now r) m) ↔ Near w.timer m r) ∧
      (wheel_level (ticksAway w.timer m r) ≤ wheel_level (to_units m) + 1 → Near w.timer m r) := by
  refine ⟨?_, near_of_level⟩
  obtain ⟨w'', hst', hset⟩ := sets_step (reach_sound hreach) hop (by omega) hv hr
  cases hst'.symm.trans hst
  have hrange : w.timer.elapsed + 2 ^ 27 < U64_MAX ∧ least ≤ 1 := by
    cases op with
    | add | reset =>
      simp only [Op.sets, Option.some.injEq, Prod.mk.injEq] at hop
      exact ⟨hr (by omega), by omega⟩
    | _ => cases hop
  rw [← due_iff hrange.1 hrange.2 hb hnw]
  unfold DueBy
  rw [hset.queue, Function.update_self, hset.placing.elapsed, hset.placing.elapsed_time]

theorem due_by_fresh : ∃ w, init.step (.add 1000 1 0 ⟨0, 0, 0, 0⟩) = some w ∧ w.DueBy 1 (lateBound 0 1000) := by
  have hop : (Op.add 1000 1 0 ⟨0, 0, 0, 0⟩).sets = some (1, 1000, 0, ⟨0, 0, 0, 0⟩) := rfl
  have hv : init.Valid (.add 1000 1 0 ⟨0, 0, 0, 0⟩) := ⟨rfl, rfl, rfl⟩
  have hr : init.InRange (.add 1000 1 0 ⟨0, 0, 0, 0⟩) := fun _ => (by decide : 0 + 2 ^ 27 < U64_MAX)
  refine ⟨_, rfl, (due_by_iff .refl hop hv hr (by decide) ?_ ?_ rfl).1.2 (near_of_level ?_)⟩ <;> decide

/-- One hour pending, and a second added after fifty minutes: the second is due
after more than fourteen. -/
theorem short_timer_behind_a_long_one :
    ¬ ∀ (w w' : World) (op : Op) (hnd m least : Nat) (r : Readings), Reach step Ordinary init w →
      op.sets = some (hnd, m, least, r) → w.Valid op → w.InRange op → 1 ≤ m →
      to_units m < WHEEL_TIMEOUT_CUTOFF → w.timer.base r ≤ w.timer.low_now r → w.step op = some w' →
      w'.DueBy hnd (lateBound (w.timer.low_now r) m) := by
  intro hall
  -- between the two calls the low-resolution clock is read anew
  have hreach : Reach step Ordinary init _ := .of_steps [.add 3600000 1 0 ⟨0, 0, 0, 0⟩, .lowres 0 3000000000000 true] rfl
  have hlate := hall _ _ (.add 1000 2 1 ⟨3000000000000, 3000000000000, 3000000000000, 3000000000000⟩) 2 1000 0 _
    hreach rfl (by decide) (by decide) (by decide) (by decide) (by decide) rfl
  exact absurd hlate (by decide)

end World

end Geario.Wheel
