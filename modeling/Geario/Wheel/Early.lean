import Geario.Wheel.Late
/-!
# No timer fires early

Ticks count the rounds of the driver, not time. What relates the two is the time
of the last firing: a timer placed at tick `E` may not fire before that time plus
16 ms for each tick up to `E`, and the driver's sleep covers the ticks up to the
next firing. `Timely` states both; every operation keeps it as long as the driver
does not fire while nothing is pending. Such an idle firing sets the tick counter
to `u64::MAX`, and the next timer then fires at once (`idle_poll_fires_early`).
-/
open Lib Option

namespace Geario.Wheel

open TimerInner

namespace World

/-- Readings of the clock do not decrease, and the driver's sleep completes no
earlier than its deadline. -/
def Timed (w : World) : Op → Prop
  | .add _ _ _ r | .reset _ _ _ r | .poll _ r =>
    w.clock ≤ r.now ∧ r.now ≤ r.lowres ∧ r.lowres ≤ r.elapsed ∧ r.elapsed ≤ r.sleep
  | .now t sleep | .system_time t sleep => w.clock ≤ t ∧ t ≤ sleep
  | .fire now sleep => w.clock ≤ now ∧ w.timer.inner.driver_sleep.deadline ≤ now ∧ now ≤ sleep
  | .lowres _ t _ => w.clock ≤ t
  | _ => True

/-- The milliseconds to the timeout, counted from the last firing, fit `u64`. -/
def Countable (w : World) : Op → Prop
  | .add m _ _ r | .reset _ m _ r => (w.timer.low_now r - w.timer.base r) / 1000000 + m < 2 ^ 64
  | _ => True

instance (w : World) : (op : Op) → Decidable (w.Timed op)
  | .add _ _ _ _ | .reset _ _ _ _ | .poll _ _ => inferInstanceAs (Decidable (_ ∧ _ ∧ _ ∧ _))
  | .now _ _ | .system_time _ _ => inferInstanceAs (Decidable (_ ∧ _))
  | .fire _ _ => inferInstanceAs (Decidable (_ ∧ _ ∧ _))
  | .lowres _ _ _ => inferInstanceAs (Decidable (_ ≤ _))
  | .elapse _ | .drop _ | .poll_elapsed _ _ | .pending => inferInstanceAs (Decidable True)

instance (w : World) : (op : Op) → Decidable (w.Countable op)
  | .add _ _ _ _ | .reset _ _ _ _ => inferInstanceAs (Decidable (_ < _))
  | .elapse _ | .drop _ | .poll_elapsed _ _ | .now _ _ | .system_time _ _ | .poll _ _ | .fire _ _ | .pending
  | .lowres _ _ _ => inferInstanceAs (Decidable True)

/-- Whatever timer the driver completes next, its time has come. -/
def NeverEarly (w : World) : Prop :=
  ∀ now sleep w', w.Valid (.fire now sleep) → w.Timed (.fire now sleep) → w.step (.fire now sleep) = some w' →
    ∀ h E, w.queue h = some E → w'.queue h = none → w.earliest h ≤ now

/-! ## The invariant -/

structure Timely (w : World) : Prop where
  past : ∀ {T}, w.timer.elapsed_time = some T → T ≤ w.clock
  unset : w.timer.elapsed_time = none → w.timer.next_expiry = U64_MAX
  promise : ∀ {h E T}, w.queue h = some E → w.timer.elapsed_time = some T →
    w.earliest h ≤ T + from_millis (16 * (E - w.timer.elapsed))
  sleep : ∀ {T}, w.timer.next_expiry < U64_MAX → w.timer.flags.DRIVER_RECALC = false →
    w.timer.elapsed_time = some T →
    T + from_millis (16 * (w.timer.next_expiry - w.timer.elapsed)) ≤ w.timer.inner.driver_sleep.deadline
  polled : w.polling = true → w.timer.flags.DRIVER_RECALC = false
  near : w.timer.next_expiry < U64_MAX → w.timer.next_expiry ≤ w.timer.elapsed + 2 ^ 27

lemma timely_init : init.Timely where
  past h := by cases h
  unset _ := rfl
  promise _ h := by cases h
  sleep h := absurd h (by decide)
  polled h := by cases h
  near h := absurd h (by decide)

lemma to_millis_eq {n : Nat} (h : n ≤ 2 ^ 27) : to_millis n = 16 * n := by
  unfold to_millis
  rw [Nat.shiftLeft_eq, wrap64_of_lt (by rw [UNITS]; omega), UNITS]
  omega

lemma Timely.base {w : World} (ht : w.Timely) (hs : Sound w.timer w.expiry) {h E : Nat} (hq : w.queue h = some E) :
    ∃ T, w.timer.elapsed_time = some T := by
  cases hT : w.timer.elapsed_time with
  | some T => exact ⟨T, rfl⟩
  | none =>
    obtain ⟨⟨idx, k, hsl⟩, rfl⟩ := TimerMod.queue_eq_some.1 hq
    have h1 := hs.next_le _ ⟨h, hq⟩
    have h2 := (hs.scheduled.placed hsl).bound
    have h3 := ht.unset hT
    omega

section Steps

variable {w w' : World} {r : Readings} {s : TimerInner}

lemma Timely.of_sub (ht : w.Timely) (he : w'.timer.elapsed = w.timer.elapsed)
    (hT : w'.timer.elapsed_time = w.timer.elapsed_time) (hn : w'.timer.next_expiry = w.timer.next_expiry)
    (hf : w'.timer.flags.DRIVER_RECALC = w.timer.flags.DRIVER_RECALC)
    (hd : w'.timer.inner.driver_sleep = w.timer.inner.driver_sleep)
    (hq : ∀ h E, w'.queue h = some E → w.queue h = some E) (hp : w'.earliest = w.earliest)
    (hc : w.clock ≤ w'.clock) (hpoll : w'.polling → w.polling) : w'.Timely where
  past h := (ht.past (hT ▸ h)).trans hc
  unset h := hn.trans (ht.unset (hT ▸ h))
  promise h h' := by
    rw [hp, he]
    exact ht.promise (hq _ _ h) (hT ▸ h')
  sleep h1 h2 h3 := by
    rw [hn, he, hd]
    exact ht.sleep (hn ▸ h1) (hf ▸ h2) (hT ▸ h3)
  polled h := hf.trans (ht.polled (hpoll h))
  near h := by
    rw [hn, he]
    exact ht.near (hn ▸ h)

lemma Timely.of_same (ht : w.Timely) (hs : SameWheel w.timer w'.timer) (hx : w'.expiry = w.expiry)
    (hp : w'.earliest = w.earliest) (hc : w.clock ≤ w'.clock) (hpoll : w'.polling → w.polling) :
    w'.Timely := by
  refine ht.of_sub hs.elapsed hs.elapsed_time hs.next_expiry hs.recalc hs.sleep (fun h E hq => ?_) hp hc hpoll
  rw [queue, hx, TimerMod.queue_congr hs.timers] at hq
  exact hq

variable {hnd m least now sleep : Nat}

lemma Timely.of_unplacing {en : Option TimerEntry} {l : List Waker} (ht : w.Timely) (hs : Sound w.timer w.expiry)
    (hu : TimerInner.Unplacing w.timer w'.timer hnd en l) (hx : w'.expiry = w.expiry) (hp : w'.earliest = w.earliest)
    (hc : w.clock ≤ w'.clock) (hpoll : w'.polling → w.polling) : w'.Timely := by
  refine ht.of_sub ?_ ?_ ?_ ?_ hu.sleep (fun h E hq => ?_) hp hc hpoll
  · rw [hu.frame]
  · rw [hu.frame]
  · rw [hu.frame]
  · rw [hu.frame]
  · rw [queue, hx, (hs.unplace hu).2, Function.update_apply] at hq
    obtain ⟨-, hq⟩ := ite_none_left_eq_some.1 hq
    exact hq

/-- The rounding up of `calc_index` covers every truncation before it. -/
lemma promise_le (he : s.elapsed + 2 ^ 27 < U64_MAX)
    (hnw : (s.low_now r - s.base r) / 1000000 + m < 2 ^ 64) :
    promise s m least r ≤ s.base r + from_millis (16 * ((s.target m least r).2 - s.elapsed)) := by
  unfold promise
  split
  next hd =>
    have hdist : s.low_now r + from_millis m < s.base r + from_millis (16 * (s.delta m least r + 1)) := by
      have hle : distance (s.low_now r) (s.base r) m ≤ s.delta m least r := le_max_left _ _
      unfold distance at hle
      unfold from_millis
      split at hle
      · have hx : wrap64 ((s.low_now r - s.base r) / 1000000) = (s.low_now r - s.base r) / 1000000 :=
          wrap64_of_lt (by omega)
        rw [as_millis_eq, hx, wrap64_of_lt hnw, to_units_eq] at hle
        omega
      · rw [to_units_eq] at hle
        omega
    have hg : 0 < 8 ^ wheel_level (s.delta m least r) := Nat.pow_pos (by omega)
    have hpos := Nat.sub_pos_of_lt (Nat.mod_lt (s.elapsed + s.delta m least r) hg)
    rw [target_snd he, if_pos hd, round_up_sub hg]
    generalize 8 ^ wheel_level (s.delta m least r) - (s.elapsed + s.delta m least r) % _ = n at hpos ⊢
    unfold from_millis at *
    omega
  · exact Nat.zero_le _

lemma base_of_some {T : Nat} (hT : s.elapsed_time = some T) : s.base r = T := by
  unfold base
  rw [hT]
  rfl

lemma Timely.base_le (ht : w.Timely) (hc : w.clock ≤ r.sleep) (hel : r.elapsed ≤ r.sleep) : w.timer.base r ≤ r.sleep := by
  cases hT : w.timer.elapsed_time with
  | none =>
    unfold TimerInner.base
    rw [hT]
    exact hel
  | some T =>
    rw [base_of_some hT]
    exact (ht.past hT).trans hc

lemma Setting.timely (ht : w.Timely) (hs : Sound w.timer w.expiry)
    (hset : Setting w w' hnd m least r) (he : w.timer.elapsed + 2 ^ 27 < U64_MAX) (hpoll : w.polling = false)
    (hnw : (w.timer.low_now r - w.timer.base r) / 1000000 + m < 2 ^ 64)
    (hc : w.clock ≤ r.sleep) (hel : r.elapsed ≤ r.sleep) : w'.Timely := by
  obtain ⟨⟨idx, E⟩, htar⟩ : ∃ p, w.timer.target m least r = p := ⟨_, rfl⟩
  have hp : TimerInner.Placing w.timer w'.timer (w.timer.base r) E r.sleep := by
    have h := hset.placing
    rw [htar] at h
    exact h
  have hplaced := target_placed he htar
  refine ⟨?_, ?_, ?_, ?_, ?_, ?_⟩
  · intro T hT
    rw [hp.elapsed_time] at hT
    rw [hset.clock, ← some.inj hT]
    exact ht.base_le hc hel
  · intro hT
    rw [hp.elapsed_time] at hT
    cases hT
  · intro h F T hF hT
    rw [hp.elapsed_time] at hT
    rw [hset.queue, Function.update_apply] at hF
    rw [hset.earliest, Function.update_apply, hp.elapsed, ← some.inj hT]
    split at hF
    next hh =>
      rw [if_pos hh, ← some.inj hF]
      exact promise_le he hnw
    next hh =>
      rw [if_neg hh]
      obtain ⟨T', hT'⟩ := ht.base hs hF
      rw [base_of_some hT']
      exact ht.promise hF hT'
  · intro T hlt hrec hT
    rw [hp.elapsed_time] at hT
    rw [hp.next_expiry] at hlt ⊢
    rw [hp.elapsed, ← some.inj hT]
    rcases lt_or_ge E w.timer.next_expiry with hE | hE
    · rw [min_eq_left hE.le]
      rcases hp.earlier hE with h | h
      · rw [hrec] at h
        cases h
      · have := hplaced.near
        have := ht.base_le hc hel
        rw [h, to_millis_eq (by omega)]
        omega
    · rw [min_eq_right hE] at hlt ⊢
      obtain ⟨h1, h2⟩ := hp.later hE
      rw [h1]
      cases hT' : w.timer.elapsed_time with
      | none =>
        have := ht.unset hT'
        omega
      | some T' =>
        rw [base_of_some hT']
        exact ht.sleep hlt (h2 ▸ hrec) hT'
  · intro h
    rw [hset.polling, hpoll] at h
    cases h
  · intro hlt
    rw [hp.next_expiry] at hlt ⊢
    rw [hp.elapsed]
    have := hplaced.near
    omega

lemma recalc_sleep_ge (hb : s.base r ≤ r.now) (hr : r.now ≤ r.sleep) (hn : s.next_expiry ≤ s.elapsed + 2 ^ 27) :
    s.base r + from_millis (16 * (s.next_expiry - s.elapsed)) ≤ (s.recalc_sleep r).deadline := by
  have hms : s.next_expiry_ms = 16 * (s.next_expiry - s.elapsed) := to_millis_eq (by omega)
  unfold recalc_sleep Delay.new
  rw [if_pos hb, hms]
  show _ ≤ r.sleep + _
  omega

lemma Timely.poll (ht : w.Timely) (hs : Sound w.timer w.expiry) {waker : Waker}
    (hw : w.Timed (.poll waker r)) (hst : w.step (.poll waker r) = some w') : w'.Timely := by
  obtain ⟨h1, h2, h3, h4⟩ := hw
  have hclock : w.clock ≤ r.sleep := by omega
  have heq := w.timer.poll_driver_eq waker r
  rw [← some.inj hst]
  by_cases hrec : w.timer.flags.DRIVER_RECALC = true
  · rw [if_pos hrec] at heq
    simp only [heq]
    refine ⟨?_, ?_, ?_, ?_, fun _ => rfl, ht.near⟩
    · intro T hT
      cases hT
      exact ht.base_le hclock h4
    · intro hT
      cases hT
    · intro h E T hq hT
      cases hT
      obtain ⟨T, hT⟩ := ht.base hs hq
      rw [base_of_some hT]
      exact ht.promise hq hT
    · intro T hlt _ hT
      cases hT
      cases hT : w.timer.elapsed_time with
      | none => exact absurd (ht.unset hT) (ne_of_lt hlt)
      | some T =>
        refine recalc_sleep_ge ?_ (by omega) (ht.near hlt)
        rw [base_of_some hT]
        exact (ht.past hT).trans h1
  · rw [if_neg hrec] at heq
    simp only [heq]
    exact { ht with past := fun h => (ht.past h).trans hclock, polled := fun _ => Bool.eq_false_iff.2 hrec }

lemma Timely.ripe (ht : w.Timely) (hv : w.Valid (.fire now sleep))
    (hw : w.Timed (.fire now sleep)) (hlt : w.timer.next_expiry < U64_MAX) :
    ∃ T, w.timer.elapsed_time = some T ∧ T + from_millis (16 * (w.timer.next_expiry - w.timer.elapsed)) ≤ now := by
  cases hT : w.timer.elapsed_time with
  | none => exact absurd (ht.unset hT) (ne_of_lt hlt)
  | some T => exact ⟨T, rfl, (ht.sleep hlt (ht.polled hv) hT).trans hw.2.1⟩

lemma Timely.fire (ht : w.Timely) (hs : Sound w.timer w.expiry) (hv : w.Valid (.fire now sleep))
    (hw : w.Timed (.fire now sleep)) (hlt : w.timer.next_expiry < U64_MAX)
    (hst : w.step (.fire now sleep) = some w') : w'.Timely := by
  have hf := fire_spec hs.scheduled hs.ahead hs.next_le now sleep
  obtain ⟨T, hT, hripe⟩ := ht.ripe hv hw hlt
  obtain ⟨hc, -, hsl⟩ := hw
  obtain ⟨htimer, hx, hp, hclock⟩ : w'.timer = (w.timer.fire now sleep).1 ∧ w'.expiry = w.expiry ∧
      w'.earliest = w.earliest ∧ w'.clock = sleep := by
    rw [← some.inj hst]
    exact ⟨rfl, rfl, rfl, rfl⟩
  rw [← htimer] at hf
  have hrec : w'.timer.flags.DRIVER_RECALC = false := hf.flags ▸ ht.polled hv
  rcases hf.next with ⟨-, hleast, htime, hsleep⟩ | ⟨-, hempty, hnext, htime⟩
  · have hnear : w'.timer.next_expiry ≤ w'.timer.elapsed + 2 ^ 27 := by
      obtain ⟨h, hq⟩ := hleast.1
      obtain ⟨⟨idx, k, hslot⟩, hE⟩ := TimerMod.queue_eq_some.1 hq
      exact hE ▸ (hf.scheduled.placed hslot).near
    refine ⟨?_, ?_, ?_, ?_, fun _ => hrec, fun _ => hnear⟩
    · intro T' hT'
      rw [htime] at hT'
      rw [hclock, ← some.inj hT']
      exact hsl
    · intro hT'
      rw [htime] at hT'
      cases hT'
    · intro h E T' hq hT'
      rw [htime] at hT'
      rw [queue, hx, hf.queue] at hq
      obtain ⟨hq, hne⟩ := Queue.expire_eq_some.1 hq
      have h1 := ht.promise hq hT
      rw [hp, hf.elapsed, ← some.inj hT']
      unfold from_millis at *
      omega
    · intro T' _ _ hT'
      rw [htime] at hT'
      rw [← some.inj hT', hsleep, to_millis_eq (by omega)]
      exact Nat.add_le_add_right hsl _
  · refine ⟨?_, fun _ => hnext, ?_, ?_, fun _ => hrec, ?_⟩
    · intro T' hT'
      rw [htime] at hT'
      cases hT'
    · intro h E T' _ hT'
      rw [htime] at hT'
      cases hT'
    · intro T' h
      exact absurd hnext (ne_of_lt h)
    · intro h
      exact absurd hnext (ne_of_lt h)

lemma step_timely (ht : w.Timely) (hs : Sound w.timer w.expiry) {op : Op} (hv : w.Valid op) (hw : w.Timed op)
    (hb : w.Busy op) (hr : w.InRange op) (hn : w.Countable op) (hst : w.step op = some w') : w'.Timely := by
  cases op with
  | add millis no k r =>
    obtain ⟨h1, h2, h3, h4⟩ := hw
    by_cases hm : millis = 0
    · subst hm
      rw [← some.inj hst]
      refine ht.of_sub rfl rfl rfl rfl rfl (fun h E hq => ?_) rfl (by show w.clock ≤ r.sleep; omega) id
      rw [queue, Sound.queue_of_slot (add_zero_slot w.timer hv.2.1 k r)] at hq
      exact hq
    · obtain ⟨w'', hst', hset⟩ := add_step hs hm hv hr
      cases hst'.symm.trans hst
      exact hset.timely ht hs (hr hm) hv.1 hn (by omega) h4
  | reset hnd millis k r =>
    obtain ⟨h1, h2, h3, h4⟩ := hw
    by_cases hm : millis = 0
    · subst hm
      obtain ⟨en, hen⟩ := isSome_iff_exists.1 hv.2.1.2
      obtain ⟨s', hs', hu⟩ := update_timer_zero_spec hs.scheduled.wired hen k r
      simp only [step, hs', bind_eq_bind, bind_some, if_true] at hst
      rw [← some.inj hst]
      exact ht.of_unplacing hs hu rfl rfl (by show w.clock ≤ r.sleep; omega) id
    · obtain ⟨w'', hst', hset⟩ := reset_step hs hm hv hr
      cases hst'.symm.trans hst
      exact hset.timely ht hs (hr hm) hv.1 hn (by omega) h4
  | elapse hnd =>
    obtain ⟨en, hen⟩ := isSome_iff_exists.1 hv.2.2
    obtain ⟨s', hs', hu⟩ := remove_timer_spec hs.scheduled.wired hen
    simp only [step, hs', bind_eq_bind, bind_some] at hst
    rw [← some.inj hst]
    exact ht.of_unplacing hs hu rfl rfl le_rfl id
  | drop hnd =>
    obtain ⟨en, hen⟩ := isSome_iff_exists.1 hv.2.2
    obtain ⟨s', hs', hu⟩ := drop_timer_spec hs.scheduled.wired hen
    simp only [step, hs', bind_eq_bind, bind_some] at hst
    rw [← some.inj hst]
    exact ht.of_unplacing hs hu rfl rfl le_rfl id
  | poll_elapsed hnd waker =>
    obtain ⟨en, hen⟩ := isSome_iff_exists.1 hv.2.2
    obtain ⟨s', hs', -, hsl, hframe, -⟩ := poll_elapsed_spec hs.scheduled.wired hen waker
    simp only [step, hs', bind_eq_bind, bind_some] at hst
    rw [← some.inj hst]
    refine ht.of_sub ?_ ?_ ?_ ?_ ?_ (fun h E hq => ?_) rfl le_rfl id
    · rw [hframe]
    · rw [hframe]
    · rw [hframe]
    · rw [hframe]
    · rw [hframe]
    · rw [queue, Sound.queue_of_slot hsl] at hq
      exact hq
  | now t sleep =>
    rw [← some.inj hst]
    exact ht.of_same (w.timer.sameWheel_now t sleep) rfl rfl (hw.1.trans hw.2) id
  | system_time t sleep =>
    rw [← some.inj hst]
    exact ht.of_same (w.timer.sameWheel_system_time t sleep) rfl rfl (hw.1.trans hw.2) id
  | poll waker r => exact ht.poll hs hw hst
  | fire now sleep => exact ht.fire hs hv hw hb hst
  | pending =>
    rw [← some.inj hst]
    exact ht.of_same (.refl _) rfl rfl le_rfl (by intro h; cases h)
  | lowres waker t ready =>
    rw [← some.inj hst]
    exact ht.of_same (w.timer.sameWheel_poll_lowres waker t ready) rfl rfl hw id

end Steps

/-! ## Whole runs -/

/-- Runs in real time, in which the driver never fires while nothing is pending
and no counter overflows. -/
def RealTime (w : World) (op : Op) : Prop :=
  w.Valid op ∧ w.Timed op ∧ w.Busy op ∧ w.InRange op ∧ w.Countable op

instance (w : World) (op : Op) : Decidable (w.RealTime op) := inferInstanceAs (Decidable (_ ∧ _))

lemma reach_timely {w : World} {ok : World → Op → Prop} (hok : ∀ w op, ok w op → w.RealTime op) (h : Reach step ok init w) :
    Sound w.timer w.expiry ∧ w.Timely := by
  refine h.inv (fun w => Sound w.timer w.expiry ∧ w.Timely) ⟨sound_new _, timely_init⟩ ?_
  rintro w op w' ⟨hs, ht⟩ ho hst
  obtain ⟨hv, hw, hb, hr, hn⟩ := hok w op ho
  obtain ⟨w'', hst', -, hsound⟩ := step_sound hs op hv hr
  cases hst'.symm.trans hst
  exact ⟨hsound hb, step_timely ht hs hv hw hb hr hn hst⟩

/-- In every such run the driver completes a timer only when its time has come. -/
theorem never_early {w : World} (h : Reach step RealTime init w) : w.NeverEarly := by
  obtain ⟨hs, ht⟩ := reach_timely (fun _ _ ho => ho) h
  intro now sleep w' hv hw hst h E hq hq'
  have hE : E = w.timer.next_expiry := by
    have hf := fire_spec hs.scheduled hs.ahead hs.next_le now sleep
    by_contra hne
    have : w'.queue h = some E := by
      rw [← some.inj hst]
      show (w.timer.fire now sleep).1.inner.queue w.expiry h = some E
      rw [hf.queue]
      exact Queue.expire_eq_some.2 ⟨hq, hne⟩
    rw [hq'] at this
    cases this
  have hlt : w.timer.next_expiry < U64_MAX := by
    obtain ⟨⟨idx, k, hsl⟩, hx⟩ := TimerMod.queue_eq_some.1 hq
    rw [← hE, ← hx]
    exact (hs.scheduled.placed hsl).bound
  obtain ⟨T, hT, hripe⟩ := ht.ripe hv hw hlt
  exact (hE ▸ ht.promise hq hT).trans hripe

theorem never_early_one_tick :
    ∃ w w', run step RealTime init
        [.add 1 1 0 ⟨0, 0, 0, 0⟩, .poll 0 ⟨16000000, 16000000, 16000000, 16000000⟩] = some w ∧
      w.step (.fire 16000000 16000000) = some w' ∧ w.queue 1 = some 1 ∧ w'.queue 1 = none ∧ w.earliest 1 ≤ 16000000 := by
  refine ⟨_, _, rfl, rfl, rfl, rfl, ?_⟩
  have hreach : Reach step RealTime init _ := .of_steps
      [.add 1 1 0 ⟨0, 0, 0, 0⟩, .poll 0 ⟨16000000, 16000000, 16000000, 16000000⟩] rfl
  exact never_early hreach 16000000 16000000 _ rfl (by decide) rfl 1 1 rfl rfl

/-- A millisecond, a second poll of the driver after it fired, and then a second. -/
def idlePolls : List Op :=
  [.add 1 1 0 ⟨0, 0, 0, 0⟩, .poll 0 ⟨16000000, 16000000, 16000000, 16000000⟩, .fire 16000000 16000000,
    -- the sleep is still completed, so another poll fires again
    .poll 0 ⟨17000000, 17000000, 17000000, 17000000⟩, .fire 17000000 17000000,
    .add 1000 2 0 ⟨18000000, 18000000, 18000000, 18000000⟩]

/-- The second fires at once. -/
theorem idle_poll_fires_early :
    ¬ ∀ w, Reach step (fun w op => w.Valid op ∧ w.Timed op ∧ Short op ∧ w.Countable op) init w → w.NeverEarly := by
  intro hall
  have hreach : Reach step (fun w op => w.Valid op ∧ w.Timed op ∧ Short op ∧ w.Countable op) init _ := .of_steps
      (idlePolls ++ [.poll 0 ⟨19000000, 19000000, 19000000, 19000000⟩]) rfl
  have hearly := hall _ hreach 19000000 19000000 _ rfl (by decide) rfl 2 62 rfl rfl
  exact absurd hearly (by decide)

/-! ## Polls of the driver -/

/-- A timer is due: 16 ms have passed for each tick up to its own. -/
def Due (w : World) (now : Nat) : Prop := ∃ h E T, w.queue h = some E ∧ w.timer.elapsed_time = some T ∧
  T + from_millis (16 * (E - w.timer.elapsed)) ≤ now

/-- A firing has a timer at the tick it takes. -/
def Owed (w : World) : Op → Prop
  | .fire _ _ => w.timer.next_expiry ∈ w.queue.ticks
  | _ => True

/-- The tick counter is behind every timer; a poll leaves the wheel as it is up to its loop, and a turn of the loop
has a timer that is due. -/
structure Harmless (w : World) : Prop where
  ahead : ∀ E ∈ w.queue.ticks, w.timer.elapsed < E
  poll : ∀ {waker r w'}, w.step (.poll waker r) = some w' → w'.timer.elapsed = w.timer.elapsed ∧
    w'.timer.next_expiry = w.timer.next_expiry ∧ w'.timer.inner.buckets = w.timer.inner.buckets
  fire : ∀ {now sleep}, w.RealTime (.fire now sleep) → w.Owed (.fire now sleep) → w.Due now

/-- As long as every turn of the loop has a timer to fire, a poll of the driver changes nothing else. -/
theorem poll_harmless {w : World} (h : Reach step (fun w op => w.RealTime op ∧ w.Owed op) init w) : w.Harmless where
  ahead := (reach_timely (fun _ _ ho => ho.1) h).1.scheduled.ahead
  poll {waker r w'} hst := by
    cases hst
    rw [poll_driver_eq]
    split <;> exact ⟨rfl, rfl, rfl⟩
  fire {now sleep} hr hw := by
    obtain ⟨T, hT, hripe⟩ := (reach_timely (fun _ _ ho => ho.1) h).2.ripe hr.1 hr.2.1 hr.2.2.1
    obtain ⟨hnd, hq⟩ := hw
    exact ⟨hnd, _, T, hq, hT, hripe⟩

theorem poll_harmless_one_tick : ∃ w, Reach step (fun w op => w.RealTime op ∧ w.Owed op) init w ∧
    w.RealTime (.fire 16000000 16000000) ∧ w.Owed (.fire 16000000 16000000) ∧ w.Harmless := by
  have hreach : Reach step (fun w op => w.RealTime op ∧ w.Owed op) init _ :=
    (Reach.refl.step (i := (.add 1 1 0 ⟨0, 0, 0, 0⟩ : Op)) ⟨by decide, trivial⟩ rfl).step
      (i := (.poll 0 ⟨16000000, 16000000, 16000000, 16000000⟩ : Op)) ⟨by decide, trivial⟩ rfl
  exact ⟨_, hreach, by decide, ⟨1, rfl⟩, poll_harmless hreach⟩

/-- The same polls: the one that finds nothing pending moves the tick counter to the end, behind which the second is
then armed. -/
theorem idle_poll_moves_clock :
    ¬ ∀ w, Reach step (fun w op => w.Valid op ∧ w.Timed op ∧ Short op ∧ w.Countable op) init w → w.Harmless := by
  intro hall
  have hreach : Reach step (fun w op => w.Valid op ∧ w.Timed op ∧ Short op ∧ w.Countable op) init _ := .of_steps idlePolls rfl
  exact absurd ((hall _ hreach).ahead 62 ⟨2, rfl⟩) (by decide)

end World

end Geario.Wheel
