import Geario.Wheel.Runs
/-!
# The flags of the timer

The flags are a copied value. `add_timer` takes its copy before it reads the
clock, which may start the low-resolution driver, and writes it back when the new
timer is the earliest and the timer driver runs. The flag of the low-resolution
driver is lost then, and the next reading starts a second one.
-/
open Lib

namespace Geario.Wheel

open TimerInner

namespace TimerInner

variable {s s' : TimerInner}

/-- Each driver runs once, and its flag says so. A cached time has a driver that is asleep, or that was woken and
has not been polled since. -/
structure Tended (s : TimerInner) : Prop where
  timer : s.timer_drivers = if s.flags.DRIVER_STARTED then 1 else 0
  lowres : s.lowres_drivers = if s.flags.LOWRES_DRIVER then 1 else 0
  cached : s.lowres_time ≠ none ∨ s.lowres_stime ≠ none →
    s.flags.LOWRES_DRIVER = true ∧ (s.flags.LOWRES_TIMER = true ∨ s.lowres_driver = none)
  registered : s.lowres_driver ≠ none → s.flags.LOWRES_DRIVER = true

lemma Tended.wake_lowres (h : Tended s) (time stime : Option Nat) (t : Nat) :
    Tended ({ s with lowres_time := time, lowres_stime := stime }.wake_lowres t) := by
  unfold TimerInner.wake_lowres
  split
  next hl => exact { h with cached := fun _ => ⟨hl, .inr rfl⟩, registered := fun hr => absurd rfl hr }
  next hl =>
    have hnone : s.lowres_driver = none := Classical.not_not.1 (mt h.registered hl)
    have hzero : s.lowres_drivers = 0 := h.lowres.trans (if_neg hl)
    exact ⟨h.timer, congrArg (· + 1) hzero, fun _ => ⟨rfl, .inr hnone⟩, fun _ => rfl⟩

lemma Tended.now (h : Tended s) (t sleep : Nat) : Tended (s.now t sleep).2 := by
  unfold TimerInner.now
  split
  · exact h
  · split
    · exact h.wake_lowres (some t) s.lowres_stime sleep
    · exact h

lemma Tended.system_time (h : Tended s) (t sleep : Nat) : Tended (s.system_time t sleep).2 := by
  unfold TimerInner.system_time
  split
  · exact h
  · split
    · exact h.wake_lowres s.lowres_time (some t) sleep
    · exact h

lemma Tended.place (h : Tended s) (millis least : Nat) (r : Readings) : Tended (s.place millis least r).2 := by
  simp only [TimerInner.place, fetch_elapsed_time_eq]
  exact { h.now r.now r.lowres with }

lemma flags_place (hl : s.flags.LOWRES_DRIVER) (millis least : Nat) (r : Readings) :
    (s.place millis least r).2.flags = s.flags := by
  simp only [place, fetch_elapsed_time_eq, now, wake_lowres]
  cases s.lowres_time with
  | some cur => rfl
  | none =>
    cases s.flags.RUNNING with
    | false => rfl
    | true => simp [hl]

lemma Tended.check_expiry (h : Tended s) {flags : Flags} (hd : flags.DRIVER_STARTED = s.flags.DRIVER_STARTED)
    (hl : flags.DRIVER_STARTED → flags.LOWRES_DRIVER = s.flags.LOWRES_DRIVER ∧ flags.LOWRES_TIMER = s.flags.LOWRES_TIMER)
    (E t : Nat) : Tended (s.check_expiry flags E t) := by
  unfold TimerInner.check_expiry
  split
  · split
    next hs =>
      obtain ⟨hl, ht⟩ := hl hs
      refine ⟨?_, ?_, fun hc => ?_, fun hr => ?_⟩
      · rw [hd]
        exact h.timer
      · rw [hl]
        exact h.lowres
      · rw [hl, ht]
        exact h.cached hc
      · rw [hl]
        exact h.registered hr
    next hs =>
      rw [hd] at hs
      have hzero : s.timer_drivers = 0 := h.timer.trans (if_neg hs)
      exact { h with timer := congrArg (· + 1) hzero }
  · exact h

lemma Tended.poll_lowres (h : Tended s) (hl : 0 < s.lowres_drivers) (waker : Waker) (t : Nat) (ready : Bool) :
    Tended (s.poll_lowres waker t ready) := by
  have hflag : s.flags.LOWRES_DRIVER := by
    by_contra hno
    rw [h.lowres, if_neg hno] at hl
    cases hl
  unfold TimerInner.poll_lowres
  dsimp only
  split
  · split <;> exact { h with cached := fun hc => absurd rfl (hc.elim id id), registered := fun _ => hflag }
  · split
    next hf => exact { h with cached := fun _ => ⟨hflag, .inl hf⟩, registered := fun _ => hflag }
    · exact { h with cached := fun _ => ⟨hflag, .inl rfl⟩, registered := fun _ => hflag }

def lowres_ended (s : TimerInner) (t : Nat) : Bool :=
  s.flags.LOWRES_TIMER && decide (s.inner.lowres_driver_sleep.deadline ≤ t)

/-- A poll of the low-resolution driver clears what is cached when its sleep is over, and else begins one. -/
def Clears (s : TimerInner) : Prop := ∀ waker t,
  let s' := s.poll_lowres waker t (s.lowres_ended t)
  if s.flags.LOWRES_TIMER then s.inner.lowres_driver_sleep.deadline ≤ t → s'.lowres_time = none ∧ s'.lowres_stime = none
  else s'.flags.LOWRES_TIMER = true ∧ s'.inner.lowres_driver_sleep.deadline = t + LOWRES_RESOLUTION

lemma clears (s : TimerInner) : s.Clears := by
  intro waker t
  unfold poll_lowres lowres_ended
  cases hf : s.flags.LOWRES_TIMER
  · simp [Delay.new, hf]
  · simp only [if_true, hf, Bool.true_and, decide_eq_true_eq]
    exact fun hle => by rw [if_pos hle]; exact ⟨rfl, rfl⟩

end TimerInner

namespace World

variable {w w' : World} {op : Op}

/-- No timer is added while the timer driver runs and the low-resolution one does not. -/
def Lowres (w : World) : Op → Prop
  | .add millis _ _ _ => millis ≠ 0 → w.timer.flags.DRIVER_STARTED = true → w.timer.flags.LOWRES_DRIVER = true
  | _ => True

instance (w : World) (op : Op) : Decidable (w.Lowres op) := by
  induction op using Op.casesOn <;> unfold Lowres <;> infer_instance

lemma tended_add (h : w.timer.Tended) {millis no k : Nat} {r : Readings} (hok : w.Lowres (.add millis no k r)) :
    (w.timer.add_timer millis no k r).Tended := by
  by_cases hm : millis = 0
  · subst hm
    exact { h with }
  · have hrun : w.timer.set_running.Tended := { h with }
    have hp := hrun.place millis 0 r
    have hflags := fun hl => w.timer.set_running.flags_place hl millis 0 r
    have hstarted := (w.timer.set_running.place_spec millis 0 r).2.started
    simp only [add_timer, if_neg hm]
    generalize w.timer.set_running.place millis 0 r = p at hp hflags hstarted
    refine TimerInner.Tended.check_expiry (s := { p.2 with inner := p.2.inner.add_entry no p.1.1 k }) { hp with } hstarted.symm
      (fun hs => ?_) _ _
    have hsame : p.2.flags = w.timer.set_running.flags := hflags (hok hm hs)
    exact ⟨congrArg Flags.LOWRES_DRIVER hsame.symm, congrArg Flags.LOWRES_TIMER hsame.symm⟩

lemma tended_step (h : w.timer.Tended) (hv : w.Valid op) (hok : w.Lowres op) (hst : w.step op = some w') : w'.timer.Tended := by
  cases op with
  | add millis no k r =>
    have ht := tended_add h hok
    simp only [step] at hst
    split at hst <;> cases hst <;> exact ht
  | reset hnd millis k r =>
    obtain ⟨s', hs', hst⟩ := of_bind hst
    have ht : s'.Tended := by
      unfold update_timer at hs'
      split at hs'
      · obtain ⟨m, -, hs'⟩ := of_bind hs'
        obtain ⟨e, -, hs'⟩ := of_bind hs'
        cases hs'
        exact { h with }
      · obtain ⟨m, -, hs'⟩ := of_bind hs'
        cases hs'
        exact TimerInner.Tended.check_expiry (s := { (w.timer.place millis 1 r).2 with inner := m })
          { h.place millis 1 r with } rfl (fun _ => ⟨rfl, rfl⟩) _ _
    split at hst <;> cases hst <;> exact ht
  | elapse hnd | drop hnd =>
    obtain ⟨s', hs', hst⟩ := of_bind hst
    obtain ⟨m, -, hs'⟩ := of_bind hs'
    cases hs'
    cases hst
    exact { h with }
  | poll_elapsed hnd waker =>
    obtain ⟨⟨b, s'⟩, hs', hst⟩ := of_bind hst
    obtain ⟨e, -, hs'⟩ := of_bind hs'
    cases hst
    split at hs' <;> cases hs'
    · exact h
    · exact { h with }
  | now t sleep =>
    cases hst
    exact h.now t sleep
  | system_time t sleep =>
    cases hst
    exact h.system_time t sleep
  | poll waker r =>
    cases hst
    rw [poll_driver_eq]
    split <;> exact { h with }
  | fire now sleep =>
    cases hst
    cases (w.timer.advance now).next_pending_bucket <;> exact { h with }
  | pending =>
    cases hst
    exact h
  | lowres waker t ready =>
    cases hst
    exact h.poll_lowres hv.2 waker t ready

/-- The flags agree with the drivers and with what is cached, and a poll clears what is cached. -/
theorem flags_kept (h : Reach step (fun w op => w.Valid op ∧ w.Lowres op) init w) : w.timer.Tended ∧ w.timer.Clears := by
  refine ⟨h.inv (fun w => w.timer.Tended) ?_ fun w op w' hi hok hst => tended_step hi hok.1 hok.2 hst, w.timer.clears⟩
  exact ⟨rfl, rfl, fun hc => absurd rfl (hc.elim id id), fun hr => absurd rfl hr⟩

/-- A timer is added and the low-resolution driver is polled. -/
theorem flags_kept_after_add : ∃ w, Reach step (fun w op => w.Valid op ∧ w.Lowres op) init w ∧
    w.timer.lowres_time = some 3 ∧ w.timer.flags.LOWRES_TIMER = true ∧ w.timer.Tended ∧ w.timer.Clears := by
  have hreach : Reach step (fun w op => w.Valid op ∧ w.Lowres op) init _ :=
    .of_steps [.add 1000 1 0 ⟨3, 3, 3, 3⟩, .lowres 7 4 false] rfl
  exact ⟨_, hreach, rfl, rfl, flags_kept hreach⟩

/-- A timer made with no timeout and reset to a second, which starts the timer driver alone; a timer of 100 ms, and a
reading of the system time. -/
theorem lowres_flag_lost : ∃ w, Reach step Valid init w ∧ w.timer.lowres_drivers = 2 ∧ ¬ w.timer.Tended := by
  have hreach : Reach step Valid init _ :=
    .of_steps [.add 0 1 0 ⟨0, 0, 0, 0⟩, .reset 1 1000 0 ⟨0, 0, 0, 0⟩, .add 100 2 0 ⟨1, 1, 1, 1⟩, .system_time 2 2] rfl
  refine ⟨_, hreach, rfl, fun h => ?_⟩
  have hl := h.lowres
  cases hl

end World

end Geario.Wheel
