import Geario.Wheel.Queue
/-!
# What each call does to the service

The calls around the wheel read the clock, keep a low-resolution copy of it and
manage two driver tasks. This file says what each call does to the rest:
`SameWheel` for the calls that leave it alone, `Placing` for the two that place
a timer.
-/
open Lib List Option

namespace Geario.Wheel

open TimerMod

/-- `s'` differs from `s` in its low-resolution clock and in wakers only. -/
structure SameWheel (s s' : TimerInner) : Prop where
  elapsed : s'.elapsed = s.elapsed
  elapsed_time : s'.elapsed_time = s.elapsed_time
  next_expiry : s'.next_expiry = s.next_expiry
  started : s'.flags.DRIVER_STARTED = s.flags.DRIVER_STARTED
  recalc : s'.flags.DRIVER_RECALC = s.flags.DRIVER_RECALC
  timers : s'.inner.timers = s.inner.timers
  buckets : s'.inner.buckets = s.inner.buckets
  occupied : s'.inner.occupied = s.inner.occupied
  sleep : s'.inner.driver_sleep = s.inner.driver_sleep
  woken : s.inner.woken <+: s'.inner.woken

namespace SameWheel

variable {s s' s'' : TimerInner}

lemma refl (s : TimerInner) : SameWheel s s := ⟨rfl, rfl, rfl, rfl, rfl, rfl, rfl, rfl, rfl, prefix_rfl⟩

end SameWheel

variable {x : Nat → Nat}

variable {m m' : TimerMod} {E millis k idx : Nat}

lemma Scheduled.congr {e : Nat} (hs : Scheduled m e x)
    (ht : m'.timers = m.timers) (hb : m'.buckets = m.buckets) (ho : m'.occupied = m.occupied) : Scheduled m' e x := by
  have hslot : m'.slot = m.slot := slot_congr ht
  exact ⟨hs.wired.congr ht hb ho, fun h => hs.placed (hslot ▸ h)⟩

lemma TimerMod.queue_congr (ht : m'.timers = m.timers) (x : Nat → Nat) : m'.queue x = m.queue x := by
  unfold queue slot
  rw [ht]

namespace TimerInner

/-! ## Reading the clock -/

section

variable (s : TimerInner)

lemma sameWheel_wake_lowres (t : Nat) : SameWheel s (s.wake_lowres t) := by
  unfold wake_lowres
  split
  · exact { SameWheel.refl s with woken := prefix_append _ _ }
  · exact { SameWheel.refl s with }

lemma sameWheel_now (t sleep : Nat) : SameWheel s (s.now t sleep).2 := by
  unfold now
  split
  · exact .refl s
  · split
    · have h := sameWheel_wake_lowres { s with lowres_time := some t } sleep
      exact { h with }
    · exact .refl s

lemma sameWheel_system_time (t sleep : Nat) : SameWheel s (s.system_time t sleep).2 := by
  unfold system_time
  split
  · exact .refl s
  · split
    · have h := sameWheel_wake_lowres { s with lowres_stime := some t } sleep
      exact { h with }
    · exact .refl s

lemma sameWheel_poll_lowres (waker : Waker) (t : Nat) (ready : Bool) : SameWheel s (s.poll_lowres waker t ready) := by
  unfold poll_lowres
  simp only
  split <;> split <;> exact { SameWheel.refl s with }

def low_now (s : TimerInner) (r : Readings) : Nat := s.lowres_time.getD r.now

def base (s : TimerInner) (r : Readings) : Nat := s.elapsed_time.getD r.elapsed

def delta (s : TimerInner) (millis least : Nat) (r : Readings) : Nat :=
  max (distance (s.low_now r) (s.base r) millis) least

def target (s : TimerInner) (millis least : Nat) (r : Readings) : Nat × Nat :=
  calc_wheel_index s.elapsed (wrap64 (s.elapsed + s.delta millis least r)) (s.delta millis least r)

lemma now_fst (t sleep : Nat) : (s.now t sleep).1 = s.lowres_time.getD t := by
  unfold now
  cases s.lowres_time with
  | some cur => rfl
  | none => simp only; split <;> rfl

lemma fetch_elapsed_time_eq (t : Nat) :
    s.fetch_elapsed_time t = (s.elapsed_time.getD t, { s with elapsed_time := some (s.elapsed_time.getD t) }) := by
  unfold fetch_elapsed_time
  cases h : s.elapsed_time with
  | none => rfl
  | some e => simp only [getD_some]; rw [← h]

lemma place_spec (millis least : Nat) (r : Readings) :
    (s.place millis least r).1 = s.target millis least r ∧
      SameWheel { s with elapsed_time := some (s.base r) } (s.place millis least r).2 := by
  have hn := s.sameWheel_now r.now r.lowres
  simp only [place, fetch_elapsed_time_eq, now_fst, hn.elapsed, hn.elapsed_time]
  exact ⟨rfl, { hn with elapsed := rfl, elapsed_time := rfl }⟩

/-! ## Placing a timer -/

/-- What a call that places a timer at tick `E` does besides; `t` is when it
set the driver's sleep, if it had to start the driver. -/
structure Placing (s s' : TimerInner) (base : Nat) (E : Nat) (t : Nat) : Prop where
  elapsed : s'.elapsed = s.elapsed
  elapsed_time : s'.elapsed_time = some base
  next_expiry : s'.next_expiry = min E s.next_expiry
  started : E < s.next_expiry → s'.flags.DRIVER_STARTED = true
  earlier : E < s.next_expiry → s'.flags.DRIVER_RECALC = true ∨
    s'.inner.driver_sleep.deadline = t + from_millis (to_millis (E - s.elapsed))
  later : s.next_expiry ≤ E → s'.inner.driver_sleep = s.inner.driver_sleep ∧ s'.flags.DRIVER_RECALC = s.flags.DRIVER_RECALC
  woken : s.inner.woken <+: s'.inner.woken

lemma check_expiry_spec (flags : Flags) (E : Nat) (t base : Nat) (hb : s.elapsed_time = some base) :
    Placing s (s.check_expiry flags E t) base E t ∧
      (s.check_expiry flags E t).inner.timers = s.inner.timers ∧
      (s.check_expiry flags E t).inner.buckets = s.inner.buckets ∧
      (s.check_expiry flags E t).inner.occupied = s.inner.occupied := by
  unfold check_expiry
  by_cases hE : E < s.next_expiry
  · have hmin : min E s.next_expiry = E := Nat.min_eq_left hE.le
    simp only [if_pos hE]
    split
    next hst =>
      exact ⟨⟨rfl, hb, hmin.symm, fun _ => hst, fun _ => .inl rfl, fun h => absurd hE (by omega),
        prefix_append _ _⟩, rfl, rfl, rfl⟩
    · exact ⟨⟨rfl, hb, hmin.symm, fun _ => rfl, fun _ => .inr rfl, fun h => absurd hE (by omega), prefix_rfl⟩, rfl, rfl, rfl⟩
  · rw [if_neg hE]
    exact ⟨⟨rfl, hb, (Nat.min_eq_right (by omega)).symm, fun h => absurd h hE, fun h => absurd h hE,
      fun _ => ⟨rfl, rfl⟩, prefix_rfl⟩, rfl, rfl, rfl⟩

end

lemma Placing.of_sameWheel {s s1 s' : TimerInner} {b t : Nat}
    (h : SameWheel { s with elapsed_time := some b } s1) (hp : Placing s1 s' b E t) : Placing s s' b E t where
  elapsed := hp.elapsed.trans h.elapsed
  elapsed_time := hp.elapsed_time
  next_expiry := by rw [hp.next_expiry, h.next_expiry]
  started hE := hp.started (by rw [h.next_expiry]; exact hE)
  earlier hE := by
    have := hp.earlier (by rw [h.next_expiry]; exact hE)
    rwa [h.elapsed] at this
  later hE := by
    obtain ⟨h1, h2⟩ := hp.later (by rw [h.next_expiry]; exact hE)
    exact ⟨h1.trans h.sleep, h2.trans h.recalc⟩
  woken := h.woken.trans hp.woken

lemma add_timer_spec {s : TimerInner} (hw : s.inner.Wired) {no : Nat} (hm : millis ≠ 0)
    (hno : s.inner.timers.get no = none) {r : Readings} (ht : s.target millis 0 r = (idx, E))
    (hk : (s.inner.buckets idx).entries.get k = none) :
    Placing s (s.add_timer millis no k r) (s.base r) E r.sleep ∧ (s.add_timer millis no k r).inner.Wired ∧
      (s.add_timer millis no k r).inner.timers = s.inner.timers.insert no ⟨some idx, k, none⟩ := by
  obtain ⟨h1, h2⟩ := s.set_running.place_spec millis 0 r
  obtain ⟨⟨q, s1⟩, hp⟩ : ∃ p, s.set_running.place millis 0 r = p := ⟨_, rfl⟩
  rw [hp] at h1 h2
  obtain rfl : q = (idx, E) := h1.trans ht
  have hsame : SameWheel { s with elapsed_time := some (s.base r) } s1 := { h2 with }
  obtain ⟨hpl, e1, e2, e3⟩ := check_expiry_spec { s1 with inner := s1.inner.add_entry no idx k }
    s.set_running.flags E r.sleep (s.base r) h2.elapsed_time
  have hl : Linked s1.inner.buckets s1.inner.occupied (Function.update s1.inner.slot no none) := by
    have hnone : none = s1.inner.slot no := by simp [slot, hsame.timers, hno]
    rw [Function.update_eq_self_iff.2 hnone]
    exact hw.congr hsame.timers hsame.buckets hsame.occupied
  obtain ⟨hw', -⟩ := wired_link hl (by rw [hsame.buckets]; exact hk) none
  simp only [add_timer, if_neg hm, hp]
  refine ⟨Placing.of_sameWheel hsame { hpl with }, hw'.congr e1 e2 e3, ?_⟩
  rw [e1, ← hsame.timers]
  rfl

lemma update_timer_spec {s : TimerInner} (hw : s.inner.Wired) {hnd : Nat} (hm : millis ≠ 0) {en : TimerEntry}
    (hen : s.inner.timers.get hnd = some en) {r : Readings} (ht : s.target millis 1 r = (idx, E))
    (hk : (s.inner.buckets idx).entries.get k = none) :
    ∃ s', s.update_timer hnd millis k r = some s' ∧ Placing s s' (s.base r) E r.sleep ∧ s'.inner.Wired ∧
      (en.bucket = some idx ∧ s'.inner.timers = s.inner.timers ∨
        en.bucket ≠ some idx ∧ s'.inner.timers = s.inner.timers.insert hnd ⟨some idx, k, en.task⟩) := by
  obtain ⟨h1, h2⟩ := s.place_spec millis 1 r
  obtain ⟨⟨q, s1⟩, hp⟩ : ∃ p, s.place millis 1 r = p := ⟨_, rfl⟩
  rw [hp] at h1 h2
  obtain rfl : q = (idx, E) := h1.trans ht
  obtain ⟨m', hm', hw', hframe, hcase⟩ := update_entry_spec (m := s1.inner) (h := hnd) (k := k)
    (hw.congr h2.timers h2.buckets h2.occupied)
    (by rw [h2.timers]; exact hen) (by rw [h2.buckets]; exact hk)
  obtain ⟨hpl, e1, e2, e3⟩ := check_expiry_spec { s1 with inner := m' } s1.flags E r.sleep (s.base r) h2.elapsed_time
  have hsleep : m'.driver_sleep = s1.inner.driver_sleep := by rw [hframe]
  refine ⟨{ s1 with inner := m' }.check_expiry s1.flags E r.sleep, ?_, ?_, hw'.congr e1 e2 e3, ?_⟩
  · simp only [update_timer, if_neg hm, hp, hm', bind_eq_bind, bind_some]
  · refine Placing.of_sameWheel h2 { hpl with later := fun h => ?_, woken := ?_ }
    · obtain ⟨h1, h2⟩ := hpl.later h
      exact ⟨h1.trans hsleep, h2⟩
    · have hwoken : m'.woken = s1.inner.woken := by rw [hframe]
      exact hwoken ▸ hpl.woken
  · rw [e1]
    rcases hcase with ⟨hb, rfl⟩ | ⟨hb, hs⟩
    · exact .inl ⟨hb, h2.timers⟩
    · exact .inr ⟨hb, h2.timers ▸ hs⟩

/-! ## Taking a timer out -/

/-- `s'` is `s` with timer `hnd` taken out of the wheel, which leaves `en` of it and wakes `l`. -/
structure Unplacing (s s' : TimerInner) (hnd : Nat) (en : Option TimerEntry) (l : List Waker) : Prop where
  wired : s'.inner.Wired
  slot : s'.inner.slot = Function.update s.inner.slot hnd none
  sleep : s'.inner.driver_sleep = s.inner.driver_sleep
  frame : s' = { s with inner := s'.inner }
  timers : ∀ h, s'.inner.timers.get h = if h = hnd then en else s.inner.timers.get h
  woken : s'.inner.woken = s.inner.woken ++ l

variable {s : TimerInner} {hnd : Nat} {en : TimerEntry}

lemma Unplacing.of_linked {b : Nat → Bucket} {o : Nat → BitVec 64} {en' : Option TimerEntry} {l : List Waker}
    (hl : Linked b o (Function.update s.inner.slot hnd none))
    (hm : m = { s.inner with buckets := b, occupied := o, timers := m.timers, woken := m.woken })
    (hs : m.slot = Function.update s.inner.slot hnd none)
    (ht : ∀ h, m.timers.get h = if h = hnd then en' else s.inner.timers.get h) (hwk : m.woken = s.inner.woken ++ l) :
    Unplacing s { s with inner := m } hnd en' l where
  wired := by
    unfold TimerMod.Wired
    rw [hs, hm]
    exact hl
  slot := hs
  sleep := by rw [hm]
  frame := rfl
  timers := ht
  woken := hwk

section

variable (hw : s.inner.Wired) (hen : s.inner.timers.get hnd = some en)
include hw hen

lemma remove_timer_spec : ∃ s', s.remove_timer hnd = some s' ∧ Unplacing s s' hnd (some en.complete) en.wakes := by
  obtain ⟨b, o, hl, hr⟩ := remove_timer_bucket_spec hw hen false
  refine ⟨_, by simp only [remove_timer, hr, bind_eq_bind, bind_some]; rfl, ?_⟩
  apply Unplacing.of_linked hl
  · rw [complete_frame]
  · exact slot_complete _ hnd
  · intro h
    rw [complete_get]
    by_cases hh : h = hnd
    · rw [if_pos hh, hh, if_neg Bool.false_ne_true, hen]
      simp
    · simp [hh]
  · simp [complete, hen]

lemma update_timer_zero_spec (k : Nat)
    (r : Readings) : ∃ s', s.update_timer hnd 0 k r = some s' ∧ Unplacing s s' hnd (some { en with bucket := none }) [] := by
  obtain ⟨b, o, hl, hr⟩ := remove_timer_bucket_spec hw hen false
  refine ⟨_, by simp only [update_timer, if_true, hr, bind_eq_bind, bind_some]; simp [hen]; rfl, ?_⟩
  apply Unplacing.of_linked hl
  · rfl
  · exact slot_insert { en with bucket := none } rfl
  · exact fun h => Slab.get_insert _ _ _ _
  · exact (append_nil _).symm

lemma drop_timer_spec : ∃ s', s.drop_timer hnd = some s' ∧ Unplacing s s' hnd none [] := by
  obtain ⟨b, o, hl, hr⟩ := remove_timer_bucket_spec hw hen true
  refine ⟨_, by simp only [drop_timer, hr, bind_eq_bind, bind_some]; rfl, ?_⟩
  apply Unplacing.of_linked hl
  · rfl
  · exact slot_remove s.inner hnd
  · exact fun h => Slab.get_remove _ _ _
  · exact (append_nil _).symm

/-! ## Polls -/

lemma poll_elapsed_spec (waker : Waker) :
    ∃ s', s.poll_elapsed hnd waker = some (en.bucket.isNone, s') ∧ s'.inner.Wired ∧ s'.inner.slot = s.inner.slot ∧
      s' = { s with inner.timers := s'.inner.timers } ∧
      (en.bucket.isNone ∧ s' = s ∨
        en.bucket.isNone = false ∧ s'.inner.timers = s.inner.timers.insert hnd { en with task := some waker }) := by
  unfold poll_elapsed
  simp only [hen, bind_eq_bind, bind_some]
  cases hb : en.bucket.isNone
  · have hsl : slot { s.inner with timers := s.inner.timers.insert hnd { en with task := some waker } } = s.inner.slot := by
      rw [slot_insert { en with task := some waker } rfl, Function.update_eq_self_iff]
      exact (slot_of_get hen).symm
    refine ⟨_, rfl, ?_, hsl, rfl, .inr ⟨rfl, rfl⟩⟩
    unfold TimerMod.Wired
    rw [hsl]
    exact hw
  · exact ⟨s, rfl, hw, rfl, rfl, .inl ⟨rfl, rfl⟩⟩

end

def recalc_sleep (s : TimerInner) (r : Readings) : Delay :=
  Delay.new r.sleep (if r.now ≥ s.base r then from_millis s.next_expiry_ms - (r.now - s.base r)
    else from_millis s.next_expiry_ms)

lemma poll_driver_eq (s : TimerInner) (waker : Waker) (r : Readings) :
    s.poll_driver waker r =
      if s.flags.DRIVER_RECALC then
        { s with
          driver := some waker
          flags.DRIVER_RECALC := false
          elapsed_time := some (s.base r)
          inner.driver_sleep := s.recalc_sleep r }
      else { s with driver := some waker } := by
  unfold poll_driver recalc
  simp only [fetch_elapsed_time_eq]
  rfl

/-! ## Firing -/

/-- What one round of the driver does, in terms of the queue. -/
structure Firing (s s' : TimerInner) (x : Nat → Nat) (now sleep : Nat) (more : Bool) : Prop where
  elapsed : s'.elapsed = s.next_expiry
  scheduled : Scheduled s'.inner s'.elapsed x
  queue : s'.inner.queue x = (s.inner.queue x).expire s.next_expiry
  flags : s'.flags = s.flags
  live : ∀ h, (s'.inner.timers.get h).isSome = (s.inner.timers.get h).isSome
  next : more = true ∧ IsLeast (s'.inner.queue x).ticks s'.next_expiry ∧ s'.elapsed_time = some now ∧
      s'.inner.driver_sleep.deadline = sleep + from_millis (to_millis (s'.next_expiry - s'.elapsed)) ∨
    more = false ∧ (s'.inner.queue x).ticks = ∅ ∧ s'.next_expiry = U64_MAX ∧ s'.elapsed_time = none

section

variable (hs : Scheduled s.inner s.elapsed x) (hlt : s.elapsed < s.next_expiry) (hle : ∀ E ∈ (s.inner.queue x).ticks, s.next_expiry ≤ E)
include hs hlt hle

lemma fire_spec (now sleep : Nat) : Firing s (s.fire now sleep).1 x now sleep (s.fire now sleep).2 := by
  have hsched : Scheduled (s.advance now).inner (s.advance now).elapsed x := hs.execute_expired hlt hle
  have hqueue : (s.advance now).inner.queue x = (s.inner.queue x).expire s.next_expiry :=
    hs.execute_expired_queue hlt hle
  have hlive : ∀ h, ((s.advance now).inner.timers.get h).isSome = (s.inner.timers.get h).isSome := fun h => by
    show ((s.inner.execute_expired_timers s.next_expiry).timers.get h).isSome = _
    rw [hs.drained.timers, isSome_map]
  have hearliest := next_pending_bucket_earliest hsched
  unfold fire
  simp only
  cases hn : (s.advance now).next_pending_bucket with
  | none =>
    rw [hn] at hearliest
    exact ⟨rfl, hsched, hqueue, rfl, hlive, .inr ⟨rfl, hearliest, rfl, rfl⟩⟩
  | some E =>
    rw [hn] at hearliest
    exact ⟨rfl, hsched.congr rfl rfl rfl, hqueue, rfl, hlive, .inl ⟨rfl, hearliest, rfl, rfl⟩⟩

lemma fire_woken (now sleep : Nat) :
    ∃ l, (s.fire now sleep).1.inner.woken = s.inner.woken ++ l ∧ ∀ wk, wk ∈ l ↔
      ∃ h e, s.inner.queue x h = some s.next_expiry ∧ s.inner.timers.get h = some e ∧ e.task = some wk := by
  obtain ⟨l, hl, hmem⟩ := (hs.drained (t := s.next_expiry)).woken
  refine ⟨l, ?_, fun wk => ?_⟩
  · rw [← hl]
    unfold fire
    simp only
    cases (s.advance now).next_pending_bucket <;> rfl
  · rw [hmem]
    constructor
    · rintro ⟨h, e, he, hin, ht⟩
      cases hb : e.bucket with
      | none => simp [TimerEntry.isIn, hb] at hin
      | some idx =>
        have hsl : s.inner.slot h = some (idx, e.bucket_entry) := by
          rw [slot_of_get he, TimerEntry.slot, hb]; rfl
        simp only [TimerEntry.isIn, hb, any_some, contains_eq_mem, decide_eq_true_iff] at hin
        exact ⟨h, e, queue_eq_some.2 ⟨⟨_, _, hsl⟩, (hs.visited_iff hlt hle hsl).1 hin⟩, he, ht⟩
    · rintro ⟨h, e, hq, he, ht⟩
      obtain ⟨⟨idx, k, hsl⟩, hE⟩ := queue_eq_some.1 hq
      refine ⟨h, e, he, ?_, ht⟩
      have hv := (hs.visited_iff hlt hle hsl).2 hE
      rw [slot_of_get he, TimerEntry.slot] at hsl
      obtain ⟨b, hb, heq⟩ := map_eq_some_iff.1 hsl
      have : b = idx := congrArg Prod.fst heq
      simp [TimerEntry.isIn, hb, this, hv]

end

end TimerInner

end Geario.Wheel
