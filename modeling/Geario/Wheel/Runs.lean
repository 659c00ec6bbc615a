import Geario.Lib.Run
import Geario.Wheel.Service
/-!
# Runs of the timer service

A `World` is the service together with what a run has to remember: the tick each
timer was last placed at, the earliest time each timer was promised for, and the
last reading of the clock. `Valid` says what the environment can do: it uses the
handles it owns, slabs hand out vacant keys, and the driver's rounds happen
inside a poll, during which nothing else runs. A step that panics is `none`.

The main results are that no valid step panics and that the wheel never loses or
misplaces a timer, as long as the tick counter stays clear of the end of `u64`.
-/
open Lib Option Function

namespace Geario.Wheel

open TimerInner TimerMod

structure World where
  timer : TimerInner
  polling : Bool
  expiry : Nat → Nat
  earliest : Nat → Nat
  clock : Nat

inductive Op where
  | add (millis no k : Nat) (r : Readings)
  | reset (hnd millis k : Nat) (r : Readings)
  | elapse (hnd : Nat)
  | drop (hnd : Nat)
  | poll_elapsed (hnd : Nat) (waker : Waker)
  | now (t sleep : Nat)
  | system_time (t sleep : Nat)
  | poll (waker : Waker) (r : Readings)
  | fire (now sleep : Nat)
  | pending
  | lowres (waker : Waker) (t : Nat) (ready : Bool)

def Op.sets : Op → Option (Nat × Nat × Nat × Readings)
  | .add millis no _ r => some (no, millis, 0, r)
  | .reset hnd millis _ r => some (hnd, millis, 1, r)
  | _ => none

namespace World

def init : World := ⟨Timer.new, false, fun _ => 0, fun _ => 0, 0⟩

def queue (w : World) : Queue := w.timer.inner.queue w.expiry

/-- The time before which a timer may not fire, unless it is beyond the
capacity of the wheel. -/
def promise (s : TimerInner) (millis least : Nat) (r : Readings) : Nat :=
  if s.delta millis least r < WHEEL_TIMEOUT_CUTOFF then s.low_now r + from_millis millis else 0

def step (w : World) : Op → Option World
  | .add millis no k r =>
    let w' := { w with timer := w.timer.add_timer millis no k r, clock := r.sleep }
    if millis = 0 then some w'
    else some { w' with
      expiry := Function.update w.expiry no (w.timer.target millis 0 r).2
      earliest := Function.update w.earliest no (promise w.timer millis 0 r) }
  | .reset hnd millis k r => do
    let timer ← w.timer.update_timer hnd millis k r
    let w' := { w with timer := timer, clock := r.sleep }
    if millis = 0 then some w'
    else
      -- a timer that stays in its bucket is not placed again
      let (idx, E) := w.timer.target millis 1 r
      let stays := (w.timer.inner.timers.get hnd).any (·.bucket == some idx)
      some { w' with
        expiry := if stays then w.expiry else Function.update w.expiry hnd E
        earliest := Function.update w.earliest hnd (promise w.timer millis 1 r) }
  | .elapse hnd => do some { w with timer := ← w.timer.remove_timer hnd }
  | .drop hnd => do some { w with timer := ← w.timer.drop_timer hnd }
  | .poll_elapsed hnd waker => do
    let (_, timer) ← w.timer.poll_elapsed hnd waker
    some { w with timer := timer }
  | .now t sleep => some { w with timer := (w.timer.now t sleep).2, clock := sleep }
  | .system_time t sleep => some { w with timer := (w.timer.system_time t sleep).2, clock := sleep }
  | .poll waker r => some { w with timer := w.timer.poll_driver waker r, polling := true, clock := r.sleep }
  | .fire now sleep =>
    let (timer, more) := w.timer.fire now sleep
    some { w with timer := timer, polling := more, clock := sleep }
  | .pending => some { w with polling := false }
  | .lowres waker t ready => some { w with timer := w.timer.poll_lowres waker t ready, clock := t }

def Live (w : World) (hnd : Nat) : Prop := hnd ≠ 0 ∧ (w.timer.inner.timers.get hnd).isSome

/-- A key the slab of the chosen bucket may hand out. -/
def Vacant (w : World) (millis least k : Nat) (r : Readings) : Prop :=
  (w.timer.inner.buckets (w.timer.target millis least r).1).entries.get k = none

/-- Handles are live, keys are vacant, and nothing comes between a poll and its firings. -/
def Valid (w : World) : Op → Prop
  | .add millis no k r => w.polling = false ∧ w.timer.inner.timers.get no = none ∧ w.Vacant millis 0 k r
  | .reset hnd millis k r => w.polling = false ∧ w.Live hnd ∧ w.Vacant millis 1 k r
  | .elapse hnd | .drop hnd | .poll_elapsed hnd _ => w.polling = false ∧ w.Live hnd
  | .now _ _ | .system_time _ _ => w.polling = false
  | .poll _ _ => w.polling = false ∧ w.timer.flags.DRIVER_STARTED = true
  | .fire _ _ | .pending => w.polling = true
  | .lowres _ _ _ => w.polling = false ∧ 0 < w.timer.lowres_drivers

/-- A firing happens only while something may be pending. -/
def Busy (w : World) : Op → Prop
  | .fire _ _ => w.timer.next_expiry < U64_MAX
  | _ => True

/-- Timeouts are `u32`, as `Millis` has them. -/
def Short : Op → Prop
  | .add millis _ _ _ | .reset _ millis _ _ => millis < 2 ^ 32
  | _ => True

/-- The tick counter is clear of the end of `u64` when a timer is placed. -/
def InRange (w : World) : Op → Prop
  | .add millis _ _ _ | .reset _ millis _ _ => millis ≠ 0 → w.timer.elapsed + 2 ^ 27 < U64_MAX
  | _ => True

end World

/-- The step can be taken, with inputs in range. -/
def World.Ordinary (w : World) (op : Op) : Prop := w.Valid op ∧ w.Busy op ∧ World.Short op ∧ w.InRange op

instance (w : World) (hnd : Nat) : Decidable (w.Live hnd) := inferInstanceAs (Decidable (_ ∧ _))

instance (w : World) (millis least k : Nat) (r : Readings) : Decidable (w.Vacant millis least k r) :=
  inferInstanceAs (Decidable (_ = none))

instance (w : World) : (op : Op) → Decidable (w.Valid op)
  | .add _ _ _ _ | .reset _ _ _ _ => inferInstanceAs (Decidable (_ ∧ _ ∧ _))
  | .elapse _ | .drop _ | .poll_elapsed _ _ | .poll _ _ | .lowres _ _ _ => inferInstanceAs (Decidable (_ ∧ _))
  | .now _ _ | .system_time _ _ | .fire _ _ | .pending => inferInstanceAs (Decidable (_ = _))

instance (w : World) (op : Op) : Decidable (w.Busy op) := by cases op <;> unfold World.Busy <;> infer_instance

instance (op : Op) : Decidable (World.Short op) := by cases op <;> unfold World.Short <;> infer_instance

instance (w : World) (op : Op) : Decidable (w.InRange op) := by cases op <;> unfold World.InRange <;> infer_instance

instance (w : World) (op : Op) : Decidable (w.Ordinary op) := inferInstanceAs (Decidable (_ ∧ _))

/-! ## The invariant -/

/-- Every timer is in the bucket of its tick `x h`, and the next firing is not
after any of them. -/
structure Sound (s : TimerInner) (x : Nat → Nat) : Prop where
  scheduled : Scheduled s.inner s.elapsed x
  ahead : s.elapsed < s.next_expiry
  next_le : ∀ E ∈ (s.inner.queue x).ticks, s.next_expiry ≤ E

lemma slot_new (h : Nat) : Timer.new.inner.slot h = none := by
  simp only [slot, Timer.new, Slab.get_insert, Slab.get_empty]
  split <;> rfl

lemma sound_new (x : Nat → Nat) : Sound Timer.new x where
  scheduled := by
    refine ⟨⟨fun _ => rfl, fun _ => rfl, fun _ => rfl, fun {idx k h} => ?_, fun {lvl j} _ => ?_⟩,
      fun {h idx k} hsl => by rw [slot_new] at hsl; cases hsl⟩
    · rw [slot_new]
      simp [Timer.new, create_buckets, Bucket.new]
    · simp [Timer.new, create_buckets, Bucket.new, Slab.is_empty, Slab.empty]
  ahead := by decide
  next_le := by
    rintro E ⟨h, hq⟩
    rw [queue, slot_new] at hq
    cases hq

namespace Sound

variable {s s' : TimerInner} {x : Nat → Nat} {hnd idx k E : Nat}

lemma queue_of_slot {m m' : TimerMod} (hslot : m'.slot = m.slot) (x : Nat → Nat) : m'.queue x = m.queue x := by
  unfold queue
  rw [hslot]

lemma of_slot (h : Sound s x) (hw : s'.inner.Wired) (hslot : s'.inner.slot = s.inner.slot)
    (he : s'.elapsed = s.elapsed) (hn : s'.next_expiry = s.next_expiry) : Sound s' x where
  scheduled := ⟨hw, fun hsl => by rw [he]; exact h.scheduled.placed (hslot ▸ hsl)⟩
  ahead := by rw [he, hn]; exact h.ahead
  next_le := by rw [queue_of_slot hslot, hn]; exact h.next_le

lemma of_same (h : Sound s x) (hs : SameWheel s s') : Sound s' x where
  scheduled := hs.elapsed ▸ h.scheduled.congr hs.timers hs.buckets hs.occupied
  ahead := by rw [hs.elapsed, hs.next_expiry]; exact h.ahead
  next_le := by rw [queue_congr hs.timers, hs.next_expiry]; exact h.next_le

lemma queue_update {m m' : TimerMod} {p : Option (Nat × Nat)} (hslot : m'.slot = update m.slot hnd p)
    (x : Nat → Nat) (E : Nat) :
    m'.queue (update x hnd E) = update (m.queue x) hnd (p.map fun _ => E) := by
  funext h
  unfold queue
  rw [hslot]
  by_cases hh : h = hnd
  · subst hh; simp
  · simp [hh]

lemma unplace {en : Option TimerEntry} {l : List Waker} (h : Sound s x) (hu : TimerInner.Unplacing s s' hnd en l) :
    Sound s' x ∧ s'.inner.queue x = update (s.inner.queue x) hnd none := by
  have hq : s'.inner.queue x = update (s.inner.queue x) hnd none := by
    have := queue_update hu.slot x (x hnd)
    rwa [update_eq_self] at this
  refine ⟨⟨⟨hu.wired, fun {h' idx k} hsl => ?_⟩, ?_, ?_⟩, hq⟩
  · rw [hu.slot, update_apply] at hsl
    rw [hu.frame]
    obtain ⟨-, hsl⟩ := ite_none_left_eq_some.1 hsl
    exact h.scheduled.placed hsl
  · rw [hu.frame]
    exact h.ahead
  · rintro F ⟨h', hF⟩
    rw [hq, update_apply] at hF
    rw [hu.frame]
    obtain ⟨-, hF⟩ := ite_none_left_eq_some.1 hF
    exact h.next_le F ⟨h', hF⟩

variable {b t millis least no : Nat}

section

variable (h : Sound s x) (hp : TimerInner.Placing s s' b E t) (hw : s'.inner.Wired)
include h hp hw

lemma place
    (hslot : s'.inner.slot = update s.inner.slot hnd (some (idx, k))) (hE : Placed s.elapsed idx E) :
    Sound s' (update x hnd E) ∧ s'.inner.queue (update x hnd E) = update (s.inner.queue x) hnd (some E) := by
  have hq := queue_update hslot x E
  refine ⟨⟨⟨hw, fun {h' idx' k'} hsl => ?_⟩, ?_, ?_⟩, hq⟩
  · rw [hslot, update_apply] at hsl
    rw [hp.elapsed]
    split at hsl
    next hh =>
      obtain ⟨rfl, rfl⟩ := hsl
      rw [hh, update_self]
      exact hE
    next hh =>
      rw [update_of_ne hh]
      exact h.scheduled.placed hsl
  · rw [hp.elapsed, hp.next_expiry]
    exact lt_min hE.ahead h.ahead
  · rintro F ⟨h', hF⟩
    rw [hq, update_apply] at hF
    rw [hp.next_expiry]
    split at hF
    · cases hF
      exact min_le_left _ _
    · exact (min_le_right _ _).trans (h.next_le F ⟨h', hF⟩)

lemma stay
    (ht : s'.inner.timers = s.inner.timers) (hsl : s.inner.slot hnd = some (idx, k)) (hE : Placed s.elapsed idx E) :
    Sound s' x ∧ x hnd = E ∧ s'.inner.queue x = update (s.inner.queue x) hnd (some E) := by
  have hx : x hnd = E := (h.scheduled.placed hsl).unique hE
  have hq : s'.inner.queue x = update (s.inner.queue x) hnd (some E) := by
    rw [queue_congr ht, eq_comm, update_eq_self_iff, queue, hsl, ← hx]
    rfl
  have hslot := slot_congr ht
  refine ⟨⟨⟨hw, fun {h' idx' k'} hsl' => ?_⟩, ?_, ?_⟩, hx, hq⟩
  · rw [hp.elapsed]
    exact h.scheduled.placed (hslot ▸ hsl')
  · rw [hp.elapsed, hp.next_expiry]
    exact lt_min hE.ahead h.ahead
  · rw [hp.next_expiry, queue_congr ht]
    exact fun F hF => (min_le_right _ _).trans (h.next_le F hF)

end

lemma fire (h : Sound s x) (hlt : s.next_expiry < U64_MAX) (now sleep : Nat) : Sound (s.fire now sleep).1 x := by
  have hf := fire_spec h.scheduled h.ahead h.next_le now sleep
  have hahead : ∀ E ∈ ((s.fire now sleep).1.inner.queue x).ticks, (s.fire now sleep).1.elapsed < E := hf.scheduled.ahead
  refine ⟨hf.scheduled, ?_, ?_⟩
  · rcases hf.next with ⟨-, hl, -⟩ | ⟨-, -, hn, -⟩
    · exact hahead _ hl.1
    · rw [hn, hf.elapsed]; exact hlt
  · rcases hf.next with ⟨-, hl, -⟩ | ⟨-, he, -⟩
    · exact hl.2
    · rw [he]; rintro E ⟨⟩

end Sound

/-! ## Steps -/

namespace World

def effect (w : World) : Op → Queue → Queue
  | .add millis no _ r, q => if millis = 0 then q else Function.update q no (some (w.timer.target millis 0 r).2)
  | .reset hnd millis _ r, q =>
    Function.update q hnd (if millis = 0 then none else some (w.timer.target millis 1 r).2)
  | .elapse hnd, q | .drop hnd, q => Function.update q hnd none
  | .fire _ _, q => q.expire w.timer.next_expiry
  | _, q => q

variable {w w' : World} {r : Readings} {e : Nat}

lemma target_placed {idx E : Nat} (hr : w.timer.elapsed + 2 ^ 27 < U64_MAX)
    (ht : w.timer.target millis least r = (idx, E)) : Placed w.timer.elapsed idx E :=
  calc_wheel_index_window hr ht

structure Setting (w w' : World) (hnd millis least : Nat) (r : Readings) : Prop where
  placing : TimerInner.Placing w.timer w'.timer (w.timer.base r) (w.timer.target millis least r).2 r.sleep
  queue : w'.queue = Function.update w.queue hnd (some (w.timer.target millis least r).2)
  sound : Sound w'.timer w'.expiry
  polling : w'.polling = w.polling
  earliest : w'.earliest = Function.update w.earliest hnd (promise w.timer millis least r)
  clock : w'.clock = r.sleep

section

variable (hs : Sound w.timer w.expiry)
include hs

lemma add_step {k : Nat} (hm : millis ≠ 0)
    (hv : w.Valid (.add millis no k r)) (hr : w.InRange (.add millis no k r)) :
    ∃ w', w.step (.add millis no k r) = some w' ∧ Setting w w' no millis 0 r := by
  obtain ⟨-, hno, hkey⟩ := hv
  obtain ⟨⟨idx, E⟩, htar⟩ : ∃ p, w.timer.target millis 0 r = p := ⟨_, rfl⟩
  rw [Vacant, htar] at hkey
  obtain ⟨hp, hw, ht⟩ := add_timer_spec hs.scheduled.wired hm hno htar hkey
  obtain ⟨h1, h2⟩ := hs.place hp hw (slot_insert _ ht) (target_placed (hr hm) htar)
  simp only [step, if_neg hm, htar]
  exact ⟨_, rfl, by rw [htar]; exact hp, by rw [htar]; exact h2, h1, rfl, rfl, rfl⟩

lemma reset_step {hnd k : Nat} (hm : millis ≠ 0)
    (hv : w.Valid (.reset hnd millis k r)) (hr : w.InRange (.reset hnd millis k r)) :
    ∃ w', w.step (.reset hnd millis k r) = some w' ∧ Setting w w' hnd millis 1 r := by
  obtain ⟨-, ⟨-, hlive⟩, hkey⟩ := hv
  obtain ⟨en, hen⟩ := isSome_iff_exists.1 hlive
  obtain ⟨⟨idx, E⟩, htar⟩ : ∃ p, w.timer.target millis 1 r = p := ⟨_, rfl⟩
  rw [Vacant, htar] at hkey
  obtain ⟨s', hs', hp, hw, hcase⟩ := update_timer_spec hs.scheduled.wired hm hen htar hkey
  have hE := target_placed (hr hm) htar
  simp only [step, hs', hen, htar, bind_eq_bind, bind_some, if_neg hm, any_some]
  rcases hcase with ⟨hb, ht⟩ | ⟨hb, hsl⟩
  · have hsl : w.timer.inner.slot hnd = some (idx, en.bucket_entry) := by
      rw [slot_of_get hen, TimerEntry.slot, hb]; rfl
    obtain ⟨h1, -, h3⟩ := hs.stay hp hw ht hsl hE
    simp only [hb, beq_self_eq_true, if_true]
    exact ⟨_, rfl, by rw [htar]; exact hp, by rw [htar]; exact h3, h1, rfl, rfl, rfl⟩
  · obtain ⟨h1, h2⟩ := hs.place hp hw (slot_insert _ hsl) hE
    simp only [beq_eq_false_iff_ne.2 hb, Bool.false_eq_true, if_false]
    exact ⟨_, rfl, by rw [htar]; exact hp, by rw [htar]; exact h2, h1, rfl, rfl, rfl⟩

lemma sets_step {op : Op} {hnd : Nat}
    (hop : op.sets = some (hnd, millis, least, r)) (hm : millis ≠ 0) (hv : w.Valid op) (hr : w.InRange op) :
    ∃ w', w.step op = some w' ∧ Setting w w' hnd millis least r := by
  cases op with
  | add millis' no k r' =>
    obtain ⟨rfl, rfl, rfl, rfl⟩ := hop
    exact add_step hs hm hv hr
  | reset hnd' millis' k r' =>
    obtain ⟨rfl, rfl, rfl, rfl⟩ := hop
    exact reset_step hs hm hv hr
  | _ => cases hop

end

lemma add_zero_slot (s : TimerInner) (hno : s.inner.timers.get no = none) (k : Nat) (r : Readings) :
    (s.add_timer 0 no k r).inner.slot = s.inner.slot := by
  have : (s.add_timer 0 no k r).inner.slot = update s.inner.slot no none := slot_insert ⟨none, 0, none⟩ rfl
  rwa [show none = s.inner.slot no by simp [slot, hno], update_eq_self] at this

/-- No valid operation panics, each does to the queue what it is for, and all
but an idle firing keep the wheel sound. -/
lemma step_sound (hs : Sound w.timer w.expiry) (op : Op) (hv : w.Valid op) (hr : w.InRange op) :
    ∃ w', w.step op = some w' ∧ w'.queue = w.effect op w.queue ∧ (w.Busy op → Sound w'.timer w'.expiry) := by
  cases op with
  | add millis no k r =>
    by_cases hm : millis = 0
    · subst hm
      have hsl := add_zero_slot w.timer hv.2.1 k r
      refine ⟨_, rfl, Sound.queue_of_slot hsl w.expiry, fun _ => hs.of_slot ?_ hsl rfl rfl⟩
      unfold TimerMod.Wired
      rw [hsl]
      exact hs.scheduled.wired
    · obtain ⟨w', h1, h2⟩ := add_step hs hm hv hr
      exact ⟨w', h1, by rw [h2.queue, effect, if_neg hm], fun _ => h2.sound⟩
  | reset hnd millis k r =>
    by_cases hm : millis = 0
    · subst hm
      obtain ⟨en, hen⟩ := isSome_iff_exists.1 hv.2.1.2
      obtain ⟨s', hs', hu⟩ := update_timer_zero_spec hs.scheduled.wired hen k r
      obtain ⟨h1, h2⟩ := hs.unplace hu
      refine ⟨{ w with timer := s', clock := r.sleep }, ?_, h2, fun _ => h1⟩
      simp only [step, hs', bind_eq_bind, bind_some, if_true]
    · obtain ⟨w', h1, h2⟩ := reset_step hs hm hv hr
      exact ⟨w', h1, by rw [h2.queue, effect, if_neg hm], fun _ => h2.sound⟩
  | elapse hnd =>
    obtain ⟨en, hen⟩ := isSome_iff_exists.1 hv.2.2
    obtain ⟨s', hs', hu⟩ := remove_timer_spec hs.scheduled.wired hen
    obtain ⟨h1, h2⟩ := hs.unplace hu
    exact ⟨{ w with timer := s' }, by simp [step, hs'], h2, fun _ => h1⟩
  | drop hnd =>
    obtain ⟨en, hen⟩ := isSome_iff_exists.1 hv.2.2
    obtain ⟨s', hs', hu⟩ := drop_timer_spec hs.scheduled.wired hen
    obtain ⟨h1, h2⟩ := hs.unplace hu
    exact ⟨{ w with timer := s' }, by simp [step, hs'], h2, fun _ => h1⟩
  | poll_elapsed hnd waker =>
    obtain ⟨en, hen⟩ := isSome_iff_exists.1 hv.2.2
    obtain ⟨s', hs', hw, hsl, hframe, -⟩ := poll_elapsed_spec hs.scheduled.wired hen waker
    refine ⟨{ w with timer := s' }, by simp [step, hs'], Sound.queue_of_slot hsl w.expiry, fun _ => ?_⟩
    exact hs.of_slot hw hsl (by rw [hframe]) (by rw [hframe])
  | now t sleep =>
    have h := w.timer.sameWheel_now t sleep
    exact ⟨_, rfl, queue_congr h.timers w.expiry, fun _ => hs.of_same h⟩
  | system_time t sleep =>
    have h := w.timer.sameWheel_system_time t sleep
    exact ⟨_, rfl, queue_congr h.timers w.expiry, fun _ => hs.of_same h⟩
  | poll waker r =>
    refine ⟨_, rfl, ?_⟩
    rw [poll_driver_eq]
    split
    · exact ⟨rfl, fun _ => ⟨hs.scheduled.congr rfl rfl rfl, hs.ahead, hs.next_le⟩⟩
    · exact ⟨rfl, fun _ => { hs with }⟩
  | fire now sleep =>
    have hf := fire_spec hs.scheduled hs.ahead hs.next_le now sleep
    exact ⟨_, rfl, hf.queue, fun hlt => hs.fire hlt now sleep⟩
  | pending => exact ⟨_, rfl, rfl, fun _ => hs⟩
  | lowres waker t ready =>
    have h := w.timer.sameWheel_poll_lowres waker t ready
    exact ⟨_, rfl, queue_congr h.timers w.expiry, fun _ => hs.of_same h⟩

/-! ## Whole runs -/

/-- What the wheel owes its timers: each is in the bucket of its tick, ahead of
the clock and not before the next firing; a firing completes exactly the timers
due and wakes exactly their tasks; and the search finds the earliest tick. -/
structure Exact (w : World) : Prop where
  placed : ∀ {h idx k}, w.timer.inner.slot h = some (idx, k) → ∃ lvl < LVL_DEPTH, idx = bucket_of lvl (w.expiry h)
  ahead : ∀ E ∈ w.queue.ticks, w.timer.elapsed < E ∧ w.timer.next_expiry ≤ E
  fires : w.timer.next_expiry < U64_MAX → ∀ now sleep,
    (w.timer.fire now sleep).1.inner.queue w.expiry = w.queue.expire w.timer.next_expiry
  wakes : w.timer.next_expiry < U64_MAX → ∀ now sleep, ∃ l,
    (w.timer.fire now sleep).1.inner.woken = w.timer.inner.woken ++ l ∧ ∀ wk, wk ∈ l ↔
      ∃ h e, w.queue h = some w.timer.next_expiry ∧ w.timer.inner.timers.get h = some e ∧ e.task = some wk
  earliest : w.queue.Earliest w.timer.next_pending_bucket

lemma Exact.of_sound (hs : Sound w.timer w.expiry) : w.Exact where
  placed hsl := by
    obtain ⟨lvl, hl, hi, -⟩ := (hs.scheduled.placed hsl).level
    exact ⟨lvl, hl, hi⟩
  ahead E hE := ⟨hs.scheduled.ahead E hE, hs.next_le E hE⟩
  fires _ now sleep := (fire_spec hs.scheduled hs.ahead hs.next_le now sleep).queue
  wakes _ now sleep := fire_woken hs.scheduled hs.ahead hs.next_le now sleep
  earliest := next_pending_bucket_earliest hs.scheduled

lemma reach_sound (h : Reach step Ordinary init w) : Sound w.timer w.expiry := by
  refine h.inv (fun w => Sound w.timer w.expiry) (sound_new _) fun w op w' hs hok hst => ?_
  obtain ⟨w'', hst', -, hsound⟩ := step_sound hs op hok.1 hok.2.2.2
  cases hst'.symm.trans hst
  exact hsound hok.2.1

/-- The timer wheel never loses or misplaces a timer. -/
theorem wheel_exact (h : Reach step Ordinary init w) : w.Exact :=
  .of_sound (reach_sound h)

theorem wheel_exact_after_add :
    ∃ w, init.step (.add 1000 1 0 ⟨0, 0, 0, 0⟩) = some w ∧ w.queue 1 = some 63 ∧ w.Exact :=
  ⟨_, rfl, rfl, wheel_exact (.step (i := .add 1000 1 0 ⟨0, 0, 0, 0⟩) .refl
    ⟨⟨rfl, rfl, rfl⟩, trivial, (by decide : 1000 < 2 ^ 32), fun _ => (by decide : 0 + 2 ^ 27 < U64_MAX)⟩ rfl)⟩

/-! ## The end of the tick counter

Timers of the longest distance move the counter by 63 slots of the last level
each. After enough of them the expiry of the next one wraps around. -/

/-- No timer pending at tick `e`, and handle 1 in use. -/
structure Idle (e : Nat) (w : World) : Prop where
  sound : Sound w.timer w.expiry
  empty : w.queue.ticks = ∅
  elapsed : w.timer.elapsed = e
  next : w.timer.next_expiry = U64_MAX
  unset : w.timer.elapsed_time = none
  idle : w.polling = false
  live : w.Live 1

lemma Idle.slot (hi : Idle e w) (h : Nat) : w.timer.inner.slot h = none := by
  cases hsl : w.timer.inner.slot h with
  | none => rfl
  | some p =>
    have : w.expiry h ∈ w.queue.ticks := ⟨h, by simp [queue, TimerMod.queue, hsl]⟩
    rw [hi.empty] at this
    cases this

lemma Idle.vacant (hi : Idle e w) (idx k : Nat) : (w.timer.inner.buckets idx).entries.get k = none := by
  cases hk : (w.timer.inner.buckets idx).entries.get k with
  | none => rfl
  | some h =>
    have := hi.sound.scheduled.wired.entries.1 hk
    rw [hi.slot] at this
    cases this

def still (w : World) : Readings :=
  let t := w.timer.lowres_time.getD 0
  ⟨t, t, t, t⟩

lemma Idle.target_longest (hi : Idle e w) :
    w.timer.target (2 ^ 32 - 1) 1 w.still = calc_index (wrap64 (e + WHEEL_TIMEOUT_MAX)) 7 := by
  have hd : w.timer.delta (2 ^ 32 - 1) 1 w.still = 2 ^ 28 - 1 := by
    have hl : w.timer.low_now w.still = w.timer.lowres_time.getD 0 := by
      unfold low_now still
      cases w.timer.lowres_time <;> rfl
    have hb : w.timer.base w.still = w.timer.lowres_time.getD 0 := by
      unfold base still
      rw [hi.unset]
      rfl
    unfold delta distance
    rw [hl, hb, if_pos (Nat.le_refl _), Nat.sub_self]
    decide
  unfold target
  rw [hd, hi.elapsed, calc_wheel_index_eq, if_neg (by decide)]

lemma Idle.reset_longest {e idx E : Nat} (hi : Idle e w) (ht : w.timer.target (2 ^ 32 - 1) 1 w.still = (idx, E)) :
    ∃ w', w.step (.reset 1 (2 ^ 32 - 1) 0 w.still) = some w' ∧ w'.polling = false ∧
      TimerInner.Placing w.timer w'.timer (w.timer.base w.still) E w.still.sleep ∧ w'.timer.inner.Wired ∧
      w'.timer.inner.slot = update w.timer.inner.slot 1 (some (idx, 0)) ∧
      w'.expiry = update w.expiry 1 E := by
  obtain ⟨en, hen⟩ := isSome_iff_exists.1 hi.live.2
  have hm : 2 ^ 32 - 1 ≠ 0 := by decide
  obtain ⟨s', hs', hp, hw, hcase⟩ :=
    update_timer_spec hi.sound.scheduled.wired hm hen ht (hi.vacant idx 0)
  have hb : en.bucket = none := by
    have := hi.slot 1
    rw [slot_of_get hen, TimerEntry.slot, map_eq_none_iff] at this
    exact this
  rcases hcase with ⟨h, -⟩ | ⟨-, hsl⟩
  · rw [hb] at h
    cases h
  refine ⟨{ w with
    timer := s', clock := w.still.sleep, expiry := update w.expiry 1 E
    earliest := update w.earliest 1 (promise w.timer (2 ^ 32 - 1) 1 w.still) }, ?_, hi.idle, hp, hw,
    slot_insert _ hsl, rfl⟩
  simp only [step, hs', hen, ht, hb, bind_eq_bind, bind_some, if_neg hm, any_some]
  rfl

lemma valid_reset_longest (hi : Idle e w) :
    w.Valid (.reset 1 (2 ^ 32 - 1) 0 w.still) ∧ w.Busy (.reset 1 (2 ^ 32 - 1) 0 w.still) ∧
      Short (.reset 1 (2 ^ 32 - 1) 0 w.still) :=
  ⟨⟨hi.idle, hi.live, hi.vacant _ _⟩, trivial, (by decide : 2 ^ 32 - 1 < 2 ^ 32)⟩

lemma fire_only {E : Nat} (hs : Sound w.timer w.expiry) (hq : w.queue.ticks = {E})
    (hn : w.timer.next_expiry = E) (hE : E < U64_MAX) (hst : w.timer.flags.DRIVER_STARTED)
    (hp : w.polling = false) (hl : w.Live 1) :
    ∃ w', Reach step (fun w op => w.Valid op ∧ w.Busy op ∧ Short op) w w' ∧ Idle E w' := by
  obtain ⟨w2, hw2, hq2, hs2⟩ := step_sound hs (.poll 0 w.still) ⟨hp, hst⟩ trivial
  obtain ⟨h1, h2, h3⟩ : w2.timer.next_expiry = E ∧ w2.timer.inner.timers = w.timer.inner.timers ∧ w2.polling := by
    rw [← some.inj hw2]
    simp only [poll_driver_eq, and_true]
    split <;> exact ⟨hn, rfl⟩
  replace hs2 := hs2 trivial
  have hf := fire_spec hs2.scheduled hs2.ahead hs2.next_le 0 0
  obtain ⟨w3, hw3, hq3, hs3⟩ := step_sound hs2 (.fire 0 0) h3 trivial
  have hempty : w3.queue.ticks = ∅ := by
    apply Set.eq_empty_of_forall_notMem
    rintro F ⟨h, hF⟩
    rw [hq3, hq2] at hF
    obtain ⟨hF, hne⟩ := Queue.expire_eq_some.1 hF
    have : F ∈ w.queue.ticks := ⟨h, hF⟩
    rw [hq] at this
    exact hne (this.trans h1.symm)
  have heq := some.inj hw3
  have hlt : w2.Busy (.fire 0 0) := by
    show w2.timer.next_expiry < U64_MAX
    rw [h1]
    exact hE
  have hr2 : Reach step (fun w op => w.Valid op ∧ w.Busy op ∧ Short op) w w2 :=
    .step (i := .poll 0 w.still) .refl ⟨⟨hp, hst⟩, trivial, trivial⟩ hw2
  refine ⟨w3, .step (i := .fire 0 0) hr2 ⟨h3, hlt, trivial⟩ hw3, ?_⟩
  have hlive : w3.Live 1 := by
    refine ⟨by decide, ?_⟩
    rw [← heq]
    show ((w2.timer.fire 0 0).1.inner.timers.get 1).isSome = true
    rw [hf.live, h2]
    exact hl.2
  rcases hf.next with ⟨-, hleast, -⟩ | ⟨hmore, -, hnext, hunset⟩
  · have : (w2.timer.fire 0 0).1.next_expiry ∈ w3.queue.ticks := by rw [← heq]; exact hleast.1
    rw [hempty] at this
    cases this
  · refine ⟨hs3 hlt, hempty, ?_, ?_, ?_, ?_, hlive⟩ <;> rw [← heq]
    · exact hf.elapsed.trans h1
    · exact hnext
    · exact hunset
    · exact hmore

lemma Idle.round (hi : Idle e w) (he : 8 ^ 7 ∣ e) (hlt : e + 2 ^ 27 < U64_MAX) :
    ∃ w', Reach step (fun w op => w.Valid op ∧ w.Busy op ∧ Short op) w w' ∧ Idle (e + 63 * 8 ^ 7) w' := by
  have hu : U64_MAX = 2 ^ 64 - 1 := rfl
  have hmax : WHEEL_TIMEOUT_MAX = 62 * 8 ^ 7 := by decide
  have htar : w.timer.target (2 ^ 32 - 1) 1 w.still = (bucket_of 7 (e + 63 * 8 ^ 7), e + 63 * 8 ^ 7) := by
    have hdiv : ((e + 62 * 8 ^ 7) / 8 ^ 7 + 1) * 8 ^ 7 = e + 63 * 8 ^ 7 := by omega
    rw [hi.target_longest, hmax, wrap64_of_lt (by omega), calc_index_eq (by omega), hdiv]
  obtain ⟨w1, hstep, hpoll, hp, hw, hslot, hexp⟩ := hi.reset_longest htar
  have hE := target_placed (by rw [hi.elapsed]; exact hlt) htar
  obtain ⟨hs1, hq1⟩ := hi.sound.place hp hw hslot hE
  rw [← hexp] at hs1 hq1
  have hlt' : e + 63 * 8 ^ 7 < w.timer.next_expiry := by rw [hi.next]; omega
  have hticks : w1.queue.ticks = {e + 63 * 8 ^ 7} := by
    ext F
    have hnone : ∀ h, w.timer.inner.queue w.expiry h = none := fun h => by simp [TimerMod.queue, hi.slot h]
    constructor
    · rintro ⟨h, hF⟩
      rw [queue, hq1, update_apply] at hF
      split at hF
      · exact (some.inj hF).symm
      · rw [hnone] at hF; cases hF
    · rintro rfl
      exact ⟨1, by rw [queue, hq1, update_self]⟩
  have hlive : w1.Live 1 := by
    have : w1.timer.inner.slot 1 = some (bucket_of 7 (e + 63 * 8 ^ 7), 0) := by rw [hslot, update_self]
    obtain ⟨en, hen, -⟩ := of_bind this
    exact ⟨by decide, by rw [hen]; rfl⟩
  obtain ⟨w3, hr, hi3⟩ := fire_only hs1 hticks (hp.next_expiry.trans (Nat.min_eq_left hlt'.le)) (by omega)
    (hp.started hlt') hpoll hlive
  exact ⟨w3, .trans (.step .refl (valid_reset_longest hi) hstep) hr, hi3⟩

/-- Without a bound on the tick counter a timer can be placed behind it: here
61 slots of the last level after the counter wrapped around. -/
theorem wheel_exact_fails_at_wrap : ¬ ∀ w, Reach step (fun w op => w.Valid op ∧ w.Busy op ∧ Short op) init w → w.Exact := by
  intro hall
  have h0 : ∃ w, Reach step (fun w op => w.Valid op ∧ w.Busy op ∧ Short op) init w ∧ Idle (0 * (63 * 8 ^ 7)) w := by
    have hadd : init.Valid (.add 0 1 0 ⟨0, 0, 0, 0⟩) := ⟨rfl, rfl, rfl⟩
    obtain ⟨w, hw, hq, hs⟩ := step_sound (sound_new _) _ hadd (fun h => absurd rfl h)
    refine ⟨w, .step .refl ⟨hadd, trivial, (by decide : 0 < 2 ^ 32)⟩ hw, ?_⟩
    have heq := some.inj hw
    refine ⟨hs trivial, ?_, ?_, ?_, ?_, ?_, ?_⟩
    · rw [hq]
      apply Set.eq_empty_of_forall_notMem
      rintro E ⟨h, hE⟩
      have : init.queue h = none := by simp [queue, TimerMod.queue, init, slot_new]
      rw [show init.effect _ init.queue h = init.queue h from rfl, this] at hE
      cases hE
    all_goals rw [← heq]
    · rfl
    · rfl
    · rfl
    · rfl
    · exact ⟨by decide, rfl⟩
  have hu : U64_MAX = 2 ^ 64 - 1 := rfl
  -- 139620524162 rounds reach the tick 2 ^ 64 - 2 ^ 22
  obtain ⟨w, hr, hi⟩ := Reach.iterate (n := 139620524162) (fun k w => Idle (k * (63 * 8 ^ 7)) w) h0
    fun k w hk hi => by
      obtain ⟨w', hr, hi'⟩ := hi.round (by omega) (by omega)
      refine ⟨w', hr, ?_⟩
      rw [Nat.add_mul, Nat.one_mul]
      exact hi'
  have htar : w.timer.target (2 ^ 32 - 1) 1 w.still = (bucket_of 7 (61 * 8 ^ 7), 61 * 8 ^ 7) := by
    rw [hi.target_longest]
    decide
  obtain ⟨w', hstep, -, hp, -, hslot, hexp⟩ := hi.reset_longest htar
  have hE : 61 * 8 ^ 7 ∈ w'.queue.ticks := by
    refine ⟨1, queue_eq_some.2 ⟨⟨bucket_of 7 (61 * 8 ^ 7), 0, ?_⟩, ?_⟩⟩
    · rw [hslot, update_self]
    · rw [hexp, update_self]
  have := ((hall w' (.step hr (valid_reset_longest hi) hstep)).ahead _ hE).1
  rw [hp.elapsed, hi.elapsed] at this
  omega

end World

end Geario.Wheel
