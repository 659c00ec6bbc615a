import Geario.Lib.Fallible
import Geario.Wheel.Runs
/-!
# The books of the wheel

Every timer names its bucket and its key there, every entry of a bucket names its
timer, and the occupied words say which buckets are in use. Runs are taken here
without any bound on ticks and times, and with the drop of a driver task, which
calls `stop_wheel`.

The second half is about the tasks that wait for a timer. A timer elapses when it
fires, by `elapse`, or by a reset to zero; the reset alone wakes nobody.
-/
open Lib List Option Function
open Function (update)

namespace Geario.Wheel

open TimerInner TimerMod

/-! ## Stopping the wheel -/

namespace TimerMod

def clear_bucket (m : TimerMod) (no : Nat) : Option TimerMod := do
  let e ← m.timers.get no
  some { m with timers := m.timers.insert no { e with bucket := none } }

def drain_bucket (m : TimerMod) (idx : Nat) : Option TimerMod :=
  (m.buckets idx).entries.values.foldlM clear_bucket
    { m with buckets := update m.buckets idx { m.buckets idx with entries := .empty } }

end TimerMod

def TimerInner.stop_wheel (s : TimerInner) : Option TimerInner := do
  let m ← (List.range WHEEL_SIZE).foldlM TimerMod.drain_bucket s.inner
  some { s with
    flags := {}
    next_expiry := U64_MAX
    elapsed := 0
    elapsed_time := none
    lowres_time := none
    lowres_stime := none
    inner := { m with occupied := fun _ => 0 } }

namespace TimerMod

variable {m m' : TimerMod} {idx : Nat}

/-- The buckets agree with the slots, whatever the occupied words say. -/
def Kept (m : TimerMod) : Prop := ∃ o, Linked m.buckets o m.slot

lemma drain_bucket_spec (hk : m.Kept) (idx : Nat) : ∃ m', m.drain_bucket idx = some m' ∧ m'.Kept ∧
    (∀ h, (m'.timers.get h).isSome = (m.timers.get h).isSome) ∧ m'.slot = fun h => (m.slot h).filter (·.1 ≠ idx) := by
  obtain ⟨o, hl⟩ := hk
  have hmem : ∀ h, h ∈ (m.buckets idx).entries.values ↔ ∃ k, m.slot h = some (idx, k) := fun h => by
    simp only [Slab.mem_values, hl.entries]
  -- a turn takes the slot of one timer
  obtain ⟨m', hm', hlive, hslot, hbuckets⟩ := foldlM_some (f := clear_bucket) (l := (m.buckets idx).entries.values)
    (fun done m' => (∀ h, (m'.timers.get h).isSome = (m.timers.get h).isSome) ∧
      (∀ h, m'.slot h = if h ∈ done then none else m.slot h) ∧
      m'.buckets = update m.buckets idx { m.buckets idx with entries := .empty })
    (s := { m with buckets := update m.buckets idx { m.buckets idx with entries := .empty } })
    ⟨fun _ => rfl, fun h => (if_neg List.not_mem_nil).symm, rfl⟩ fun done no m' hno hI => by
      obtain ⟨hlive, hslot, hb⟩ := hI
      obtain ⟨k, hk⟩ := (hmem no).1 hno
      obtain ⟨e, he, -⟩ := of_bind hk
      obtain ⟨e', he'⟩ := Option.isSome_iff_exists.1 ((hlive no).trans (by rw [he]; rfl))
      refine ⟨_, by rw [clear_bucket, he']; rfl, fun h => ?_, fun h => ?_, ?_⟩
      · rw [← hlive h, Slab.get_insert]
        split
        next hh =>
          rw [hh, he']
          rfl
        · rfl
      · rw [slot_insert { e' with bucket := none } rfl, Function.update_apply, hslot]
        by_cases hh : h = no <;> simp [hh, TimerEntry.slot]
      · exact hb
  have hfilter : m'.slot = fun h => (m.slot h).filter (·.1 ≠ idx) := by
    funext h
    rw [hslot]
    cases hs : m.slot h with
    | none => simp
    | some p =>
      have hin : h ∈ (m.buckets idx).entries.values ↔ p.1 = idx := by
        rw [hmem, hs]
        exact ⟨fun hk => congrArg Prod.fst (Option.some.inj hk.choose_spec), fun hp => ⟨p.2, by rw [← hp]⟩⟩
      by_cases hp : p.1 = idx <;> simp [hin, hp, Option.filter]
  have hl' := hl.drain idx
  rw [← hfilter, ← hbuckets] at hl'
  exact ⟨m', hm', ⟨_, hl'⟩, hlive, hfilter⟩

end TimerMod

/-- What the wheel keeps: it agrees with the slots, key 0 is in use, and every bucket in use exists. -/
structure Books (m : TimerMod) : Prop where
  wired : m.Wired
  first : (m.timers.get 0).isSome = true
  bounded : ∀ {h idx k}, m.slot h = some (idx, k) → idx < WHEEL_SIZE

variable {s s' : TimerInner}

lemma stop_wheel_spec (hb : Books s.inner) : ∃ s', s.stop_wheel = some s' ∧ Books s'.inner := by
  obtain ⟨m, hm, ⟨o, hl⟩, hlive, hslot⟩ := foldlM_some (f := drain_bucket) (l := range WHEEL_SIZE)
    (fun done m => m.Kept ∧ (∀ h, (m.timers.get h).isSome = (s.inner.timers.get h).isSome) ∧
      ∀ h p, m.slot h = some p → s.inner.slot h = some p ∧ p.1 ∉ done)
    ⟨⟨_, hb.wired⟩, fun _ => rfl, fun h p hp => ⟨hp, not_mem_nil⟩⟩ fun done idx m _ hI => by
      obtain ⟨m', hm', hk, hlive, hslot⟩ := drain_bucket_spec hI.1 idx
      refine ⟨m', hm', hk, fun h => (hlive h).trans (hI.2.1 h), fun h p hp => ?_⟩
      rw [hslot, filter_eq_some_iff] at hp
      obtain ⟨h1, h2⟩ := hI.2.2 h p hp.1
      exact ⟨h1, by simpa [h2] using hp.2⟩
  have hnone : ∀ h p, m.slot h ≠ some p := fun h p hp =>
    (hslot h p hp).2 (mem_range.2 (hb.bounded (hslot h p hp).1))
  refine ⟨_, by rw [stop_wheel, hm]; rfl, ⟨?_, (hlive 0).trans hb.first, fun hp => absurd hp (hnone _ _)⟩⟩
  refine { hl with occupied := fun {lvl j} _ => ?_ }
  simp only [BitVec.ofNat_eq_ofNat, BitVec.getLsbD_zero, Bool.false_eq_true, false_iff, Slab.is_empty_false_iff]
  rintro ⟨k, h, hk⟩
  exact hnone h _ (hl.entries.1 hk)

/-! ## What each call does -/

variable {hnd : Nat} {e : TimerEntry}

namespace World

inductive Turn where
  | op (op : Op)
  | stop

def turn (w : World) : Turn → Option World
  | .op op => w.step op
  -- during a poll the wheel is taken, and there is nothing to stop
  | .stop => if w.polling then some w else do some { w with timer := ← w.timer.stop_wheel }

def driven (w : World) : World :=
  { w with timer := { w.timer with flags.DRIVER_STARTED := true, lowres_drivers := 1 } }

/-- What can happen in a state, with the drivers polled whatever the flags say. -/
def Uses (w : World) : Turn → Prop
  | .op op => w.driven.Valid op
  | .stop => True

instance (w : World) : (t : Turn) → Decidable (w.Uses t)
  | .op op => inferInstanceAs (Decidable (w.driven.Valid op))
  | .stop => .isTrue trivial

variable {w w' : World} {m m' : TimerMod} {op : Op}

/-- Timer `hnd` is `e` now, and the others are as they were. -/
def Sets (m m' : TimerMod) (hnd : Nat) (e : Option TimerEntry) : Prop :=
  ∀ h, m'.timers.get h = if h = hnd then e else m.timers.get h

lemma Sets.insert (h : m'.timers = m.timers.insert hnd e) : Sets m m' hnd (some e) := fun h' => by
  rw [h, Slab.get_insert]

lemma Sets.same (h : m'.timers = m.timers) (he : m.timers.get hnd = some e) :
    Sets m m' hnd (some e) := fun h' => by
  rw [h]
  split
  next hh => rw [hh, he]
  · rfl

def Did (m m' : TimerMod) : Op → Prop
  | .add _ no _ _ => ∃ e, m.timers.get no = none ∧ Sets m m' no (some e) ∧ e.task = none ∧ ∀ b, e.bucket = some b → b < WHEEL_SIZE
  | .reset hnd millis _ _ => ∃ en e, m.timers.get hnd = some en ∧ Sets m m' hnd (some e) ∧ e.task = en.task ∧
    (e.bucket = none → millis = 0) ∧ ∀ b, e.bucket = some b → b < WHEEL_SIZE
  | .elapse hnd => ∃ en, m.timers.get hnd = some en ∧ Sets m m' hnd (some en.complete) ∧ m'.woken = m.woken ++ en.wakes
  | .drop hnd => hnd ≠ 0 ∧ Sets m m' hnd none
  | .poll_elapsed hnd waker => ∃ en, m.timers.get hnd = some en ∧
    Sets m m' hnd (some (if en.bucket.isNone then en else { en with task := some waker }))
  | .fire _ _ => ∃ m₁ D, Drained m m₁ D ∧ m'.timers = m₁.timers ∧ m'.woken = m₁.woken
  | .now _ _ | .system_time _ _ | .poll _ _ | .pending | .lowres _ _ _ => m'.timers = m.timers

structure Done (m m' : TimerMod) (op : Op) : Prop where
  wired : m'.Wired
  woken : m.woken <+: m'.woken
  did : Did m m' op

lemma calc_index_lt {lvl : Nat} (hl : lvl ≤ 7) (expires : Nat) : (calc_index expires lvl).1 < WHEEL_SIZE := by
  have hsize : WHEEL_SIZE = 512 := rfl
  have hoffs : lvl_offs lvl = lvl * 64 := rfl
  simp only [calc_index, and_lvl_mask]
  omega

lemma target_lt (s : TimerInner) (millis least : Nat) (r : Readings) : (s.target millis least r).1 < WHEEL_SIZE := by
  rw [target, calc_wheel_index_eq]
  split
  · exact calc_index_lt (wheel_level_le _) _
  · exact calc_index_lt (Nat.le_refl 7) _

lemma Done.of_same (hw : s.inner.Wired) (h : SameWheel s s') (hd : Did s.inner s'.inner op) :
    Done s.inner s'.inner op := ⟨hw.congr h.timers h.buckets h.occupied, h.woken, hd⟩

lemma Done.of_unplacing {en : Option TimerEntry} {l : List Waker}
    (h : TimerInner.Unplacing s s' hnd en l) (hd : Did s.inner s'.inner op) : Done s.inner s'.inner op :=
  ⟨h.wired, h.woken ▸ prefix_append _ _, hd⟩

lemma done (hw : w.timer.inner.Wired) (hv : w.Uses (.op op)) :
    ∃ w', w.step op = some w' ∧ Done w.timer.inner w'.timer.inner op := by
  cases op with
  | add millis no k r =>
    by_cases hm : millis = 0
    · subst hm
      have hsl := add_zero_slot w.timer hv.2.1 k r
      refine ⟨_, rfl, ?_, prefix_rfl, ⟨none, 0, none⟩, hv.2.1, .insert rfl, rfl, (by intros; contradiction)⟩
      unfold TimerMod.Wired
      rw [hsl]
      exact hw
    · obtain ⟨-, hno, hkey⟩ := hv
      obtain ⟨hp, hw', ht⟩ := add_timer_spec hw hm hno rfl hkey
      simp only [step, if_neg hm]
      exact ⟨_, rfl, hw', hp.woken, _, hno, .insert ht, rfl, fun b hb => some.inj hb ▸ target_lt ..⟩
  | reset hnd millis k r =>
    obtain ⟨en, hen⟩ := isSome_iff_exists.1 hv.2.1.2
    by_cases hm : millis = 0
    · subst hm
      obtain ⟨s', hs', hu⟩ := update_timer_zero_spec hw hen k r
      exact ⟨{ w with timer := s', clock := r.sleep }, by simp [step, hs'],
        .of_unplacing hu ⟨en, _, hen, hu.timers, rfl, fun _ => rfl, (by intros; contradiction)⟩⟩
    · obtain ⟨s', hs', hp, hw', hcase⟩ := update_timer_spec hw hm hen rfl hv.2.2
      simp only [step, hs', bind_eq_bind, bind_some, if_neg hm]
      refine ⟨_, rfl, hw', hp.woken, en, ?_⟩
      rcases hcase with ⟨hb, ht⟩ | ⟨-, ht⟩
      · exact ⟨en, hen, .same ht hen, rfl, fun h => (by cases hb.symm.trans h),
          fun b hb' => some.inj (hb.symm.trans hb') ▸ target_lt ..⟩
      · exact ⟨_, hen, .insert ht, rfl, (by intros; contradiction), fun b hb => some.inj hb ▸ target_lt ..⟩
  | elapse hnd =>
    obtain ⟨en, hen⟩ := isSome_iff_exists.1 hv.2.2
    obtain ⟨s', hs', hu⟩ := remove_timer_spec hw hen
    exact ⟨{ w with timer := s' }, by simp [step, hs'], .of_unplacing hu ⟨en, hen, hu.timers, hu.woken⟩⟩
  | drop hnd =>
    obtain ⟨en, hen⟩ := isSome_iff_exists.1 hv.2.2
    obtain ⟨s', hs', hu⟩ := drop_timer_spec hw hen
    exact ⟨{ w with timer := s' }, by simp [step, hs'], .of_unplacing hu ⟨hv.2.1, hu.timers⟩⟩
  | poll_elapsed hnd waker =>
    obtain ⟨en, hen⟩ := isSome_iff_exists.1 hv.2.2
    obtain ⟨s', hs', hw', -, hframe, hcase⟩ := poll_elapsed_spec hw hen waker
    refine ⟨{ w with timer := s' }, by simp [step, hs'], hw', ?_, en, hen, ?_⟩
    · rw [hframe]
    · rcases hcase with ⟨hb, rfl⟩ | ⟨hb, ht⟩
      · rw [if_pos hb]
        exact .same rfl hen
      · rw [hb]
        exact .insert ht
  | now t sleep =>
    have h := w.timer.sameWheel_now t sleep
    exact ⟨_, rfl, .of_same hw h h.timers⟩
  | system_time t sleep =>
    have h := w.timer.sameWheel_system_time t sleep
    exact ⟨_, rfl, .of_same hw h h.timers⟩
  | poll waker r =>
    refine ⟨_, rfl, ?_⟩
    rw [poll_driver_eq]
    split
    · exact ⟨hw.congr rfl rfl rfl, prefix_rfl, rfl⟩
    · exact ⟨hw, prefix_rfl, rfl⟩
  | fire now sleep =>
    have hd := execute_levels_drained hw LVL_DEPTH 0 w.timer.next_expiry
    obtain ⟨l, hl, -⟩ := hd.woken
    have hpre : w.timer.inner.woken <+: (w.timer.advance now).inner.woken := ⟨l, hl.symm⟩
    refine ⟨_, rfl, ?_⟩
    cases (w.timer.advance now).next_pending_bucket with
    | none => exact ⟨hd.wired, hpre, _, _, hd, rfl, rfl⟩
    | some next_expiry => exact ⟨hd.wired.congr rfl rfl rfl, hpre, _, _, hd, rfl, rfl⟩
  | pending => exact ⟨_, rfl, hw, prefix_rfl, rfl⟩
  | lowres waker t ready =>
    have h := w.timer.sameWheel_poll_lowres waker t ready
    exact ⟨_, rfl, .of_same hw h h.timers⟩

/-! ## The books along a run -/

lemma Done.books (h : Done m m' op) (hb : Books m) : Books m' := by
  obtain ⟨hw, -, hd⟩ := h
  have hsets : ∀ {hnd e}, Sets m m' hnd e → (hnd = 0 → e.isSome = true) →
      (∀ en, e = some en → ∀ b, en.bucket = some b → b < WHEEL_SIZE) → Books m' := by
    intro hnd e hs h0 he
    refine ⟨hw, ?_, fun {h idx k} hsl => ?_⟩
    · rw [hs 0]
      split
      next hh => exact h0 hh.symm
      · exact hb.first
    · unfold slot at hsl
      rw [hs h] at hsl
      split at hsl
      · obtain ⟨en, rfl, hen⟩ := of_bind hsl
        obtain ⟨b, hbk, hp⟩ := of_map hen
        cases hp
        exact he en rfl _ hbk
      · exact hb.bounded hsl
  have hentry : ∀ {hnd en b}, m.timers.get hnd = some en → en.bucket = some b → b < WHEEL_SIZE := fun hen hbk =>
    hb.bounded (k := _) (by rw [slot_of_get hen, TimerEntry.slot, hbk]; rfl)
  have hsame : m'.timers = m.timers → Books m' := fun ht =>
    ⟨hw, ht ▸ hb.first, fun hsl => hb.bounded (slot_congr ht ▸ hsl)⟩
  cases op with
  | add millis no k r =>
    obtain ⟨e, -, hs, -, hlt⟩ := hd
    exact hsets hs (fun _ => rfl) fun en hen => some.inj hen ▸ hlt
  | reset hnd millis k r =>
    obtain ⟨-, e, -, hs, -, -, hlt⟩ := hd
    exact hsets hs (fun _ => rfl) fun en hen => some.inj hen ▸ hlt
  | elapse hnd =>
    obtain ⟨en, -, hs, -⟩ := hd
    refine hsets hs (fun _ => rfl) fun e he b hbk => ?_
    rw [← some.inj he, TimerEntry.complete_bucket] at hbk
    cases hbk
  | drop hnd => exact hsets hd.2 (fun h0 => absurd h0 hd.1) (by intros; contradiction)
  | poll_elapsed hnd waker =>
    obtain ⟨en, hen, hs⟩ := hd
    refine hsets hs (fun _ => rfl) fun e he b hbk => hentry hen ?_
    rw [← some.inj he] at hbk
    split at hbk <;> exact hbk
  | fire now sleep =>
    obtain ⟨m₁, D, hd, ht, -⟩ := hd
    refine ⟨hw, ?_, fun {h idx k} hsl => ?_⟩
    · rw [ht, hd.timers, isSome_map]
      exact hb.first
    · rw [slot_congr ht, hd.slot_eq, filter_eq_some_iff] at hsl
      exact hb.bounded hsl.1
  | now | system_time | poll | pending | lowres => exact hsame hd

lemma turn_books {t : Turn} (hb : Books w.timer.inner) (hv : w.Uses t) :
    ∃ w', w.turn t = some w' ∧ Books w'.timer.inner := by
  cases t with
  | op op =>
    obtain ⟨w', hst, hd⟩ := done hb.wired hv
    exact ⟨w', hst, hd.books hb⟩
  | stop =>
    by_cases hp : w.polling = true
    · exact ⟨w, if_pos hp, hb⟩
    · obtain ⟨s', hs', hb'⟩ := stop_wheel_spec hb
      exact ⟨{ w with timer := s' }, (if_neg hp).trans (by rw [hs']; rfl), hb'⟩

/-- Timers, buckets and occupied words agree; every call can be made, and none of them touches key 0 or a bucket
that is not there. -/
structure Consistent (w : World) : Prop where
  bucket : ∀ {t e}, w.timer.inner.timers.get t = some e → ∀ b,
    e.bucket = some b ↔ (w.timer.inner.buckets b).entries.get e.bucket_entry = some t
  entry : ∀ {b k t}, (w.timer.inner.buckets b).entries.get k = some t →
    b < WHEEL_SIZE ∧ ∃ e, w.timer.inner.timers.get t = some e ∧ e.bucket = some b ∧ e.bucket_entry = k
  occupied : ∀ {lvl j}, j < LVL_SIZE → ((w.timer.inner.occupied lvl).getLsbD j = true ↔
    (w.timer.inner.buckets (lvl * LVL_SIZE + j)).entries.is_empty = false)
  fresh : ∀ {no}, w.timer.inner.timers.get no = none → no ≠ 0
  placed : ∀ millis least r, (w.timer.target millis least r).1 < WHEEL_SIZE
  total : ∀ {t}, w.Uses t → (w.turn t).isSome = true

lemma Consistent.of_books (hb : Books w.timer.inner) : w.Consistent where
  bucket {t e} he b := by
    rw [hb.wired.entries, slot_of_get he, TimerEntry.slot]
    cases e.bucket <;> simp
  entry {b k t} hk := by
    have hsl := hb.wired.entries.1 hk
    obtain ⟨e, he, hs⟩ := of_bind hsl
    obtain ⟨b', hbk, hp⟩ := of_map hs
    cases hp
    exact ⟨hb.bounded hsl, e, he, hbk, rfl⟩
  occupied hj := hb.wired.occupied hj
  fresh {no} hno h0 := by
    have hfirst := hb.first
    rw [← h0, hno] at hfirst
    cases hfirst
  placed := target_lt w.timer
  total hv := by
    obtain ⟨w', hst, -⟩ := turn_books hb hv
    rw [hst]
    rfl

/-- Buckets, entries and the map of occupied buckets agree whatever the callers do. -/
theorem books_consistent (h : Reach turn Uses init w) : w.Consistent := by
  refine .of_books (h.inv (fun w => Books w.timer.inner) ⟨(sound_new init.expiry).scheduled.wired, rfl, ?_⟩ ?_)
  · intro h idx k hsl
    cases (slot_new h).symm.trans hsl
  · intro w t w' hb hv hst
    obtain ⟨w'', hst', hb'⟩ := turn_books hb hv
    cases hst'.symm.trans hst
    exact hb'

theorem books_consistent_one : ∃ w, init.turn (.op (.add 1000 1 0 ⟨0, 0, 0, 0⟩)) = some w ∧ w.Uses .stop ∧ w.Consistent :=
  ⟨_, rfl, trivial, books_consistent (.of_steps [.op (.add 1000 1 0 ⟨0, 0, 0, 0⟩)] rfl)⟩

end World

/-! ## The tasks that wait -/

/-- `waits` has the handles whose last poll was pending, with the waker of the poll and the number of wakes before it. -/
structure Waiting where
  world : World
  waits : Nat → Option (Waker × Nat)

namespace Waiting

def init : Waiting := ⟨.init, fun _ => none⟩

def note (w : Waiting) : Op → Nat → Option (Waker × Nat)
  | .add _ no _ _ => update w.waits no none
  | .drop hnd => update w.waits hnd none
  | .poll_elapsed hnd waker =>
    let pending := (w.world.timer.inner.timers.get hnd).any (·.bucket.isSome)
    update w.waits hnd (if pending then some (waker, w.world.timer.inner.woken.length) else none)
  | _ => w.waits

def step (w : Waiting) (op : Op) : Option Waiting := (w.world.step op).map (⟨·, w.note op⟩)

def Uses (w : Waiting) (op : Op) : Prop := w.world.Uses (.op op)

/-- A timer is not reset to zero while a task waits for it. -/
def Heeds (w : Waiting) : Op → Prop
  | .reset hnd 0 _ _ => (w.world.timer.inner.timers.get hnd).all (fun e => e.bucket.isNone || e.task.isNone) = true
  | _ => True

instance (w : Waiting) (op : Op) : Decidable (w.Uses op) := inferInstanceAs (Decidable (w.world.Uses (.op op)))

instance (w : Waiting) (op : Op) : Decidable (w.Heeds op) := by unfold Heeds; split <;> infer_instance

/-- The task of a handle that has elapsed since it was polled has been woken since. -/
def Woken (w : Waiting) : Prop := ∀ hnd waker n e, w.waits hnd = some (waker, n) →
  w.world.timer.inner.timers.get hnd = some e → e.bucket = none → waker ∈ w.world.timer.inner.woken.drop n

/-- The waker is registered on the timer, or has been called. -/
def Kept (m : TimerMod) (waker : Waker) (n : Nat) (e : TimerEntry) : Prop :=
  e.bucket.isSome = true ∧ e.task = some waker ∨ waker ∈ m.woken.drop n

def Registered (m : TimerMod) (waits : Nat → Option (Waker × Nat)) : Prop := ∀ hnd waker n, waits hnd = some (waker, n) →
  n ≤ m.woken.length ∧ ∀ e, m.timers.get hnd = some e → Kept m waker n e

variable {m m' : TimerMod} {waits waits' : Nat → Option (Waker × Nat)} {waker : Waker} {n : Nat} {w w' : Waiting} {op : Op}

lemma mem_drop_of_le {l l' : List Waker} (h : waker ∈ l') (hn : n ≤ l.length) : waker ∈ (l ++ l').drop n := by
  rw [drop_append_of_le_length hn]
  exact mem_append_right _ h

lemma Kept.later (h : Kept m waker n e) (hp : m.woken <+: m'.woken) : Kept m' waker n e := by
  obtain ⟨l, hl⟩ := hp
  refine h.imp_right fun hm => ?_
  rw [← hl, drop_append]
  exact mem_append_left _ hm

section

variable (hr : Registered m waits) (hp : m.woken <+: m'.woken)
include hr hp

lemma Registered.sets {e : Option TimerEntry}
    (hs : World.Sets m m' hnd e) (hw : ∀ h, h ≠ hnd → waits' h = waits h)
    (he : ∀ waker n, waits' hnd = some (waker, n) → n ≤ m'.woken.length ∧ ∀ e', e = some e' → Kept m' waker n e') :
    Registered m' waits' := by
  intro h waker n hwt
  by_cases hh : h = hnd
  · subst hh
    obtain ⟨hn, hk⟩ := he waker n hwt
    exact ⟨hn, fun e' he' => hk e' (by rw [← he', hs h, if_pos rfl])⟩
  · obtain ⟨hn, hk⟩ := hr h waker n (hw h hh ▸ hwt)
    refine ⟨hn.trans hp.length_le, fun e' he' => (hk e' ?_).later hp⟩
    rwa [hs h, if_neg hh] at he'

lemma Registered.entry {en e : TimerEntry}
    (hs : World.Sets m m' hnd (some e)) (hen : m.timers.get hnd = some en)
    (he : ∀ waker n, n ≤ m.woken.length → en.bucket.isSome → en.task = some waker → Kept m' waker n e) :
    Registered m' waits := by
  refine hr.sets hp hs (fun _ _ => rfl) fun waker n hwt => ?_
  obtain ⟨hn, hk⟩ := hr hnd waker n hwt
  refine ⟨hn.trans hp.length_le, fun e' he' => ?_⟩
  cases he'
  rcases hk en hen with ⟨hb, ht⟩ | hm
  · exact he waker n hn hb ht
  · exact (Kept.later (.inr hm) hp : Kept m' waker n e)

end

lemma registered_step (hr : Registered w.world.timer.inner w.waits) (hok : w.Heeds op)
    (hd : World.Done w.world.timer.inner m' op) : Registered m' (w.note op) := by
  obtain ⟨-, hp, hd⟩ := hd
  have hsame : m'.timers = w.world.timer.inner.timers → Registered m' w.waits := fun ht hnd waker n hwt => by
    obtain ⟨hn, hk⟩ := hr hnd waker n hwt
    exact ⟨hn.trans hp.length_le, fun e he => (hk e (ht ▸ he)).later hp⟩
  cases op with
  | add millis no k r =>
    obtain ⟨e, -, hs, -⟩ := hd
    exact hr.sets hp hs (fun h hh => update_of_ne hh _ _) fun waker n hwt => by simp [note] at hwt
  | drop hnd => exact hr.sets hp hd.2 (fun h hh => update_of_ne hh _ _) fun waker n hwt => by simp [note] at hwt
  | reset hnd millis k r =>
    obtain ⟨en, e, hen, hs, ht, hz, -⟩ := hd
    refine hr.entry hp hs hen fun waker n _ hb htask => .inl ⟨isSome_iff_ne_none.2 fun hnone => ?_, ht.trans htask⟩
    obtain rfl := hz hnone
    have hok : (w.world.timer.inner.timers.get hnd).all (fun e => e.bucket.isNone || e.task.isNone) := hok
    rw [hen] at hok
    simp [htask, isSome_iff_ne_none.1 hb] at hok
  | elapse hnd =>
    obtain ⟨en, hen, hs, hwk⟩ := hd
    refine hr.entry hp hs hen fun waker n hn hb htask => .inr ?_
    rw [hwk]
    exact mem_drop_of_le (TimerEntry.mem_wakes.2 ⟨hb, htask⟩) hn
  | poll_elapsed hnd waker =>
    obtain ⟨en, hen, hs⟩ := hd
    refine hr.sets hp hs (fun h hh => update_of_ne hh _ _) fun waker' n hwt => ?_
    rw [note, hen, update_self] at hwt
    obtain ⟨hb, hwt⟩ := of_guard hwt
    cases hwt
    refine ⟨hp.length_le, fun e he => ?_⟩
    cases he
    have hb : en.bucket.isSome := hb
    rw [← not_isSome, hb]
    exact .inl ⟨hb, rfl⟩
  | fire now sleep =>
    obtain ⟨m₁, D, hd, ht, hwk⟩ := hd
    obtain ⟨l, hl, hmem⟩ := hd.woken
    intro hnd waker n hwt
    obtain ⟨hn, hk⟩ := hr hnd waker n hwt
    refine ⟨hn.trans hp.length_le, fun e' he' => ?_⟩
    rw [ht, hd.timers] at he'
    obtain ⟨e, he, rfl⟩ := of_map he'
    rcases hk e he with ⟨hb, htask⟩ | hm
    · unfold TimerEntry.drained
      split
      next hin =>
        refine .inr ?_
        rw [hwk, hl]
        exact mem_drop_of_le ((hmem waker).2 ⟨hnd, e, he, hin, htask⟩) hn
      · exact .inl ⟨hb, htask⟩
    · exact (Kept.later (.inr hm) hp : Kept m' waker n _)
  | now | system_time | poll | pending | lowres => exact hsame hd

/-- In every run in which no timer is reset to zero while a task waits for it. -/
theorem waiting_woken (h : Reach step (fun w op => w.Uses op ∧ w.Heeds op) init w) : w.Woken := by
  have hinv : w.world.timer.inner.Wired ∧ Registered w.world.timer.inner w.waits := by
    refine h.inv (fun w => w.world.timer.inner.Wired ∧ Registered w.world.timer.inner w.waits)
      ⟨(sound_new World.init.expiry).scheduled.wired, fun _ _ _ h => by cases h⟩ fun w op w' hi hok hst => ?_
    obtain ⟨w₁, hst', hd⟩ := World.done hi.1 hok.1
    obtain ⟨w₂, hw₂, rfl⟩ := map_eq_some_iff.1 hst
    cases hst'.symm.trans hw₂
    exact ⟨hd.wired, registered_step hi.2 hok.2 hd⟩
  intro hnd waker n e hwt he hb
  rcases (hinv.2 hnd waker n hwt).2 e he with ⟨hb', -⟩ | hm
  · rw [hb] at hb'
    cases hb'
  · exact hm

/-- A second, which is polled and then fires. -/
theorem waiting_woken_after_fire : ∃ w, Reach step (fun w op => w.Uses op ∧ w.Heeds op) init w ∧
    w.waits 1 = some (7, 0) ∧ w.world.timer.inner.woken = [7] ∧ w.Woken := by
  have hreach : Reach step (fun w op => w.Uses op ∧ w.Heeds op) init _ :=
    .of_steps [.add 1000 1 0 ⟨0, 0, 0, 0⟩, .poll_elapsed 1 7, .poll 8 ⟨0, 0, 0, 0⟩, .fire 0 0] rfl
  exact ⟨_, hreach, rfl, rfl, waiting_woken hreach⟩

/-- A second, which is polled and then reset to zero. -/
theorem reset_wakes_nobody : ∃ w, Reach step Uses init w ∧ w.waits 1 = some (7, 0) ∧
    (w.world.timer.inner.timers.get 1).map (·.bucket) = some none ∧ w.world.timer.inner.woken = [] ∧ ¬ w.Woken := by
  have hreach : Reach step Uses init _ :=
    .of_steps [.add 1000 1 0 ⟨0, 0, 0, 0⟩, .poll_elapsed 1 7, .reset 1 0 0 ⟨0, 0, 0, 0⟩] rfl
  exact ⟨_, hreach, rfl, rfl, rfl, fun h => nomatch h 1 7 0 _ rfl rfl rfl⟩

end Waiting

end Geario.Wheel
