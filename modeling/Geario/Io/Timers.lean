import Geario.Lib.Run
import Geario.Lib.Parties
import Geario.Lib.SetMap
/-!
# Timers of connections

`IoManager` knows the connections of a thread by numbers that are used again, and
has one timer per connection. A handle is the second at which the timer fires;
the numbers of the connections that fire at a second are a set in
`notifications`. A task counts the seconds (`current`) while there is an entry,
and stops when there is none; the next `register` sets the count by the clock and
starts the task again.

Time is in milliseconds since `base`. When a tick comes, and what the clock says
that `register` reads, is free: the sleep of the task may be over early and the
low-resolution clock may be old (`Timely` says when they are not). Seconds and
handles are `u32`, whose sums wrap as in a build without overflow checks. `Id`s
are chosen by the slab. The sets that are kept in `cache` are empty, and it is
left out.
-/
open Lib List Option

namespace Geario.Io

open Nat SetMap

/-- A connection that was dropped has none. -/
abbrev Id := Option Nat

/-- A call of `start_timer`: how many ticks there were before it, and the time. -/
structure Start where
  timeout : Nat
  ticks : Nat
  now : Nat
  deriving DecidableEq

structure Timed where
  id : Id
  /-- `TimerHandle`; 0 is `ZERO` -/
  timeout : Nat
  dsp_timeout : Bool
  /-- the last `start_timer`, until the timer is stopped, the connection is dropped, or the timer has fired -/
  started : Option Start
  deriving DecidableEq

def Timed.stopped (x : Timed) : Timed := { x with timeout := 0, started := none }

/-- `current` and the keys of `notifications` are below `2 ^ 32`. -/
structure TimerStorage where
  running : Bool
  current : Nat
  notifications : SetMap Nat Id

namespace TimerStorage

def unregister (t : TimerStorage) (hnd : Nat) (id : Id) : TimerStorage :=
  { t with notifications := t.notifications.erase hnd id }

def register (t : TimerStorage) (secs timeout : Nat) (id : Id) : Nat × TimerStorage :=
  let current := if t.running then t.current else secs % 2 ^ 32
  let hnd := (current + timeout) % 2 ^ 32
  (hnd, { running := true, current, notifications := t.notifications.insert hnd id })

def update (t : TimerStorage) (hnd secs timeout : Nat) (id : Id) : Nat × TimerStorage :=
  let new_hnd := (t.current + timeout) % 2 ^ 32
  if hnd = new_hnd ∨ hnd = (new_hnd + 1) % 2 ^ 32 then (hnd, t) else (t.unregister hnd id).register secs timeout id

/-- One turn of the loop of the task; the sets that have expired. -/
def tick (t : TimerStorage) : List (Finset Id) × TimerStorage :=
  let r := t.notifications.take t.current
  (r.1, { running := !r.2.isEmpty, current := (t.current + 1) % 2 ^ 32, notifications := r.2 })

variable {t : TimerStorage} {secs timeout : Nat}

lemma register_eq (h : (if t.running then t.current else secs) + timeout < 2 ^ 32) (id : Id) :
    t.register secs timeout id =
      ((if t.running then t.current else secs) + timeout,
        { running := true
          current := if t.running then t.current else secs
          notifications := t.notifications.insert ((if t.running then t.current else secs) + timeout) id }) := by
  unfold register
  split at h
  case isTrue hr =>
    simp only [if_pos hr]
    rw [mod_eq_of_lt h]
  case isFalse hr =>
    simp only [if_neg hr]
    rw [mod_eq_of_lt (lt_of_le_of_lt (le_add_right _ _) h), mod_eq_of_lt h]

lemma update_eq (h : t.current + timeout + 1 < 2 ^ 32) (hnd secs : Nat) (id : Id) :
    t.update hnd secs timeout id =
      if hnd = t.current + timeout ∨ hnd = t.current + timeout + 1 then (hnd, t)
      else (t.unregister hnd id).register secs timeout id := by
  unfold update
  rw [mod_eq_of_lt (lt_of_succ_lt h)]
  dsimp only
  rw [mod_eq_of_lt h]

end TimerStorage

structure IoManager where
  storage : Nat → Option Nat
  timers : TimerStorage
  ios : List Timed
  now : Nat
  slept : Nat
  ticks : Nat

namespace IoManager

inductive Step
  | register (id : Nat)
  | start_timer (c timeout clock : Nat)
  | stop_timer (c : Nat)
  | drop (c : Nat)
  | tick
  | check_dispatcher_timeout (c : Nat)
  | advance (ms : Nat)
  deriving DecidableEq

def Step.touches (c : Nat) : Step → Bool
  | .start_timer c' _ _ | .stop_timer c' | .drop c' => decide (c' = c)
  | .register _ | .tick | .check_dispatcher_timeout _ | .advance _ => false

def new : IoManager :=
  { storage := fun _ => none, timers := { running := false, current := 0, notifications := .empty }, ios := [], now := 0, slept := 0
    ticks := 0 }

def get (s : IoManager) (id : Id) : Option Nat := id.bind s.storage

def put (s : IoManager) (c : Nat) (x : Timed) (timers : TimerStorage) : IoManager :=
  { s with ios := s.ios.set c x, timers, slept := if timers.running && !s.timers.running then s.now else s.slept }

def stop_timer (s : IoManager) (c : Nat) (x : Timed) : IoManager :=
  if x.timeout ≠ 0 then s.put c x.stopped (s.timers.unregister x.timeout x.id) else s

def start_timer (s : IoManager) (c : Nat) (x : Timed) (timeout clock : Nat) : IoManager :=
  if timeout = 0 then s.stop_timer c x
  else
    let r := if x.timeout ≠ 0 then s.timers.update x.timeout (clock / 1000) timeout x.id
      else s.timers.register (clock / 1000) timeout x.id
    s.put c { x with timeout := r.1, started := if x.id.isSome then some ⟨timeout, s.ticks, s.now⟩ else none } r.2

def unregister (s : IoManager) (c : Nat) (x : Timed) : IoManager :=
  match x.id with
  | some id => { s with ios := s.ios.set c { x with id := none }, storage := fun i => if i = id then none else s.storage i }
  | none => s

def fires (s : IoManager) (sets : List (Finset Id)) (c : Nat) : Bool := sets.any fun ids => decide (∃ id ∈ ids, s.get id = some c)

def notify (s : IoManager) (sets : List (Finset Id)) (c : Nat) (x : Timed) : Timed :=
  if s.fires sets c then { x with dsp_timeout := true, started := none } else x

def tick (s : IoManager) : IoManager :=
  let r := s.timers.tick
  { s with timers := r.2, ios := s.ios.mapIdx (s.notify r.1), slept := s.now, ticks := s.ticks + 1 }

def step (s : IoManager) : Step → Option IoManager
  | .register id =>
    -- the first entry of the slab is taken
    if s.storage id = none ∧ id ≠ 0 then
      some { s with
        storage := fun i => if i = id then some s.ios.length else s.storage i
        ios := s.ios ++ [{ id := some id, timeout := 0, dsp_timeout := false, started := none }] }
    else none
  | .start_timer c timeout clock => s.ios[c]?.map fun x => s.start_timer c x timeout clock
  | .stop_timer c => s.ios[c]?.map fun x => s.stop_timer c x
  | .drop c =>
    match s.ios[c]? with
    | some x => if x.id.isSome then some ((s.stop_timer c x).unregister c x.stopped) else none
    | none => none
  | .tick => if s.timers.running then some s.tick else none
  | .check_dispatcher_timeout c => s.ios[c]?.map fun x => { s with ios := s.ios.set c { x with dsp_timeout := false } }
  | .advance ms => some { s with now := s.now + ms }

/-- A tick comes a second or more after the task went to sleep, the clock is behind the time by less than a second, and the
seconds fit `u32`. -/
def Timely (s : IoManager) : Step → Prop
  | .start_timer _ timeout clock => clock ≤ s.now ∧ s.now < clock + 1000 ∧ s.now / 1000 + timeout + 1 < 2 ^ 32
  | .tick => s.slept + 1000 ≤ s.now ∧ s.now / 1000 < 2 ^ 32
  | _ => True

instance (s : IoManager) (i : Step) : Decidable (s.Timely i) := by
  unfold Timely
  split <;> infer_instance

variable {s s' : IoManager} {i : Step} {c c' : Nat} {x x' : Timed} {t clock : Nat} {st : Start}

/-! ## What holds in every run -/

structure Armed (s : IoManager) (x : Timed) (st : Start) : Prop where
  live : x.id ≠ none
  set : x.timeout ≠ 0
  running : s.timers.running = true
  has : s.timers.notifications.Has x.timeout x.id
  current : s.timers.current ≤ x.timeout
  pos : 0 < st.timeout
  ticks : st.ticks ≤ s.ticks
  lower : st.ticks + st.timeout + s.timers.current ≤ x.timeout + s.ticks
  upper : x.timeout + s.ticks ≤ st.ticks + st.timeout + s.timers.current + 1
  /-- there is a second between two ticks -/
  time : st.now ≤ s.now ∧ (st.ticks < s.ticks → st.now + (s.ticks - st.ticks) * 1000 ≤ s.slept + 1000)

structure Inv (s : IoManager) : Prop where
  storage : ∀ i c, s.storage i = some c ↔ ∃ x, s.ios[c]? = some x ∧ x.id = some i
  clock : s.timers.current * 1000 ≤ s.now
  slept : s.timers.running = true → s.timers.current * 1000 ≤ s.slept
  idle : s.timers.running = false → s.timers.notifications.isEmpty = true
  owned : ∀ k i, s.timers.notifications.Has k (some i) →
    ∃ (c : Nat) (x : Timed), s.ios[c]? = some x ∧ x.id = some i ∧ x.timeout = k ∧ x.started ≠ none
  armed : ∀ (c : Nat) (x : Timed), s.ios[c]? = some x → ∀ st, x.started = some st → Armed s x st
  /-- a handle that is left over is in the past, also when the count starts again -/
  past : ∀ (c : Nat) (x : Timed), s.ios[c]? = some x → x.started = none → x.id ≠ none →
    x.timeout ≤ s.timers.current ∧ (s.timers.running = false → x.timeout = 0 ∨ x.timeout < s.timers.current)

lemma Inv.unique (h : Inv s) {i : Nat} (hx : s.ios[c]? = some x) (hi : x.id = some i) (hx' : s.ios[c']? = some x')
    (hi' : x'.id = some i) : c' = c := by
  have hc := (h.storage i c).2 ⟨x, hx, hi⟩
  have hc' := (h.storage i c').2 ⟨x', hx', hi'⟩
  exact some.inj (hc'.symm.trans hc)

lemma Inv.storage_set (h : Inv s) (hx : s.ios[c]? = some x) (hid : x'.id = x.id) (i c' : Nat) :
    s.storage i = some c' ↔ ∃ y, (s.ios.set c x')[c']? = some y ∧ y.id = some i := by
  rw [h.storage]
  constructor
  · rintro ⟨y, hy, hi⟩
    by_cases hc : c' = c
    · subst hc
      cases hx.symm.trans hy
      exact ⟨x', at_set hx _, hid.trans hi⟩
    · exact ⟨y, (getElem?_set_ne (Ne.symm hc)).trans hy, hi⟩
  · rintro ⟨y, hy, hi⟩
    rcases at_of_set hy with ⟨rfl, rfl⟩ | ⟨-, hy⟩
    · exact ⟨x, hx, hid.symm.trans hi⟩
    · exact ⟨y, hy, hi⟩

variable {timers : TimerStorage}

lemma put_of_running (h : timers.running = s.timers.running) (c : Nat) (x : Timed) :
    s.put c x timers = { s with ios := s.ios.set c x, timers } := by
  unfold put
  rw [h, Bool.and_not_self]
  rfl

section

variable (h : Inv s)
include h

lemma Inv.erase (hx : s.ios[c]? = some x) : Inv (s.put c x.stopped (s.timers.unregister x.timeout x.id)) := by
  have hsame : (s.timers.unregister x.timeout x.id).running = s.timers.running := rfl
  rw [put_of_running hsame]
  refine ⟨h.storage_set hx rfl, h.clock, h.slept, fun hr => ?_, fun k i hk => ?_, fun c' y hy st hn => ?_, fun c' y hy hn hl => ?_⟩
  · exact isEmpty_erase.trans (h.idle hr)
  · obtain ⟨hk, hnot⟩ := has_erase.1 hk
    obtain ⟨c', y, hy, hi, ht, hs⟩ := h.owned k i hk
    refine ⟨c', y, at_set_other hx hy ?_ _, hi, ht, hs⟩
    rintro rfl
    exact hnot ⟨ht.symm, hi.symm⟩
  · rcases at_of_set hy with ⟨rfl, rfl⟩ | ⟨hne, hy⟩
    · cases hn
    · have ha := h.armed c' y hy st hn
      refine { ha with has := has_erase.2 ⟨ha.has, fun heq => ?_⟩ }
      obtain ⟨i, hi⟩ := ne_none_iff_exists'.1 ha.live
      exact hne (h.unique hx (heq.2.symm.trans hi) hy hi)
  · rcases at_of_set hy with ⟨rfl, rfl⟩ | ⟨-, hy⟩
    · exact ⟨zero_le _, fun _ => .inl rfl⟩
    · exact h.past c' y hy hn hl

lemma Inv.stop_timer (hx : s.ios[c]? = some x) : Inv (s.stop_timer c x) := by
  unfold IoManager.stop_timer
  split
  · exact h.erase hx
  · exact h

lemma Inv.current_le (hlate : s.now < clock + 1000) : s.timers.current ≤ clock / 1000 + 1 := by
  have hclock := h.clock
  omega

def arm (s : IoManager) (c : Nat) (x : Timed) (timeout clock : Nat) : IoManager :=
  let r := s.timers.register (clock / 1000) timeout x.id
  s.put c { x with timeout := r.1, started := if x.id.isSome then some ⟨timeout, s.ticks, s.now⟩ else none } r.2

section

variable (hx : s.ios[c]? = some x)
include hx

lemma Inv.arm (hn : x.started = none) (ht : 0 < t) (hnow : clock ≤ s.now)
    (hlate : s.now < clock + 1000) (hfit : s.now / 1000 + t + 1 < 2 ^ 32) : Inv (s.arm c x t clock) := by
  have hle := h.current_le hlate
  have hclock := h.clock
  have hsecs : clock / 1000 * 1000 ≤ s.now := le_trans (div_mul_le_self _ _) hnow
  have hfits : (if s.timers.running = true then s.timers.current else clock / 1000) + t < 2 ^ 32 := by
    split <;> omega
  unfold IoManager.arm
  rw [TimerStorage.register_eq hfits]
  unfold put
  generalize hcur : (if s.timers.running = true then s.timers.current else clock / 1000) = current
  have hcurrent : s.timers.current ≤ current + 1 ∧ current * 1000 ≤ s.now ∧ (s.timers.running → current = s.timers.current) := by
    rw [← hcur]
    split
    case isTrue => exact ⟨le_succ _, hclock, fun _ => rfl⟩
    case isFalse hr => exact ⟨hle, hsecs, fun h => absurd h hr⟩
  refine ⟨h.storage_set hx rfl, hcurrent.2.1, fun _ => ?_, nofun, fun k i hk => ?_, fun c' y hy st hs => ?_, fun c' y hy hs hl => ?_⟩
  · dsimp only
    cases hr : s.timers.running with
    | true =>
      rw [hcurrent.2.2 hr]
      exact h.slept hr
    | false => exact hcurrent.2.1
  · rcases has_insert.1 hk with ⟨rfl, hi⟩ | hk
    · refine ⟨c, _, at_set hx _, hi.symm, rfl, ?_⟩
      rw [← hi]
      exact nofun
    · obtain ⟨c', y, hy, hi, ht, hs⟩ := h.owned k i hk
      refine ⟨c', y, at_set_other hx hy ?_ _, hi, ht, hs⟩
      rintro rfl
      exact hs hn
  · rcases at_of_set hy with ⟨rfl, rfl⟩ | ⟨hne, hy⟩
    · obtain ⟨hid, rfl⟩ := of_ite hs
      refine ⟨isSome_iff_ne_none.1 hid, ?_, rfl, has_insert.2 (.inl ⟨rfl, rfl⟩), le_add_right _ _, ht, le_refl _,
        ?_, ?_, le_refl _, fun hlt => absurd hlt (lt_irrefl _)⟩
      all_goals
        dsimp only
        omega
    · have ha := h.armed c' y hy st hs
      obtain rfl := hcurrent.2.2 ha.running
      refine { ha with running := rfl, has := has_insert.2 (.inr ha.has), time := ?_ }
      rw [ha.running]
      exact ha.time
  · rcases at_of_set hy with ⟨rfl, rfl⟩ | ⟨hne, hy⟩
    · rw [if_pos (isSome_iff_ne_none.2 hl)] at hs
      cases hs
    · refine ⟨?_, nofun⟩
      obtain ⟨hle, hlt⟩ := h.past c' y hy hs hl
      cases hr : s.timers.running with
      | true => exact hcurrent.2.2 hr ▸ hle
      | false => exact (hlt hr).elim (fun h0 => h0 ▸ zero_le _) fun hlt => le_of_lt_succ (lt_of_lt_of_le hlt hcurrent.1)

lemma Inv.started_of_future (hl : x.id ≠ none) (hfut : s.timers.current < x.timeout) : ∃ st, x.started = some st := by
  cases hs : x.started with
  | some st => exact ⟨st, rfl⟩
  | none => exact absurd hfut (not_lt.2 (h.past c x hx hs hl).1)

lemma Inv.keep (hset : x.timeout ≠ 0) (ht : 0 < t)
    (hclose : x.timeout = s.timers.current + t ∨ x.timeout = s.timers.current + t + 1) :
    Inv (s.put c { x with started := if x.id.isSome then some ⟨t, s.ticks, s.now⟩ else none } s.timers) := by
  rw [put_of_running rfl]
  have hfut : s.timers.current < x.timeout := by omega
  refine ⟨h.storage_set hx rfl, h.clock, h.slept, h.idle, fun k i hk => ?_, fun c' y hy st hs => ?_, fun c' y hy hs hl => ?_⟩
  · obtain ⟨c', y, hy, hi, ht, hs⟩ := h.owned k i hk
    by_cases hc : c' = c
    · subst hc
      cases hx.symm.trans hy
      refine ⟨c', _, at_set hx _, hi, ht, ?_⟩
      rw [hi]
      exact nofun
    · exact ⟨c', y, (getElem?_set_ne (Ne.symm hc)).trans hy, hi, ht, hs⟩
  · rcases at_of_set hy with ⟨rfl, rfl⟩ | ⟨-, hy⟩
    · obtain ⟨hid, rfl⟩ := of_ite hs
      have hl := isSome_iff_ne_none.1 hid
      obtain ⟨st, hs⟩ := h.started_of_future hx hl hfut
      have ha := h.armed _ x hx st hs
      refine ⟨hl, hset, ha.running, ha.has, ha.current, ht, le_refl _, ?_, ?_, le_refl _, fun hlt => absurd hlt (lt_irrefl _)⟩
      all_goals
        dsimp only
        omega
    · exact { h.armed c' y hy st hs with }
  · rcases at_of_set hy with ⟨rfl, rfl⟩ | ⟨-, hy⟩
    · rw [if_pos (isSome_iff_ne_none.2 hl)] at hs
      cases hs
    · exact h.past c' y hy hs hl

lemma start_timer_cases (ht : t ≠ 0) (hfit : s.now / 1000 + t + 1 < 2 ^ 32) (clock : Nat) :
    (x.timeout ≠ 0 ∧ (x.timeout = s.timers.current + t ∨ x.timeout = s.timers.current + t + 1) ∧
      s.start_timer c x t clock = s.put c { x with started := if x.id.isSome then some ⟨t, s.ticks, s.now⟩ else none } s.timers) ∨
    (x.started = none ∧ s.start_timer c x t clock = s.arm c x t clock) ∨
    s.start_timer c x t clock = (s.put c x.stopped (s.timers.unregister x.timeout x.id)).arm c x.stopped t clock := by
  have hclock := h.clock
  have hfits : s.timers.current + t + 1 < 2 ^ 32 := by omega
  unfold IoManager.start_timer
  rw [if_neg ht]
  by_cases hset : x.timeout ≠ 0
  · rw [if_pos hset, TimerStorage.update_eq hfits]
    by_cases hclose : x.timeout = s.timers.current + t ∨ x.timeout = s.timers.current + t + 1
    · refine .inl ⟨hset, hclose, ?_⟩
      rw [if_pos hclose]
    · refine .inr (.inr ?_)
      have hsame : (s.timers.unregister x.timeout x.id).running = s.timers.running := rfl
      rw [if_neg hclose, put_of_running hsame]
      unfold IoManager.arm put
      dsimp only
      rw [set_set]
      rfl
  · refine .inr (.inl ⟨?_, ?_⟩)
    · cases hs : x.started with
      | none => rfl
      | some st => exact absurd (h.armed c x hx st hs).set hset
    · rw [if_neg hset]
      rfl

lemma Inv.start_timer (t : Nat) (hnow : clock ≤ s.now)
    (hlate : s.now < clock + 1000) (hfit : s.now / 1000 + t + 1 < 2 ^ 32) : Inv (s.start_timer c x t clock) := by
  by_cases ht : t = 0
  · unfold IoManager.start_timer
    rw [if_pos ht]
    exact h.stop_timer hx
  · rcases start_timer_cases h hx ht hfit clock with ⟨hset, hclose, heq⟩ | ⟨hn, heq⟩ | heq
    · exact heq ▸ h.keep hx hset (Nat.pos_of_ne_zero ht) hclose
    · exact heq ▸ h.arm hx hn (Nat.pos_of_ne_zero ht) hnow hlate hfit
    · exact heq ▸ (h.erase hx).arm (at_set hx _) rfl (Nat.pos_of_ne_zero ht) hnow hlate hfit

lemma Inv.unregister (hn : x.started = none) : Inv (s.unregister c x) := by
  unfold IoManager.unregister
  cases hid : x.id with
  | none => exact h
  | some id =>
    -- the other connections have other numbers
    have hne : ∀ (c' : Nat) (y : Timed) (i : Nat), c' ≠ c → s.ios[c']? = some y → y.id = some i → i ≠ id := by
      rintro c' y i hc hy hi rfl
      exact hc (h.unique hx hid hy hi)
    refine ⟨fun i c' => ?_, h.clock, h.slept, h.idle, fun k i hk => ?_, fun c' y hy st hs => ?_, fun c' y hy hs hl => ?_⟩
    · dsimp only
      split
      case isTrue heq =>
        refine ⟨nofun, ?_⟩
        rintro ⟨y, hy, hi⟩
        rcases at_of_set hy with ⟨rfl, rfl⟩ | ⟨hc, hy⟩
        · cases hi
        · exact absurd heq (hne c' y i hc hy hi)
      case isFalse hi =>
        rw [h.storage]
        constructor
        · rintro ⟨y, hy, hyi⟩
          refine ⟨y, at_set_other hx hy ?_ _, hyi⟩
          rintro rfl
          exact hi (some.inj (hyi.symm.trans hid))
        · rintro ⟨y, hy, hyi⟩
          rcases at_of_set hy with ⟨rfl, rfl⟩ | ⟨-, hy⟩
          · cases hyi
          · exact ⟨y, hy, hyi⟩
    · obtain ⟨c', y, hy, hi, ht, hs⟩ := h.owned k i hk
      refine ⟨c', y, at_set_other hx hy ?_ _, hi, ht, hs⟩
      rintro rfl
      exact hs hn
    · rcases at_of_set hy with ⟨rfl, rfl⟩ | ⟨-, hy⟩
      · cases hn.symm.trans hs
      · exact { h.armed c' y hy st hs with }
    · rcases at_of_set hy with ⟨rfl, rfl⟩ | ⟨-, hy⟩
      · exact absurd rfl hl
      · exact h.past c' y hy hs hl

/-! ## A tick -/

lemma Inv.fires (hf : s.fires s.timers.tick.1 c) : ∃ st, x.started = some st ∧ x.timeout ≤ s.timers.current := by
  obtain ⟨ids, hids, hex⟩ := any_eq_true.1 hf
  obtain ⟨id, hid, hget⟩ := of_decide_eq_true hex
  obtain ⟨k, hk, hhas⟩ := mem_take.1 ⟨ids, hids, hid⟩
  cases id with
  | none => cases hget
  | some i =>
    obtain ⟨c', y, hy, hi, hyt, hs⟩ := h.owned k i hhas
    have hc : c = c' := by
      have hst := (h.storage i c').2 ⟨y, hy, hi⟩
      exact some.inj (Eq.trans (Eq.symm hget) hst)
    subst hc
    cases hx.symm.trans hy
    obtain ⟨p, hp⟩ := ne_none_iff_exists'.1 hs
    exact ⟨p, hp, hyt ▸ hk⟩

lemma Inv.fires_of_expired (ha : Armed s x st) (hle : x.timeout ≤ s.timers.current) :
    s.fires s.timers.tick.1 c := by
  obtain ⟨ids, hids, hid⟩ := mem_take.2 ⟨x.timeout, hle, ha.has⟩
  obtain ⟨i, hi⟩ := ne_none_iff_exists'.1 ha.live
  refine any_eq_true.2 ⟨ids, hids, decide_eq_true ⟨x.id, hid, ?_⟩⟩
  rw [hi]
  exact (h.storage i c).2 ⟨x, hx, hi⟩

end

end

lemma id_notify (sets : List (Finset Id)) : (s.notify sets c x).id = x.id := by
  unfold notify
  split <;> rfl

lemma getElem?_tick (c : Nat) : s.tick.ios[c]? = s.ios[c]?.map (s.notify s.timers.tick.1 c) := getElem?_mapIdx

/-- The count is not ahead of the time, so it does not wrap. -/
lemma Inv.current_tick (h : Inv s) (hr : s.timers.running) (hok : s.Timely .tick) :
    s.tick.timers.current = s.timers.current + 1 := by
  obtain ⟨hnow, hfit⟩ := hok
  have hslept := h.slept hr
  exact mod_eq_of_lt (by omega)

lemma Inv.armed_tick (h : Inv s) (hr : s.timers.running) (hok : s.Timely .tick) (hx : s.ios[c]? = some x) (hs : x.started = some st)
    (hf : s.fires s.timers.tick.1 c = false) : Armed s.tick x st := by
  have ha := h.armed c x hx st hs
  have hlt : s.timers.current < x.timeout := by
    refine Nat.lt_of_not_le fun hle => ?_
    cases hf.symm.trans (h.fires_of_expired hx ha hle)
  have hhas : (s.timers.notifications.take s.timers.current).2.Has x.timeout x.id := has_take.2 ⟨ha.has, hlt⟩
  have hcurrent := h.current_tick hr hok
  have hlower := ha.lower
  have hupper := ha.upper
  have hticks := ha.ticks
  obtain ⟨hpast, htime⟩ := ha.time
  refine ⟨ha.live, ha.set, ?_, hhas, hcurrent ▸ hlt, ha.pos, le_succ_of_le hticks, ?_, ?_, hpast, fun _ => ?_⟩
  · change (!(s.timers.notifications.take s.timers.current).2.isEmpty) = true
    cases he : (s.timers.notifications.take s.timers.current).2.isEmpty with
    | true => exact absurd hhas (not_has_of_isEmpty he)
    | false => rfl
  · rw [hcurrent]
    change st.ticks + st.timeout + (s.timers.current + 1) ≤ x.timeout + (s.ticks + 1)
    omega
  · rw [hcurrent]
    change x.timeout + (s.ticks + 1) ≤ st.ticks + st.timeout + (s.timers.current + 1) + 1
    omega
  · change st.now + (s.ticks + 1 - st.ticks) * 1000 ≤ s.now + 1000
    rcases lt_or_eq_of_le hticks with hlt | heq
    · calc st.now + (s.ticks + 1 - st.ticks) * 1000
          = st.now + (s.ticks - st.ticks) * 1000 + 1000 := by rw [Nat.sub_add_comm hticks, Nat.add_mul, one_mul, add_assoc]
        _ ≤ s.slept + 1000 + 1000 := Nat.add_le_add_right (htime hlt) _
        _ ≤ s.now + 1000 := Nat.add_le_add_right hok.1 _
    · rw [heq, Nat.add_sub_cancel_left, one_mul]
      exact Nat.add_le_add_right hpast _

lemma Inv.tick (h : Inv s) (hr : s.timers.running) (hok : s.Timely .tick) : Inv s.tick := by
  have hslept := h.slept hr
  have hone := h.current_tick hr hok
  have hcase : ∀ (c : Nat) (y : Timed), s.tick.ios[c]? = some y → ∃ x, s.ios[c]? = some x ∧ y = s.notify s.timers.tick.1 c x := by
    intro c y hy
    rw [getElem?_tick] at hy
    obtain ⟨x, hx, rfl⟩ := of_map hy
    exact ⟨x, hx, rfl⟩
  have hcurrent : (s.timers.current + 1) * 1000 ≤ s.now := calc
    (s.timers.current + 1) * 1000 = s.timers.current * 1000 + 1000 := succ_mul _ _
    _ ≤ s.slept + 1000 := Nat.add_le_add_right hslept _
    _ ≤ s.now := hok.1
  rw [← hone] at hcurrent
  refine ⟨fun i c => ?_, hcurrent, fun _ => hcurrent, fun he => ?_, fun k i hk => ?_, fun c y hy st hs => ?_, fun c y hy hs hl => ?_⟩
  · refine (h.storage i c).trans ⟨?_, ?_⟩
    · rintro ⟨x, hx, hi⟩
      refine ⟨s.notify s.timers.tick.1 c x, ?_, (id_notify _).trans hi⟩
      rw [getElem?_tick, hx]
      rfl
    · rintro ⟨y, hy, hi⟩
      obtain ⟨x, hx, rfl⟩ := hcase c y hy
      exact ⟨x, hx, (id_notify _).symm.trans hi⟩
  · exact (Bool.not_eq_false' _).mp he
  · obtain ⟨hk, hlt⟩ := has_take.1 hk
    obtain ⟨c, x, hx, hi, hxt, hs⟩ := h.owned k i hk
    have hf : s.fires s.timers.tick.1 c = false := by
      refine Bool.eq_false_iff.2 fun hf => ?_
      obtain ⟨-, -, hle⟩ := h.fires hx hf
      exact absurd (hxt ▸ hle) (not_le.2 hlt)
    refine ⟨c, x, ?_, hi, hxt, hs⟩
    rw [getElem?_tick, hx, map_some, notify, hf]
    rfl
  · obtain ⟨x, hx, rfl⟩ := hcase c y hy
    unfold notify at hs ⊢
    split at hs
    case isTrue => cases hs
    case isFalse hf =>
      rw [if_neg hf]
      exact h.armed_tick hr hok hx hs (Bool.eq_false_iff.2 hf)
  · obtain ⟨x, hx, rfl⟩ := hcase c y hy
    unfold notify at hs hl ⊢
    split at hs
    case isTrue hf =>
      obtain ⟨-, -, hle⟩ := h.fires hx hf
      rw [if_pos hf, hone]
      exact ⟨le_succ_of_le hle, fun _ => .inr (lt_succ_of_le hle)⟩
    case isFalse hf =>
      rw [if_neg hf] at hl ⊢
      rw [hone]
      have hle := (h.past c x hx hs hl).1
      exact ⟨le_succ_of_le hle, fun _ => .inr (lt_succ_of_le hle)⟩

/-! ## Runs -/

lemma Inv.append (h : Inv s) {id : Nat} (hid : s.storage id = none) :
    Inv { s with
      storage := fun i => if i = id then some s.ios.length else s.storage i
      ios := s.ios ++ [{ id := some id, timeout := 0, dsp_timeout := false, started := none }] } := by
  have hold : ∀ (c : Nat) (x : Timed), s.ios[c]? = some x →
      (s.ios ++ [({ id := some id, timeout := 0, dsp_timeout := false, started := none } : Timed)])[c]? = some x :=
    fun c x hx => at_append hx
  refine ⟨fun i c => ?_, h.clock, h.slept, h.idle, fun k i hk => ?_, fun c y hy st hs => ?_, fun c y hy hs hl => ?_⟩
  · dsimp only
    split
    case isTrue heq =>
      subst heq
      constructor
      · intro hc
        cases hc
        exact ⟨_, getElem?_concat_length, rfl⟩
      · rintro ⟨y, hy, hi⟩
        rcases at_of_append hy with hy | ⟨rfl, -⟩
        · cases hid.symm.trans ((h.storage i c).2 ⟨y, hy, hi⟩)
        · rfl
    case isFalse hne =>
      refine (h.storage i c).trans ⟨fun ⟨x, hx, hi⟩ => ⟨x, hold c x hx, hi⟩, ?_⟩
      rintro ⟨y, hy, hi⟩
      rcases at_of_append hy with hy | ⟨-, rfl⟩
      · exact ⟨y, hy, hi⟩
      · exact absurd (some.inj hi).symm hne
  · obtain ⟨c, x, hx, hrest⟩ := h.owned k i hk
    exact ⟨c, x, hold c x hx, hrest⟩
  · rcases at_of_append hy with hy | ⟨-, rfl⟩
    · exact { h.armed c y hy st hs with }
    · cases hs
  · rcases at_of_append hy with hy | ⟨-, rfl⟩
    · exact h.past c y hy hs hl
    · exact ⟨zero_le _, fun _ => .inl rfl⟩

lemma Inv.check (h : Inv s) (hx : s.ios[c]? = some x) (b : Bool) : Inv { s with ios := s.ios.set c { x with dsp_timeout := b } } := by
  refine ⟨h.storage_set hx rfl, h.clock, h.slept, h.idle, fun k i hk => ?_, fun c' y hy st hs => ?_, fun c' y hy hs hl => ?_⟩
  · obtain ⟨c', y, hy, hrest⟩ := h.owned k i hk
    by_cases hc : c' = c
    · subst hc
      cases hx.symm.trans hy
      exact ⟨c', _, at_set hx _, hrest⟩
    · exact ⟨c', y, (getElem?_set_ne (Ne.symm hc)).trans hy, hrest⟩
  · rcases at_of_set hy with ⟨rfl, rfl⟩ | ⟨-, hy⟩
    · exact { h.armed _ x hx st hs with }
    · exact { h.armed c' y hy st hs with }
  · rcases at_of_set hy with ⟨rfl, rfl⟩ | ⟨-, hy⟩
    · exact h.past _ x hx hs hl
    · exact h.past c' y hy hs hl

lemma stop_timer_self (hx : s.ios[c]? = some x) (h : Inv s) : (s.stop_timer c x).ios[c]? = some x.stopped := by
  unfold IoManager.stop_timer
  split
  case isTrue => exact at_set hx _
  case isFalse hset =>
    have hset := Classical.not_not.1 hset
    have hs : x.started = none := by
      cases hs : x.started with
      | none => rfl
      | some st => exact absurd hset (h.armed c x hx st hs).set
    have heq : x = x.stopped := by
      unfold Timed.stopped
      rw [← hset, ← hs]
    exact heq ▸ hx

lemma inv_step (h : Inv s) (hok : s.Timely i) (hst : step s i = some s') : Inv s' := by
  cases i with
  | register id =>
    obtain ⟨hif, rfl⟩ := of_ite hst
    exact h.append hif.1
  | start_timer c timeout clock =>
    obtain ⟨x, hx, rfl⟩ := of_map hst
    obtain ⟨hnow, hlate, hfit⟩ := hok
    exact h.start_timer hx timeout hnow hlate hfit
  | stop_timer c =>
    obtain ⟨x, hx, rfl⟩ := of_map hst
    exact h.stop_timer hx
  | drop c =>
    rw [step] at hst
    split at hst
    next x hx =>
      obtain ⟨-, rfl⟩ := of_ite hst
      exact (h.stop_timer hx).unregister (stop_timer_self hx h) rfl
    next => cases hst
  | tick =>
    obtain ⟨hr, rfl⟩ := of_ite hst
    exact h.tick hr hok
  | check_dispatcher_timeout c =>
    obtain ⟨x, hx, rfl⟩ := of_map hst
    exact h.check hx false
  | advance ms =>
    cases hst
    refine { h with clock := le_trans h.clock (le_add_right _ _), armed := fun c x hx st hs => ?_ }
    have ha := h.armed c x hx st hs
    exact { ha with time := ⟨le_trans ha.time.1 (le_add_right _ _), ha.time.2⟩ }

lemma inv_new : Inv new where
  storage := fun _ _ => ⟨nofun, fun ⟨_, h, _⟩ => nomatch h⟩
  clock := zero_le _
  slept := nofun
  idle := fun _ => rfl
  owned := fun _ _ h => absurd h (not_has_of_isEmpty rfl)
  armed := fun _ _ h => nomatch h
  past := fun _ _ h => nomatch h

lemma inv_of_reach (h : Reach step Timely new s) : Inv s :=
  h.inv Inv inv_new fun _ _ _ hi hok hst => inv_step hi hok hst

lemma put_other (hne : c' ≠ c) : (s.put c' x timers).ios[c]? = s.ios[c]? := getElem?_set_ne hne

lemma stop_timer_other (hne : c' ≠ c) : (s.stop_timer c' x).ios[c]? = s.ios[c]? := by
  unfold IoManager.stop_timer
  split
  · exact put_other hne
  · rfl

lemma start_timer_other (hne : c' ≠ c) : (s.start_timer c' x t clock).ios[c]? = s.ios[c]? := by
  unfold IoManager.start_timer
  split
  · exact stop_timer_other hne
  · exact put_other hne

lemma unregister_other (hne : c' ≠ c) : (s.unregister c' x).ios[c]? = s.ios[c]? := by
  unfold IoManager.unregister
  split
  · exact getElem?_set_ne hne
  · rfl

lemma untouched_step (hst : step s i = some s') (hi : i.touches c = false) (hne : i ≠ .check_dispatcher_timeout c)
    (hx : s.ios[c]? = some x) :
    s'.ios[c]? = some x ∨
      (i = .tick ∧ s.fires s.timers.tick.1 c ∧ s'.ios[c]? = some { x with dsp_timeout := true, started := none }) := by
  cases i with
  | register id =>
    obtain ⟨-, rfl⟩ := of_ite hst
    exact .inl (at_append hx)
  | start_timer c' timeout clock =>
    obtain ⟨y, -, rfl⟩ := of_map hst
    exact .inl ((start_timer_other (of_decide_eq_false hi)).trans hx)
  | stop_timer c' =>
    obtain ⟨y, -, rfl⟩ := of_map hst
    exact .inl ((stop_timer_other (of_decide_eq_false hi)).trans hx)
  | drop c' =>
    have hc : c' ≠ c := of_decide_eq_false hi
    rw [step] at hst
    split at hst
    next y hy =>
      obtain ⟨-, rfl⟩ := of_ite hst
      exact .inl (((unregister_other hc).trans (stop_timer_other hc)).trans hx)
    next => cases hst
  | tick =>
    obtain ⟨-, rfl⟩ := of_ite hst
    rw [getElem?_tick, hx, map_some, notify]
    split
    case isTrue hf => exact .inr ⟨rfl, hf, rfl⟩
    case isFalse => exact .inl rfl
  | check_dispatcher_timeout c' =>
    obtain ⟨y, hy, rfl⟩ := of_map hst
    have hc : c' ≠ c := fun heq => hne (heq ▸ rfl)
    exact .inl ((getElem?_set_ne hc).trans hx)
  | advance ms =>
    cases hst
    exact .inl hx

lemma started_step (hst : step s i = some s') (hi : i.touches c = false) (hx : s.ios[c]? = some x)
    (hx' : s'.ios[c]? = some x') :
    x'.started = x.started ∨ (i = .tick ∧ x'.dsp_timeout ∧ s.fires s.timers.tick.1 c) := by
  by_cases hc : i = .check_dispatcher_timeout c
  · subst hc
    obtain ⟨y, hy, rfl⟩ := of_map hst
    cases hx.symm.trans hy
    cases (at_set hx _).symm.trans hx'
    exact .inl rfl
  · rcases untouched_step hst hi hc hx with heq | ⟨rfl, hf, heq⟩
    · cases heq.symm.trans hx'
      exact .inl rfl
    · cases heq.symm.trans hx'
      exact .inr ⟨rfl, rfl, hf⟩

lemma now_stop_timer (c : Nat) (x : Timed) : (s.stop_timer c x).now = s.now := by
  unfold IoManager.stop_timer
  split <;> rfl

lemma now_start_timer (c : Nat) (x : Timed) (t clock : Nat) : (s.start_timer c x t clock).now = s.now := by
  unfold IoManager.start_timer
  split
  · exact now_stop_timer c x
  · rfl

lemma now_unregister (c : Nat) (x : Timed) : (s.unregister c x).now = s.now := by
  unfold IoManager.unregister
  split <;> rfl

lemma now_le_step (hst : step s i = some s') : s.now ≤ s'.now := by
  cases i with
  | register id =>
    obtain ⟨-, rfl⟩ := of_ite hst
    exact le_refl _
  | start_timer c timeout clock =>
    obtain ⟨x, -, rfl⟩ := of_map hst
    exact le_of_eq (now_start_timer c x timeout clock).symm
  | stop_timer c =>
    obtain ⟨x, -, rfl⟩ := of_map hst
    exact le_of_eq (now_stop_timer c x).symm
  | drop c =>
    rw [step] at hst
    split at hst
    next x hx =>
      obtain ⟨-, rfl⟩ := of_ite hst
      exact le_of_eq ((now_unregister c x.stopped).trans (now_stop_timer c x)).symm
    next => cases hst
  | tick =>
    obtain ⟨-, rfl⟩ := of_ite hst
    exact le_refl _
  | check_dispatcher_timeout c =>
    obtain ⟨x, -, rfl⟩ := of_map hst
    exact le_refl _
  | advance ms =>
    cases hst
    exact le_add_right _ _

lemma start_timer_self (hx : s.ios[c]? = some x) (hl : x.id ≠ none) (ht : t ≠ 0) (clock : Nat) :
    ∃ k, (s.start_timer c x t clock).ios[c]? = some { x with timeout := k, started := some ⟨t, s.ticks, s.now⟩ } := by
  unfold IoManager.start_timer
  rw [if_neg ht, if_pos (isSome_iff_ne_none.2 hl)]
  exact ⟨_, at_set hx _⟩

lemma has_start_timer (h : Inv s) (hx : s.ios[c]? = some x) (hl : x.id ≠ none) (ht : 0 < t) (hnow : clock ≤ s.now)
    (hlate : s.now < clock + 1000) (hfit : s.now / 1000 + t + 1 < 2 ^ 32) (hx' : (s.start_timer c x t clock).ios[c]? = some x') :
    x'.started = some ⟨t, s.ticks, s.now⟩ ∧ (s.start_timer c x t clock).timers.notifications.Has x'.timeout x'.id := by
  have hs : x'.started = some ⟨t, s.ticks, s.now⟩ := by
    obtain ⟨k, hk⟩ := start_timer_self hx hl (Nat.pos_iff_ne_zero.1 ht) clock
    cases hk.symm.trans hx'
    rfl
  exact ⟨hs, ((h.start_timer hx t hnow hlate hfit).armed c x' hx' _ hs).has⟩

lemma Inv.fires_in_time (h : Inv s) (hnow : s.slept + 1000 ≤ s.now) (hx : s.ios[c]? = some x) (hs : x.started = some st)
    (hf : s.fires s.timers.tick.1 c) :
    st.ticks + st.timeout ≤ s.ticks ∧ s.ticks < st.ticks + st.timeout + 2 ∧ st.now + st.timeout * 1000 ≤ s.now := by
  have ha := h.armed c x hx st hs
  obtain ⟨-, -, hle⟩ := h.fires hx hf
  have hcurrent := ha.current
  have hlower := ha.lower
  have hupper := ha.upper
  have hpos := ha.pos
  have hticks : st.timeout ≤ s.ticks - st.ticks := by omega
  refine ⟨by omega, by omega, ?_⟩
  calc st.now + st.timeout * 1000
      ≤ st.now + (s.ticks - st.ticks) * 1000 := Nat.add_le_add_left (mul_le_mul_right 1000 hticks) _
    _ ≤ s.slept + 1000 := ha.time.2 (by omega)
    _ ≤ s.now := hnow

/-- In timely runs only the timer of the connection's own last `start_timer` fires for it, once, after `t` ticks and at most
two more; and a handle that is set is registered. -/
theorem timers_exact (h : Reach step Timely new s) :
    (∀ (s' : IoManager) (c : Nat) (x x' : Timed), step s .tick = some s' → s.ios[c]? = some x → s'.ios[c]? = some x' →
      x.dsp_timeout = false → x'.dsp_timeout = true → x.started ≠ none) ∧
    (∀ (c : Nat) (x : Timed) (st : Start), s.ios[c]? = some x → x.started = some st →
      s.timers.running = true ∧ s.ticks < st.ticks + st.timeout + 2 ∧
      ∀ (i : Step) (s' : IoManager) (x' : Timed), s.Timely i → step s i = some s' → i.touches c = false → s'.ios[c]? = some x' →
        x'.started = some st ∨
          (i = .tick ∧ x'.dsp_timeout = true ∧ st.ticks + st.timeout ≤ s'.ticks ∧ s'.ticks ≤ st.ticks + st.timeout + 2)) ∧
    (∀ (c : Nat) (x : Timed) (t clock : Nat) (s' : IoManager) (x' : Timed), s.ios[c]? = some x → x.id ≠ none → 0 < t →
      s.Timely (.start_timer c t clock) → step s (.start_timer c t clock) = some s' → s'.ios[c]? = some x' →
      x'.started = some ⟨t, s.ticks, s.now⟩ ∧ s'.timers.notifications.Has x'.timeout x'.id) := by
  have hinv := inv_of_reach h
  refine ⟨fun s' c x x' hst hx hx' hno hyes => ?_, fun c x st hx hs => ?_, fun c x t clock s' x' hx hl ht hok hst hx' => ?_⟩
  · obtain ⟨-, rfl⟩ := of_ite hst
    rw [getElem?_tick, hx] at hx'
    cases hx'
    cases hf : s.fires s.timers.tick.1 c with
    | true =>
      obtain ⟨st, hs, -⟩ := hinv.fires hx hf
      rw [hs]
      exact nofun
    | false =>
      rw [notify, hf] at hyes
      cases hno.symm.trans hyes
  · have ha := hinv.armed c x hx st hs
    have hcurrent := ha.current
    have hupper := ha.upper
    refine ⟨ha.running, by omega, fun i s' x' hok hst hi hx' => ?_⟩
    rcases started_step hst hi hx hx' with heq | ⟨rfl, hyes, hf⟩
    · exact .inl (heq.trans hs)
    · obtain ⟨-, rfl⟩ := of_ite hst
      obtain ⟨hlower, hupper, -⟩ := hinv.fires_in_time hok.1 hx hs hf
      exact .inr ⟨rfl, hyes, le_succ_of_le hlower, hupper⟩
  · obtain ⟨y, hy, rfl⟩ := of_map hst
    cases hx.symm.trans hy
    obtain ⟨hnow, hlate, hfit⟩ := hok
    exact has_start_timer hinv hx hl ht hnow hlate hfit hx'

set_option maxRecDepth 6000 in
/-- Three connections, of which the first is dropped and the third has its number; the second one's timer is kept. -/
theorem timers_exact_three : ∃ s s' : IoManager, Reach step Timely new s ∧
    s.ios.map (·.id) = [none, some 2, some 1] ∧ s.ios.map (·.started) = [none, some ⟨1, 1, 1030⟩, none] ∧ s.ticks < 1 + 1 + 2 ∧
    step s .tick = some s' ∧ s'.ios.map (·.dsp_timeout) = [false, true, false] ∧ 1 + 1 ≤ s'.ticks := by
  have hreach : Reach step Timely new _ := .of_steps
      [.advance 30, .register 1, .register 2, .start_timer 0 2 25,
      .start_timer 1 2 30, .drop 0, .register 1, .advance 1000, .tick, .start_timer 1 1 1030, .advance 1000, .tick,
      .advance 1000] rfl
  have hall := timers_exact hreach
  have htimer := hall.2.1 1 _ ⟨1, 1, 1030⟩ rfl rfl
  have hfired := htimer.2.2 .tick _ _ (by decide) rfl rfl rfl
  refine ⟨_, _, hreach, rfl, rfl, htimer.2.1, rfl, rfl, ?_⟩
  rcases hfired with h | ⟨-, -, h, -⟩
  · cases h
  · exact h

/-- Four ticks come early, and the count is set back by the clock when the task starts again: the old handle of the first
connection is taken for the new one, and its timer is in no set. -/
theorem timer_lost : ∃ (s : IoManager) (x : Timed), Reach step (fun _ _ => True) new s ∧ s.now = 0 ∧ s.ios[0]? = some x ∧
    x.id = some 1 ∧ x.started = some ⟨3, 4, 0⟩ ∧ ¬ s.timers.notifications.Has x.timeout x.id := by
  have hreach : Reach step (fun _ _ => True) new _ := .of_steps
      [.register 1, .register 2, .start_timer 0 3 0, .tick, .tick, .tick, .tick, .start_timer 1 1 0, .start_timer 0 3 0] rfl
  refine ⟨_, _, hreach, rfl, rfl, rfl, rfl, ?_⟩
  rintro ⟨ids, hids, -⟩
  -- the only key is that of the second connection
  have hkey : 3 ∈ [1] := mem_map_of_mem (f := Prod.fst) hids
  exact absurd hkey (by decide)

end IoManager

end Geario.Io
