import Geario.Lib.Slab
import Geario.Wheel.Levels
/-!
# The timer service

`TimerInner` is the thread's timer: the tick counter, the clock the ticks are
measured from, and the wheel itself (`TimerMod`), whose buckets hold the
numbers of the timers and whose `occupied` words say which buckets are in use.

Instants and durations are in nanoseconds. Every answer of `Instant::now()` is a
parameter. So is the key a slab insertion chooses: `no` for the slab of timers,
`k` for the slab of a bucket. An operation that indexes a slab at a vacant key
panics, which is `none` here.
-/
open Lib
open Function (update)

namespace Geario.Wheel

abbrev Waker := Nat

def from_millis (n : Nat) : Nat := 1000000 * n

def as_millis (dur : Nat) : Nat :=
  wrap64 (dur / 1000000000 * 1000 + dur % 1000000000 / 1000000)

def LOWRES_RESOLUTION : Nat := from_millis 5

/-- A sleep, by the time it completes at the earliest. -/
structure Delay where
  deadline : Nat

def Delay.new (now : Nat) (dur : Nat) : Delay := ⟨now + dur⟩

structure Flags where
  DRIVER_STARTED : Bool := false
  DRIVER_RECALC : Bool := false
  LOWRES_TIMER : Bool := false
  LOWRES_DRIVER : Bool := false
  RUNNING : Bool := false

structure Bucket where
  lvl : Nat
  bit : BitVec 64
  bit_n : BitVec 64
  entries : Slab Nat

def Bucket.new (lvl offs : Nat) : Bucket :=
  { lvl := lvl, bit := 1#64 <<< offs, bit_n := ~~~(1#64 <<< offs), entries := .empty }

/-- `task` is the waker registered by the last `poll_elapsed`. -/
structure TimerEntry where
  bucket : Option Nat
  bucket_entry : Nat
  task : Option Waker

def TimerEntry.complete (e : TimerEntry) : TimerEntry :=
  if e.bucket.isSome then { e with bucket := none, task := none } else e

def TimerEntry.wakes (e : TimerEntry) : List Waker := if e.bucket.isSome then e.task.toList else []

/-- `woken` lists the wakers called so far. -/
structure TimerMod where
  timers : Slab TimerEntry
  driver_sleep : Delay
  buckets : Nat → Bucket
  occupied : Nat → BitVec 64
  lowres_driver_sleep : Delay
  woken : List Waker

/-- `timer_drivers` and `lowres_drivers` count the driver tasks spawned. -/
structure TimerInner where
  elapsed : Nat
  elapsed_time : Option Nat
  next_expiry : Nat
  flags : Flags
  driver : Option Waker
  lowres_time : Option Nat
  lowres_stime : Option Nat
  lowres_driver : Option Waker
  inner : TimerMod
  timer_drivers : Nat
  lowres_drivers : Nat

def create_buckets (idx : Nat) : Bucket := Bucket.new (idx / LVL_SIZE) (idx % LVL_SIZE)

/-- The fresh wheel. Key 0 is preoccupied, so no handle has it. -/
def Timer.new : TimerInner where
  elapsed := 0
  elapsed_time := none
  next_expiry := U64_MAX
  flags := {}
  driver := none
  lowres_time := none
  lowres_stime := none
  lowres_driver := none
  inner :=
    { timers := Slab.empty.insert 0 ⟨none, 0, none⟩
      driver_sleep := ⟨0⟩
      buckets := create_buckets
      occupied := fun _ => 0
      lowres_driver_sleep := ⟨0⟩
      woken := [] }
  timer_drivers := 0
  lowres_drivers := 0

/-! ## The wheel -/

namespace TimerMod

def complete (m : TimerMod) (no : Nat) : TimerMod :=
  match m.timers.get no with
  | none => m
  | some e => { m with timers := m.timers.insert no e.complete, woken := m.woken ++ e.wakes }

def expire_bucket (m : TimerMod) (idx : Nat) : TimerMod :=
  let b := m.buckets idx
  if b.entries.is_empty then m
  else
    b.entries.values.foldl complete
      { m with
        occupied := update m.occupied b.lvl (m.occupied b.lvl &&& b.bit_n)
        buckets := update m.buckets idx { b with entries := .empty } }

def execute_levels : Nat → Nat → Nat → TimerMod → TimerMod
  | 0, _, _, m => m
  | n + 1, lvl, clk, m =>
    let m := m.expire_bucket ((clk &&& LVL_MASK) + lvl * LVL_SIZE)
    -- is it time to look at the next level?
    if clk &&& LVL_CLK_MASK ≠ 0 then m
    else execute_levels n (lvl + 1) (clk >>> LVL_CLK_SHIFT) m

def execute_expired_timers (m : TimerMod) (clk : Nat) : TimerMod := execute_levels LVL_DEPTH 0 clk m

def unlink (m : TimerMod) (bucket k : Nat) : Option TimerMod :=
  let b := m.buckets bucket
  if (b.entries.get k).isNone then none
  else
    let b := { b with entries := b.entries.remove k }
    let m := { m with buckets := update m.buckets bucket b }
    if b.entries.is_empty then
      some { m with occupied := update m.occupied b.lvl (m.occupied b.lvl &&& b.bit_n) }
    else some m

def link (m : TimerMod) (no idx k : Nat) (task : Option Waker) : TimerMod :=
  let b := m.buckets idx
  { m with
    timers := m.timers.insert no ⟨some idx, k, task⟩
    buckets := update m.buckets idx { b with entries := b.entries.insert k no }
    occupied := update m.occupied b.lvl (m.occupied b.lvl ||| b.bit) }

def remove_timer_bucket (m : TimerMod) (handle : Nat) (remove_handle : Bool) : Option TimerMod := do
  let entry ← m.timers.get handle
  let m ← match entry.bucket with
    | some bucket => m.unlink bucket entry.bucket_entry
    | none => some m
  if remove_handle then some { m with timers := m.timers.remove handle } else some m

def add_entry (m : TimerMod) (no idx k : Nat) : TimerMod := m.link no idx k none

def update_entry (m : TimerMod) (hnd idx k : Nat) : Option TimerMod := do
  let entry ← m.timers.get hnd
  match entry.bucket with
  | some bucket =>
    -- do not do anything if wheel bucket is the same
    if idx = bucket then some m
    else do
      let m ← m.unlink bucket entry.bucket_entry
      some (m.link hnd idx k entry.task)
  | none => some (m.link hnd idx k entry.task)

end TimerMod

/-- The search of `next_pending_bucket` over the levels from `lvl` on. -/
def next_pending_levels (occupied : Nat → BitVec 64) : Nat → Nat → Nat → Nat → Nat
  | 0, _, _, next => next
  | n + 1, lvl, clk, next =>
    let lvl_clk := clk &&& LVL_CLK_MASK
    let up := (clk >>> LVL_CLK_SHIFT) + if lvl_clk ≠ 0 then 1 else 0
    if occupied lvl = 0 then next_pending_levels occupied n (lvl + 1) up next
    else
      let pos := ((occupied lvl).rotateRight (clk &&& LVL_MASK)).ctz.toNat
      let tmp := wrap64 (wrap64 (clk + pos) <<< lvl_shift lvl)
      let next := if tmp < next then tmp else next
      -- if the next expiration happens before we reach the next level, no need to check further
      if pos ≤ (LVL_CLK_DIV - lvl_clk) &&& LVL_CLK_MASK then next
      else next_pending_levels occupied n (lvl + 1) up next

/-! ## The service around the wheel -/

/-- The answers of `Instant::now()` in one call, in order: for `now`, for `elapsed_time`, and when the sleep of the driver
is set. -/
structure Readings where
  now : Nat
  lowres : Nat
  elapsed : Nat
  sleep : Nat

namespace TimerInner

def next_pending_bucket (s : TimerInner) : Option Nat :=
  let next := next_pending_levels s.inner.occupied LVL_DEPTH 0 s.elapsed U64_MAX
  if next < U64_MAX then some next else none

def next_expiry_ms (s : TimerInner) : Nat := to_millis (s.next_expiry - s.elapsed)

def start_lowres (s : TimerInner) (t : Nat) : TimerInner :=
  { s with
    flags.LOWRES_DRIVER := true
    inner.lowres_driver_sleep := Delay.new t LOWRES_RESOLUTION
    lowres_drivers := s.lowres_drivers + 1 }

def wake_lowres (s : TimerInner) (t : Nat) : TimerInner :=
  if s.flags.LOWRES_DRIVER then
    { s with lowres_driver := none, inner.woken := s.inner.woken ++ s.lowres_driver.toList }
  else s.start_lowres t

def now (s : TimerInner) (t sleep : Nat) : Nat × TimerInner :=
  match s.lowres_time with
  | some cur => (cur, s)
  | none => if s.flags.RUNNING then (t, { s with lowres_time := some t }.wake_lowres sleep) else (t, s)

def system_time (s : TimerInner) (t sleep : Nat) : Nat × TimerInner :=
  match s.lowres_stime with
  | some cur => (cur, s)
  | none => if s.flags.RUNNING then (t, { s with lowres_stime := some t }.wake_lowres sleep) else (t, s)

def fetch_elapsed_time (s : TimerInner) (t : Nat) : Nat × TimerInner :=
  match s.elapsed_time with
  | some e => (e, s)
  | none => (t, { s with elapsed_time := some t })

def start_driver (s : TimerInner) (t : Nat) : TimerInner :=
  { s with
    flags.DRIVER_STARTED := true
    inner.driver_sleep := Delay.new t (from_millis s.next_expiry_ms)
    timer_drivers := s.timer_drivers + 1 }

/-- Check whether the new bucket expires earlier. `flags` is the caller's copy
of the flags, which it writes back. -/
def check_expiry (s : TimerInner) (flags : Flags) (bucket_expiry : Nat) (t : Nat) : TimerInner :=
  if bucket_expiry < s.next_expiry then
    let s := { s with next_expiry := bucket_expiry }
    if flags.DRIVER_STARTED then
      { s with
        flags := { flags with DRIVER_RECALC := true }
        driver := none
        inner.woken := s.inner.woken ++ s.driver.toList }
    else s.start_driver t
  else s

def distance (now elapsed_time : Nat) (millis : Nat) : Nat :=
  if now ≥ elapsed_time then to_units (wrap64 (as_millis (now - elapsed_time) + millis)) else to_units millis

/-- The bucket and the bucket expiry of a timeout of `millis`, at least `least`
ticks away. -/
def place (s : TimerInner) (millis least : Nat) (r : Readings) : (Nat × Nat) × TimerInner :=
  let (now, s) := s.now r.now r.lowres
  let (elapsed_time, s) := s.fetch_elapsed_time r.elapsed
  let delta := max (distance now elapsed_time millis) least
  (calc_wheel_index s.elapsed (wrap64 (s.elapsed + delta)) delta, s)

def set_running (s : TimerInner) : TimerInner := { s with flags.RUNNING := true }

def add_timer (s : TimerInner) (millis no k : Nat) (r : Readings) : TimerInner :=
  if millis = 0 then { s with inner.timers := s.inner.timers.insert no ⟨none, 0, none⟩ }
  else
    let s := s.set_running
    let flags := s.flags
    let ((idx, bucket_expiry), s) := s.place millis 0 r
    let s := { s with inner := s.inner.add_entry no idx k }
    s.check_expiry flags bucket_expiry r.sleep

def remove_timer (s : TimerInner) (hnd : Nat) : Option TimerInner := do
  let m ← s.inner.remove_timer_bucket hnd false
  some { s with inner := m.complete hnd }

def update_timer (s : TimerInner) (hnd millis k : Nat) (r : Readings) : Option TimerInner :=
  if millis = 0 then do
    let m ← s.inner.remove_timer_bucket hnd false
    let entry ← m.timers.get hnd
    some { s with inner := { m with timers := m.timers.insert hnd { entry with bucket := none } } }
  else do
    let ((idx, bucket_expiry), s) := s.place millis 1 r
    let m ← s.inner.update_entry hnd idx k
    let s := { s with inner := m }
    some (s.check_expiry s.flags bucket_expiry r.sleep)

def drop_timer (s : TimerInner) (hnd : Nat) : Option TimerInner := do
  let m ← s.inner.remove_timer_bucket hnd true
  some { s with inner := m }

/-- `TimerHandle::poll_elapsed`: whether the timer has elapsed; if not, its task
is registered. -/
def poll_elapsed (s : TimerInner) (hnd : Nat) (waker : Waker) : Option (Bool × TimerInner) := do
  let entry ← s.inner.timers.get hnd
  if entry.bucket.isNone then some (true, s)
  else
    let timers := s.inner.timers.insert hnd { entry with task := some waker }
    some (false, { s with inner.timers := timers })

/-! ## The drivers -/

def advance (s : TimerInner) (now : Nat) : TimerInner :=
  { s with
    elapsed := s.next_expiry
    elapsed_time := some now
    inner := s.inner.execute_expired_timers s.next_expiry }

def sleep_until (s : TimerInner) (next_expiry sleep : Nat) : TimerInner :=
  let s := { s with next_expiry := next_expiry }
  { s with inner.driver_sleep := Delay.new sleep (from_millis s.next_expiry_ms) }

/-- One round of the loop in `TimerDriver::poll` whose sleep is ready: `now` is
read first, the sleep is reset at `sleep`. The second component says whether
the loop goes on. -/
def fire (s : TimerInner) (now sleep : Nat) : TimerInner × Bool :=
  let s := s.advance now
  match s.next_pending_bucket with
  | some next_expiry => (s.sleep_until next_expiry sleep, true)
  | none => ({ s with next_expiry := U64_MAX, elapsed_time := none }, false)

def recalc (s : TimerInner) (now elapsed sleep : Nat) : TimerInner :=
  if s.flags.DRIVER_RECALC then
    let s := { s with flags.DRIVER_RECALC := false }
    let (elapsed_time, s) := s.fetch_elapsed_time elapsed
    let deadline :=
      if now ≥ elapsed_time then from_millis s.next_expiry_ms - (now - elapsed_time) else from_millis s.next_expiry_ms
    { s with inner.driver_sleep := Delay.new sleep deadline }
  else s

def poll_driver (s : TimerInner) (waker : Waker) (r : Readings) : TimerInner :=
  { s with driver := some waker }.recalc r.now r.elapsed r.sleep

/-- `LowresTimerDriver::poll`; `ready` is the answer of its sleep. -/
def poll_lowres (s : TimerInner) (waker : Waker) (t : Nat) (ready : Bool) : TimerInner :=
  let s := { s with lowres_driver := some waker }
  let s :=
    if s.flags.LOWRES_TIMER then s
    else
      { s with
        flags.LOWRES_TIMER := true
        inner.lowres_driver_sleep := Delay.new t LOWRES_RESOLUTION }
  if ready then { s with lowres_time := none, lowres_stime := none, flags.LOWRES_TIMER := false }
  else s

end TimerInner

end Geario.Wheel
