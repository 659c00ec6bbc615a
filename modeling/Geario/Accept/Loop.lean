import Geario.Lib.Run
/-!
# The accept loop

A thread accepts connections on a set of listeners and hands them to the server.
In every round it calls `accept` on all listeners that are registered, then
handles the commands that have been sent to it, and then waits for the poller,
which reports a listener once and forgets its interest in it until that is set
again.

What the poller and the server answer, and which connections come in, are the
inputs of a step. A function over a set of listeners takes a function with the
poller's answer for each of them. An error schedules a `Timer` command: it is a
task that is due some time after the error, and its command is processed at any
time after that. The clock counts milliseconds.
-/
open Lib List

namespace Geario.Acceptor

def ERR_TIMEOUT : Nat := 500

def ERR_SLEEP_TIMEOUT : Nat := 525

structure ServerSocketInfo where
  token : Nat
  registered : Bool
  timeout : Option Nat
  /-- the poller reports the listener when it becomes readable -/
  armed : Bool
  deriving DecidableEq

/-- What the listener is after a function, and when a `Timer` command is due that the function scheduled. -/
abbrev Update := ServerSocketInfo × List Nat

namespace ServerSocketInfo

def new (token : Nat) : ServerSocketInfo := { token, registered := false, timeout := none, armed := false }

/-- No `accept` and no registration for a while. -/
def sleep (info : ServerSocketInfo) (now : Nat) : Update :=
  ({ info with timeout := some (now + ERR_TIMEOUT) }, [now + ERR_SLEEP_TIMEOUT])

/-- `ok`: what the poller says to `add` or `modify`, after `WouldBlock`. -/
def add_source (info : ServerSocketInfo) (ok : Bool) (now : Nat) : Update :=
  if ok then ({ info with registered := true, armed := true }, []) else info.sleep now

def remove_source (info : ServerSocketInfo) (ok : Bool) : ServerSocketInfo :=
  if info.registered && ok then { info with armed := false } else info

end ServerSocketInfo

inductive Point
  | start
  | accepting (idx : Nat)
  | commands
  | waiting
  | stopped
  deriving DecidableEq

inductive ServerStatus
  | Ready | NotReady
  deriving DecidableEq

structure Accept where
  sockets : List ServerSocketInfo
  backpressure : Bool
  /-- tokens of connections that the server did not take -/
  backlog : List Nat
  status : Option ServerStatus
  point : Point
  now : Nat
  /-- `Timer` commands to come, and when they are due -/
  timers : List Nat
  /-- the last of the commands `Pause` and `Resume` that was processed is `Pause` -/
  paused : Bool
  /-- `accept` has been called while that was so -/
  called_paused : Bool
  deriving DecidableEq

inductive Accepted
  | conn (processed : Bool)
  /-- `Ok(None)` or `WouldBlock` -/
  | none
  | connection_error
  | error
  deriving DecidableEq

inductive AcceptorCommand
  | Stop
  /-- or the channel is closed -/
  | Terminate
  | Pause
  | Resume (served : Nat)
  /-- the command was due at the given time -/
  | Timer (due : Nat)
  deriving DecidableEq

namespace Accept

def new (tokens : List Nat) : Accept :=
  { sockets := tokens.map .new, backpressure := true, backlog := [], status := none, point := .start, now := 0,
    timers := [], paused := false, called_paused := false }

def for_each (s : Accept) (f : Nat → ServerSocketInfo → Update) : Accept :=
  { s with
    sockets := s.sockets.mapIdx fun key info => (f key info).1
    timers := s.timers ++ (s.sockets.mapIdx fun key info => (f key info).2).flatten }

def update (s : Accept) (idx : Nat) (f : ServerSocketInfo → Update) : Accept :=
  s.for_each fun key info => if key = idx then f info else (info, [])

def resume_source (ok : Nat → Bool) (now : Nat) (key : Nat) (info : ServerSocketInfo) : Update :=
  -- a socket with a timeout registers itself again after the timeout
  if info.timeout = none then info.add_source (ok key) now else (info, [])

def pause_source (ok : Nat → Bool) (key : Nat) (info : ServerSocketInfo) : Update :=
  if info.timeout = none then (info.remove_source (ok key), []) else ({ info with timeout := none }, [])

def backpressure_on (s : Accept) (ok : Nat → Bool) : Accept :=
  let s := { s with status := some .NotReady }
  if s.backpressure then s else { s with backpressure := true }.for_each (pause_source ok)

def pause (s : Accept) (ok : Nat → Bool) : Accept := if s.backpressure then s else s.backpressure_on ok

def backpressure_off (s : Accept) (ok : Nat → Bool) (served : Nat) : Accept :=
  let s := { s with status := some .Ready }
  if served < s.backlog.length then { s with backlog := s.backlog.drop served }
  else { s with backpressure := false, backlog := [] }.for_each (resume_source ok s.now)

def timer_source (s : Accept) (ok : Nat → Bool) (key : Nat) (info : ServerSocketInfo) : Update :=
  match info.timeout with
  | some inst =>
    if inst < s.now ∧ s.backpressure = false then { info with timeout := none }.add_source (ok key) s.now else (info, [])
  | none => (info, [])

def process_timer (s : Accept) (ok : Nat → Bool) : Accept := s.for_each (s.timer_source ok)

def accept (s : Accept) (idx : Nat) (res : Accepted) (ok : Nat → Bool) : Accept :=
  let s := { s with called_paused := s.called_paused || s.paused }
  match res with
  | .conn true | .connection_error => s
  | .conn false =>
    { s with backlog := s.backlog ++ (s.sockets[idx]?.map ServerSocketInfo.token).toList, point := .accepting (idx + 1) }.backpressure_on ok
  | .none => { s with point := .accepting (idx + 1) }.update idx fun info => info.add_source (ok idx) s.now
  | .error => { s with point := .accepting (idx + 1) }.update idx fun info => info.sleep s.now

def stop (s : Accept) : Accept := { s with sockets := [], point := .stopped }

def process_cmd (s : Accept) (cmd : AcceptorCommand) (ok : Nat → Bool) : Option Accept :=
  match cmd with
  | .Stop => some (s.pause ok).stop
  | .Terminate => some (s.backpressure_on ok).stop
  | .Pause => some { s.pause ok with paused := true }
  | .Resume served => some { (if s.backpressure then s.backpressure_off ok served else s) with paused := false }
  | .Timer due =>
    if due ∈ s.timers ∧ due ≤ s.now then some ({ s with timers := s.timers.erase due }.process_timer ok) else none

end Accept

inductive Step
  | start (ok : Nat → Bool)
  | skip
  | accept (res : Accepted) (ok : Nat → Bool)
  | accepted
  | cmd (cmd : AcceptorCommand) (ok : Nat → Bool)
  | wait
  /-- the poller reports some of the listeners, or was notified -/
  | wake (events : Nat → Bool)
  | tick (ms : Nat)

open Accept in
def step (s : Accept) : Step → Option Accept
  | .start ok =>
    match s.point with
    | .start => some ({ s with point := .accepting 0 }.for_each fun key info => info.add_source (ok key) s.now)
    | _ => none
  | .skip =>
    match s.point with
    | .accepting idx =>
      match s.sockets[idx]? with
      | some info => if info.registered then none else some { s with point := .accepting (idx + 1) }
      | none => none
    | _ => none
  | .accept res ok =>
    match s.point with
    | .accepting idx =>
      match s.sockets[idx]? with
      | some info => if info.registered then some (s.accept idx res ok) else none
      | none => none
    | _ => none
  | .accepted =>
    match s.point with
    | .accepting idx => if s.sockets.length ≤ idx then some { s with point := .commands } else none
    | _ => none
  | .cmd cmd ok =>
    match s.point with
    | .commands => s.process_cmd cmd ok
    | _ => none
  | .wait =>
    match s.point with
    | .commands => some { s with point := .waiting }
    | _ => none
  | .wake events =>
    match s.point with
    | .waiting =>
      -- an event is reported once
      some ({ s with point := .accepting 0 }.for_each fun key info =>
        (if events key then { info with armed := false } else info, []))
    | _ => none
  | .tick ms => some { s with now := s.now + ms }

/-! ## Listeners one by one -/

namespace Accept

variable {s s' : Accept} {f : Nat → ServerSocketInfo → Update} {P Q : Nat → ServerSocketInfo → Prop}

/-- `P` holds of every socket under its key. -/
def Each (s : Accept) (P : Nat → ServerSocketInfo → Prop) : Prop :=
  ∀ (key : Nat) (info : ServerSocketInfo), s.sockets[key]? = some info → P key info

instance [∀ key info, Decidable (P key info)] : Decidable (s.Each P) :=
  decidable_of_iff (∀ key : Fin s.sockets.length, P key s.sockets[key])
    ⟨fun h key info hk => by
      obtain ⟨hlt, rfl⟩ := List.getElem?_eq_some_iff.1 hk
      exact h ⟨key, hlt⟩,
    fun h key => h key _ (List.getElem?_eq_getElem key.2)⟩

lemma Each.mono (h : s.Each P) (hpq : ∀ key info, P key info → Q key info) : s.Each Q :=
  fun key info hk => hpq key info (h key info hk)

lemma Each.mem {P : ServerSocketInfo → Prop} (h : s.Each fun _ info => P info) : ∀ info ∈ s.sockets, P info := by
  intro info hmem
  obtain ⟨key, hlt, hk⟩ := mem_iff_getElem.1 hmem
  exact h key info (hk ▸ getElem?_eq_getElem hlt)

lemma Each.new (tokens : List Nat) (h : ∀ key token, P key (.new token)) : (new tokens).Each P := by
  intro key info hk
  rw [Accept.new, getElem?_map, Option.map_eq_some_iff] at hk
  obtain ⟨token, -, rfl⟩ := hk
  exact h key token

lemma Each.for_each (h : s.Each P) (hf : ∀ key info, P key info → Q key (f key info).1) : (s.for_each f).Each Q := by
  intro key info hk
  rw [Accept.for_each, getElem?_mapIdx, Option.map_eq_some_iff] at hk
  obtain ⟨old, hold, rfl⟩ := hk
  exact hf key old (h key old hold)

lemma mem_timers_for_each {due : Nat} :
    due ∈ (s.for_each f).timers ↔ due ∈ s.timers ∨ ∃ key info, s.sockets[key]? = some info ∧ due ∈ (f key info).2 := by
  constructor
  · intro h
    rcases mem_append.1 h with h | h
    · exact .inl h
    · obtain ⟨l, hl, hd⟩ := mem_flatten.1 h
      obtain ⟨key, hk, rfl⟩ := mem_mapIdx.1 hl
      exact .inr ⟨key, _, getElem?_eq_getElem hk, hd⟩
  · rintro (h | ⟨key, info, hk, hd⟩)
    · exact mem_append_left _ h
    · obtain ⟨hlt, rfl⟩ := List.getElem?_eq_some_iff.1 hk
      exact mem_append_right _ (mem_flatten.2 ⟨_, mem_mapIdx.2 ⟨key, hlt, rfl⟩, hd⟩)

end Accept

end Geario.Acceptor
