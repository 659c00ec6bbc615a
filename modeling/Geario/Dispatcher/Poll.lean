import Geario.Io.State
import Geario.Lib.Run
/-!
# The dispatcher

A `Dispatcher` is a future that decodes frames and passes them to a service. One
poll runs rounds of a loop over `DispatcherState` until a round returns. What
the service and the connection answer during a round is the round's input, a
`Turn`; `none` is pending. Calls to the service, errors that are recorded and
changes of the state are written to a log.

The first call that does not answer at once is kept in `response` and polled by
the dispatcher; further calls are awaited by tasks of their own and are only
counted. A response comes with what `io.encode` said about it.
-/
open Lib

namespace Geario.Dispatcher

open Io (IoError)

structure Codec where
  Item : Type
  EncoderError : Type
  DecoderError : Type

inductive Control
  | WBackPressureEnabled | WBackPressureDisabled
  deriving DecidableEq

inductive Reason (U : Codec)
  | Io (err : Option IoError)
  | Encoder (err : U.EncoderError)
  | Decoder (err : U.DecoderError)
  | KeepAliveTimeout
  | ReadTimeout

inductive DispatchItem (U : Codec)
  | Item (item : U.Item)
  | Control (ctl : Control)
  | Stop (reason : Reason U)

inductive DispatcherState
  | Processing | Backpressure | Stop | Shutdown
  deriving DecidableEq

inductive DispatcherError (U : Codec) (Err : Type)
  | Encoder (err : U.EncoderError)
  | Service (err : Err)

inductive PollService (U : Codec)
  | Item (item : DispatchItem U)
  | ItemWait (item : DispatchItem U)
  | Continue
  | Ready

inductive IoStatusUpdate
  | KeepAlive
  | WriteBackpressure
  | PeerGone (err : Option IoError)

inductive RecvError (U : Codec)
  | KeepAlive
  | WriteBackpressure
  | Decoder (err : U.DecoderError)
  | PeerGone (err : Option IoError)

structure Decoded (U : Codec) where
  item : Option U.Item
  remains : Nat

structure Flags where
  ready_err : Bool := false
  io_err : Bool := false
  ka_enabled : Bool := false
  ka_timeout : Bool := false
  read_timeout : Bool := false
  idle : Bool := false
  deriving DecidableEq

/-- In seconds, and bytes for each `timeout`. -/
structure FrameReadRate where
  timeout : Nat
  max_timeout : Nat
  rate : Nat
  deriving DecidableEq

/-- The part of the connection's configuration that is looked at here. -/
structure Config where
  keepalive_timeout : Nat
  frame_read_rate : Option FrameReadRate
  deriving DecidableEq

/-- The result of a call: an error, or possibly a response, with the encoder's error if it had one. -/
abbrev Answer (U : Codec) (Err : Type) := Except Err (Option (Option U.EncoderError))

inductive Event (U : Codec)
  | call (item : DispatchItem U) (nowait : Bool)
  | error
  | state (st : DispatcherState)

structure DispatcherInner (U : Codec) (Err : Type) where
  cfg : Config
  st : DispatcherState
  error : Option Err
  flags : Flags
  shared_error : Option (DispatcherError U Err)
  inflight : Nat
  response : Bool
  spawned : Nat
  read_remains : Nat
  read_remains_prev : Nat
  read_max_timeout : Nat
  /-- the connection's timer, as the dispatcher has set it -/
  timer : Option Nat
  polling : Bool
  output : Option (Except Err Unit)
  log : List (Event U)

structure Turn (U : Codec) (Err : Type) where
  ready : Option (Except Err Unit)
  status : Option IoStatusUpdate
  recv : Except (RecvError U) (Decoded U)
  flush : Option (Except IoError Unit)
  io_shutdown : Bool
  service_shutdown : Bool
  /-- the service's answer to an item of `poll_service`, and to the other item of the round -/
  answer_first : Option (Answer U Err)
  answer : Option (Answer U Err)

variable {U : Codec} {Err : Type}

namespace DispatcherInner

def new (cfg : Config) : DispatcherInner U Err :=
  { cfg, st := .Processing, error := none, flags := { ka_enabled := cfg.keepalive_timeout ≠ 0 }, shared_error := none,
    inflight := 0, response := false, spawned := 0, read_remains := 0, read_remains_prev := 0, read_max_timeout := 0,
    timer := none, polling := false, output := none, log := [] }

def record (s : DispatcherInner U Err) (e : Event U) : DispatcherInner U Err := { s with log := s.log ++ [e] }

def set_st (s : DispatcherInner U Err) (st : DispatcherState) : DispatcherInner U Err :=
  { s with st }.record (.state st)

def pending (s : DispatcherInner U Err) : DispatcherInner U Err := { s with polling := false }

def start_timer (s : DispatcherInner U Err) (timeout : Nat) : DispatcherInner U Err :=
  { s with timer := if timeout = 0 then none else some timeout }

/-! ## Calls -/

def handle_result (s : DispatcherInner U Err) (item : Answer U Err) : DispatcherInner U Err :=
  let s := match item with
    | .ok (some (some err)) => { s with shared_error := some (.Encoder err) }
    | .ok _ => s
    | .error err => { s with shared_error := some (.Service err) }.record .error
  { s with
    inflight := s.inflight - 1
    flags := if s.inflight - 1 = 0 then { s.flags with idle := true } else s.flags }

def begin_call (s : DispatcherInner U Err) (item : DispatchItem U) (nowait : Bool) : DispatcherInner U Err :=
  { s with
    inflight := s.inflight + 1
    flags := if s.inflight = 0 then { s.flags with idle := false } else s.flags }.record (.call item nowait)

def call_service (s : DispatcherInner U Err) (item : DispatchItem U) (nowait : Bool) (answer : Option (Answer U Err)) :
    DispatcherInner U Err :=
  let s := s.begin_call item nowait
  if s.response then { s with spawned := s.spawned + 1 }
  else
    match answer with
    | some result => s.handle_result result
    | none => { s with response := true }

/-! ## Readiness -/

def check_error (s : DispatcherInner U Err) : PollService U × DispatcherInner U Err :=
  match s.shared_error with
  | some (.Encoder err) => (.Item (.Stop (.Encoder err)), { s with shared_error := none }.set_st .Stop)
  | some (.Service err) =>
    (.Continue, ({ s with shared_error := none, error := some err }.set_st .Stop).record .error)
  | none => (.Ready, s)

def remove_timers (s : DispatcherInner U Err) : DispatcherInner U Err :=
  { s with flags := { s.flags with ka_timeout := false, read_timeout := false, idle := false }, timer := none }

/-- `none` is pending. -/
def poll_service (s : DispatcherInner U Err) (t : Turn U Err) : Option (PollService U) × DispatcherInner U Err :=
  match t.ready with
  | some (.ok ()) => (some s.check_error.1, s.check_error.2)
  | none =>
    let s := s.remove_timers
    match t.status with
    | none => (none, s)
    | some .KeepAlive =>
      if s.flags.ka_enabled then (some (.ItemWait (.Stop .KeepAliveTimeout)), s.set_st .Stop)
      else (some .Continue, s)
    | some (.PeerGone err) => (some (.ItemWait (.Stop (.Io err))), s.set_st .Stop)
    | some .WriteBackpressure => (some (.ItemWait (.Control .WBackPressureEnabled)), s.set_st .Backpressure)
  | some (.error err) =>
    (some .Continue, ({ s with error := some err, flags.ready_err := true }.set_st .Stop).record .error)

/-! ## Timers -/

def update_timer (s : DispatcherInner U Err) (decoded : Decoded U) : DispatcherInner U Err :=
  if decoded.item.isSome then
    { s with
      read_remains := 0, flags := { s.flags with ka_timeout := false, read_timeout := false, idle := false } }
  else if s.flags.read_timeout then { s with read_remains := decoded.remains % 2 ^ 32 }
  else if s.read_remains = 0 ∧ decoded.remains = 0 then
    if s.flags.ka_enabled ∧ s.flags.ka_timeout = false then
      { s with flags.ka_timeout := true }.start_timer s.cfg.keepalive_timeout
    else s
  else
    match s.cfg.frame_read_rate with
    | some params =>
      { s with
        flags.read_timeout := true
        read_remains := decoded.remains % 2 ^ 32
        read_remains_prev := 0
        read_max_timeout := params.max_timeout }.start_timer params.timeout
    | none => s

/-- The next period of the frame read rate, unless the time for the frame is over. -/
def extend_timer (s : DispatcherInner U Err) (params : FrameReadRate) : Bool × DispatcherInner U Err :=
  let s := { s with
    read_remains_prev := s.read_remains
    read_remains := 0
    read_max_timeout := if params.max_timeout = 0 then s.read_max_timeout else s.read_max_timeout - params.timeout }
  if params.max_timeout = 0 ∨ s.read_max_timeout ≠ 0 then (true, s.start_timer params.timeout) else (false, s)

/-- `none` is `Ok(())`. -/
def handle_timeout (s : DispatcherInner U Err) : Option (Reason U) × DispatcherInner U Err :=
  if s.flags.read_timeout then
    match s.cfg.frame_read_rate with
    | some params =>
      -- the difference is one of `u32`
      if params.rate < (s.read_remains + 2 ^ 32 - s.read_remains_prev) % 2 ^ 32 then
        match s.extend_timer params with
        | (true, s) => (none, s)
        | (false, s) => (some .ReadTimeout, s)
      else (some .ReadTimeout, s)
    | none => (none, s)
  else if s.flags.ka_timeout || s.flags.idle then (some .KeepAliveTimeout, s)
  else (none, s)

/-! ## The rounds of a poll -/

def receive (s : DispatcherInner U Err) (t : Turn U Err) : DispatcherInner U Err :=
  match t.recv with
  | .ok decoded =>
    match decoded.item with
    | some el => (s.update_timer decoded).call_service (.Item el) true t.answer
    | none => (s.update_timer decoded).pending
  | .error .KeepAlive =>
    match s.handle_timeout with
    | (some ctl, s) => (s.set_st .Stop).call_service (.Stop ctl) true t.answer
    | (none, s) => s
  | .error .WriteBackpressure =>
    (s.set_st .Backpressure).call_service (.Control .WBackPressureEnabled) true t.answer
  | .error (.Decoder err) => (s.set_st .Stop).call_service (.Stop (.Decoder err)) true t.answer
  | .error (.PeerGone err) => (s.set_st .Stop).call_service (.Stop (.Io err)) true t.answer

def processing (s : DispatcherInner U Err) (t : Turn U Err) : DispatcherInner U Err :=
  match s.poll_service t with
  | (none, s) => s.pending
  | (some .Ready, s) => s.receive t
  | (some (.Item item), s) => s.call_service item true t.answer_first
  | (some (.ItemWait item), s) => s.call_service item false t.answer_first
  | (some .Continue, s) => s

def flush (s : DispatcherInner U Err) (t : Turn U Err) : DispatcherInner U Err :=
  match t.flush with
  | none => s.pending
  | some (.error err) => (s.set_st .Stop).call_service (.Stop (.Io (some err))) false t.answer
  | some (.ok ()) => (s.set_st .Processing).call_service (.Control .WBackPressureDisabled) false t.answer

def backpressure (s : DispatcherInner U Err) (t : Turn U Err) : DispatcherInner U Err :=
  match s.poll_service t with
  | (none, s) => s.pending
  | (some .Ready, s) | (some (.ItemWait (.Control .WBackPressureEnabled)), s) => s.flush t
  | (some (.Item item), s) => (s.call_service item true t.answer_first).flush t
  | (some (.ItemWait item), s) => (s.call_service item false t.answer_first).flush t
  | (some .Continue, s) => s

def keep_ready (s : DispatcherInner U Err) (ready : Option (Except Err Unit)) : DispatcherInner U Err :=
  match ready with
  | some (.error _) => { s with flags.ready_err := true }
  | some (.ok ()) | none => s

def stop (s : DispatcherInner U Err) (t : Turn U Err) : DispatcherInner U Err :=
  let s := { s with timer := none }.keep_ready t.ready
  if s.inflight = 0 then if t.io_shutdown then s.set_st .Shutdown else s.pending
  else if s.flags.io_err then s.pending
  else
    match t.status, t.flush with
    | none, _ | some .WriteBackpressure, none => s.pending
    | some .WriteBackpressure, some (.ok ()) => s
    | some .WriteBackpressure, some (.error _) | some (.PeerGone _), _ | some .KeepAlive, _ =>
      { s with flags.io_err := true }

def shutdown (s : DispatcherInner U Err) (t : Turn U Err) : DispatcherInner U Err :=
  if t.service_shutdown then
    { s with error := none, output := some (match s.error with | some err => .error err | none => .ok ()) }.pending
  else s.pending

def turn (s : DispatcherInner U Err) (t : Turn U Err) : DispatcherInner U Err :=
  match s.st with
  | .Processing => s.processing t
  | .Backpressure => s.backpressure t
  | .Stop => s.stop t
  | .Shutdown => s.shutdown t

def start (s : DispatcherInner U Err) (answer : Option (Answer U Err)) : DispatcherInner U Err :=
  match s.response, answer with
  | true, some item => { s.handle_result item with response := false, polling := true }
  | _, _ => { s with polling := true }

end DispatcherInner

inductive Step (U : Codec) (Err : Type)
  /-- a poll begins; what is said to the dispatcher's own call, if there is one -/
  | poll (answer : Option (Answer U Err))
  | turn (t : Turn U Err)
  | reply (answer : Answer U Err)

def step (s : DispatcherInner U Err) : Step U Err → Option (DispatcherInner U Err)
  | .poll answer => if s.polling || s.output.isSome then none else some (s.start answer)
  | .turn t => if s.polling then some (s.turn t) else none
  | .reply answer =>
    if s.polling || s.spawned = 0 then none else some ({ s with spawned := s.spawned - 1 }.handle_result answer)

end Geario.Dispatcher
