import Geario.Dispatcher.Stop
import Geario.Io.Timers
/-!
# Idle stops

The connection has one timer, and the dispatcher uses it for the keep-alive
timeout and for the frame read rate. When it fires, `DSP_TIMEOUT` is set on the
connection. `poll_recv_decode` takes the flag when it finds no frame, and
`poll_read_pause` when the service is not ready; what has timed out is then
decided by the flags of the dispatcher.

A `Timeouts` is a dispatcher together with the timers of its thread, and with the
history of its connection: the times at which frames were decoded, and the bytes
that came. The timer that is left running when a frame is complete, and the flag
that is still set when the next frame is decoded, are taken for a keep-alive
timeout as soon as the service has answered (`IDLE`). And the bytes that came
after the last look at the buffer are not counted when the flag is taken first.
-/
open Lib List Option Bool

namespace Geario.Dispatcher

open Nat DispatcherInner

open Io (IoError IoManager Timed Start)

variable {U : Codec} {Err : Type} {d : Decoded U}

/-- What the others answer in one round, the flag `DSP_TIMEOUT` apart. -/
structure Round (U : Codec) (Err : Type) where
  ready : Option (Except Err Unit)
  decode : Except U.DecoderError (Decoded U) := .ok ⟨none, 0⟩
  /-- the connection is stopping, or closed where that is asked, with its error -/
  gone : Option (Option IoError) := none
  wr_backpressure : Bool := false
  ended : Option (Option IoError) := none
  flush : Option (Except IoError Unit) := none
  io_shutdown : Bool := false
  service_shutdown : Bool := false
  answer_first : Option (Answer U Err) := none
  answer : Option (Answer U Err) := none
  clock : Nat := 0

namespace Round

def recv (r : Round U Err) (dsp_timeout : Bool) : Except (RecvError U) (Decoded U) :=
  match r.decode with
  | .error err => .error (.Decoder err)
  | .ok decoded =>
    if decoded.item.isSome then .ok decoded
    else
      match r.gone with
      | some err => .error (.PeerGone err)
      | none =>
        if dsp_timeout then .error .KeepAlive
        else if r.wr_backpressure then .error .WriteBackpressure
        else
          match r.ended with
          | some err => .error (.PeerGone err)
          | none => .ok decoded

def status (r : Round U Err) (dsp_timeout : Bool) : Option IoStatusUpdate :=
  match r.gone with
  | some err => some (.PeerGone err)
  | none => if dsp_timeout then some .KeepAlive else if r.wr_backpressure then some .WriteBackpressure else none

def turn (r : Round U Err) (dsp_timeout : Bool) : Turn U Err :=
  { ready := r.ready, status := r.status dsp_timeout, recv := r.recv dsp_timeout, flush := r.flush, io_shutdown := r.io_shutdown
    service_shutdown := r.service_shutdown, answer_first := r.answer_first, answer := r.answer }

variable {dsp_timeout : Bool} {r : Round U Err}

lemma recv_ok (h : r.recv dsp_timeout = .ok d) : r.decode = .ok d ∧ (d.item = none → dsp_timeout = false) := by
  unfold recv at h
  split at h
  case h_1 => cases h
  case h_2 decoded hd =>
    split at h
    case isTrue hitem =>
      cases h
      refine ⟨hd, fun hnone => ?_⟩
      rw [hnone] at hitem
      cases hitem
    case isFalse =>
      split at h
      case h_1 => cases h
      case h_2 =>
        split at h
        case isTrue => cases h
        case isFalse hdsp =>
          split at h
          case isTrue => cases h
          case isFalse =>
            split at h
            case h_1 => cases h
            case h_2 =>
              cases h
              exact ⟨hd, fun _ => eq_false_iff.2 hdsp⟩

lemma recv_error (h : ∀ d, r.recv dsp_timeout ≠ .ok d) (hd : r.decode = .ok d) : d.item = none := by
  cases hitem : d.item with
  | none => rfl
  | some el =>
    refine absurd ?_ (h d)
    unfold recv
    rw [hd]
    dsimp only
    rw [hitem]
    rfl

lemma recv_keepalive (h : r.recv dsp_timeout = .error .KeepAlive) : dsp_timeout ∧ ∃ d, r.decode = .ok d := by
  unfold recv at h
  split at h
  case h_1 => cases h
  case h_2 decoded hd =>
    refine ⟨?_, decoded, hd⟩
    split at h
    case isTrue => cases h
    case isFalse =>
      split at h
      case h_1 => cases h
      case h_2 =>
        split at h
        case isTrue hdsp => exact hdsp
        case isFalse =>
          split at h
          case isTrue => cases h
          case isFalse =>
            split at h
            case h_1 | h_2 => cases h

lemma status_keepalive (h : r.status dsp_timeout = some .KeepAlive) : dsp_timeout := by
  unfold status at h
  split at h
  case h_1 => cases h
  case h_2 =>
    split at h
    case isTrue hdsp => exact hdsp
    case isFalse =>
      split at h <;> cases h

end Round

structure Timeouts (U : Codec) (Err : Type) where
  disp : DispatcherInner U Err
  io : IoManager
  c : Nat
  buf : Nat
  frames : List Nat
  reads : List (Nat × Nat)
  set : Option (Nat × Nat)
  since : Nat

namespace Timeouts

inductive Step (U : Codec) (Err : Type)
  | poll (answer : Option (Answer U Err))
  | round (r : Round U Err)
  | reply (answer : Answer U Err)
  | read (n : Nat)
  | io (i : IoManager.Step)

def new (cfg : Config) (io : IoManager) (c : Nat) : Timeouts U Err :=
  { disp := .new cfg, io, c, buf := 0, frames := [], reads := [], set := none, since := 0 }

def dsp_timeout (s : Timeouts U Err) : Bool :=
  match s.io.ios[s.c]? with
  | some x => x.dsp_timeout
  | none => false

def received_after (s : Timeouts U Err) (t : Nat) : Nat := (s.reads.map fun r => if t < r.1 then r.2 else 0).sum

def decodes (s : Timeouts U Err) (r : Round U Err) : Bool :=
  match s.disp.st, r.ready, s.disp.shared_error with
  | .Processing, some (.ok ()), none => true
  | _, _, _ => false

def polls_status (s : Timeouts U Err) (r : Round U Err) : Bool :=
  match s.disp.st with
  | .Processing | .Backpressure => r.ready.isNone
  | .Stop => s.disp.inflight ≠ 0 && !s.disp.flags.io_err
  | .Shutdown => false

def recv_times_out (s : Timeouts U Err) (r : Round U Err) : Bool :=
  s.decodes r &&
    match r.recv s.dsp_timeout with
    | .error .KeepAlive => true
    | _ => false

def status_times_out (s : Timeouts U Err) (r : Round U Err) : Bool :=
  s.polls_status r &&
    match r.status s.dsp_timeout with
    | some .KeepAlive => true
    | _ => false

def decoded (s : Timeouts U Err) (r : Round U Err) : Option (Decoded U) :=
  if s.decodes r then r.decode.toOption else none

def take (s : Timeouts U Err) (r : Round U Err) : Option IoManager :=
  if s.recv_times_out r || s.status_times_out r then s.io.step (.check_dispatcher_timeout s.c) else some s.io

def set_timer (io : IoManager) (c clock : Nat) : Option Nat → Option IoManager
  | some 0 => some io
  | some timeout => io.step (.start_timer c timeout clock)
  | none => io.step (.stop_timer c)

def timer_set (set : Option (Nat × Nat)) (now : Nat) : Option Nat → Option (Nat × Nat)
  | some 0 => set
  | some timeout => some (timeout, now)
  | none => none

def untimed (s : Timeouts U Err) : DispatcherInner U Err := { s.disp with timer := some 0 }

def turned (s : Timeouts U Err) (r : Round U Err) : DispatcherInner U Err := s.untimed.turn (r.turn s.dsp_timeout)

def after (s : Timeouts U Err) (r : Round U Err) (io : IoManager) : Timeouts U Err :=
  let disp := s.turned r
  { s with
    disp, io
    buf := match s.decoded r with | some d => d.remains | none => s.buf
    frames := match s.decoded r with | some ⟨some _, _⟩ => s.io.now :: s.frames | _ => s.frames
    set := timer_set s.set s.io.now disp.timer
    since := if disp.flags.read_timeout && !s.disp.flags.read_timeout then s.io.now else s.since }

def step (s : Timeouts U Err) : Step U Err → Option (Timeouts U Err)
  | .poll answer => (Dispatcher.step s.disp (.poll answer)).map fun disp => { s with disp }
  | .round r =>
    -- the decoder only takes bytes away
    if s.disp.polling ∧ (s.decoded r).all (·.remains ≤ s.buf) then
      (s.take r).bind fun io => (set_timer io s.c r.clock (s.turned r).timer).map (s.after r)
    else none
  | .reply answer => (Dispatcher.step s.disp (.reply answer)).map fun disp => { s with disp }
  | .read n => some { s with buf := s.buf + n, reads := (s.io.now, n) :: s.reads }
  | .io i =>
    if i.touches s.c = false ∧ i ≠ .check_dispatcher_timeout s.c then (s.io.step i).map fun io => { s with io } else none

/-- The decoder leaves the bytes of an incomplete frame, the buffer stays below 2^32 bytes, and a timeout is one of what
the dispatcher waits for: `IDLE` is not all that is set when `poll_recv_decode` reports it, and the bytes that are there have
been counted; and it is the keep-alive timeout when `poll_read_pause` reports it. The ticks and the clock are timely. -/
def Timely (s : Timeouts U Err) : Step U Err → Prop
  | .round r =>
    (s.decoded r).all (fun d => d.item.isSome || d.remains == s.buf) = true ∧
    (s.recv_times_out r = true →
      (s.disp.flags.read_timeout = true ∨ s.disp.flags.ka_timeout = true ∨ s.disp.flags.idle = false) ∧
      (s.disp.flags.read_timeout = true → s.disp.read_remains = s.buf)) ∧
    (s.disp.st.is_open = true → s.status_times_out r = true → s.disp.flags.ka_enabled = true →
      s.disp.flags.ka_timeout = true ∧ s.disp.flags.read_timeout = false) ∧
    ((s.turned r).timer.getD 0 ≠ 0 → s.io.Timely (.start_timer s.c ((s.turned r).timer.getD 0) r.clock))
  | .read n => s.buf + n < 2 ^ 32
  | .io i => s.io.Timely i
  | .poll _ | .reply _ => True

instance (s : Timeouts U Err) (i : Step U Err) : Decidable (s.Timely i) := by
  unfold Timely
  split <;> infer_instance

end Timeouts

/-! ## What is called -/

def Reason.is_keepalive : Reason U → Bool
  | .KeepAliveTimeout => true
  | _ => false

def Reason.is_read : Reason U → Bool
  | .ReadTimeout => true
  | _ => false

def Reason.is_idle (reason : Reason U) : Bool := reason.is_keepalive || reason.is_read

def DispatchItem.stops (p : Reason U → Bool) : DispatchItem U → Bool
  | .Stop reason => p reason
  | _ => false

def Event.stops (p : Reason U → Bool) : Event U → Bool
  | .call item _ => item.stops p
  | .error | .state _ => false

def calls (p : Reason U → Bool) (log log' : List (Event U)) : Bool := (log'.drop log.length).any (Event.stops p)

lemma is_idle_of_keepalive (reason : Reason U) (h : reason.is_keepalive) : reason.is_idle := by
  unfold Reason.is_idle
  rw [h, Bool.true_or]

lemma is_idle_of_read (reason : Reason U) (h : reason.is_read) : reason.is_idle := by
  unfold Reason.is_idle
  rw [h, Bool.or_true]

def Quiet (log log' : List (Event U)) : Prop := ∃ l, log' = log ++ l ∧ ∀ e ∈ l, e.stops Reason.is_idle = false

namespace Quiet

variable {log log' log₁ : List (Event U)} {e : Event U} {p : Reason U → Bool}

lemma refl (log : List (Event U)) : Quiet log log := ⟨[], (append_nil _).symm, nofun⟩

lemma trans (h : Quiet log log₁) (h' : Quiet log₁ log') : Quiet log log' := by
  obtain ⟨l, rfl, hl⟩ := h
  obtain ⟨l', rfl, hl'⟩ := h'
  exact ⟨l ++ l', append_assoc .., fun e he => (mem_append.1 he).elim (hl e) (hl' e)⟩

lemma record (log : List (Event U)) (h : e.stops Reason.is_idle = false) : Quiet log (log ++ [e]) :=
  ⟨[e], rfl, fun _ hm => mem_singleton.1 hm ▸ h⟩

lemma not_calls (h : Quiet log log') (hp : ∀ reason, p reason → reason.is_idle) : calls p log log' = false := by
  obtain ⟨l, rfl, hl⟩ := h
  unfold calls
  rw [drop_left]
  refine any_eq_false.2 fun e he hstop => ?_
  have hno := hl e he
  cases e with
  | error | state => cases hstop
  | call item nowait =>
    cases item with
    | Item | Control => cases hstop
    | Stop reason => cases (hp reason hstop).symm.trans hno

end Quiet

def Says (log log' : List (Event U)) (reason : Reason U) : Prop :=
  ∃ log₁ nowait, Quiet log log₁ ∧ Quiet (log₁ ++ [.call (.Stop reason) nowait]) log'

lemma Says.of_calls {log log' : List (Event U)} {reason : Reason U} {p : Reason U → Bool} (h : Says log log' reason)
    (hp : ∀ reason, p reason → reason.is_idle) (hc : calls p log log') : p reason := by
  obtain ⟨-, nowait, ⟨l, rfl, hl⟩, l', rfl, hl'⟩ := h
  have hbefore : l.any (Event.stops p) = false := by
    have hq : calls p log (log ++ l) = false := Quiet.not_calls ⟨l, rfl, hl⟩ hp
    rwa [calls, List.drop_left] at hq
  have hafter : l'.any (Event.stops p) = false := by
    have hq : calls p [] ([] ++ l') = false := Quiet.not_calls ⟨l', rfl, hl'⟩ hp
    exact hq
  unfold calls at hc
  rw [List.append_assoc, List.append_assoc, List.drop_left, List.any_append, List.any_append, hbefore, hafter, Bool.or_false,
    Bool.false_or] at hc
  exact (Bool.or_false _).symm.trans hc

/-! ## What a round does to the timers -/

structure Timing where
  cfg : Config
  ka_enabled : Bool
  ka_timeout : Bool
  read_timeout : Bool
  read_remains : Nat
  read_remains_prev : Nat
  read_max_timeout : Nat
  timer : Option Nat

def Timing.removed (v : Timing) : Timing := { v with ka_timeout := false, read_timeout := false, timer := none }

def Timing.total (v : Timing) : Nat := (v.read_remains + 2 ^ 32 - v.read_remains_prev) % 2 ^ 32

def Timing.start_timer (v : Timing) (timeout : Nat) : Timing := { v with timer := if timeout = 0 then none else some timeout }

namespace DispatcherInner

def timing (d : DispatcherInner U Err) : Timing :=
  { cfg := d.cfg, ka_enabled := d.flags.ka_enabled, ka_timeout := d.flags.ka_timeout, read_timeout := d.flags.read_timeout
    read_remains := d.read_remains, read_remains_prev := d.read_remains_prev, read_max_timeout := d.read_max_timeout
    timer := d.timer }

structure Calm (d d' : DispatcherInner U Err) : Prop where
  timing : d'.timing = d.timing
  log : Quiet d.log d'.log

variable {d d' d₁ : DispatcherInner U Err} {t : Turn U Err} {item : DispatchItem U}

lemma Calm.trans (h : Calm d d₁) (h' : Calm d₁ d') : Calm d d' := ⟨h'.timing.trans h.timing, h.log.trans h'.log⟩

section

variable (d : DispatcherInner U Err)

lemma timing_handle_result (item : Answer U Err) : (d.handle_result item).timing = d.timing := by
  unfold handle_result timing
  rcases item with err | (_ | _ | err) <;> dsimp only [record] <;> split <;> rfl

lemma timing_begin_call (item : DispatchItem U) (nowait : Bool) : (d.begin_call item nowait).timing = d.timing := by
  unfold begin_call timing record
  split <;> rfl

lemma timing_call_service (item : DispatchItem U) (nowait : Bool) (answer : Option (Answer U Err)) :
    (d.call_service item nowait answer).timing = d.timing := by
  have hb := timing_begin_call d item nowait
  unfold call_service
  dsimp only
  split
  · exact hb
  · cases answer with
    | none => exact hb
    | some result => exact (timing_handle_result _ result).trans hb

end

lemma Answered.quiet (h : Answered d d') : Quiet d.log d'.log := by
  rcases h.log with hlog | ⟨hlog, -⟩
  · exact hlog ▸ .refl _
  · exact hlog ▸ .record _ rfl

section

variable (d : DispatcherInner U Err)

lemma calm_handle_result (item : Answer U Err) : Calm d (d.handle_result item) :=
  ⟨timing_handle_result d item, (handle_result_spec d item).quiet⟩

lemma calm_call_service (nowait : Bool) (answer : Option (Answer U Err))
    (h : item.stops Reason.is_idle = false) : Calm d (d.call_service item nowait answer) :=
  ⟨timing_call_service d item nowait answer, (Quiet.record (e := .call item nowait) d.log h).trans (call_service_spec d item nowait answer).quiet⟩

lemma says_call_service (reason : Reason U) (nowait : Bool) (answer : Option (Answer U Err)) :
    Says d.log (d.call_service (.Stop reason) nowait answer).log reason :=
  ⟨d.log, nowait, .refl _, (call_service_spec d (.Stop reason) nowait answer).quiet⟩

lemma calm_set_st (st : DispatcherState) : Calm d (d.set_st st) := ⟨rfl, .record _ rfl⟩

lemma calm_pending : Calm d d.pending := ⟨rfl, .refl _⟩

lemma calm_flush (t : Turn U Err) : Calm d (d.flush t) := by
  unfold flush
  split
  · exact calm_pending d
  · exact (calm_set_st d .Stop).trans (calm_call_service _ false t.answer rfl)
  · exact (calm_set_st d .Processing).trans (calm_call_service _ false t.answer rfl)

end

lemma calm_poll {answer : Option (Answer U Err)} (hst : step d (.poll answer) = some d') : d'.st = d.st ∧ Calm d d' := by
  obtain ⟨-, rfl⟩ := of_ite_not hst
  unfold start
  cases d.response with
  | false => exact ⟨rfl, rfl, .refl _⟩
  | true =>
    cases answer with
    | none => exact ⟨rfl, rfl, .refl _⟩
    | some item =>
      have hc := calm_handle_result d item
      exact ⟨(handle_result_spec d item).st, hc.timing, hc.log⟩

lemma calm_reply {answer : Answer U Err} (hst : step d (.reply answer) = some d') : d'.st = d.st ∧ Calm d d' := by
  obtain ⟨-, rfl⟩ := of_ite_not hst
  have hc := calm_handle_result { d with spawned := d.spawned - 1 } answer
  exact ⟨(handle_result_spec { d with spawned := d.spawned - 1 } answer).st, hc.timing, hc.log⟩

/-- What `poll_service` does, when it does not find the service ready without an error. -/
inductive Served (d : DispatcherInner U Err) (t : Turn U Err) : Option (PollService U) → DispatcherInner U Err → Prop
  | calm {d' : DispatcherInner U Err} : Calm d d' → Served d t (some .Continue) d'
  | item {item : DispatchItem U} {d' : DispatcherInner U Err} : item.stops Reason.is_idle = false → Calm d d' → Served d t (some (.Item item)) d'
  | pending {d' : DispatcherInner U Err} : t.ready = none → d'.timing = d.timing.removed → Quiet d.log d'.log → Served d t none d'
  | removed {d' : DispatcherInner U Err} : t.ready = none → d'.timing = d.timing.removed → Quiet d.log d'.log → Served d t (some .Continue) d'
  | wait {item : DispatchItem U} {d' : DispatcherInner U Err} : t.ready = none → d'.timing = d.timing.removed →
      Quiet d.log d'.log → item.stops Reason.is_idle = false → Served d t (some (.ItemWait item)) d'
  | timeout {d' : DispatcherInner U Err} : t.ready = none → d'.timing = d.timing.removed → Quiet d.log d'.log →
      t.status = some .KeepAlive → d.flags.ka_enabled = true → Served d t (some (.ItemWait (.Stop .KeepAliveTimeout))) d'

lemma served (d : DispatcherInner U Err) (t : Turn U Err) (h : t.ready = some (.ok ()) → d.shared_error ≠ none) :
    Served d t (d.poll_service t).1 (d.poll_service t).2 := by
  unfold poll_service
  split
  case h_1 hr =>
    unfold check_error
    split
    case h_1 => exact .item rfl ⟨rfl, .record _ rfl⟩
    case h_2 => exact .calm ⟨rfl, (Quiet.record _ rfl).trans (.record _ rfl)⟩
    case h_3 he => exact absurd he (h hr)
  case h_2 hr =>
    dsimp only
    split
    case h_1 => exact .pending hr rfl (.refl _)
    case h_2 hs =>
      split
      case isTrue hk => exact .timeout hr rfl (.record _ rfl) hs hk
      case isFalse => exact .removed hr rfl (.refl _)
    case h_3 | h_4 => exact .wait hr rfl (.record _ rfl) rfl
  case h_3 => exact .calm ⟨rfl, (Quiet.record _ rfl).trans (.record _ rfl)⟩

/-- What a round does that does not get as far as `poll_recv_decode`. -/
inductive Rounded (d : DispatcherInner U Err) (t : Turn U Err) (d' : DispatcherInner U Err) : Prop
  | calm : Calm d d' → Rounded d t d'
  | removed : t.ready = none → d'.timing = d.timing.removed → Quiet d.log d'.log → Rounded d t d'
  | timeout : t.ready = none → d'.timing = d.timing.removed → Says d.log d'.log .KeepAliveTimeout → t.status = some .KeepAlive →
      d.flags.ka_enabled = true → Rounded d t d'

lemma Calm.removed {v : Timing} (h : Calm d₁ d') (hv : d₁.timing = v) (hq : Quiet d.log d₁.log) :
    d'.timing = v ∧ Quiet d.log d'.log := ⟨h.timing.trans hv, hq.trans h.log⟩

lemma rounded_processing (h : t.ready = some (.ok ()) → d.shared_error ≠ none) : Rounded d t (d.processing t) := by
  have hp := served d t h
  unfold processing
  generalize d.poll_service t = p at hp
  obtain ⟨p, d₁⟩ := p
  cases hp with
  | calm hc => exact .calm hc
  | item hi hc => exact .calm (hc.trans (calm_call_service d₁ true t.answer_first hi))
  | pending hr hv hq =>
    exact .removed hr hv hq
  | removed hr hv hq => exact .removed hr hv hq
  | wait hr hv hq hi =>
    obtain ⟨hv, hq⟩ := (calm_call_service d₁ false t.answer_first hi).removed hv hq
    exact .removed hr hv hq
  | timeout hr hv hq hs hk =>
    have hcall := says_call_service d₁ .KeepAliveTimeout false t.answer_first
    obtain ⟨log₁, nowait, h1, h2⟩ := hcall
    exact .timeout hr ((timing_call_service d₁ _ false t.answer_first).trans hv) ⟨log₁, nowait, hq.trans h1, h2⟩ hs hk

lemma rounded_backpressure (d : DispatcherInner U Err) (t : Turn U Err) : Rounded d t (d.backpressure t) := by
  by_cases h : t.ready = some (.ok ()) ∧ d.shared_error = none
  · refine .calm ?_
    unfold backpressure poll_service check_error
    rw [h.1]
    rw [h.2]
    exact calm_flush d t
  have hp := served d t fun hr he => h ⟨hr, he⟩
  unfold backpressure
  generalize d.poll_service t = p at hp
  obtain ⟨p, d₁⟩ := p
  cases hp with
  | calm hc => exact .calm hc
  | item hi hc => exact .calm ((hc.trans (calm_call_service d₁ true t.answer_first hi)).trans (calm_flush _ t))
  | pending hr hv hq =>
    exact .removed hr hv hq
  | removed hr hv hq => exact .removed hr hv hq
  | wait hr hv hq hi =>
    -- the item is passed on, unless it is the one that is known
    have hrest : ∀ d', Calm d₁ d' → Rounded d t d' := by
      intro d' hc
      obtain ⟨hv, hq⟩ := hc.removed hv hq
      exact .removed hr hv hq
    split
    case h_1 heq => cases heq
    case h_2 heq => cases heq
    case h_3 heq =>
      cases heq
      exact hrest _ (calm_flush _ t)
    case h_4 heq => cases heq
    case h_5 heq =>
      cases heq
      exact hrest _ ((calm_call_service _ false t.answer_first hi).trans (calm_flush _ t))
    case h_6 heq => cases heq
  | timeout hr hv hq hs hk =>
    obtain ⟨log₁, nowait, h1, h2⟩ := says_call_service d₁ .KeepAliveTimeout false t.answer_first
    have hf := calm_flush (d₁.call_service (.Stop .KeepAliveTimeout) false t.answer_first) t
    refine .timeout hr ?_ ⟨log₁, nowait, hq.trans h1, h2.trans hf.log⟩ hs hk
    exact hf.timing.trans ((timing_call_service d₁ _ false t.answer_first).trans hv)

lemma calm_closed (h : d.st.is_open = false) : (d.turn t).st.is_open = false ∧ Quiet d.log (d.turn t).log := by
  have hk : ∀ d : DispatcherInner U Err, (d.keep_ready t.ready).st = d.st ∧ (d.keep_ready t.ready).log = d.log := by
    intro d
    unfold keep_ready
    split <;> exact ⟨rfl, rfl⟩
  unfold turn
  cases hst : d.st with
  | Processing | Backpressure =>
    rw [hst] at h
    cases h
  | Stop =>
    obtain ⟨h1, h2⟩ := hk { d with timer := none }
    unfold stop
    generalize { d with timer := none }.keep_ready t.ready = d₁ at h1 h2
    have hsame : d₁.st.is_open = false ∧ Quiet d.log d₁.log := by
      rw [h1, h2]
      exact ⟨h, .refl _⟩
    dsimp only
    split
    · split
      · exact ⟨rfl, hsame.2.trans (.record _ rfl)⟩
      · exact hsame
    · split
      · exact hsame
      · split <;> exact hsame
  | Shutdown =>
    change (d.shutdown t).st.is_open = false ∧ Quiet d.log (d.shutdown t).log
    unfold shutdown
    split <;> exact ⟨h, .refl _⟩

inductive Received (d : DispatcherInner U Err) (t : Turn U Err) (d' : DispatcherInner U Err) : Prop
  | decoded {decoded : Decoded U} : t.recv = .ok decoded → d'.timing = (d.update_timer decoded).timing → Quiet d.log d'.log →
      Received d t d'
  | failed : (∀ decoded, t.recv ≠ .ok decoded) → Calm d d' → Received d t d'
  | extended : t.recv = .error .KeepAlive → d.handle_timeout.1 = none → d'.timing = d.handle_timeout.2.timing →
      Quiet d.log d'.log → Received d t d'
  | stopped {reason : Reason U} : t.recv = .error .KeepAlive → d.handle_timeout.1 = some reason →
      d'.timing = d.handle_timeout.2.timing → d'.st = .Stop → Says d.log d'.log reason → Received d t d'

lemma received (d : DispatcherInner U Err) (t : Turn U Err) : Received d t (d.receive t) := by
  unfold receive
  split
  case h_1 decoded hr =>
    have hq : Quiet d.log (d.update_timer decoded).log := by
      rw [(same_update_timer d decoded).log]
      exact .refl _
    split
    case h_1 el _ =>
      have hidle : (DispatchItem.Item el).stops Reason.is_idle = false := rfl
      have hc := calm_call_service (d.update_timer decoded) true t.answer hidle
      exact .decoded hr hc.timing (hq.trans hc.log)
    case h_2 => exact .decoded hr rfl hq
  case h_2 hr =>
    have hlog := (same_handle_timeout d).log
    split
    case h_1 ctl d₁ hk =>
      rw [hk] at hlog
      have hv := timing_call_service (d₁.set_st .Stop) (.Stop ctl) true t.answer
      refine .stopped hr (congrArg Prod.fst hk) (hv.trans (congrArg (·.2.timing) hk).symm) ?_ ?_
      · exact (call_service_spec _ _ true t.answer).st
      · obtain ⟨log₁, nowait, h1, h2⟩ := says_call_service (d₁.set_st .Stop) ctl true t.answer
        refine ⟨log₁, nowait, ?_, h2⟩
        rw [← hlog]
        exact (calm_set_st d₁ .Stop).log.trans h1
    case h_2 d₁ hk =>
      rw [hk] at hlog
      refine .extended hr (congrArg Prod.fst hk) (congrArg (·.2.timing) hk).symm ?_
      rw [← hlog]
      exact .refl _
  case h_3 hr =>
    refine .failed (fun _ h => nomatch hr.symm.trans h) ?_
    exact (calm_set_st d .Backpressure).trans (calm_call_service _ true t.answer rfl)
  case h_4 err hr =>
    refine .failed (fun _ h => nomatch hr.symm.trans h) ?_
    exact (calm_set_st d .Stop).trans (calm_call_service _ true t.answer rfl)
  case h_5 err hr =>
    refine .failed (fun _ h => nomatch hr.symm.trans h) ?_
    exact (calm_set_st d .Stop).trans (calm_call_service _ true t.answer rfl)

lemma turn_receive (hst : d.st = .Processing) (hr : t.ready = some (.ok ())) (he : d.shared_error = none) :
    d.turn t = d.receive t := by
  unfold turn processing poll_service check_error
  rw [hst, hr]
  rw [he]

lemma rounded (ho : d.st.is_open) (h : d.st = .Processing → t.ready = some (.ok ()) → d.shared_error ≠ none) :
    Rounded d t (d.turn t) := by
  unfold turn
  cases hst : d.st with
  | Processing => exact rounded_processing (h hst)
  | Backpressure => exact rounded_backpressure d t
  | Stop | Shutdown =>
    rw [hst] at ho
    cases ho

lemma timing_update_timer_item {decoded : Decoded U} (h : decoded.item.isSome) :
    (d.update_timer decoded).timing = { d.timing with ka_timeout := false, read_timeout := false, read_remains := 0 } := by
  unfold update_timer
  rw [if_pos h]
  rfl

inductive Updated (v : Timing) (remains : Nat) : Timing → Prop
  | same : v.read_timeout = false → Updated v remains v
  | counted : v.read_timeout = true → Updated v remains { v with read_remains := remains % 2 ^ 32 }
  | keepalive : v.read_timeout = false → remains = 0 → v.ka_enabled = true →
      Updated v remains ({ v with ka_timeout := true }.start_timer v.cfg.keepalive_timeout)
  | started {params : FrameReadRate} : v.read_timeout = false → ¬ (v.read_remains = 0 ∧ remains = 0) →
      v.cfg.frame_read_rate = some params →
      Updated v remains ({ v with
        read_timeout := true
        read_remains := remains % 2 ^ 32
        read_remains_prev := 0
        read_max_timeout := params.max_timeout }.start_timer params.timeout)

lemma updated (d : DispatcherInner U Err) (remains : Nat) : Updated d.timing remains (d.update_timer ⟨none, remains⟩).timing := by
  have hnone : ¬ (⟨none, remains⟩ : Decoded U).item.isSome := false_ne_true
  unfold update_timer
  rw [if_neg hnone]
  split
  case isTrue hread => exact .counted hread
  case isFalse hread =>
    have hread := eq_false_iff.2 hread
    split
    case isTrue hzero =>
      split
      case isTrue hka => exact .keepalive hread hzero.2 hka.1
      case isFalse => exact .same hread
    case isFalse hzero =>
      split
      case h_1 params hp => exact .started hread hzero hp
      case h_2 => exact .same hread

inductive TimedOut (v : Timing) (idle : Bool) : Option (Reason U) → Timing → Prop
  | extended {params : FrameReadRate} : v.read_timeout = true → v.cfg.frame_read_rate = some params →
      TimedOut v idle none ({ v with
        read_remains_prev := v.read_remains
        read_remains := 0
        read_max_timeout := if params.max_timeout = 0 then v.read_max_timeout else v.read_max_timeout - params.timeout
        }.start_timer params.timeout)
  | spent {params : FrameReadRate} {v' : Timing} : v.read_timeout = true → v.cfg.frame_read_rate = some params →
      params.max_timeout ≠ 0 → v.read_max_timeout ≤ params.timeout → v'.read_timeout = true →
      TimedOut v idle (some .ReadTimeout) v'
  | slow {params : FrameReadRate} : v.read_timeout = true → v.cfg.frame_read_rate = some params → v.total ≤ params.rate →
      TimedOut v idle (some .ReadTimeout) v
  | keepalive : v.read_timeout = false → (v.ka_timeout || idle) = true → TimedOut v idle (some .KeepAliveTimeout) v
  | nothing : (v.read_timeout = true → v.cfg.frame_read_rate = none) → TimedOut v idle none v

lemma timed_out (d : DispatcherInner U Err) : TimedOut d.timing d.flags.idle d.handle_timeout.1 d.handle_timeout.2.timing := by
  unfold handle_timeout
  split
  case isTrue hread =>
    split
    case h_1 params hp =>
      split
      case isTrue =>
        unfold extend_timer
        by_cases hmax : params.max_timeout = 0 ∨ (if params.max_timeout = 0 then d.read_max_timeout else d.read_max_timeout - params.timeout) ≠ 0
        · rw [if_pos hmax]
          exact .extended hread hp
        · rw [if_neg hmax]
          obtain ⟨hne, hspent⟩ := not_or.1 hmax
          rw [if_neg hne, Classical.not_not] at hspent
          exact .spent hread hp hne (Nat.le_of_sub_eq_zero hspent) hread
      case isFalse hslow => exact .slow hread hp (Nat.le_of_not_lt hslow)
    case h_2 hnone => exact .nothing fun _ => hnone
  case isFalse hread =>
    have hread := eq_false_iff.2 hread
    split
    case isTrue hka => exact .keepalive hread hka
    case isFalse => exact .nothing fun h => nomatch hread.symm.trans h

end DispatcherInner

/-! ## Runs -/

namespace Timeouts

variable {s s' : Timeouts U Err} {r : Round U Err} {cfg : Config} {v : Timing} {io : IoManager} {params : FrameReadRate}

structure Running (cfg : Config) (v : Timing) (s : Timeouts U Err) : Prop where
  config : v.cfg = cfg
  enabled : v.ka_enabled = decide (cfg.keepalive_timeout ≠ 0)
  /-- the flag, when it is looked at, is that of the timer that is set -/
  due : s.dsp_timeout = true → v.ka_timeout = true ∨ v.read_timeout = true →
    ∃ timeout now, s.set = some (timeout, now) ∧ now + timeout * 1000 ≤ s.io.now
  keepalive : v.ka_timeout = true → v.ka_enabled = true ∧
    (v.read_timeout = false → ∃ now, s.set = some (v.cfg.keepalive_timeout, now) ∧ ∀ f ∈ s.frames, f ≤ now)
  reading : v.read_timeout = true → 0 < s.buf ∧ ∃ params, v.cfg.frame_read_rate = some params ∧
    ∀ timeout now, s.set = some (timeout, now) → timeout = params.timeout ∧
      v.read_remains_prev + s.received_after now ≤ s.buf ∧
      s.since + (params.max_timeout - v.read_max_timeout) * 1000 ≤ now
  left : v.read_remains ≠ 0 → 0 < s.buf

structure Inv (cfg : Config) (s : Timeouts U Err) : Prop where
  io : IoManager.Inv s.io
  conn : ∃ x, s.io.ios[s.c]? = some x ∧ x.id ≠ none ∧ ∀ st : Start, x.started = some st → s.set = some (st.timeout, st.now)
  frames : ∀ f ∈ s.frames, f ≤ s.io.now
  reads : ∀ r ∈ s.reads, r.1 ≤ s.io.now
  small : s.buf < 2 ^ 32
  running : s.disp.st.is_open = true → Running cfg s.disp.timing s

lemma received_after_now (h : ∀ r ∈ s.reads, r.1 ≤ s.io.now) : s.received_after s.io.now = 0 := by
  refine sum_eq_zero fun n hn => ?_
  obtain ⟨r, hr, rfl⟩ := mem_map.1 hn
  exact if_neg (not_lt.2 (h r hr))

lemma received_after_mono {t t' : Nat} (h : t ≤ t') : s.received_after t' ≤ s.received_after t := by
  unfold received_after
  induction s.reads with
  | nil => exact le_refl _
  | cons r l ih =>
    rw [map_cons, map_cons, sum_cons, sum_cons]
    refine Nat.add_le_add ?_ ih
    split
    case isTrue hlt => exact le_of_eq (if_pos (lt_of_le_of_lt h hlt)).symm
    case isFalse => exact zero_le _

/-! ### The connection in a round -/

structure Kept (s : Timeouts U Err) (r : Round U Err) (io : IoManager) : Prop where
  inv : IoManager.Inv io
  now : io.now = s.io.now
  conn : ∃ x, io.ios[s.c]? = some x ∧ x.id ≠ none ∧ ∀ st : Start, x.started = some st → (s.after r io).set = some (st.timeout, st.now)
  dsp_timeout : (s.after r io).dsp_timeout = (s.dsp_timeout && !(s.recv_times_out r || s.status_times_out r))

lemma take_spec (h : IoManager.Inv s.io) {x : Timed} (hx : s.io.ios[s.c]? = some x) (ht : s.take r = some io) :
    IoManager.Inv io ∧ io.now = s.io.now ∧ io.ios[s.c]? = some { x with
      dsp_timeout := x.dsp_timeout && !(s.recv_times_out r || s.status_times_out r) } := by
  unfold take at ht
  cases htake : s.recv_times_out r || s.status_times_out r with
  | true =>
    rw [if_pos htake] at ht
    have hinv := IoManager.inv_step (i := .check_dispatcher_timeout s.c) h trivial ht
    obtain ⟨y, hy, rfl⟩ := of_map ht
    cases hx.symm.trans hy
    rw [Bool.not_true, Bool.and_false]
    exact ⟨hinv, rfl, at_set hx _⟩
  | false =>
    rw [htake, if_neg Bool.false_ne_true] at ht
    cases ht
    rw [Bool.not_false, Bool.and_true]
    exact ⟨h, rfl, hx⟩

lemma set_timer_spec {io io' : IoManager} {c clock : Nat} {timer : Option Nat} {set : Option (Nat × Nat)} (h : IoManager.Inv io)
    (hok : timer.getD 0 ≠ 0 → io.Timely (.start_timer c (timer.getD 0) clock)) {x : Timed} (hx : io.ios[c]? = some x) (hl : x.id ≠ none)
    (hset : ∀ st : Start, x.started = some st → set = some (st.timeout, st.now)) (ht : set_timer io c clock timer = some io') :
    IoManager.Inv io' ∧ io'.now = io.now ∧ ∃ y : Timed, io'.ios[c]? = some y ∧ y.id ≠ none ∧ y.dsp_timeout = x.dsp_timeout ∧
      ∀ st : Start, y.started = some st → timer_set set io.now timer = some (st.timeout, st.now) := by
  rcases timer with _ | (_ | timeout)
  · change io.step (.stop_timer c) = some io' at ht
    have hinv := IoManager.inv_step (i := .stop_timer c) h trivial ht
    obtain ⟨y, hy, rfl⟩ := of_map ht
    cases hx.symm.trans hy
    exact ⟨hinv, IoManager.now_stop_timer c x, _, IoManager.stop_timer_self hx h, hl, rfl, nofun⟩
  · cases ht
    exact ⟨h, rfl, x, hx, hl, rfl, hset⟩
  · change io.step (.start_timer c (timeout + 1) clock) = some io' at ht
    have hinv := IoManager.inv_step h (hok (succ_ne_zero timeout)) ht
    obtain ⟨y, hy, rfl⟩ := of_map ht
    cases hx.symm.trans hy
    obtain ⟨k, hk⟩ := IoManager.start_timer_self hx hl (succ_ne_zero timeout) clock
    refine ⟨hinv, IoManager.now_start_timer c x (timeout + 1) clock, _, hk, hl, rfl, fun st hs => ?_⟩
    cases hs
    rfl

lemma kept (hi : Inv cfg s) (hok : s.Timely (.round r)) (hst : step s (.round r) = some s') : ∃ io, s' = s.after r io ∧ Kept s r io := by
  obtain ⟨-, hst⟩ := of_guard hst
  obtain ⟨io₁, htake, hst⟩ := of_bind hst
  obtain ⟨io, htimer, rfl⟩ := of_map hst
  obtain ⟨x, hx, hl, hset⟩ := hi.conn
  obtain ⟨hinv₁, hnow₁, hx₁⟩ := take_spec hi.io hx htake
  have hok₁ : (s.turned r).timer.getD 0 ≠ 0 → io₁.Timely (.start_timer s.c ((s.turned r).timer.getD 0) r.clock) := by
    have hclock := hok.2.2.2
    unfold IoManager.Timely at hclock ⊢
    rw [hnow₁]
    exact hclock
  obtain ⟨hinv, hnow, y, hy, hyl, hdsp, hstarted⟩ := set_timer_spec hinv₁ hok₁ hx₁ hl hset htimer
  rw [hnow₁] at hstarted
  refine ⟨io, rfl, hinv, hnow.trans hnow₁, ⟨y, hy, hyl, hstarted⟩, ?_⟩
  have hd : s.dsp_timeout = x.dsp_timeout := by
    unfold Timeouts.dsp_timeout
    rw [hx]
  have hd' : (s.after r io).dsp_timeout = y.dsp_timeout := by
    change (match io.ios[s.c]? with | some x => x.dsp_timeout | none => false) = y.dsp_timeout
    rw [hy]
  rw [hd, hd', hdsp]

/-! ### The timers in a round -/

lemma after_set (h : (s.turned r).timing = v) (io : IoManager) : (s.after r io).set = timer_set s.set s.io.now v.timer := by
  subst h
  rfl

lemma after_since (h : (s.turned r).timing = v) (io : IoManager) :
    (s.after r io).since = if v.read_timeout && !s.disp.flags.read_timeout then s.io.now else s.since := by
  subst h
  rfl

def before (s : Timeouts U Err) : Timing := s.untimed.timing

structure Still (s : Timeouts U Err) (r : Round U Err) (io : IoManager) : Prop where
  buf : (s.after r io).buf = s.buf
  frames : (s.after r io).frames = s.frames

lemma still (hok : s.Timely (.round r)) (h : ∀ d, s.decoded r = some d → d.item = none) (io : IoManager) : Still s r io := by
  have hall := hok.1
  cases hd : s.decoded r with
  | none =>
    constructor
    all_goals
      unfold after
      rw [hd]
  | some d =>
    obtain ⟨item, remains⟩ := d
    obtain rfl : item = none := h _ hd
    rw [hd] at hall
    constructor
    · unfold after
      rw [hd]
      exact beq_iff_eq.1 hall
    · unfold after
      rw [hd]

lemma Kept.dsp_timeout_of (hk : Kept s r io) (h : (s.after r io).dsp_timeout) : s.dsp_timeout := by
  rw [hk.dsp_timeout] at h
  exact (and_eq_true_iff.1 h).1

lemma Running.keep (h : Running cfg s.disp.timing s) (hk : Kept s r io) (hs : Still s r io)
    (hset : (s.after r io).set = s.set) (hsince : (s.after r io).since = s.since) : Running cfg s.before (s.after r io) := by
  refine ⟨h.config, h.enabled, fun hd hf => ?_, fun hka => ?_, fun hread => ?_, fun hne => hs.buf ▸ h.left hne⟩
  · obtain ⟨timeout, now, heq, hle⟩ := h.due (hk.dsp_timeout_of hd) hf
    exact ⟨timeout, now, hset.trans heq, le_trans hle (le_of_eq hk.now.symm)⟩
  · refine ⟨(h.keepalive hka).1, fun hread => ?_⟩
    obtain ⟨now, heq, hall⟩ := (h.keepalive hka).2 hread
    exact ⟨now, hset.trans heq, hs.frames ▸ hall⟩
  · obtain ⟨hpos, params, hp, hall⟩ := h.reading hread
    refine ⟨hs.buf ▸ hpos, params, hp, fun timeout now heq => ?_⟩
    rw [hsince, hs.buf]
    exact hall timeout now (hset.symm.trans heq)

lemma since_of_same (h : (s.turned r).timing = v) (hv : v.read_timeout = s.disp.flags.read_timeout) (io : IoManager) :
    (s.after r io).since = s.since := by
  rw [after_since h io, hv, Bool.and_not_self, if_neg Bool.false_ne_true]

section

variable (h : Running cfg s.disp.timing s)
include h

lemma Running.calm (hk : Kept s r io) (hs : Still s r io)
    (hv : (s.turned r).timing = s.before) : Running cfg (s.turned r).timing (s.after r io) :=
  hv ▸ h.keep hk hs (after_set hv io) (since_of_same hv rfl io)

lemma Running.removed (hs : Still s r io) : Running cfg s.before.removed (s.after r io) := by
  refine ⟨h.config, h.enabled, fun _ hf => ?_, nofun, nofun, fun hne => hs.buf ▸ h.left hne⟩
  rcases hf with hf | hf
  all_goals cases hf

lemma Running.item (s' : Timeouts U Err) :
    Running cfg { s.before with ka_timeout := false, read_timeout := false, read_remains := 0 } s' := by
  refine ⟨h.config, h.enabled, fun _ hf => ?_, nofun, nofun, fun hne => absurd rfl hne⟩
  rcases hf with hf | hf
  all_goals cases hf

end

lemma timer_set_of_ne {timeout : Nat} (h : timeout ≠ 0) (set : Option (Nat × Nat)) (now : Nat) :
    timer_set set now (v.start_timer timeout).timer = some (timeout, now) := by
  cases timeout with
  | zero => exact absurd rfl h
  | succ n => rfl

lemma timer_set_start (timeout : Nat) (set : Option (Nat × Nat)) (now : Nat) {t n : Nat}
    (h : timer_set set now (v.start_timer timeout).timer = some (t, n)) : t = timeout ∧ n = now := by
  by_cases h0 : timeout = 0
  · unfold Timing.start_timer at h
    rw [if_pos h0] at h
    cases h
  · cases (timer_set_of_ne h0 set now).symm.trans h
    exact ⟨rfl, rfl⟩

lemma Running.updated (hi : Inv cfg s) (h : Running cfg s.disp.timing s) (hk : Kept s r io) (hs : Still s r io)
    (hd : s.dsp_timeout = false) (hu : DispatcherInner.Updated s.before s.buf (s.turned r).timing) :
    Running cfg (s.turned r).timing (s.after r io) := by
  have hnot : (s.after r io).dsp_timeout ≠ true := fun hd' => nomatch hd.symm.trans (hk.dsp_timeout_of hd')
  have hbuf : s.buf % 2 ^ 32 ≠ 0 → 0 < (s.after r io).buf := by
    intro hne
    rw [hs.buf]
    exact Nat.pos_of_ne_zero fun h0 => hne (by rw [h0, Nat.zero_mod])
  generalize hv : (s.turned r).timing = v at hu ⊢
  cases hu with
  | same hread => exact hv ▸ h.calm hk hs hv
  | counted hread =>
    have hkeep := h.keep hk hs (after_set hv io) (since_of_same hv rfl io)
    exact { hkeep with left := hbuf }
  | keepalive hread hzero hka =>
    have hne : s.disp.cfg.keepalive_timeout ≠ 0 := by
      have hcfg : s.disp.cfg = cfg := h.config
      rw [hcfg]
      exact of_decide_eq_true (h.enabled.symm.trans hka)
    have hset := (after_set hv io).trans (timer_set_of_ne hne s.set s.io.now)
    refine ⟨h.config, h.enabled, fun hd' => absurd hd' hnot, fun _ => ⟨hka, fun _ => ⟨s.io.now, hset, ?_⟩⟩, fun hr => ?_,
      fun hl => hs.buf ▸ h.left hl⟩
    · rw [hs.frames]
      exact hi.frames
    · cases hread.symm.trans hr
  | @started params hread hnz hp =>
    have hpos : 0 < s.buf := by
      refine Nat.pos_of_ne_zero fun h0 => ?_
      by_cases hrem : s.disp.read_remains = 0
      · exact hnz ⟨hrem, h0⟩
      · exact ne_of_gt (h.left hrem) h0
    refine ⟨h.config, h.enabled, fun hd' => absurd hd' hnot, fun hka => ⟨(h.keepalive hka).1, nofun⟩,
      fun _ => ⟨hs.buf ▸ hpos, params, hp, ?_⟩, hbuf⟩
    intro timeout now heq
    rw [after_set hv io] at heq
    obtain ⟨rfl, rfl⟩ := timer_set_start _ _ _ heq
    have hzero : (s.after r io).received_after s.io.now = 0 := received_after_now hi.reads
    have hfalse : s.disp.flags.read_timeout = false := hread
    refine ⟨rfl, ?_, ?_⟩
    · rw [hzero]
      exact zero_le _
    · rw [after_since hv io, hfalse]
      change s.io.now + (params.max_timeout - params.max_timeout) * 1000 ≤ s.io.now
      rw [Nat.sub_self, Nat.zero_mul]
      exact le_refl _

lemma Running.spent (h : Running cfg s.disp.timing s) (hd : s.dsp_timeout) (hread : s.disp.flags.read_timeout)
    (hp : s.disp.cfg.frame_read_rate = some params) :
    ∃ now, s.set = some (params.timeout, now) ∧ now + params.timeout * 1000 ≤ s.io.now ∧
      s.disp.read_remains_prev + s.received_after now ≤ s.buf ∧
      s.since + (params.max_timeout - s.disp.read_max_timeout) * 1000 ≤ now := by
  obtain ⟨timeout, now, hset, hle⟩ := h.due hd (.inr hread)
  obtain ⟨-, params', hp', hall⟩ := h.reading hread
  cases hp.symm.trans hp'
  obtain ⟨rfl, hbytes, hsince⟩ := hall timeout now hset
  exact ⟨now, hset, hle, hbytes, hsince⟩

lemma budget_le {since now max left timeout t : Nat} (h : since + (max - left) * 1000 ≤ now) (hle : now + timeout * 1000 ≤ t) :
    since + (max - (left - timeout)) * 1000 ≤ t := by
  have hsub : max - (left - timeout) ≤ (max - left) + timeout := by omega
  calc since + (max - (left - timeout)) * 1000
      ≤ since + ((max - left) + timeout) * 1000 := Nat.add_le_add_left (mul_le_mul_right _ hsub) _
    _ = since + (max - left) * 1000 + timeout * 1000 := by rw [Nat.add_mul, add_assoc]
    _ ≤ now + timeout * 1000 := Nat.add_le_add_right h _
    _ ≤ t := hle

lemma Running.extended (hi : Inv cfg s) (h : Running cfg s.disp.timing s) (hk : Kept s r io) (hs : Still s r io)
    (hok : s.Timely (.round r)) (hout : s.recv_times_out r) (hd : s.dsp_timeout) {idle : Bool}
    (ht : DispatcherInner.TimedOut s.before idle (none : Option (Reason U)) (s.turned r).timing) :
    Running cfg (s.turned r).timing (s.after r io) := by
  have hnot : (s.after r io).dsp_timeout ≠ true := by
    rw [hk.dsp_timeout, hout, Bool.true_or, Bool.not_true, Bool.and_false]
    exact false_ne_true
  generalize hv : (s.turned r).timing = v at ht ⊢
  cases ht with
  | nothing => exact hv ▸ h.calm hk hs hv
  | @extended params hread hp =>
    have hcounted := (hok.2.1 hout).2 hread
    obtain ⟨at', -, hle, -, hsince⟩ := h.spent hd hread hp
    refine ⟨h.config, h.enabled, fun hd' => absurd hd' hnot, fun hka => ⟨(h.keepalive hka).1, fun hr => ?_⟩, fun _ => ?_,
      fun hne => absurd rfl hne⟩
    · cases hread.symm.trans hr
    refine ⟨hs.buf ▸ (h.reading hread).1, params, hp, fun timeout now heq => ?_⟩
    rw [after_set hv io] at heq
    obtain ⟨rfl, rfl⟩ := timer_set_start _ _ _ heq
    have hzero : (s.after r io).received_after s.io.now = 0 := received_after_now hi.reads
    refine ⟨rfl, ?_, ?_⟩
    · rw [hzero, hs.buf, ← hcounted]
      exact le_refl _
    · rw [since_of_same hv rfl io]
      split
      case isTrue hmax =>
        exact le_trans hsince (le_trans (le_add_right _ _) hle)
      case isFalse => exact budget_le hsince hle

/-- What a step that calls `Stop` because of a timeout needs. -/
structure Justified (cfg : Config) (s s' : Timeouts U Err) (i : Step U Err) : Prop where
  keepalive : calls Reason.is_keepalive s.disp.log s'.disp.log = true →
    cfg.keepalive_timeout ≠ 0 ∧ ∀ f ∈ s'.frames, f + (cfg.keepalive_timeout - 1) * 1000 ≤ s'.io.now
  reading : calls Reason.is_read s.disp.log s'.disp.log = true →
    0 < s'.buf ∧ (∃ r, i = .round r ∧ r.decode = .ok ⟨none, s'.buf⟩) ∧
    ∃ params, cfg.frame_read_rate = some params ∧ s'.since + params.timeout * 1000 ≤ s'.io.now ∧
      (s'.received_after (s'.io.now - params.timeout * 1000) ≤ params.rate ∨
        params.max_timeout ≠ 0 ∧ s'.since + params.max_timeout * 1000 ≤ s'.io.now)

lemma Justified.quiet {i : Step U Err} (h : Quiet s.disp.log s'.disp.log) : Justified cfg s s' i :=
  ⟨fun hc => (nomatch (h.not_calls is_idle_of_keepalive).symm.trans hc), fun hc => (nomatch (h.not_calls is_idle_of_read).symm.trans hc)⟩

lemma decodes_spec (h : s.decodes r) :
    s.disp.st = .Processing ∧ r.ready = some (.ok ()) ∧ s.disp.shared_error = none := by
  unfold decodes at h
  split at h
  case h_1 h1 h2 h3 => exact ⟨h1, h2, h3⟩
  case h_2 => cases h

lemma decodes_of (h1 : s.disp.st = .Processing) (h2 : r.ready = some (.ok ())) (h3 : s.disp.shared_error = none) :
    s.decodes r := by
  unfold decodes
  rw [h1, h2, h3]

lemma Running.keepalive_passed (h : Running cfg s.disp.timing s) (hd : s.dsp_timeout)
    (hka : s.disp.flags.ka_timeout) (hread : s.disp.flags.read_timeout = false) :
    cfg.keepalive_timeout ≠ 0 ∧ ∀ f ∈ s.frames, f + (cfg.keepalive_timeout - 1) * 1000 ≤ s.io.now := by
  obtain ⟨hen, hset⟩ := h.keepalive hka
  obtain ⟨now, hset, hall⟩ := hset hread
  obtain ⟨timeout, now', hset', hle⟩ := h.due hd (.inl hka)
  cases hset.symm.trans hset'
  refine ⟨of_decide_eq_true (h.enabled.symm.trans hen), fun f hf => ?_⟩
  have hcfg : s.disp.timing.cfg = cfg := h.config
  rw [hcfg] at hle
  calc f + (cfg.keepalive_timeout - 1) * 1000
      ≤ now + cfg.keepalive_timeout * 1000 := Nat.add_le_add (hall f hf) (mul_le_mul_right _ (sub_le _ _))
    _ ≤ s.io.now := hle

lemma Running.read_passed (hi : Inv cfg s) (h : Running cfg s.disp.timing s) (hd : s.dsp_timeout)
    (hread : s.disp.flags.read_timeout) (hcounted : s.disp.read_remains = s.buf)
    (hp : s.disp.cfg.frame_read_rate = some params)
    (hstop : s.before.total ≤ params.rate ∨ params.max_timeout ≠ 0 ∧ s.disp.read_max_timeout ≤ params.timeout) :
    0 < s.buf ∧ cfg.frame_read_rate = some params ∧ s.since + params.timeout * 1000 ≤ s.io.now ∧
      (s.received_after (s.io.now - params.timeout * 1000) ≤ params.rate ∨
        params.max_timeout ≠ 0 ∧ s.since + params.max_timeout * 1000 ≤ s.io.now) := by
  obtain ⟨now, -, hle, hbytes, hsince⟩ := h.spent hd hread hp
  have hstart : s.since ≤ now := le_trans (le_add_right _ _) hsince
  refine ⟨(h.reading hread).1, ?_, le_trans (Nat.add_le_add_right hstart _) hle, ?_⟩
  · have hcfg : s.disp.cfg = cfg := h.config
    rw [← hcfg]
    exact hp
  rcases hstop with hslow | ⟨hmax, hspent⟩
  · -- the difference is not below 0, so that it is that of the natural numbers
    have htotal : s.before.total = s.buf - s.disp.read_remains_prev := by
      have hsmall := hi.small
      change (s.disp.read_remains + 2 ^ 32 - s.disp.read_remains_prev) % 2 ^ 32 = _
      rw [hcounted, Nat.sub_add_comm (by omega), add_mod_right, mod_eq_of_lt (by omega)]
    have hmono : s.received_after (s.io.now - params.timeout * 1000) ≤ s.received_after now :=
      received_after_mono (le_sub_of_add_le hle)
    exact .inl (by omega)
  · refine .inr ⟨hmax, ?_⟩
    have hbudget := budget_le hsince hle
    rw [Nat.sub_eq_zero_of_le hspent, Nat.sub_zero] at hbudget
    exact hbudget

lemma justified_stop (hi : Inv cfg s) (h : Running cfg s.disp.timing s) (hk : Kept s r io) (hs : Still s r io)
    (hok : s.Timely (.round r)) (hout : s.recv_times_out r) (hd : s.dsp_timeout)
    (hdec : r.decode = .ok ⟨none, s.buf⟩) {reason : Reason U}
    (ht : DispatcherInner.TimedOut s.before s.disp.flags.idle (some reason) (s.turned r).timing)
    (hsay : Says s.disp.log (s.turned r).log reason) :
    Justified cfg s (s.after r io) (.round r) := by
  obtain ⟨hidle, hcounted⟩ := hok.2.1 hout
  have hnow : (s.after r io).io.now = s.io.now := hk.now
  have hreading : ∀ params, s.disp.flags.read_timeout → s.disp.cfg.frame_read_rate = some params →
      s.before.total ≤ params.rate ∨ params.max_timeout ≠ 0 ∧ s.disp.read_max_timeout ≤ params.timeout →
      (s.turned r).timing.read_timeout = true → reason = .ReadTimeout → Justified cfg s (s.after r io) (.round r) := by
    rintro params hread hp hstop hsame rfl
    have hsince := since_of_same rfl (hsame.trans hread.symm) io
    refine ⟨fun hc => (nomatch hsay.of_calls is_idle_of_keepalive hc), fun _ => ?_⟩
    obtain ⟨hpos, hp, hfull, hor⟩ := h.read_passed hi hd hread (hcounted hread) hp hstop
    rw [hs.buf, hsince, hnow]
    exact ⟨hpos, ⟨r, rfl, hdec⟩, params, hp, hfull, hor⟩
  generalize hv : (s.turned r).timing = v at ht hreading
  cases ht with
  | spent hread hp hmax hspent hsame => exact hreading _ hread hp (.inr ⟨hmax, hspent⟩) hsame rfl
  | slow hread hp hslow => exact hreading _ hread hp (.inl hslow) hread rfl
  | keepalive hread hor =>
    refine ⟨fun _ => ?_, fun hc => (nomatch hsay.of_calls is_idle_of_read hc)⟩
    have hka : s.disp.flags.ka_timeout := by
      rcases hidle with hr | hka | hno
      · cases hread.symm.trans hr
      · exact hka
      · rwa [hno, Bool.or_false] at hor
    rw [hs.frames, hnow]
    exact h.keepalive_passed hd hka hread

lemma decoded_of_decode (hd : s.decodes r) (h : r.decode = .ok d) : s.decoded r = some d := by
  unfold decoded
  rw [if_pos hd, h]
  rfl

lemma running_decodes (hi : Inv cfg s) (h : Running cfg s.disp.timing s) (hk : Kept s r io)
    (hok : s.Timely (.round r)) (hd : s.decodes r) :
    ((s.turned r).st.is_open → Running cfg (s.turned r).timing (s.after r io)) ∧
      Justified cfg s (s.after r io) (.round r) := by
  obtain ⟨h1, h2, h3⟩ := decodes_spec hd
  have hturned : s.turned r = s.untimed.receive (r.turn s.dsp_timeout) := turn_receive h1 h2 h3
  have hrec := received s.untimed (r.turn s.dsp_timeout)
  rw [← hturned] at hrec
  -- a timeout has been reported
  have hkeep : r.recv s.dsp_timeout = .error .KeepAlive → s.recv_times_out r ∧ s.dsp_timeout ∧ Still s r io ∧
      r.decode = .ok ⟨none, s.buf⟩ := by
    intro hr
    obtain ⟨hdsp, d, hdec⟩ := Round.recv_keepalive hr
    have hnone := Round.recv_error (fun d h => nomatch hr.symm.trans h) hdec
    have hdecoded := decoded_of_decode hd hdec
    have hall := hok.1
    rw [hdecoded] at hall
    obtain ⟨item, remains⟩ := d
    obtain rfl : item = none := hnone
    obtain rfl : remains = s.buf := beq_iff_eq.1 hall
    refine ⟨?_, hdsp, still hok (fun d' hd' => ?_) io, hdec⟩
    · unfold recv_times_out
      rw [hd, hr]
      rfl
    · cases hdecoded.symm.trans hd'
      rfl
  cases hrec with
  | @decoded d hr hv hq =>
    refine ⟨fun _ => ?_, .quiet hq⟩
    obtain ⟨hdec, hdsp⟩ := Round.recv_ok hr
    obtain ⟨item, remains⟩ := d
    cases item with
    | some el =>
      rw [hv, timing_update_timer_item rfl]
      exact h.item _
    | none =>
      have hdecoded := decoded_of_decode hd hdec
      have hall := hok.1
      rw [hdecoded] at hall
      obtain rfl : remains = s.buf := beq_iff_eq.1 hall
      have hs : Still s r io := still hok (fun d' hd' => by cases hdecoded.symm.trans hd'; rfl) io
      refine h.updated hi hk hs (hdsp rfl) ?_
      rw [hv]
      exact updated _ _
  | failed hno hc =>
    refine ⟨fun _ => ?_, .quiet hc.log⟩
    have hs : Still s r io := by
      refine still hok (fun d hd' => ?_) io
      unfold decoded at hd'
      rw [if_pos hd] at hd'
      cases hdec : r.decode with
      | error err =>
        rw [hdec] at hd'
        cases hd'
      | ok d' =>
        rw [hdec] at hd'
        cases hd'
        exact Round.recv_error hno hdec
    exact h.calm hk hs hc.timing
  | extended hr hnone hv hq =>
    obtain ⟨hout, hdsp, hs, -⟩ := hkeep hr
    refine ⟨fun _ => ?_, .quiet hq⟩
    have ht := timed_out s.untimed
    rw [hnone, ← hv] at ht
    exact h.extended hi hk hs hok hout hdsp ht
  | stopped hr hsome hv hst hsay =>
    obtain ⟨hout, hdsp, hs, hdec⟩ := hkeep hr
    refine ⟨fun ho => ?_, ?_⟩
    · rw [hst] at ho
      cases ho
    · have ht := timed_out s.untimed
      rw [hsome, ← hv] at ht
      exact justified_stop hi h hk hs hok hout hdsp hdec ht hsay

lemma running_rounded (h : Running cfg s.disp.timing s) (hk : Kept s r io)
    (hok : s.Timely (.round r)) (ho : s.disp.st.is_open) (hd : s.decodes r = false) :
    Running cfg (s.turned r).timing (s.after r io) ∧ Justified cfg s (s.after r io) (.round r) := by
  have hs : Still s r io := by
    refine still hok (fun d hd' => ?_) io
    unfold decoded at hd'
    rw [hd] at hd'
    cases hd'
  have hr : DispatcherInner.Rounded s.untimed (r.turn s.dsp_timeout) (s.turned r) := by
    refine rounded ho fun h1 h2 h3 => ?_
    cases hd.symm.trans (decodes_of h1 h2 h3)
  cases hr with
  | calm hc => exact ⟨h.calm hk hs hc.timing, .quiet hc.log⟩
  | removed hr hv hq =>
    rw [hv]
    exact ⟨h.removed hs, .quiet hq⟩
  | timeout hr hv hsay hstatus hen =>
    rw [hv]
    refine ⟨h.removed hs, fun _ => ?_, fun hc => (nomatch hsay.of_calls is_idle_of_read hc)⟩
    have hready : r.ready = none := hr
    have hstatus : r.status s.dsp_timeout = some .KeepAlive := hstatus
    have hout : s.status_times_out r := by
      unfold status_times_out polls_status
      rw [hstatus, hready]
      cases hst : s.disp.st with
      | Processing | Backpressure => rfl
      | Stop | Shutdown =>
        rw [hst] at ho
        cases ho
    have hdsp : s.dsp_timeout := Round.status_keepalive hstatus
    obtain ⟨hka, hread⟩ := hok.2.2.1 ho hout hen
    have hnow : (s.after r io).io.now = s.io.now := hk.now
    rw [hs.frames, hnow]
    exact h.keepalive_passed hdsp hka hread

section

variable (hi : Inv cfg s)
include hi

lemma did_round (hok : s.Timely (.round r)) (hst : step s (.round r) = some s') :
    Inv cfg s' ∧ Justified cfg s s' (.round r) := by
  obtain ⟨hif, -⟩ := of_guard hst
  obtain ⟨io, rfl, hk⟩ := kept hi hok hst
  have hbuf : (s.after r io).buf ≤ s.buf := by
    have hall := hif.2
    unfold after
    cases hd : s.decoded r with
    | none => exact le_refl _
    | some d =>
      rw [hd] at hall
      exact of_decide_eq_true hall
  have hframes : ∀ f ∈ (s.after r io).frames, f ≤ s.io.now := by
    unfold after
    dsimp only
    split
    · exact forall_mem_cons.2 ⟨le_refl _, hi.frames⟩
    · exact hi.frames
  have hnow : (s.after r io).io.now = s.io.now := hk.now
  have hrest : ((s.turned r).st.is_open → Running cfg (s.turned r).timing (s.after r io)) → Inv cfg (s.after r io) :=
    fun hrun => ⟨hk.inv, hk.conn, hnow ▸ hframes, hnow ▸ hi.reads, lt_of_le_of_lt hbuf hi.small, hrun⟩
  cases ho : s.disp.st.is_open with
  | true =>
    have h := hi.running ho
    cases hd : s.decodes r with
    | true =>
      obtain ⟨hrun, hj⟩ := running_decodes hi h hk hok hd
      exact ⟨hrest hrun, hj⟩
    | false =>
      obtain ⟨hrun, hj⟩ := running_rounded h hk hok ho hd
      exact ⟨hrest fun _ => hrun, hj⟩
  | false =>
    have hclosed : (s.turned r).st.is_open = false ∧ Quiet s.disp.log (s.turned r).log := calm_closed ho
    exact ⟨hrest fun h => (nomatch hclosed.1.symm.trans h), .quiet hclosed.2⟩

lemma did_disp {d : DispatcherInner U Err} (hd : d.st = s.disp.st ∧ DispatcherInner.Calm s.disp d)
    (i : Step U Err) : Inv cfg { s with disp := d } ∧ Justified cfg s { s with disp := d } i := by
  obtain ⟨hopen, hcalm⟩ := hd
  refine ⟨{ hi with running := fun ho => ?_ }, .quiet hcalm.log⟩
  have h := hi.running (hopen ▸ ho)
  exact hcalm.timing ▸ { h with }

lemma inv_read {n : Nat} (hok : s.buf + n < 2 ^ 32) :
    Inv cfg { s with buf := s.buf + n, reads := (s.io.now, n) :: s.reads } := by
  refine { hi with reads := forall_mem_cons.2 ⟨le_refl _, hi.reads⟩, small := hok, running := fun ho => ?_ }
  have h := hi.running ho
  refine { h with
    reading := fun hread => ?_
    left := fun hne => lt_of_lt_of_le (h.left hne) (le_add_right _ _) }
  obtain ⟨hpos, params, hp, hall⟩ := h.reading hread
  refine ⟨lt_of_lt_of_le hpos (le_add_right _ _), params, hp, fun timeout now heq => ?_⟩
  obtain ⟨ht, hbytes, hsince⟩ := hall timeout now heq
  refine ⟨ht, ?_, hsince⟩
  have hone : (if now < s.io.now then n else 0) ≤ n := by
    split
    · exact le_refl _
    · exact zero_le _
  have hsum : received_after { s with buf := s.buf + n, reads := (s.io.now, n) :: s.reads } now =
      (if now < s.io.now then n else 0) + s.received_after now := sum_cons
  dsimp only
  omega

lemma inv_io {i : IoManager.Step} (htouch : i.touches s.c = false)
    (hne : i ≠ .check_dispatcher_timeout s.c) (hok : s.io.Timely i) (hst : s.io.step i = some io) : Inv cfg { s with io } := by
  have hnow := IoManager.now_le_step hst
  obtain ⟨x, hx, hl, hset⟩ := hi.conn
  have hdsp : s.dsp_timeout = x.dsp_timeout := by
    unfold Timeouts.dsp_timeout
    rw [hx]
  have hdsp' : ∀ y, io.ios[s.c]? = some y → ({ s with io } : Timeouts U Err).dsp_timeout = y.dsp_timeout := by
    intro y hy
    unfold Timeouts.dsp_timeout
    rw [hy]
  have hframes : ∀ f ∈ s.frames, f ≤ io.now := fun f hf => le_trans (hi.frames f hf) hnow
  have hreads : ∀ r ∈ s.reads, r.1 ≤ io.now := fun r hr => le_trans (hi.reads r hr) hnow
  have hinv := IoManager.inv_step hi.io hok hst
  rcases IoManager.untouched_step hst htouch hne hx with hsame | ⟨rfl, hf, hfired⟩
  · refine ⟨hinv, ⟨x, hsame, hl, hset⟩, hframes, hreads, hi.small, fun ho => ?_⟩
    have h := hi.running ho
    refine { h with due := fun hd hflag => ?_ }
    rw [hdsp' x hsame, ← hdsp] at hd
    obtain ⟨timeout, now, heq, hle⟩ := h.due hd hflag
    exact ⟨timeout, now, heq, le_trans hle hnow⟩
  · refine ⟨hinv, ⟨_, hfired, hl, nofun⟩, hframes, hreads, hi.small, fun ho => ?_⟩
    have h := hi.running ho
    refine { h with due := fun _ _ => ?_ }
    obtain ⟨st, hs, -⟩ := hi.io.fires hx hf
    obtain ⟨-, -, hle⟩ := hi.io.fires_in_time hok.1 hx hs hf
    exact ⟨st.timeout, st.now, hset st hs, le_trans hle hnow⟩

lemma did_step {i : Step U Err} (hok : s.Timely i) (hst : step s i = some s') : Inv cfg s' ∧ Justified cfg s s' i := by
  cases i with
  | poll answer =>
    obtain ⟨d, hd, rfl⟩ := of_map hst
    exact did_disp hi (calm_poll hd) _
  | round r => exact did_round hi hok hst
  | reply answer =>
    obtain ⟨d, hd, rfl⟩ := of_map hst
    exact did_disp hi (calm_reply hd) _
  | read n =>
    cases hst
    exact ⟨inv_read hi hok, .quiet (.refl _)⟩
  | io i =>
    obtain ⟨hif, hst⟩ := of_guard hst
    obtain ⟨io, hio, rfl⟩ := of_map hst
    exact ⟨inv_io hi hif.1 hif.2 hok hio, .quiet (.refl _)⟩

end

lemma inv_new {io₀ io : IoManager} {id : Nat} (h : IoManager.Inv io₀) (hid : io₀.step (.register id) = some io) (cfg : Config) :
    Inv cfg (new cfg io io₀.ios.length : Timeouts U Err) := by
  have hinv := IoManager.inv_step (i := .register id) h trivial hid
  obtain ⟨-, rfl⟩ := of_ite hid
  refine ⟨hinv, ⟨_, getElem?_concat_length, nofun, nofun⟩, nofun, nofun, Nat.two_pow_pos 32, fun _ => ?_⟩
  exact ⟨rfl, rfl, fun _ hf => hf.elim nofun nofun, nofun, nofun, fun hne => absurd rfl hne⟩

/-- `Stop(KeepAliveTimeout)` is called only with keep-alive enabled and after that time without a frame, `Stop(ReadTimeout)`
only for an incomplete frame that did not grow by the rate in the last period, or whose time is over. -/
theorem idle_stops_justified {io₀ io : IoManager} {id : Nat} (hio : Reach IoManager.step IoManager.Timely .new io₀)
    (hid : io₀.step (.register id) = some io) (h : Reach step Timely (new cfg io io₀.ios.length) s) {i : Step U Err}
    (hok : s.Timely i) (hst : step s i = some s') : Justified cfg s s' i := by
  have hinv := h.inv (Inv cfg) (inv_new (IoManager.inv_of_reach hio) hid cfg) fun _ _ _ hi hok hst => (did_step hi hok hst).1
  exact (did_step hinv hok hst).2

/-- The dispatcher of a service that does not fail. -/
abbrev Plain := Timeouts ⟨Unit, Empty, Empty⟩ Empty

abbrev PlainStep := Step ⟨Unit, Empty, Empty⟩ Empty

/-- The service is ready and there is nothing to decode. -/
def idle : PlainStep := .round { ready := some (.ok ()) }

/-- A frame is decoded and answered. -/
def frame : PlainStep := .round { ready := some (.ok ()), decode := .ok ⟨some (), 0⟩, answer := some (.ok none) }

def second : List PlainStep := [.io (.advance 1000), .io .tick]

def alone : IoManager := (IoManager.new.step (.register 1)).getD .new

/-- A frame comes, and then nothing for two seconds. -/
theorem idle_stops_justified_two :
    ∃ (s s' : Plain) (i : PlainStep),
      Reach step Timely (new ⟨1, none⟩ alone 0) s ∧ s.Timely i ∧ step s i = some s' ∧ s'.frames = [0] ∧
      calls Reason.is_keepalive s.disp.log s'.disp.log = true ∧ ∀ f ∈ s'.frames, f + (1 - 1) * 1000 ≤ s'.io.now := by
  have hrun : ((run step Timely (new ⟨1, none⟩ alone 0 : Plain) ([.read 4, .poll none,
      frame, idle] ++ second ++ second ++ [.poll none])).bind fun s =>
        (step s idle).map fun s' => (decide (s.Timely idle),
          calls Reason.is_keepalive s.disp.log s'.disp.log, s'.frames)) = some (true, true, [0]) := by decide +kernel
  obtain ⟨s, s', hs, hst, hboth⟩ := Reach.of_run_step _ hrun
  obtain ⟨hok, hrest⟩ := Prod.mk.inj hboth
  obtain ⟨hcall, hframes⟩ := Prod.mk.inj hrest
  have hok := of_decide_eq_true hok
  have hid : IoManager.new.step (.register 1) = some alone := rfl
  exact ⟨s, s', _, hs, hok, hst, hframes, hcall, ((idle_stops_justified .refl hid hs hok hst).keepalive hcall).2⟩

/-- The read timer of a frame fires after the frame was answered. A frame is answered after the timer has fired and before
the flag is looked at. And bytes that come in between are not counted. -/
theorem idle_stops_unjustified :
    (∃ (s s' : Plain) (i : PlainStep),
      Reach step (fun _ _ => True) (new ⟨0, some ⟨1, 0, 10⟩⟩ alone 0) s ∧ step s i = some s' ∧
      calls Reason.is_keepalive s.disp.log s'.disp.log = true) ∧
    (∃ (s s' : Plain) (i : PlainStep),
      Reach step (fun _ _ => True) (new ⟨2, none⟩ alone 0) s ∧ step s i = some s' ∧
      (calls Reason.is_keepalive s.disp.log s'.disp.log, s'.frames, s'.io.now) = (true, [3000], 3000)) ∧
    ∃ (s s' : Plain) (i : PlainStep),
      Reach step (fun _ _ => True) (new ⟨0, some ⟨1, 0, 1⟩⟩ alone 0) s ∧ step s i = some s' ∧
      (calls Reason.is_read s.disp.log s'.disp.log, s'.received_after (s'.io.now - 1 * 1000)) = (true, 5) := by
  refine ⟨?_, ?_, ?_⟩
  · have hrun : ((run step (fun _ _ => True) (new ⟨0, some ⟨1, 0, 10⟩⟩ alone 0 : Plain)
        ([.read 3, .poll none, .round { ready := some (.ok ()), decode := .ok ⟨none, 3⟩ }, .read 2, .poll none, frame, idle] ++
          second ++ second ++ [.poll none])).bind fun s =>
          (step s idle).map fun s' => calls Reason.is_keepalive s.disp.log s'.disp.log) = some true := by
      decide +kernel
    obtain ⟨s, s', h⟩ := Reach.of_run_step _ hrun
    exact ⟨s, s', _, h⟩
  · have hrun : ((run step (fun _ _ => True) (new ⟨2, none⟩ alone 0 : Plain)
        ([.poll none, idle] ++ second ++ second ++ second ++ [.read 5, .poll none, frame])).bind fun s =>
          (step s idle).map fun s' =>
            (calls Reason.is_keepalive s.disp.log s'.disp.log, s'.frames, s'.io.now)) = some (true, [3000], 3000) := by
      decide +kernel
    obtain ⟨s, s', h⟩ := Reach.of_run_step _ hrun
    exact ⟨s, s', _, h⟩
  · have hrun : ((run step (fun _ _ => True) (new ⟨0, some ⟨1, 0, 1⟩⟩ alone 0 : Plain)
        ([.read 1, .poll none, .round { ready := some (.ok ()), decode := .ok ⟨none, 1⟩ }] ++ second ++ second ++
          [.read 5, .poll none])).bind fun s =>
          (step s (.round { ready := some (.ok ()), decode := .ok ⟨none, 6⟩ })).map fun s' =>
            (calls Reason.is_read s.disp.log s'.disp.log, s'.received_after (s'.io.now - 1 * 1000))) = some (true, 5) := by
      decide +kernel
    obtain ⟨s, s', h⟩ := Reach.of_run_step _ hrun
    exact ⟨s, s', _, h⟩

end Timeouts

end Geario.Dispatcher
