import Geario.Io.Moves
import Geario.Lib.Run
import Geario.Polling.Stream
/-!
# A full flush

The application writes and asks `poll_flush` until it is told that everything
has gone out. What it is told is taken from the sizes of the first write buffer
and the last, and from `WR_FLUSH`, which an earlier call has set. So the answer
is right as long as

* the layers behind the first pass on all they get, so that no byte stays between
  two layers, where it is not counted,
* a write that fails while a full flush is going on has not taken all that was
  left: its pages are gone, and `WR_FLUSH` hides that the connection is closed,
* a layer that is shut down has passed on all it had, since what is left in its
  buffer is discarded.
-/
open Geario.Io
open Lib (Reach run of_map)
open List Bool

namespace Geario.Polling

open Stack

def WriteResult.accepted (pages : List Data) : WriteResult → Data
  | .ready n => pages.flatten.take n
  | .pending | .error _ => []

def WriteResult.is_ready : WriteResult → Bool
  | .ready _ => true
  | .pending | .error _ => false

structure Sender where
  io : IoState
  written : Data
  accepted : Data

namespace Sender

structure Write where
  calls : List MoveCall
  cuts : List Nat
  result : WriteResult

def Write.pass (w : Write) (io : IoState) : IoState := Chain.or_terminate (Chain.write_pass (w.calls.map (·.toCall)) io)

def stream_write (w : Write) (io : IoState) : Option (IoTaskStatus × IoState) :=
  let io := w.pass io
  (gather MAX_WRITE_ITEMS MAX_WRITE_SIZE w.cuts io.buffer.write).map fun (pages, rest) =>
    let (status, stop, write) := write_pages w.result pages rest
    let io := if stop then io.terminate_connection none else io
    { io with buffer := io.buffer.set_write write }.update_write_status status

def sent (w : Write) (io : IoState) : Data :=
  match gather MAX_WRITE_ITEMS MAX_WRITE_SIZE w.cuts (w.pass io).buffer.write with
  | some (pages, _) => w.result.accepted pages
  | none => []

/-- A write that fails with its pages leaves something behind. -/
def Write.spares (w : Write) (io : IoState) : Bool :=
  match w.result, gather MAX_WRITE_ITEMS MAX_WRITE_SIZE w.cuts (w.pass io).buffer.write with
  | .error _, some (pages, rest) => pages = [] || rest ++ (w.pass io).buffer.above ≠ []
  | _, _ => true

def hnd_write : Option Write → IoState → IoState
  | some w, io => ((stream_write w io).map (·.2)).getD io
  | none, io => io

def sent_at : Option Write → Option IoState → Data
  | some w, some io => sent w io
  | _, _ => []

/-- The write that is made, if there is one. -/
def attempt_at (w : Option Write) (t : Option IoState) : Option (Write × IoState) := w.bind fun w => t.map fun io => (w, io)

def spares_at (w : Option Write) (t : Option IoState) : Bool := (attempt_at w t).all fun a => a.1.spares a.2

def stream_read (read : List MoveCall) (notify : Bool) (write : List MoveCall) (io : IoState) (result : ReadResult) : IoState :=
  let i : Chain.Input := { read := read.map (·.toCall), notify, write := write.map (·.toCall), hnd_write := none }
  let (buf, io) := io.get_read_buf
  match result with
  | .eof => (Chain.update_read_status i (io.terminate_connection none) buf (.ok 0)).2
  | .data d => (Chain.update_read_status i io (buf ++ d) (.ok d.length)).2
  | .error e => (Chain.update_read_status i io buf (.error e)).2
  | .pending => (Chain.update_read_status i io buf (.ok 0)).2

inductive Step
  | with_write_buf (d : Data) (w : Option Write)
  | poll_flush (full : Bool) (calls : List MoveCall) (w : Option Write)
  | run (w : Option Write)
  /-- the driver tries to write: after an event, for the io task, or because a call of the handle was put off -/
  | write (w : Write)
  | read (result : ReadResult) (read : List MoveCall) (notify : Bool) (write : List MoveCall)
  | close
  | shutdown_filters (write : List MoveCall) (calls : List (Option ShutdownCall)) (elapsed : Bool) (w : Option Write)
  /-- a hang-up, an error of the poller, a timeout or `terminate` -/
  | stop (err : Option IoError)

def Step.data : Step → Data
  | .with_write_buf d _ => d
  | _ => []

def new (cfg : IoConfig) (layers : Option Nat) : Sender := { io := .new cfg layers, written := [], accepted := [] }

def appended (io : IoState) (d : Data) : IoState :=
  { io with buffer := .of_buffers { io.buffer.first with write := io.buffer.first.write ++ d } io.buffer.rest }

def flush_at (calls : List MoveCall) (io : IoState) : Option IoState :=
  match Chain.process_write_buf_force (calls.map (·.toCall)) io with
  | (.ok _, io) => io.consolidate_write_state_at false
  | (.error _, _) => none

def shutdown_at (write : List MoveCall) (calls : List (Option ShutdownCall)) (io : IoState) : Option IoState :=
  if io.flags.is_shutting_down_filters then
    match Chain.process_shutdown (write.map (·.toCall)) calls io with
    | (.ok _, io) => io.consolidate_write_state_at true
    | (.error _, _) => none
  else none

def flush (s : Sender) (full : Bool) (calls : List MoveCall) (w : Option Write) :
    Option (Except (Option IoError) Unit) × IoState :=
  Chain.poll_flush (calls.map (·.toCall)) (hnd_write w) s.io full

def step (s : Sender) : Step → Option Sender
  | .with_write_buf d w =>
    (Chain.write (hnd_write w) s.io (· ++ d)).map fun io =>
      { io, written := s.written ++ d
        accepted := s.accepted ++ sent_at w ((appended s.io d).consolidate_write_state_at false) }
  | .poll_flush full calls w =>
    some { s with io := (s.flush full calls w).2, accepted := s.accepted ++ sent_at w (flush_at calls s.io) }
  | .run w => some { s with io := s.io.ops_send_buf (hnd_write w), accepted := s.accepted ++ sent_at w s.io.ops_send_buf_at }
  | .write w => (stream_write w s.io).map fun r => { s with io := r.2, accepted := s.accepted ++ sent w s.io }
  | .read result read notify write => some { s with io := stream_read read notify write s.io result }
  | .close => some { s with io := s.io.start_shutdown }
  | .shutdown_filters write calls elapsed w =>
    some { s with
      io := Chain.shutdown_filters (write.map (·.toCall)) calls (hnd_write w) s.io elapsed
      accepted := s.accepted ++ sent_at w (shutdown_at write calls s.io) }
  | .stop err => some { s with io := s.io.terminate_connection err }

/-- The driver's write in a step, and the state in which it is called. -/
def attempt (s : Sender) : Step → Option (Write × IoState)
  | .with_write_buf d w => attempt_at w ((appended s.io d).consolidate_write_state_at false)
  | .poll_flush _ calls w => attempt_at w (flush_at calls s.io)
  | .run w => attempt_at w s.io.ops_send_buf_at
  | .write w => attempt_at (some w) (some s.io)
  | .shutdown_filters write calls _ w => attempt_at w (shutdown_at write calls s.io)
  | .read .. | .close | .stop _ => none

/-- Each of these layers is called, does not fail and passes on all that is in its source. -/
def passes_all : List MoveCall → Buffer → List Buffer → Bool → Bool
  | c :: calls, curr, next :: rest, wants_write =>
    let b := FilterBuf.touch_all { curr, next, wants_write } c.touches
    c.result.isOk && b.curr.write = [] && passes_all calls b.next rest b.wants_write
  | [], _, _ :: _, _ => false
  | _, _, [], _ => true

/-- The layers behind the first pass on all they get. -/
def forwards (calls : List MoveCall) (stack : Stack) : Bool :=
  match calls, stack.rest with
  | c :: calls, next :: rest =>
    let b := FilterBuf.touch_all { curr := stack.first, next, wants_write := true } c.touches
    c.result.isOk && passes_all calls b.next rest b.wants_write
  | [], rest => rest.length ≤ 1
  | _ :: _, [] => true

/-- While a full flush is going on, a write that fails has not taken all that was left, and once bytes were lost that way
the socket accepts nothing more; in a full flush that does not fail the layers behind the first pass on all they get; a layer
that is shut down has nothing left. -/
def Unhurt (s : Sender) (i : Step) : Prop :=
  (s.io.flags.wr_flush = true → (s.attempt i).all (fun a => a.1.spares a.2) = true ∧
    (s.io.flags.io_stopped = true → s.accepted ++ s.io.buffer.outgoing ≠ s.written →
      (s.attempt i).all (fun a => !a.1.result.is_ready) = true)) ∧
  match i with
  | .poll_flush true calls w =>
    (Chain.process_write_buf_force (calls.map (·.toCall)) s.io).1.isOk = true →
      forwards calls s.io.buffer = true ∧
      w.all (fun w => forwards w.calls (Chain.process_write_buf_force (calls.map (·.toCall)) s.io).2.buffer) = true
  | .shutdown_filters write calls _ _ =>
    s.io.flags.is_shutting_down_filters = true →
      (Chain.process_shutdown (write.map (·.toCall)) calls s.io).2.buffer.outgoing = s.io.buffer.outgoing
  | _ => True

instance (s : Sender) (i : Step) : Decidable (s.Unhurt i) := by
  refine @instDecidableAnd _ _ _ ?_
  split <;> infer_instance

variable {s s' : Sender} {i : Step} {io : IoState}

/-! ## Flags -/

/-- A stopped connection stays stopped, and only `poll_flush` asks for a full flush. -/
structure Flushing (io io' : IoState) : Prop where
  stopped : io.flags.io_stopped = true → io'.flags.io_stopped = true
  wr_flush : io'.flags.wr_flush = io.flags.wr_flush

namespace Flushing

lemma refl (io : IoState) : Flushing io io := ⟨fun hs => hs, rfl⟩

lemma trans {io₁ io₂ io₃ : IoState} (h : Flushing io₁ io₂) (h' : Flushing io₂ io₃) : Flushing io₁ io₃ :=
  ⟨fun hs => h'.stopped (h.stopped hs), h'.wr_flush.trans h.wr_flush⟩

lemma terminate (io : IoState) (err : Option IoError) : Flushing io (io.terminate_connection err) := by
  unfold IoState.terminate_connection
  split
  · exact refl io
  · exact ⟨fun _ => rfl, rfl⟩

lemma read_processed (io : IoState) (orig : Nat) : Flushing io (io.read_processed orig) := by
  have hgrown : ∀ size, Flushing io (io.read_grown size) := by
    intro size
    unfold IoState.read_grown
    split <;> exact ⟨fun hs => hs, rfl⟩
  have hnotify : ∀ io : IoState, Flushing io io.read_notify := by
    intro io
    unfold IoState.read_notify
    split
    · exact ⟨fun hs => hs, rfl⟩
    · exact refl io
  refine .trans ?_ (hnotify _)
  split
  · exact hgrown _
  · exact refl io

lemma coversChain : IoState.CoversChain Flushing where
  trans := trans
  of_wakes h := ⟨fun hs => h.io_stopped.trans hs, h.wr_flush⟩
  of_buffer _ _ := ⟨fun hs => hs, rfl⟩
  terminate := terminate
  read_processed := read_processed

lemma isOpen {io io' : IoState} (h : Flushing io io') (ho : io'.flags.io_stopped = false) : io.flags.io_stopped = false := by
  by_contra hs
  cases ho.symm.trans (h.stopped (not_eq_false _ ▸ hs))

end Flushing

/-! ## Bytes -/

/-- The socket takes `sent` from the front of what is to be written. Bytes get lost only when the connection fails, and if
the write `spares` something, not all that was left. -/
structure Moved (spares : Bool) (io : IoState) (sent : Data) (io' : IoState) : Prop extends Flushing io io' where
  bytes : ∃ lost, io.buffer.outgoing = sent ++ (lost ++ io'.buffer.outgoing) ∧ (io'.flags.io_stopped = false → lost = []) ∧
    (spares = true → lost = [] ∨ io'.buffer.outgoing ≠ [])

section Moved

variable {io io₁ io' : IoState} {d : Data} {b : Bool}

lemma Moved.of_same (h : Flushing io io') (hb : io'.buffer.outgoing = io.buffer.outgoing) : Moved b io [] io' :=
  ⟨h, [], hb.symm, fun _ => rfl, fun _ => .inl rfl⟩

lemma Moved.before (h : Moved b io₁ d io') (h₁ : Flushing io io₁) (hb : io₁.buffer.outgoing = io.buffer.outgoing) :
    Moved b io d io' := ⟨h₁.trans h.toFlushing, hb ▸ h.bytes⟩

lemma Moved.after (h : Moved b io d io₁) (h₁ : Flushing io₁ io') (hb : io'.buffer.outgoing = io₁.buffer.outgoing) :
    Moved b io d io' := by
  obtain ⟨lost, hlost, hopen, hspares⟩ := h.bytes
  exact ⟨h.toFlushing.trans h₁, lost, hb ▸ hlost, fun ho => hopen (h₁.isOpen ho), hb ▸ hspares⟩

lemma Moved.unspared (h : Moved b io d io') : Moved false io d io' := by
  obtain ⟨lost, hlost, hopen, -⟩ := h.bytes
  exact ⟨h.toFlushing, lost, hlost, hopen, fun hs => by cases hs⟩

lemma buffer_terminate (io : IoState) (err : Option IoError) : (io.terminate_connection err).buffer = io.buffer :=
  (io.terminate_connection_spec err).1

lemma buffer_or_terminate {α : Type} (r : Except IoError α × IoState) : (Chain.or_terminate r).buffer = r.2.buffer := by
  obtain ⟨res, io⟩ := r
  cases res with
  | ok _ => rfl
  | error err => exact buffer_terminate io (some err)

lemma write_pages_bytes {result : WriteResult} {pages : List Data} {rest write : Data} {status : Except IoError Bool}
    {stop : Bool} (h : write_pages result pages rest = (status, stop, write)) :
    (∃ written, status = .ok written) ∧ pages.flatten ++ rest = result.accepted pages ++ write ∨
      (∃ err, result = .error err ∧ status = .error err) ∧ pages ≠ [] ∧ result.accepted pages = [] ∧ write = rest := by
  unfold write_pages at h
  split at h
  next hnil =>
    obtain ⟨rfl, -, rfl⟩ := h
    refine .inl ⟨⟨_, rfl⟩, ?_⟩
    subst hnil
    cases result with
    | ready n => rw [WriteResult.accepted, flatten_nil, take_nil]
    | pending | error => rfl
  next hne =>
    cases result with
    | ready n =>
      obtain ⟨rfl, -, rfl⟩ := h
      refine .inl ⟨⟨_, rfl⟩, ?_⟩
      rw [prepend_all_eq, advance_flatten, WriteResult.accepted, ← append_assoc, take_append_drop]
    | pending =>
      obtain ⟨rfl, -, rfl⟩ := h
      exact .inl ⟨⟨_, rfl⟩, prepend_all_eq.symm⟩
    | error e =>
      obtain ⟨rfl, -, rfl⟩ := h
      exact .inr ⟨⟨_, rfl, rfl⟩, hne, rfl, rfl⟩

lemma pass_same (w : Write) (io : IoState) : Flushing io (w.pass io) ∧ (w.pass io).buffer.outgoing = io.buffer.outgoing := by
  refine ⟨Flushing.coversChain.or_terminate (Flushing.coversChain.write_pass _ io), ?_⟩
  rw [Write.pass, buffer_or_terminate, Chain.outgoing_write_pass]

lemma stream_write_moved {w : Write} {st : IoTaskStatus} (h : stream_write w io = some (st, io')) :
    Moved (w.spares io) io (sent w io) io' := by
  obtain ⟨hpass, hbuf⟩ := pass_same w io
  refine .before ?_ hpass hbuf
  obtain ⟨⟨pages, rest⟩, hgather, heq⟩ := of_map h
  dsimp only at heq
  have hsent : sent w io = w.result.accepted pages := by rw [sent, hgather]
  have hpages := gather_flatten hgather
  rcases hwrite : write_pages w.result pages rest with ⟨status, stop, write⟩
  rw [hwrite] at heq
  -- the state in which the closure leaves the connection
  have hclosure : ∃ io₁ : IoState, Flushing (w.pass io) io₁ ∧ io₁.buffer.outgoing = write ++ (w.pass io).buffer.above ∧
      io₁.update_write_status status = (st, io') := by
    refine ⟨_, ?_, ?_, heq⟩
    · cases stop with
      | true => exact (Flushing.terminate _ none).trans (Flushing.coversChain.of_buffer _ _)
      | false => exact Flushing.coversChain.of_buffer _ _
    · rw [outgoing_set_write]
      cases stop with
      | true => rw [if_pos rfl, buffer_terminate]
      | false => rfl
  obtain ⟨io₁, hflags, hout, hupdate⟩ := hclosure
  rw [hsent]
  rcases write_pages_bytes hwrite with ⟨⟨written, rfl⟩, hbytes⟩ | ⟨⟨err, hres, rfl⟩, hne, hnone, rfl⟩
  · have hw := IoState.wakes_update_write_status io₁ written
    rw [hupdate] at hw
    refine ⟨hflags.trans (Flushing.coversChain.of_wakes hw), [], ?_, fun _ => rfl, fun _ => .inl rfl⟩
    rw [hw.buffer, hout, outgoing_eq, ← hpages, hbytes, nil_append, append_assoc]
  · obtain rfl : io₁.terminate_connection (some err) = io' := (Prod.mk.inj hupdate).2
    refine ⟨hflags.trans (.terminate _ _), pages.flatten, ?_, fun ho => ?_, fun hspares => .inr ?_⟩
    · rw [hnone, buffer_terminate, hout, outgoing_eq, ← hpages, nil_append, append_assoc]
    · cases ho.symm.trans (io₁.terminate_connection_spec (some err)).2.2.1
    · rw [buffer_terminate, hout]
      rw [Write.spares, hres, hgather, Bool.or_eq_true, decide_eq_true_eq, decide_eq_true_eq] at hspares
      exact hspares.resolve_left hne

lemma hnd_write_moved (w : Option Write) (io : IoState) :
    Moved (spares_at w (some io)) io (sent_at w (some io)) (hnd_write w io) := by
  cases w with
  | none => exact .of_same (.refl io) rfl
  | some w =>
    rw [hnd_write, sent_at]
    cases hw : stream_write w io with
    | some r => exact stream_write_moved hw
    | none =>
      have hsent : sent w io = [] := by
        rw [sent, Option.map_eq_none_iff.1 hw]
      rw [hsent]
      exact .of_same (.refl io) rfl

lemma moved_of_wakes (h : io.Wakes io') : Moved b io [] io' :=
  .of_same (Flushing.coversChain.of_wakes h) (congrArg outgoing h.buffer)

lemma moved_of_calls {w : Option Write} {t : Option IoState} (h : io.Calls (hnd_write w) t io') :
    Moved (spares_at w t) io (sent_at w t) io' := by
  cases t with
  | none =>
    have hsent : sent_at w none = [] := by cases w <;> rfl
    rw [hsent]
    exact moved_of_wakes h
  | some t =>
    refine ((hnd_write_moved w t).before (Flushing.coversChain.of_wakes h.1) (congrArg outgoing h.1.buffer)).after ?_ ?_
    · exact Flushing.coversChain.of_wakes h.2
    · exact congrArg outgoing h.2.buffer

end Moved

/-! ## Steps -/

structure Stepped (s : Sender) (i : Step) (s' : Sender) : Prop where
  stopped : s.io.flags.io_stopped = true → s'.io.flags.io_stopped = true
  wr_flush : s'.io.flags.io_stopped = true → s'.io.flags.wr_flush = true → s.io.flags.wr_flush = true
  data : s.io.flags.io_stopped = true → i.data = []
  written : s'.written = s.written ++ i.data
  bytes : ∃ sent lost, s'.accepted = s.accepted ++ sent ∧
    s.io.buffer.outgoing ++ i.data = sent ++ (lost ++ s'.io.buffer.outgoing) ∧ (s'.io.flags.io_stopped = false → lost = []) ∧
    ((s.attempt i).all (fun a => a.1.spares a.2) = true → lost = [] ∨ s'.io.buffer.outgoing ≠ []) ∧
    ((s.attempt i).all (fun a => !a.1.result.is_ready) = true → sent = [])

/-- A write that is not ready has sent nothing. -/
lemma sent_at_unready {w : Option Write} {t : Option IoState} (h : (attempt_at w t).all (fun a => !a.1.result.is_ready) = true) :
    sent_at w t = [] := by
  cases w with
  | none => rfl
  | some w =>
    cases t with
    | none => rfl
    | some io =>
      have hres : w.result.is_ready = false := by simpa [attempt_at] using h
      rw [sent_at, sent]
      split
      · cases hr : w.result with
        | ready n =>
          rw [hr] at hres
          cases hres
        | pending | error => rfl
      · rfl

lemma Stepped.of_moved {w : Option Write} {t : Option IoState} (h : Moved (spares_at w t) s.io (sent_at w t) io)
    (hi : s.attempt i = attempt_at w t) (hd : i.data = []) :
    Stepped s i { s with io, accepted := s.accepted ++ sent_at w t } := by
  obtain ⟨lost, hlost, hopen, hspares⟩ := h.bytes
  refine ⟨h.stopped, fun _ hf => h.wr_flush.symm.trans hf, fun _ => hd, ?_, _, lost, rfl, ?_, hopen,
    hi ▸ hspares, hi ▸ sent_at_unready⟩
  · rw [hd, append_nil]
  · rw [hd, append_nil, hlost]

lemma Stepped.of_same (h : Flushing s.io io) (hb : io.buffer.outgoing = s.io.buffer.outgoing) (hd : i.data = []) :
    Stepped s i { s with io } := by
  refine ⟨h.stopped, fun _ hf => h.wr_flush.symm.trans hf, fun _ => hd, ?_, [], [], (append_nil _).symm, ?_, fun _ => rfl,
    fun _ => .inl rfl, fun _ => rfl⟩
  · rw [hd, append_nil]
  · rw [hd, append_nil, hb]
    rfl

/-- What `poll_flush` makes of the state in which it measures the buffers. -/
structure Measured (io : IoState) (full : Bool) (r : Option (Except (Option IoError) Unit) × IoState) : Prop where
  buffer : r.2.buffer = io.buffer
  stopped : r.2.flags.io_stopped = io.flags.io_stopped
  wr_flush : r.2.flags.io_stopped = true → r.2.flags.wr_flush = true → io.flags.wr_flush = true
  ok : full = true → r.1 = some (.ok ()) →
    r.2.buffer.write_buf_size = 0 ∧ (r.2.flags.io_stopped = true → io.flags.wr_flush = true)
  answered : r.2.flags.io_stopped = true → r.1 ≠ none

lemma flush_rest_measured (hnd : IoState → IoState) (io : IoState) (full : Bool) :
    Measured (io.consolidate_write_state hnd false) full (IoState.flush_rest hnd io full) := by
  unfold IoState.flush_rest
  dsimp only
  generalize io.consolidate_write_state hnd false = io₁
  have hclosed : io₁.flags.is_closed = false → io₁.flags.io_stopped → False := by
    intro hc hs
    rw [Flags.is_closed, hs, Bool.or_true] at hc
    cases hc
  split
  · split
    · exact ⟨rfl, rfl, fun _ hf => hf, (by rintro _ ⟨⟩), (by rintro _ ⟨⟩)⟩
    next hc =>
      rw [not_eq_true] at hc
      split
      · exact ⟨rfl, rfl, fun hs => (hclosed hc hs).elim, (by rintro _ ⟨⟩), fun hs => (hclosed hc hs).elim⟩
      next hfull =>
        split
        · exact ⟨rfl, rfl, fun _ hf => hf, (by rintro _ ⟨⟩), fun hs => (hclosed hc hs).elim⟩
        · split
          · exact ⟨rfl, rfl, fun _ hf => hf, (by rintro _ ⟨⟩), (by rintro _ ⟨⟩)⟩
          · exact ⟨rfl, rfl, (by rintro _ ⟨⟩), fun h => absurd h hfull, (by rintro _ ⟨⟩)⟩
  next hlen =>
    split
    · exact ⟨rfl, rfl, fun _ hf => hf, (by rintro _ ⟨⟩), (by rintro _ ⟨⟩)⟩
    next hflush =>
      refine ⟨rfl, rfl, (by rintro _ ⟨⟩), fun _ _ => ⟨Nat.eq_zero_of_not_pos hlen, fun hs => ?_⟩, (by rintro _ ⟨⟩)⟩
      by_contra hf
      rw [not_eq_true] at hf
      apply hflush
      rw [hf, Bool.not_false, Bool.and_true]
      by_contra hc
      exact hclosed (not_eq_true _ ▸ hc) hs

lemma consolidate_moved (w : Option Write) (io : IoState) (force : Bool) :
    Moved (spares_at w (io.consolidate_write_state_at force)) io (sent_at w (io.consolidate_write_state_at force))
      (io.consolidate_write_state (hnd_write w) force) :=
  moved_of_calls (io.calls_consolidate_write_state (hnd_write w) force)

lemma sent_at_none (w : Option Write) : sent_at w none = [] := by
  cases w <;> rfl

lemma flush_moved (s : Sender) (full : Bool) (calls : List MoveCall) (w : Option Write) :
    ∃ io, Moved (spares_at w (flush_at calls s.io)) s.io (sent_at w (flush_at calls s.io)) io ∧ Measured io full (s.flush full calls w) := by
  have hforce := Chain.outgoing_process_write_buf_force calls s.io
  have hflags : Flushing s.io (Chain.process_write_buf_force (calls.map (·.toCall)) s.io).2 :=
    Flushing.coversChain.of_buffer s.io _
  unfold flush Chain.poll_flush flush_at
  generalize Chain.process_write_buf_force (calls.map (·.toCall)) s.io = r at hforce hflags ⊢
  obtain ⟨res, io⟩ := r
  cases res with
  | error err =>
    rw [sent_at_none]
    exact ⟨io, .of_same hflags hforce, rfl, rfl, fun _ hf => hf, nofun, nofun⟩
  | ok _ => exact ⟨_, (consolidate_moved w io false).before hflags hforce, flush_rest_measured (hnd_write w) io full⟩

lemma shutdown_moved {write : List MoveCall} {calls : List (Option ShutdownCall)}
    (hkeep : io.flags.is_shutting_down_filters →
      (Chain.process_shutdown (write.map (·.toCall)) calls io).2.buffer.outgoing = io.buffer.outgoing)
    (w : Option Write) (elapsed : Bool) :
    Moved (spares_at w (shutdown_at write calls io)) io (sent_at w (shutdown_at write calls io))
      (Chain.shutdown_filters (write.map (·.toCall)) calls (hnd_write w) io elapsed) := by
  have hstop : ∀ io : IoState, Flushing io io.filters_stopped := fun io => ⟨fun hs => hs, rfl⟩
  unfold Chain.shutdown_filters shutdown_at
  split
  next hs =>
    have hkept := hkeep hs
    have hflags : Flushing io (Chain.process_shutdown (write.map (·.toCall)) calls io).2 := by
      have hpass := Flushing.coversChain.write_pass (write.map (·.toCall)) io
      unfold Chain.process_shutdown
      split
      next err io₁ h =>
        rw [h] at hpass
        exact hpass
      next io₁ h =>
        rw [h] at hpass
        exact hpass.trans (Flushing.coversChain.of_buffer io₁ _)
    generalize Chain.process_shutdown (write.map (·.toCall)) calls io = r at hkept hflags ⊢
    obtain ⟨res, io₁⟩ := r
    cases res with
    | error err =>
      rw [sent_at_none]
      exact (Moved.of_same hflags hkept).after (.terminate io₁ _) (congrArg outgoing (buffer_terminate io₁ _))
    | ok ready =>
      have hm := (consolidate_moved w io₁ true).before hflags hkept
      dsimp only
      split
      · exact hm.after (hstop _) rfl
      · split
        · exact hm.after (hstop _) rfl
        · split
          · exact hm.after (hstop _) rfl
          · exact hm
  · rw [sent_at_none]
    exact .of_same (.refl io) rfl

lemma stream_read_same (read write : List MoveCall) (notify : Bool) (io : IoState) (result : ReadResult) :
    Flushing io (stream_read read notify write io result) ∧
      (stream_read read notify write io result).buffer.outgoing = io.buffer.outgoing := by
  have hget : Flushing io io.get_read_buf.2 ∧ Chain.SameOutgoing io io.get_read_buf.2 := by
    unfold IoState.get_read_buf get_read_buf
    split
    · exact ⟨.refl io, rfl⟩
    · cases io.buffer.read with
      | none => exact ⟨.refl io, rfl⟩
      | some buf => exact ⟨⟨fun hs => hs, rfl⟩, by rw [Chain.SameOutgoing, outgoing_eq, outgoing_eq]; rfl⟩
  have hupdate : ∀ (io₁ : IoState) buf status, Flushing io io₁ ∧ Chain.SameOutgoing io io₁ →
      Flushing io (Chain.update_read_status ⟨read.map (·.toCall), notify, write.map (·.toCall), none⟩ io₁ buf status).2 ∧
      Chain.SameOutgoing io
        (Chain.update_read_status ⟨read.map (·.toCall), notify, write.map (·.toCall), none⟩ io₁ buf status).2 := by
    intro io₁ buf status h
    exact ⟨h.1.trans (Flushing.coversChain.update_read_status _ io₁ buf status),
      Chain.SameOutgoing.covers.trans h.2 (.update_read_status read write notify io₁ buf status)⟩
  unfold stream_read
  dsimp only
  split
  · refine hupdate _ _ _ ⟨hget.1.trans (.terminate _ none), ?_⟩
    exact Chain.SameOutgoing.covers.trans hget.2 (.terminate _ none)
  all_goals exact hupdate _ _ _ hget

lemma outgoing_appended (io : IoState) (d : Data) : (appended io d).buffer.outgoing = io.buffer.outgoing ++ d := by
  rw [appended, outgoing_of_buffers, outgoing, Chain.outgoing, Chain.outgoing, append_assoc]

lemma stepped (hg : s.Unhurt i) (h : s.step i = some s') : Stepped s i s' := by
  cases i with
  | with_write_buf d w =>
    obtain ⟨io, hio, rfl⟩ := of_map h
    obtain ⟨hopen, rfl⟩ := Lib.of_ite_not hio
    have hm := consolidate_moved w (appended s.io d) false
    obtain ⟨lost, hlost, hl, hspares⟩ := hm.bytes
    rw [outgoing_appended] at hlost
    refine ⟨hm.stopped, fun _ hf => hm.wr_flush.symm.trans hf, fun hs => ?_, rfl, _, lost, rfl, hlost, hl, hspares, sent_at_unready⟩
    rw [Flags.is_stopping_any, hs] at hopen
    exact absurd rfl hopen
  | poll_flush full calls w =>
    cases h
    obtain ⟨io, hm, hr⟩ := s.flush_moved full calls w
    obtain ⟨lost, hlost, hl, hspares⟩ := hm.bytes
    refine ⟨fun hs => hr.stopped.trans (hm.stopped hs), fun hs hf => hm.wr_flush.symm.trans (hr.wr_flush hs hf), fun _ => rfl,
      (append_nil _).symm, _, lost, rfl, ?_, fun ho => hl (hr.stopped.symm.trans ho), ?_, sent_at_unready⟩
    · exact (append_nil _).trans (hlost.trans (congrArg (fun b : Stack => _ ++ (lost ++ b.outgoing)) hr.buffer.symm))
    · rw [← hr.buffer] at hspares
      exact hspares
  | run w =>
    cases h
    exact .of_moved (moved_of_calls (s.io.calls_ops_send_buf (hnd_write w))) rfl rfl
  | write w =>
    obtain ⟨⟨st, io⟩, hw, rfl⟩ := of_map h
    exact .of_moved (w := some w) (t := some s.io) (stream_write_moved hw) rfl rfl
  | read result read notify write =>
    cases h
    obtain ⟨hflags, hbuf⟩ := stream_read_same read write notify s.io result
    exact .of_same hflags hbuf rfl
  | close =>
    cases h
    have hclose : Flushing s.io s.io.start_shutdown ∧ s.io.start_shutdown.buffer = s.io.buffer := by
      unfold IoState.start_shutdown
      split
      · exact ⟨.refl _, rfl⟩
      · exact ⟨⟨fun hs => hs, rfl⟩, rfl⟩
    exact .of_same hclose.1 (congrArg outgoing hclose.2) rfl
  | shutdown_filters write calls elapsed w =>
    cases h
    exact .of_moved (shutdown_moved hg.2 w elapsed) rfl rfl
  | stop err =>
    cases h
    exact .of_same (.terminate s.io err) (congrArg outgoing (buffer_terminate s.io err)) rfl

/-! ## Between the layers -/

/-- Nothing is in the buffers between two layers. -/
def Clear (stack : Stack) : Prop := ∀ b ∈ stack.rest.dropLast, b.write = []

lemma empty_dropLast_cons {a : Buffer} {l rest : List Buffer} (hnil : l = [] ↔ rest = []) (hfirst : rest ≠ [] → a.write = [])
    (hmid : ∀ b ∈ l.dropLast, b.write = []) : ∀ b ∈ (a :: l).dropLast, b.write = [] := by
  by_cases hr : rest = []
  · rw [hnil.2 hr]
    nofun
  · rw [dropLast_cons_of_ne_nil fun h0 => hr (hnil.1 h0)]
    exact forall_mem_cons.2 ⟨hfirst hr, hmid⟩

lemma process_passes_all {calls : List MoveCall} {first : Buffer} {rest : List Buffer} {wants : Bool}
    (h : passes_all calls first rest wants) :
    ((Chain.process_write_buf (calls.map (·.toCall)) first rest wants).rest = [] ↔ rest = []) ∧
      (rest ≠ [] → (Chain.process_write_buf (calls.map (·.toCall)) first rest wants).first.write = []) ∧
      ∀ b ∈ (Chain.process_write_buf (calls.map (·.toCall)) first rest wants).rest.dropLast, b.write = [] := by
  induction calls generalizing first rest wants with
  | nil =>
    cases rest with
    | nil => exact ⟨Iff.rfl, fun hne => absurd rfl hne, nofun⟩
    | cons => cases h
  | cons c calls ih =>
    cases rest with
    | nil => exact ⟨Iff.rfl, fun hne => absurd rfl hne, nofun⟩
    | cons next rest =>
      rw [passes_all, Bool.and_eq_true, Bool.and_eq_true, decide_eq_true_eq] at h
      obtain ⟨⟨hok, hempty⟩, hrest⟩ := h
      obtain ⟨hnil, hfirst, hmid⟩ := ih hrest
      rw [map_cons, Chain.process_write_buf]
      split
      next herr =>
        rw [herr] at hok
        cases hok
      · exact ⟨by simp, fun _ => hempty, empty_dropLast_cons hnil hfirst hmid⟩

lemma clear_forwards {calls : List MoveCall} (h : forwards calls io.buffer) :
    Clear (Chain.process_write_buf_force (calls.map (·.toCall)) io).2.buffer := by
  unfold Clear Chain.process_write_buf_force
  rw [rest_of_buffers]
  unfold forwards at h
  cases calls with
  | nil =>
    intro b hb
    have hlen : io.buffer.rest.length ≤ 1 := of_decide_eq_true h
    have hpos := length_pos_of_mem hb
    rw [length_dropLast] at hpos
    have hsame : (Chain.process_write_buf [] io.buffer.first io.buffer.rest true).rest = io.buffer.rest := rfl
    rw [map_nil, hsame] at hpos
    omega
  | cons c calls =>
    generalize io.buffer.rest = rest at h ⊢
    cases rest with
    | nil => nofun
    | cons next rest =>
      rw [Bool.and_eq_true] at h
      obtain ⟨hnil, hfirst, hmid⟩ := process_passes_all h.2
      rw [map_cons, Chain.process_write_buf]
      split
      next herr =>
        rw [herr] at h
        cases h.1
      · exact empty_dropLast_cons hnil hfirst hmid

lemma dropLast_set_write (stack : Stack) (write : Data) : (stack.set_write write).rest.dropLast = stack.rest.dropLast := by
  unfold Stack.rest Stack.set_write
  cases stack.layers with
  | none => rfl
  | some l => rw [dropLast_concat, dropLast_concat]

lemma clear_hnd_write {w : Option Write} (h : Clear io.buffer) (hw : w.all fun w => forwards w.calls io.buffer) :
    Clear (hnd_write w io).buffer := by
  cases w with
  | none => exact h
  | some w =>
    have hpass : Clear (w.pass io).buffer := by
      rw [Write.pass, buffer_or_terminate]
      unfold Chain.write_pass
      split
      · exact h
      · exact clear_forwards hw
    rw [hnd_write]
    cases hs : stream_write w io with
    | none => exact h
    | some r =>
      obtain ⟨⟨pages, rest⟩, -, rfl⟩ := of_map hs
      dsimp only
      rcases write_pages w.result pages rest with ⟨status, stop, write⟩
      have hbuffer : ∀ (io : IoState) status, (io.update_write_status status).2.buffer = io.buffer := by
        intro io status
        cases status with
        | ok written => exact (IoState.wakes_update_write_status io written).buffer
        | error err => exact buffer_terminate io (some err)
      rw [Option.map_some, Option.getD_some, hbuffer, Clear, dropLast_set_write]
      cases stop with
      | true =>
        rw [if_pos rfl, buffer_terminate]
        exact hpass
      | false => exact hpass

/-- A full flush whose layers pass on all they get leaves nothing between them. -/
lemma clear_flush {calls : List MoveCall} {w : Option Write} (hg : s.Unhurt (.poll_flush true calls w))
    (hres : (s.flush true calls w).1 = some (.ok ())) : Clear (s.flush true calls w).2.buffer := by
  have hforwards : (Chain.process_write_buf_force (calls.map (·.toCall)) s.io).1.isOk = true →
      forwards calls s.io.buffer = true ∧
      w.all (fun w => forwards w.calls (Chain.process_write_buf_force (calls.map (·.toCall)) s.io).2.buffer) = true := hg.2
  unfold flush Chain.poll_flush at hres ⊢
  have hclear : forwards calls s.io.buffer → Clear (Chain.process_write_buf_force (calls.map (·.toCall)) s.io).2.buffer :=
    clear_forwards
  generalize Chain.process_write_buf_force (calls.map (·.toCall)) s.io = r at hforwards hclear hres ⊢
  obtain ⟨res, io⟩ := r
  cases res with
  | error err => cases hres
  | ok _ =>
    obtain ⟨hcalls, hw⟩ := hforwards rfl
    have hio := hclear hcalls
    have hc := io.calls_consolidate_write_state (hnd_write w) false
    dsimp only
    rw [(flush_rest_measured (hnd_write w) io true).buffer]
    generalize io.consolidate_write_state_at false = t at hc
    cases t with
    | none => exact hc.buffer ▸ hio
    | some t =>
      rw [hc.2.buffer]
      refine clear_hnd_write ?_ ?_
      · rw [hc.1.buffer]
        exact hio
      · rw [hc.1.buffer]
        exact hw

/-! ## Runs -/

/-- Every byte is accounted for. When the connection has failed during a full flush, bytes are missing only if there are
others that were not accepted. -/
structure Accounted (s : Sender) : Prop where
  bytes : s.io.flags.io_stopped = false → s.accepted ++ s.io.buffer.outgoing = s.written
  flushed : s.io.flags.io_stopped = true → s.io.flags.wr_flush = true →
    s.accepted ++ s.io.buffer.outgoing = s.written ∨ s.io.buffer.outgoing ≠ []

section

variable (h : s.Accounted) (hg : s.Unhurt i) (hst : s.step i = some s')
include h hg hst

lemma Accounted.settled (hf : s.io.flags.wr_flush) :
    s'.accepted ++ s'.io.buffer.outgoing = s'.written ∨ s'.io.buffer.outgoing ≠ [] := by
  have hstep := stepped hg hst
  obtain ⟨sent, lost, hacc, hbytes, -, hspares, hunready⟩ := hstep.bytes
  obtain ⟨hattempt, hlater⟩ := hg.1 hf
  rcases hspares hattempt with rfl | hne
  · rw [nil_append] at hbytes
    by_cases hall : s.accepted ++ s.io.buffer.outgoing = s.written
    · left
      rw [hacc, append_assoc, ← hbytes, ← append_assoc, hall, hstep.written]
    · -- bytes were lost before, and nothing is accepted any more
      right
      have hstopped : s.io.flags.io_stopped := by
        by_contra ho
        exact hall (h.bytes (not_eq_true _ ▸ ho))
      rw [hunready (hlater hstopped hall), hstep.data hstopped, append_nil, nil_append] at hbytes
      exact hbytes ▸ (h.flushed hstopped hf).resolve_left hall
  · exact .inr hne

lemma Accounted.step : s'.Accounted := by
  have hstep := stepped hg hst
  refine ⟨fun ho => ?_, fun hs hf => h.settled hg hst (hstep.wr_flush hs hf)⟩
  have hopen : s.io.flags.io_stopped = false := by
    by_contra hs
    cases ho.symm.trans (hstep.stopped (not_eq_false _ ▸ hs))
  obtain ⟨sent, lost, hacc, hbytes, hlost, -⟩ := hstep.bytes
  rw [hlost ho, nil_append] at hbytes
  rw [hacc, append_assoc, ← hbytes, ← append_assoc, h.bytes hopen, hstep.written]

end

lemma accounted_of_reach {cfg : IoConfig} {layers : Option Nat} (h : Reach step Unhurt (new cfg layers) s) : s.Accounted := by
  refine h.inv Accounted ⟨fun _ => ?_, fun hs => by cases hs⟩ fun s i s' hi hok hst => hi.step hok hst
  exact outgoing_new layers

/-- In runs that are `Unhurt` a full flush is over only when everything has gone through the layers and into the socket;
when the connection has failed before, it ends with an error. -/
theorem flush_honest {cfg : IoConfig} {layers : Option Nat} (h : Reach step Unhurt (new cfg layers) s)
    {calls : List MoveCall} {w : Option Write} (hg : s.Unhurt (.poll_flush true calls w))
    (hst : s.step (.poll_flush true calls w) = some s') :
    ((s.flush true calls w).1 = some (.ok ()) → s'.accepted = s.written ∧ s'.io.buffer.outgoing = []) ∧
      (s'.io.flags.io_stopped = true → s'.accepted ≠ s.written → ∃ err, (s.flush true calls w).1 = some (.error err)) := by
  have hinv := accounted_of_reach h
  have hok : (s.flush true calls w).1 = some (.ok ()) → s'.accepted = s.written ∧ s'.io.buffer.outgoing = [] := by
    intro hres
    obtain ⟨io, hm, hr⟩ := s.flush_moved true calls w
    obtain ⟨hsize, hflush⟩ := hr.ok rfl hres
    have hout : s'.io.buffer.outgoing = [] := by
      cases hst
      exact outgoing_nil hsize (clear_flush hg hres)
    have hwritten : s'.written = s.written := by
      cases hst
      rfl
    have hbytes : s'.accepted ++ s'.io.buffer.outgoing = s'.written := by
      cases hs : s'.io.flags.io_stopped with
      | false => exact (hinv.step hg hst).bytes hs
      | true =>
        refine (hinv.settled hg hst ?_).resolve_right fun hne => hne hout
        cases hst
        exact hm.wr_flush.symm.trans (hflush hs)
    rw [hout, append_nil, hwritten] at hbytes
    exact ⟨hbytes, hout⟩
  refine ⟨hok, fun hs hne => ?_⟩
  obtain ⟨io, -, hr⟩ := s.flush_moved true calls w
  cases hres : (s.flush true calls w).1 with
  | none =>
    cases hst
    exact absurd hres (hr.answered hs)
  | some r =>
    cases r with
    | error err => exact ⟨err, rfl⟩
    | ok _ => exact absurd (hok hres).1 hne

/-- Two bytes go through a layer and into the socket one by one. And the connection is stopped while a full flush waits. -/
theorem flush_honest_one_by_one :
    (∃ s s', Reach step Unhurt (new ⟨64, 64, 32, 0⟩ (some 0)) s ∧ s.written = [1, 2] ∧
      s.step (.poll_flush true [.move 0] none) = some s' ∧ (s.flush true [.move 0] none).1 = some (.ok ()) ∧
      s'.accepted = s.written ∧ s'.io.buffer.outgoing = []) ∧
    ∃ s err, Reach step Unhurt (new ⟨64, 64, 32, 0⟩ none) s ∧ s.io.flags.wr_flush = true ∧ s.io.flags.io_stopped = true ∧
      s.written = [1] ∧ s.accepted = [] ∧ (s.flush true [] none).1 = some (.error err) := by
  have hreach : Reach step Unhurt (new ⟨64, 64, 32, 0⟩ (some 0)) _ := .of_steps
      [.with_write_buf [1, 2] none, .poll_flush true [.move 2] none, .run (some ⟨[], [2], .ready 1⟩),
        .write ⟨[], [1], .ready 1⟩] rfl
  have hstopped : Reach step Unhurt (new ⟨64, 64, 32, 0⟩ none) _ := .of_steps
      [.with_write_buf [1] none, .poll_flush true [] none, .stop (some 104)] rfl
  refine ⟨⟨_, _, hreach, rfl, rfl, rfl, (flush_honest hreach (by decide) rfl).1 rfl⟩, ?_⟩
  obtain ⟨err, herr⟩ := (flush_honest hstopped (by decide : Unhurt _ (.poll_flush true [] none)) rfl).2 rfl (by decide)
  exact ⟨_, err, hstopped, rfl, rfl, rfl, rfl, herr⟩

/-- A flush is over and a byte has not been accepted: it is between two layers; its write has failed; its layer has been
shut down. -/
theorem flush_dishonest :
    (∃ s s', Reach step (fun _ _ => True) (new ⟨64, 64, 32, 0⟩ (some 1)) s ∧
      s.step (.poll_flush true [.move 1, .move 0] none) = some s' ∧
      (s.flush true [.move 1, .move 0] none).1 = some (.ok ()) ∧ s'.written = [1] ∧ s'.accepted = []) ∧
    (∃ s s', Reach step (fun _ _ => True) (new ⟨64, 64, 32, 0⟩ none) s ∧ s.io.flags.io_stopped = true ∧
      s.step (.poll_flush true [] none) = some s' ∧ (s.flush true [] none).1 = some (.ok ()) ∧
      s'.written = [1] ∧ s'.accepted = []) ∧
    ∃ s s', Reach step (fun _ _ => True) (new ⟨64, 64, 32, 0⟩ (some 0)) s ∧ s.step (.poll_flush true [] none) = some s' ∧
      (s.flush true [] none).1 = some (.ok ()) ∧ s'.written = [1, 2] ∧ s'.accepted = [1] := by
  refine ⟨⟨_, _, .of_steps [.with_write_buf [1] none] rfl, rfl, rfl, rfl, rfl⟩,
    ⟨_, _, .of_steps [.with_write_buf [1] none, .poll_flush true [] none, .run (some ⟨[], [1], .error 104⟩)] rfl,
      rfl, rfl, rfl, rfl, rfl⟩,
    ⟨_, _, .of_steps [.with_write_buf [1, 2] none, .close,
      .shutdown_filters [.move 1] [some ⟨[], .ok true, [(MoveCall.move 0).toCall]⟩] false none,
      .run (some ⟨[], [1], .ready 1⟩)] rfl, rfl, rfl, rfl, rfl⟩⟩

end Sender

end Geario.Polling
