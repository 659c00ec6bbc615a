import Geario.Io.State
/-!
# The two sides of a connection

The functions of `IoContext` and of the base filter, which drivers call, and
those of `IoRef` and `Io`, which the application calls. `hnd_write` is what the
driver's `Handle::write` does.
-/

namespace Geario.Io

inductive IoTaskStatus
  | Io | Pause | Stop
  deriving DecidableEq

inductive Readiness
  | Ready | Shutdown | Terminate
  deriving DecidableEq

namespace IoState

/-! ## Writing -/

def call_write (hnd_write : IoState → IoState) (s : IoState) : Bool × IoState :=
  let s := if s.handle then
      { hnd_write { s with flags.wr_paused := false, handle := false } with handle := true }
    else s
  (!s.flags.wr_paused, s)

def schedule_write (s : IoState) : IoState := { s with flags.wr_send_op := true }

/-- Something is to be written and the write task is paused: a large buffer is written at once. -/
def start_write (hnd_write : IoState → IoState) (s : IoState) (size : Nat) (force : Bool) : IoState :=
  if s.flags.direct_wr_sup ∧ (force ∨ s.cfg.write_buf_threshold ≤ size) then
    match s.call_write hnd_write with
    | (true, s) => s.schedule_write
    | (false, s) => { s with flags.wr_send_op := false }
  else s.schedule_write

def wr_backpressure (s : IoState) (size : Nat) : IoState :=
  if !s.flags.dsp_w_backpressure && s.is_wr_backpressure_needed size then
    { s with flags.dsp_w_backpressure := true }.wake_dispatch_task
  else s

def consolidate_write_state (hnd_write : IoState → IoState) (s : IoState) (force : Bool) : IoState :=
  let size := s.buffer.write_buf_size
  (if 0 < size ∧ s.flags.wr_paused then s.start_write hnd_write size force else s).wr_backpressure size

def ops_send_buf (hnd_write : IoState → IoState) (s : IoState) : IoState :=
  if s.flags.wr_send_op then
    let s := { s with flags.wr_send_op := false }
    if s.flags.wr_paused then
      match s.call_write hnd_write with
      | (true, s) => { s.wake_write_task with flags := { s.flags with wr_paused := false } }
      | (false, s) => s
    else s.wake_write_task
  else s

/-- `IoRef::with_write_buf(|buf| buf.extend_from_slice(d))`; `none` when the stream is closing. -/
def write (hnd_write : IoState → IoState) (s : IoState) (d : Data) : Option IoState :=
  if s.flags.is_stopping_any then none
  else some ({ s with buffer := s.buffer.append_write_src d }.consolidate_write_state hnd_write false)

/-- `IoContext::with_write_buf`: the filters run and `f` gets the buffer next to the driver. -/
def with_write_buf {α : Type} (s : IoState) (f : Data → α × Data) : α × IoState :=
  let buffer := s.buffer.process_write_buf
  let (a, write) := f buffer.write
  (a, { s with buffer := { buffer with write } })

def wake_flushed (s : IoState) (len : Nat) : IoState :=
  if s.flags.wr_flush then
    if len = 0 then s.wake_dispatch_task else s
  else if s.flags.dsp_w_backpressure && s.should_disable_wr_backpressure len then s.wake_dispatch_task
  else s

def wake_written (s : IoState) (written : Bool) : IoState :=
  if written && s.flags.wr_notify then
    { s with flags.wr_notify := false }.wake_read_task.wake_write_task
  else s

def write_status (s : IoState) (len : Nat) : IoTaskStatus × IoState :=
  if s.flags.is_closed then (.Stop, s)
  else if len = 0 then
    let s := { s with flags.wr_paused := true }
    (.Pause, if s.flags.io_stopping_filters then s.wake_read_task else s)
  else (.Io, { s with flags.wr_paused := false })

def update_write_status (s : IoState) (status : Except IoError Bool) : IoTaskStatus × IoState :=
  match status with
  | .ok written =>
    let len := s.buffer.write_buf_size
    ((s.wake_flushed len).wake_written written).write_status len
  | .error err => (.Stop, s.terminate_connection (some err))

def process_shutdown (hnd_write : IoState → IoState) (s : IoState) : IoState :=
  { s with buffer := s.buffer.process_shutdown }.consolidate_write_state hnd_write true

def shutdown_ready (s : IoState) : Bool := s.flags.wr_paused && !s.flags.wr_send_op

/-- `elapsed`: the timeout for the filters is over. The filters here are always ready. -/
def shutdown_filters (hnd_write : IoState → IoState) (s : IoState) (elapsed : Bool) : IoState :=
  if s.flags.is_shutting_down_filters then
    let s := s.process_shutdown hnd_write
    if s.shutdown_ready || elapsed then s.filters_stopped else s
  else s

/-- `Base::poll_read_ready`; `none` is pending. -/
def base_poll_read_ready (s : IoState) : Option Readiness × IoState :=
  if s.flags.is_closed then (some .Terminate, s)
  else
    let s := { s with read_task := s.read_task.register }
    if s.flags.io_stopping_filters then (some .Ready, s)
    else if s.flags.is_read_paused_or_backpressure then (none, s)
    else (some .Ready, s)

/-- The filters have a chance to shut down first. -/
def poll_read_ready (hnd_write : IoState → IoState) (s : IoState) (elapsed : Bool) : Option Readiness × IoState :=
  (s.shutdown_filters hnd_write elapsed).base_poll_read_ready

def poll_write_ready (s : IoState) : Option Readiness × IoState :=
  if s.flags.is_closed then (some .Terminate, s)
  else
    let s := { s with write_task := s.write_task.register }
    if s.flags.is_stopping then (some .Shutdown, s)
    else if s.flags.wr_paused then (none, s)
    else (some .Ready, s)

def shutdown (s : IoState) (flush : Bool) : Bool × IoState :=
  let registered := { s with read_task := s.read_task.register, write_task := s.write_task.register }
  if flush && !s.flags.is_stopping then
    if s.flags.wr_paused then (true, s)
    else (false, { registered with flags := { s.flags with wr_notify := true } })
  else if !s.flags.is_closed then (false, registered)
  else (true, s)

/-- `Io::poll_flush` after the filters have run; `none` is pending. -/
def flush_rest (hnd_write : IoState → IoState) (s : IoState) (full : Bool) : Option (Except (Option IoError) Unit) × IoState :=
  let s := s.consolidate_write_state hnd_write false
  let len := s.buffer.write_buf_size
  let pending := { s with dispatch_task := s.dispatch_task.register }
  let done := if s.flags.is_closed && !s.flags.wr_flush then (some (.error s.error), s)
    else (some (.ok ()), { s with flags := s.flags.unset_wr_backpressure_and_flush })
  if 0 < len then
    if s.flags.is_closed then (some (.error s.error), s)
    else if full then (none, { pending with flags := { s.flags with wr_flush := true } })
    else if s.is_wr_backpressure_needed len then (none, { pending with flags := { s.flags with dsp_w_backpressure := true } })
    else done
  else done

def poll_flush (hnd_write : IoState → IoState) (s : IoState) (full : Bool) : Option (Except (Option IoError) Unit) × IoState :=
  { s with buffer := s.buffer.push_write }.flush_rest hnd_write full

def poll_shutdown (s : IoState) : Option (Except IoError Unit) × IoState :=
  if s.flags.is_stopping then (some (match s.error with | some err => .error err | none => .ok ()), s)
  else
    let s := if s.flags.io_stopping_filters then s else s.start_shutdown
    let s := { s with flags := { s.flags.unset_all_read_flags with rd_paused := false } }.wake_read_task
    (none, { s with dispatch_task := s.dispatch_task.register })

/-! ## Reading -/

def get_read_buf (s : IoState) : Data × IoState :=
  -- the dispatcher has not looked at the buffer, so it must not be modified
  if s.flags.buf_r_ready then ([], s)
  else
    match s.buffer.get_read_buf with
    | (some buf, buffer) => (buf, { s with buffer })
    | (none, _) => ([], s)

/-- The application's buffer has grown to `size`: it is told, and above the high watermark reading is paused. -/
def read_grown (s : IoState) (size : Nat) : IoState :=
  { s with
    flags := if s.is_rd_backpressure_needed size then s.flags.set_read_ready_and_backpressure
      else { s.flags with buf_r_ready := true } }.wake_dispatch_task

def read_notify (s : IoState) : IoState :=
  if s.flags.rd_notify then { s.wake_dispatch_task with flags := { s.flags with rd_notified := true } } else s

/-- What `update_read_status` does after new bytes have passed the filters; `orig` is the size before. -/
def read_processed (s : IoState) (orig : Nat) : IoState :=
  (if orig < s.buffer.read_dst_size then s.read_grown s.buffer.read_dst_size else s).read_notify

def read_status (s : IoState) : IoTaskStatus :=
  if s.flags.is_closed then .Stop else if s.flags.is_read_paused_or_backpressure then .Pause else .Io

def update_read_status (s : IoState) (buf : Data) (status : Except IoError Nat) : IoTaskStatus × IoState :=
  let orig := s.buffer.read_dst_size
  let s := { s with buffer := s.buffer.set_read_buf buf }
  match status with
  | .error err => (.Stop, s.terminate_connection (some err))
  | .ok nbytes =>
    let s := if nbytes = 0 then s else { s with buffer := s.buffer.process_read_buf }.read_processed orig
    (s.read_status, s)

def resume_read (s : IoState) : IoState :=
  if s.flags.rd_paused then { s.wake_read_task with flags := { s.flags with rd_paused := false } } else s

/-- The flags after the application has had its read buffer, which now is `buf`. -/
def update_read_destination (s : IoState) (buf : Data) : IoState :=
  if s.flags.rd_backpressure then
    if s.is_rd_backpressure_needed buf.length then s
    else { s with flags := s.flags.unset_all_read_flags }.resume_read
  else { s with flags.buf_r_ready := false }.resume_read

def with_read_buf {α : Type} (s : IoState) (f : Data → α × Data) : α × IoState :=
  let (a, buf) := f (s.buffer.read_dst.getD [])
  (a, { s.update_read_destination buf with buffer := s.buffer.set_read_dst (Stack.put_back buf) })

def pause (s : IoState) : IoState :=
  if s.flags.rd_paused then s else { s.wake_read_task with flags := { s.flags with rd_paused := true } }

def restart_read (s : IoState) : IoState :=
  if s.flags.is_read_paused_or_backpressure then
    { s with flags := { s.flags.unset_all_read_flags with rd_paused := false } }.wake_read_task
  else s

/-- `Io::poll_read_ready`: `some none` when the stream is disconnected. -/
def poll_read (s : IoState) : Option (Option Unit) × IoState :=
  if s.flags.is_closed then (some none, s)
  else if s.flags.buf_r_ready then (some (some ()), s.restart_read)
  else (none, { s.restart_read with dispatch_task := s.restart_read.dispatch_task.register })

end IoState

end Geario.Io
