import Mathlib
/-!
# Flags of a connection

One boolean for each bit of `FlagsKind`, and the queries and updates of `Flags`
under their names. `DSP_TIMEOUT` is only ever set by timers.
-/

namespace Geario.Io

structure Flags where
  io_stopped : Bool := false
  io_stopping : Bool := false
  io_stopping_filters : Bool := false
  rd_paused : Bool := false
  rd_backpressure : Bool := false
  rd_notify : Bool := false
  rd_notified : Bool := false
  buf_r_ready : Bool := false
  wr_flush : Bool := false
  wr_paused : Bool := false
  wr_notify : Bool := false
  wr_send_op : Bool := false
  dsp_timeout : Bool := false
  dsp_w_backpressure : Bool := false
  direct_wr_sup : Bool := false
  deriving DecidableEq

namespace Flags

def new (direct_wr : Bool) : Flags := { wr_paused := true, direct_wr_sup := direct_wr }

def is_closed (f : Flags) : Bool := f.io_stopping || f.io_stopped

def is_terminated (f : Flags) : Bool := f.io_stopped

def is_stopping (f : Flags) : Bool := f.io_stopping

def is_stopping_any (f : Flags) : Bool := f.io_stopped || f.io_stopping || f.io_stopping_filters

def is_shutting_down_filters (f : Flags) : Bool := f.io_stopping_filters && !(f.io_stopped || f.io_stopping)

def is_read_paused_or_backpressure (f : Flags) : Bool := f.rd_paused || f.rd_backpressure

def is_read_ready_and_backpressure (f : Flags) : Bool := f.buf_r_ready && f.rd_backpressure

def set_terminate (f : Flags) : Flags :=
  { f with io_stopped := true, io_stopping := true, io_stopping_filters := true, buf_r_ready := true }

def set_read_ready_and_backpressure (f : Flags) : Flags :=
  { f with rd_paused := true, buf_r_ready := true, rd_backpressure := true }

def unset_wr_backpressure_and_flush (f : Flags) : Flags := { f with dsp_w_backpressure := false, wr_flush := false }

def unset_all_read_flags (f : Flags) : Flags := { f with buf_r_ready := false, rd_backpressure := false }

def check_read_notifed (f : Flags) : Bool × Flags :=
  if f.rd_notified then (true, { f with rd_notify := false, rd_notified := false }) else (false, f)

def check_dispatcher_timeout (f : Flags) : Bool × Flags :=
  if f.dsp_timeout then (true, { f with dsp_timeout := false }) else (false, f)

end Flags

end Geario.Io
