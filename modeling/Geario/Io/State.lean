import Geario.Io.Flags
/-!
# The state of a connection

An `IoState` is shared by the application, which reads and writes through
`IoRef` and `Io`, and by a driver, which works through `IoContext`. Between them
are the filter layers. The buffers next to the driver are `read` and `write`;
with the base filter alone they are the application's too, with layers the
application has its own and data passes the layers in `process_read_buf` and
`process_write_buf`. The layers here copy their input to their output.

Buffers are byte lists: that the handles behind them are independent is proved
with the buffers. How a write buffer is cut into pages is left to the one who
takes pages out. A task is represented by whether its waker is registered and
whether it has been woken since it ran last.
-/

namespace Geario.Io

abbrev Data := List UInt8

abbrev IoError := Nat

structure LocalWaker where
  registered : Bool := false
  woken : Bool := false
  deriving DecidableEq

def LocalWaker.register (w : LocalWaker) : LocalWaker := { w with registered := true }

def LocalWaker.wake (w : LocalWaker) : LocalWaker := if w.registered then { registered := false, woken := true } else w

structure IoConfig where
  read_high : Nat
  write_high : Nat
  write_half : Nat
  write_buf_threshold : Nat
  deriving DecidableEq

/-- The buffers above the driver's: the application's, and those between two layers from there on. -/
structure Layers where
  read_dst : Option Data
  read_mid : List (Option Data)
  write_src : Data
  write_mid : List Data
  down : Bool
  deriving DecidableEq

structure Stack where
  read : Option Data
  write : Data
  layers : Option Layers
  deriving DecidableEq

namespace Stack

def new (layers : Option Nat) : Stack :=
  { read := none, write := []
    layers := layers.map fun n =>
      { read_dst := none, read_mid := List.replicate n none, write_src := [], write_mid := List.replicate n [], down := false } }

def put_back (d : Data) : Option Data := if d = [] then none else some d

def read_dst (s : Stack) : Option Data :=
  match s.layers with
  | none => s.read
  | some l => l.read_dst

def set_read_dst (s : Stack) (d : Option Data) : Stack :=
  match s.layers with
  | none => { s with read := d }
  | some l => { s with layers := some { l with read_dst := d } }

def read_dst_size (s : Stack) : Nat := (s.read_dst.getD []).length

def write_buf_size (s : Stack) : Nat :=
  match s.layers with
  | none => s.write.length
  | some l => l.write_src.length + s.write.length

def get_read_buf (s : Stack) : Option Data × Stack := (s.read, { s with read := none })

def set_read_buf (s : Stack) (buf : Data) : Stack :=
  match s.read with
  | some first_buf => { s with read := some (first_buf ++ buf) }
  | none => { s with read := put_back buf }

def copy_read (src dst : Option Data) : Option Data := put_back (dst.getD [] ++ src.getD [])

def process_read_buf (s : Stack) : Stack :=
  match s.layers with
  | none => s
  | some l =>
    if l.down then s
    else
      { s with
        read := none
        layers := some { l with
          read_mid := l.read_mid.map fun _ => none
          read_dst := copy_read (l.read_mid.foldr (fun mid src => copy_read src mid) s.read) l.read_dst } }

def push_write (s : Stack) : Stack :=
  match s.layers with
  | none => s
  | some l =>
    if l.down then s
    else
      { s with
        write := s.write ++ l.write_mid.foldl (fun src mid => mid ++ src) l.write_src
        layers := some { l with write_src := [], write_mid := l.write_mid.map fun _ => [] } }

def process_write_buf (s : Stack) : Stack :=
  match s.layers with
  | none => s
  | some l => if l.write_src = [] then s else s.push_write

/-- The filters are asked to shut down: each processes what it has and clears its buffer, and is ready. -/
def process_shutdown (s : Stack) : Stack :=
  let s := s.process_write_buf.push_write
  { s with layers := s.layers.map fun l => { l with write_src := [], write_mid := l.write_mid.map fun _ => [], down := true } }

/-- `with_write_src(|buf| buf.extend_from_slice(d))`. -/
def append_write_src (s : Stack) (d : Data) : Stack :=
  match s.layers with
  | none => { s with write := s.write ++ d }
  | some l => { s with layers := some { l with write_src := l.write_src ++ d } }

end Stack

structure IoState where
  cfg : IoConfig
  flags : Flags
  error : Option IoError
  read_task : LocalWaker
  write_task : LocalWaker
  dispatch_task : LocalWaker
  buffer : Stack
  handle : Bool
  deriving DecidableEq

namespace IoState

def new (cfg : IoConfig) (layers : Option Nat) : IoState :=
  { cfg, flags := .new (0 < cfg.write_buf_threshold), error := none, read_task := {}, write_task := {}, dispatch_task := {},
    buffer := .new layers, handle := true }

def wake_read_task (s : IoState) : IoState := { s with read_task := s.read_task.wake }

def wake_write_task (s : IoState) : IoState := { s with write_task := s.write_task.wake }

def wake_dispatch_task (s : IoState) : IoState := { s with dispatch_task := s.dispatch_task.wake }

def filters_stopped (s : IoState) : IoState :=
  let s := s.wake_read_task.wake_write_task.wake_dispatch_task
  { s with flags.io_stopping := true }

def terminate_connection (s : IoState) (err : Option IoError) : IoState :=
  if s.flags.is_terminated then s
  else
    let s := { s with error := err.or s.error, flags := s.flags.set_terminate }
    { s.wake_read_task.wake_write_task.wake_dispatch_task with handle := false }

def start_shutdown (s : IoState) : IoState :=
  if s.flags.is_stopping_any then s
  else { s with flags.io_stopping_filters := true }.wake_read_task.wake_write_task

def is_rd_backpressure_needed (s : IoState) (size : Nat) : Bool := s.cfg.read_high ≤ size

def is_wr_backpressure_needed (s : IoState) (size : Nat) : Bool := s.cfg.write_high ≤ size

def should_disable_wr_backpressure (s : IoState) (size : Nat) : Bool := size ≤ s.cfg.write_half

end IoState

end Geario.Io
