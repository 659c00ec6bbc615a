import Geario.Io.Ctx
import Geario.Io.Pages
/-!
# The polling driver

A `StreamItem` reads and writes when the poller reports its socket ready, and
when the io task asks for it. What a system call returns is an argument.
-/
open Geario.Io

namespace Geario.Polling

def MAX_WRITE_SIZE : Nat := 64 * 1024

def MAX_WRITE_ITEMS : Nat := 16

structure Flags where
  rd : Bool := false
  wr : Bool := false
  arm_rd : Bool := false
  arm_wr : Bool := false
  deriving DecidableEq

structure StreamItem where
  flags : Flags
  ctx : IoState
  deriving DecidableEq

inductive ReadResult
  | data (d : Data)
  | eof
  | pending
  | error (e : IoError)
  deriving DecidableEq

inductive WriteResult
  | ready (n : Nat)
  | pending
  | error (e : IoError)
  deriving DecidableEq

def ReadResult.Fine : ReadResult → Prop
  | .data _ | .pending => True
  | .eof | .error _ => False

instance : DecidablePred ReadResult.Fine := fun r => by
  cases r <;> unfold ReadResult.Fine <;> infer_instance

def WriteResult.Fine : WriteResult → Prop
  | .ready n => 0 < n
  | .pending => True
  | .error _ => False

instance : DecidablePred WriteResult.Fine := fun r => by
  cases r <;> unfold WriteResult.Fine <;> infer_instance

structure Event where
  readable : Bool
  writable : Bool
  interrupt : Bool
  deriving DecidableEq

def read (io : IoState) (result : ReadResult) : IoTaskStatus × IoState :=
  let (buf, io) := io.get_read_buf
  match result with
  | .eof => (io.terminate_connection none).update_read_status buf (.ok 0)
  | .data d => io.update_read_status (buf ++ d) (.ok d.length)
  | .error e => io.update_read_status buf (.error e)
  | .pending => io.update_read_status buf (.ok 0)

/-- The closure in `StreamItem::write`: the status, whether to stop, and what is left. On an error the pages that were taken
are gone. -/
def write_pages (result : WriteResult) (pages : List Data) (rest : Data) : Except IoError Bool × Bool × Data :=
  if pages = [] then (.ok false, false, rest)
  else
    match result with
    | .error e => (.error e, false, rest)
    | .ready n => (.ok (0 < n), n = 0, prepend_all (advance n pages) rest)
    | .pending => (.ok false, false, prepend_all pages rest)

/-- `StreamItem::write`, with the cuts of the write buffer; `none` when they are not cuts of it. -/
def write (io : IoState) (cuts : List Nat) (result : WriteResult) : Option (IoTaskStatus × IoState) :=
  let io := { io with buffer := io.buffer.process_write_buf }
  (gather MAX_WRITE_ITEMS MAX_WRITE_SIZE cuts io.buffer.write).map fun (pages, rest) =>
    let (status, stop, write) := write_pages result pages rest
    let io := if stop then io.terminate_connection none else io
    { io with buffer.write := write }.update_write_status status

def arm (item : StreamItem) (readable writable : Bool) : StreamItem :=
  { item with flags := { item.flags with arm_rd := readable, arm_wr := writable } }

def event_read (item : StreamItem) (readable : Bool) (rd : ReadResult) : Bool × StreamItem :=
  if readable then
    let r := read item.ctx rd
    (r.1 = .Io, { item with ctx := r.2, flags.rd := r.1 = .Io })
  else (item.flags.rd, item)

def event_write (item : StreamItem) (writable : Bool) (cuts : List Nat) (wr : WriteResult) : Option (Bool × StreamItem) :=
  if writable then
    (write item.ctx cuts wr).map fun r =>
      (decide (r.1 = .Io), { item with ctx := r.2, flags.wr := decide (r.1 = .Io) })
  else some (item.flags.wr, item)

/-- `StreamOpsHandler::event`. The results are those of the system calls the event leads to. -/
def event (item : StreamItem) (ev : Event) (rd : ReadResult) (cuts : List Nat) (wr : WriteResult) : Option StreamItem :=
  let r := event_read item ev.readable rd
  (event_write r.2 ev.writable cuts wr).map fun w =>
    if ev.interrupt then { w.2 with ctx := w.2.ctx.terminate_connection none } else arm w.2 r.1 w.1

def StreamItem.reads (item : StreamItem) (rd : Bool) : Bool := rd && !item.flags.rd

def interest_read (item : StreamItem) (rd : Bool) (result : ReadResult) : (Bool × Bool) × StreamItem :=
  if rd then
    if item.flags.rd then ((true, false), item)
    else
      let r := read item.ctx result
      if r.1 = .Io then ((true, true), { item with ctx := r.2, flags.rd := true })
      else ((false, false), { item with ctx := r.2 })
  else ((false, item.flags.rd), { item with flags.rd := false })

def interest_write (item : StreamItem) (wr : Bool) (cuts : List Nat) (result : WriteResult) :
    Option ((Bool × Bool) × StreamItem) :=
  if wr then
    if item.flags.wr then some ((true, false), item)
    else
      (write item.ctx cuts result).map fun r =>
        if r.1 = .Io then ((true, true), { item with ctx := r.2, flags.wr := true })
        else ((false, false), { item with ctx := r.2 })
  else some ((false, item.flags.wr), { item with flags.wr := false })

def interest (item : StreamItem) (rd wr : Bool) (rres : ReadResult) (cuts : List Nat) (wres : WriteResult) : Option StreamItem :=
  let r := interest_read item rd rres
  (interest_write r.2 wr cuts wres).map fun w => if r.1.2 || w.1.2 then arm w.2 r.1.1 w.1.1 else w.2

/-- `WeakStreamCtl::write`, which is the driver's `Handle::write`. -/
def hnd_write (cuts : List Nat) (result : WriteResult) (io : IoState) : IoState := ((write io cuts result).map (·.2)).getD io

end Geario.Polling
