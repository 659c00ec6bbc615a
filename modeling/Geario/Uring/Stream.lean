import Geario.Io.Ctx
import Geario.Io.Pages
/-!
# The io_uring driver: one stream

A `StreamItem` submits operations to the ring and handles their completions.
Operations are kept in a slab until they end; the functions here say what
happens to the item and which operation is submitted (at most one). The key of a
new operation is an argument, as are the cuts of the write buffer.

A send of one page is plain or zero-copy (`SendZc`). A zero-copy send reports
its result in a completion with the `more` flag, which releases `wr_op`, and
gives up its page in a second completion, the `notif`.
-/
open Geario.Io

namespace Geario.Uring

def MAX_WRITE_SIZE : Nat := 64 * 1024

structure Limits where
  zc_size : Nat
  max_write_items : Nat
  deriving DecidableEq

structure Flags where
  rd_canceling : Bool := false
  rd_reissue : Bool := false
  rd_more : Bool := false
  wr_canceling : Bool := false
  wr_reissue : Bool := false
  no_zc : Bool := false
  dropped_pri : Bool := false
  dropped_sec : Bool := false
  deriving DecidableEq

structure StreamItem where
  flags : Flags
  rd_op : Option Nat
  wr_op : Option Nat
  ctx : IoState
  deriving DecidableEq

abbrev Res := Except IoError Nat

def accepted (res : Res) : Nat := res.toOption.getD 0

@[simp] lemma accepted_ok (n : Nat) : accepted (.ok n) = n := rfl

/-- `Operation` of a stream, without the stream's index. -/
inductive Op
  | Recv (buf : Data)
  | Send (buf : Data) (result : Option Res)
  | Writev (pages : List Data)
  | Poll
  | Close

def Op.pages : Op → List Data
  | .Send buf _ => [buf]
  | .Writev pages => pages
  | _ => []

def Op.bytes (op : Op) : Data := op.pages.flatten

/-- An operation that is put into the slab and given to the ring. -/
structure Submission where
  key : Nat
  op : Op
  zc : Bool := false

abbrev Did := StreamItem × Option Submission

/-- The result of a receive: data, the end of the stream, `WouldBlock`, or an error. -/
inductive RecvRes
  | data (d : Data)
  | eof
  | would_block
  | error (e : IoError)
  deriving DecidableEq

/-! ## Writing -/

def prepend (io : IoState) (pages : List Data) : IoState :=
  io.processed.with_write (prepend_all pages io.processed.buffer.write)

def requeue_unsent (io : IoState) (buf : Data) (res : Res) : IoState :=
  let sent := min (accepted res) buf.length
  if sent = buf.length then io else prepend io [buf.drop sent]

def Op.requeue (op : Op) (io : IoState) (res : Res) : IoState :=
  match op with
  | .Send buf _ => requeue_unsent io buf res
  | .Writev pages =>
    match res with
    | .ok written => prepend io (advance written pages)
    | .error _ => prepend io pages
  | _ => io

/-- The report of a send that ended: nothing taken is understood as the end of the connection. -/
def write_ended (io : IoState) : Res → IoTaskStatus × IoState
  | .ok n => (if n = 0 then io.terminate_connection none else io).update_write_status (.ok (0 < n))
  | .error e => io.update_write_status (.error e)

def complete (buf : Data) : Res → Bool
  | .ok n => buf.length ≤ n
  | .error _ => false

namespace StreamItem

def new (ctx : IoState) (no_zc : Bool) : StreamItem := { flags := { no_zc }, rd_op := none, wr_op := none, ctx }

/-- The pages taken out of the write buffer are submitted: one page in a send of its own, several in a `Writev`. -/
def submit (lim : Limits) (item : StreamItem) (key : Nat) : List Data → Did
  | [] => (item, none)
  | [buf] =>
    ({ item with wr_op := some key },
      some { key, op := .Send buf none, zc := !item.flags.no_zc && lim.zc_size < buf.length })
  | pages => ({ item with wr_op := some key }, some { key, op := .Writev pages })

def send (lim : Limits) (item : StreamItem) (cuts : List Nat) (key : Nat) : Option Did :=
  if item.wr_op.isSome then
    if cuts = [] then some ({ item with flags.wr_reissue := item.flags.wr_reissue || item.flags.wr_canceling }, none)
    else none
  else
    -- the first page is taken whatever the limits are
    (gather (max 1 lim.max_write_items) MAX_WRITE_SIZE cuts item.ctx.processed.buffer.write).map fun p =>
      submit lim { item with ctx := item.ctx.processed.with_write p.2 } key p.1

def send_if (lim : Limits) (again : Bool) (item : StreamItem) (cuts : List Nat) (key : Nat) : Option Did :=
  if again then item.send lim cuts key else if cuts = [] then some (item, none) else none

/-- The end of a send: what it has not sent is requeued, and the next pages follow if the report asks for them. -/
def send_ended (lim : Limits) (item : StreamItem) (op : Op) (res : Res) (cuts : List Nat) (key : Nat) : Option Did :=
  let r := write_ended (op.requeue item.ctx res) res
  send_if lim (r.1 = .Io) { item with ctx := r.2 } cuts key

def write_completed (lim : Limits) (item : StreamItem) (op : Op) (res : Res) (cuts : List Nat) (key : Nat) : Option Did :=
  { item with wr_op := none }.send_ended lim op res cuts key

/-- `completed` of a zero-copy send with the `more` flag: the next pages follow only if the whole page was taken. -/
def more_completed (lim : Limits) (item : StreamItem) (buf : Data) (res : Res) (cuts : List Nat) (key : Nat) : Option Did :=
  send_if lim (complete buf res) { item with wr_op := none } cuts key

/-- `completed` of a zero-copy send with the `notif` flag; `wr_op` may be another operation. -/
def notif_completed (lim : Limits) (item : StreamItem) (op : Op) (res : Res) (cuts : List Nat) (key : Nat) : Option Did :=
  item.send_ended lim op res cuts key

def write_canceled (lim : Limits) (item : StreamItem) (op : Op) (cuts : List Nat) (key : Nat) : Option Did :=
  let r := (prepend item.ctx op.pages).update_write_status (.ok false)
  let again := item.flags.wr_reissue || r.1 = .Io
  send_if lim again
    { item with wr_op := none, ctx := r.2, flags.wr_canceling := false, flags.wr_reissue := item.flags.wr_reissue && !again }
    cuts key

/-! ## Reading -/

def recv_more (item : StreamItem) (buf : Data) (key : Nat) : Did := ({ item with rd_op := some key }, some { key, op := .Recv buf })

def recv (item : StreamItem) (key : Nat) : Did :=
  if item.rd_op.isNone then
    let r := item.ctx.get_read_buf
    -- bytes the consumer has not taken stay where it can reach them
    let ctx := if r.1 ≠ [] then (r.2.update_read_status r.1 (.ok 0)).2 else r.2
    { item with ctx }.recv_more [] key
  else ({ item with flags.rd_reissue := item.flags.rd_reissue || item.flags.rd_canceling }, none)

/-- The end of a receive with `status`: the item reads on if it is told to. -/
def recv_ended (item : StreamItem) (buf : Data) (status : Except IoError Nat) (key : Nat) : Did :=
  let r := item.ctx.update_read_status buf status
  let item := { item with ctx := r.2, flags.rd_more := false }
  if r.1 = .Io then item.recv key else (item, none)

def recv_completed (item : StreamItem) (buf : Data) (res : RecvRes) (nonempty : Bool) (key : Nat) : Did :=
  let item := { item with rd_op := none }
  match res with
  | .would_block => item.recv_more buf key
  | .data d =>
    if nonempty then { item with flags.rd_more := true }.recv_more (buf ++ d) key
    else item.recv_ended (buf ++ d) (.ok d.length) key
  | .eof => { item with ctx := item.ctx.terminate_connection none }.recv_ended buf (.ok 0) key
  | .error e => item.recv_ended buf (.error e) key

def recv_canceled (item : StreamItem) (buf : Data) (key : Nat) : Did :=
  let r := item.ctx.update_read_status buf (.ok 0)
  let item := { item with rd_op := none, ctx := r.2, flags.rd_canceling := false }
  if item.flags.rd_reissue || r.1 = .Io then { item with flags.rd_reissue := false }.recv key else (item, none)

def poll_completed (item : StreamItem) (err : Option IoError) : StreamItem :=
  if !item.flags.rd_more && !item.ctx.flags.is_closed then { item with ctx := item.ctx.terminate_connection err } else item

/-- `StreamOpsStorage::pause_read`: the operation that is cancelled. -/
def pause_read (item : StreamItem) : StreamItem × Option Nat :=
  if item.rd_op.isSome && !item.flags.rd_canceling then ({ item with flags.rd_canceling := true }, item.rd_op)
  else (item, none)

end StreamItem

end Geario.Uring
