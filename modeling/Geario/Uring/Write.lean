import Geario.Io.Drain
import Geario.Lib.Run
import Geario.Lib.Slab
import Geario.Uring.Stream
/-!
# Writing on the io_uring driver

One connection with its sends. The kernel takes a part of what a send offers,
at any time after it was submitted; the completion is delivered later, and for a
zero-copy send a `notif` follows later still. Until then the send is in the slab
of operations, and `owed` is what it has of the stream of the application that
the socket has not got.

Reading is left out, except that it may stop the connection at any time. So are
the other operations in the slab: a new send may get any vacant key.
-/
open Geario.Io
open Lib (Slab of_bind of_guard of_map)
open Option

namespace Geario.Uring

inductive Kernel
  | queued
  | done (res : Res)
  /-- done and reported with `more`; the `notif` is to come -/
  | noted (res : Res)

structure Slot where
  op : Op
  zc : Bool
  kernel : Kernel

namespace Slot

def owed (e : Slot) : Data :=
  match e.kernel with
  | .queued => e.op.bytes
  | .done res => e.op.bytes.drop (accepted res)
  | .noted res => e.op.bytes.drop (accepted res)

def active (e : Slot) : Bool :=
  match e.kernel with
  | .noted _ => false
  | _ => true

def reported (e : Slot) (buf : Data) (res : Res) : Slot := { e with op := .Send buf (some res), kernel := .noted res }

variable {buf rest : Data}

lemma owed_reported {e : Slot} {result : Option Res} {res : Res} (hdone : e.kernel = .done res)
    (hsend : e.op = .Send buf result) : (e.reported buf res).owed = e.owed := by
  rw [owed, owed, hdone, hsend]
  rfl

def result (e : Slot) : Res :=
  match e.op with
  | .Send _ result => result.getD (.ok 0)
  | _ => .ok 0

/-- A send that is noted has kept its result. -/
def Kept (e : Slot) : Prop := ∀ res, e.kernel = .noted res → e.result = res

lemma kept_reported (e : Slot) (buf : Data) (res : Res) : (e.reported buf res).Kept := by
  intro res' hres
  cases hres
  rfl

end Slot

/-- A connection, what was written to it and what the socket has taken. -/
structure Conn where
  item : StreamItem
  ops : Slab Slot
  written : Data
  sent : Data
  /-- a `WR_FLUSH` waiter was woken with length 0 before everything was accepted -/
  early_flush : Bool
  /-- `IO_STOPPING` was set because everything seemed to be written -/
  graceful : Bool

namespace Conn

inductive Step
  | write (d : Data)
  /-- the application writes past the buffer, and the socket takes the first `n` bytes -/
  | direct (d : Data) (n : Nat)
  | send_buf
  | flush (full : Bool)
  | close
  | poll (elapsed : Bool) (cuts : List Nat) (key : Nat)
  | take (k : Nat) (res : Res)
  /-- the completion of a send, the first one of two if `more` -/
  | completed (k : Nat) (more : Bool) (cuts : List Nat) (key : Nat)
  | notif (k : Nat) (cuts : List Nat) (key : Nat)
  | canceled (k : Nat) (cuts : List Nat) (key : Nat)
  | stop (err : Option IoError)

def new (cfg : IoConfig) (layers : Option Nat) (no_zc : Bool) : Conn :=
  { item := .new (.new cfg layers) no_zc, ops := .empty, written := [], sent := [], early_flush := false, graceful := false }

/-- The operation it submitted gets a vacant key, which is not `slot`: the operation that is being handled keeps its slot to
the end. -/
def did (c : Conn) (slot : Option Nat) (d : Did) : Option Conn :=
  match d.2 with
  | none => some { c with item := d.1 }
  | some s =>
    if c.ops.contains s.key ∨ slot = some s.key then none
    else some { c with item := d.1, ops := c.ops.insert s.key { op := s.op, zc := s.zc, kernel := .queued } }

def flushed_early (c : Conn) (io : IoState) (res : Res) : Bool :=
  res.isOk && io.flags.wr_flush && io.buffer.write_buf_size = 0 && c.sent.length ≠ c.written.length

/-- `IoRef::try_write_vectored` with `WeakStreamCtl::write_bufs`. -/
def try_write_vectored (c : Conn) (d : Data) (n : Nat) : Option Conn :=
  let io := c.item.ctx
  if io.flags.is_stopping_any || io.buffer.write_buf_size ≠ 0 || io.buffer.layers.isSome || !io.handle ||
      c.item.wr_op.isSome || c.item.flags.wr_canceling || io.flags.is_closed || d.length < n then none
  else if n = 0 then some { c with item.ctx := { io.terminate_connection none with handle := true } }
  else some { c with written := c.written ++ d.take n, sent := c.sent ++ d.take n }

def poll_readiness (lim : Limits) (c : Conn) (elapsed : Bool) (cuts : List Nat) (key : Nat) : Option Conn :=
  let ready := c.item.ctx.flags.is_shutting_down_filters && (c.item.ctx.process_shutdown id).shutdown_ready
  let w := (c.item.ctx.poll_read_ready id elapsed).2.poll_write_ready
  (StreamItem.send_if lim (w.1 = some .Ready) { c.item with ctx := w.2 } cuts key).bind
    ({ c with graceful := c.graceful || ready }.did none)

def taken (c : Conn) (k : Nat) (e : Slot) : Res → Option Conn
  | .ok n =>
    if n ≤ e.op.bytes.length then
      some { c with ops := c.ops.insert k { e with kernel := .done (.ok n) }, sent := c.sent ++ e.op.bytes.take n }
    else none
  | .error err => some { c with ops := c.ops.insert k { e with kernel := .done (.error err) } }

def ended (c : Conn) (k : Nat) (e : Slot) (res : Res) (d : Option Did) : Option Conn :=
  d.bind ({ c with
    ops := c.ops.remove k
    early_flush := c.early_flush || c.flushed_early (e.op.requeue c.item.ctx res) res }.did (some k))

def step (lim : Limits) (c : Conn) : Step → Option Conn
  | .write d => (c.item.ctx.write id d).map fun ctx => { c with item.ctx := ctx, written := c.written ++ d }
  | .direct d n => c.try_write_vectored d n
  | .send_buf => some { c with item.ctx := c.item.ctx.ops_send_buf id }
  | .flush full => some { c with item.ctx := (c.item.ctx.poll_flush id full).2 }
  | .close => some { c with item.ctx := c.item.ctx.start_shutdown }
  | .poll elapsed cuts key => c.poll_readiness lim elapsed cuts key
  | .take k res =>
    (c.ops.get k).bind fun e =>
      match e.kernel with
      | .queued => c.taken k e res
      | _ => none
  | .completed k more cuts key =>
    (c.ops.get k).bind fun e =>
      match e.kernel with
      | .done res =>
        if more then
          match e.op with
          | .Send buf _ =>
            if e.zc then
              (c.item.more_completed lim buf res cuts key).bind
                ({ c with ops := c.ops.insert k (e.reported buf res) }.did none)
            else none
          | _ => none
        else c.ended k e res (c.item.write_completed lim e.op res cuts key)
      | _ => none
  | .notif k cuts key =>
    (c.ops.get k).bind fun e =>
      match e.kernel with
      | .noted _ => c.ended k e e.result (c.item.notif_completed lim e.op e.result cuts key)
      | _ => none
  | .canceled k cuts key =>
    (c.ops.get k).bind fun e =>
      match e.kernel with
      | .queued =>
        (c.item.write_canceled lim e.op cuts key).bind
          ({ c with
            ops := c.ops.remove k
            early_flush := c.early_flush || c.flushed_early (prepend c.item.ctx e.op.pages) (.ok 0) }.did none)
      | _ => none
  | .stop err => some { c with item.ctx := c.item.ctx.terminate_connection err }

section Kernel

variable {lim : Limits} {c c' : Conn} {k key : Nat} {e : Slot} {res : Res} {cuts : List Nat}

lemma taken_spec (hst : c.taken k e res = some c') :
    ∃ sent, c' = { c with ops := c.ops.insert k { e with kernel := .done res }, sent } ∧
      sent ++ e.op.bytes.drop (accepted res) = c.sent ++ e.op.bytes := by
  cases res with
  | ok n =>
    obtain ⟨-, rfl⟩ := Lib.of_ite hst
    refine ⟨_, rfl, ?_⟩
    rw [List.append_assoc, accepted_ok, List.take_append_drop]
  | error err =>
    cases hst
    exact ⟨c.sent, rfl, rfl⟩

lemma step_take (hst : c.step lim (.take k res) = some c') :
    ∃ e, c.ops.get k = some e ∧ e.kernel = .queued ∧ c.taken k e res = some c' := by
  obtain ⟨e, hk, hst⟩ := of_bind hst
  split at hst
  next hq => exact ⟨e, hk, hq, hst⟩
  · cases hst

lemma step_more (hst : c.step lim (.completed k true cuts key) = some c') :
    ∃ e buf result res, c.ops.get k = some e ∧ e.kernel = .done res ∧ e.op = .Send buf result ∧
      (c.item.more_completed lim buf res cuts key).bind ({ c with ops := c.ops.insert k (e.reported buf res) }.did none) =
        some c' := by
  obtain ⟨e, hk, hst⟩ := of_bind hst
  split at hst
  next res hdone =>
    rw [if_pos rfl] at hst
    split at hst
    next buf result hsend =>
      obtain ⟨-, hst⟩ := of_guard hst
      exact ⟨e, buf, result, res, hk, hdone, hsend, hst⟩
    · cases hst
  · cases hst

lemma step_last (hst : c.step lim (.completed k false cuts key) = some c') :
    ∃ e res, c.ops.get k = some e ∧ e.kernel = .done res ∧
      c.ended k e res (StreamItem.send_ended lim { c.item with wr_op := none } e.op res cuts key) = some c' := by
  obtain ⟨e, hk, hst⟩ := of_bind hst
  split at hst
  next res hdone => exact ⟨e, res, hk, hdone, hst⟩
  · cases hst

lemma step_notif (hst : c.step lim (.notif k cuts key) = some c') :
    ∃ e res, c.ops.get k = some e ∧ e.kernel = .noted res ∧
      c.ended k e e.result (c.item.send_ended lim e.op e.result cuts key) = some c' := by
  obtain ⟨e, hk, hst⟩ := of_bind hst
  split at hst
  next res hnoted => exact ⟨e, res, hk, hnoted, hst⟩
  · cases hst

lemma step_canceled (hst : c.step lim (.canceled k cuts key) = some c') :
    ∃ e, c.ops.get k = some e ∧ e.kernel = .queued ∧ (c.item.write_canceled lim e.op cuts key).bind
      ({ c with
        ops := c.ops.remove k
        early_flush := c.early_flush || c.flushed_early (prepend c.item.ctx e.op.pages) (.ok 0) }.did none) = some c' := by
  obtain ⟨e, hk, hst⟩ := of_bind hst
  split at hst
  next hq => exact ⟨e, hk, hq, hst⟩
  · cases hst

end Kernel

end Conn

/-! ## What the functions of an item do with the output -/

section Output

variable {lim : Limits} {io : IoState} {item item' : StreamItem} {sub : Option Submission} {cuts : List Nat} {key : Nat}
  {again : Bool}

lemma prepend_eq (io : IoState) (pages : List Data) :
    prepend io pages = io.processed.with_write (pages.flatten ++ io.processed.buffer.write) := by
  rw [prepend, prepend_all_eq]

lemma requeue_eq (op : Op) (io : IoState) (res : Res) :
    op.requeue io res = io ∧ op.bytes.drop (accepted res) = [] ∨
      op.requeue io res = io.processed.with_write (op.bytes.drop (accepted res) ++ io.processed.buffer.write) := by
  cases op with
  | Send buf result =>
    have hbytes : Op.bytes (.Send buf result) = buf := List.append_nil buf
    simp only [Op.requeue, requeue_unsent, hbytes]
    split
    next hall =>
      left
      exact ⟨rfl, List.drop_of_length_le (by omega)⟩
    · right
      rw [prepend_eq, List.flatten_singleton, Nat.min_eq_left (by omega)]
  | Writev pages =>
    right
    cases res with
    | ok n =>
      simp only [Op.requeue]
      rw [prepend_eq, advance_flatten]
      rfl
    | error e => exact prepend_eq io pages
  | Recv | Poll | Close => exact .inl ⟨rfl, List.drop_nil⟩

lemma flow_prepend (h : io.Flow) (pages : List Data) :
    (prepend io pages).Flow ∧ (prepend io pages).buffer.output = pages.flatten ++ io.buffer.output := by
  rw [prepend_eq, h.write_processed]
  exact h.with_write _

lemma flow_requeue (h : io.Flow) (op : Op) (res : Res) :
    (op.requeue io res).Flow ∧ (op.requeue io res).buffer.output = op.bytes.drop (accepted res) ++ io.buffer.output := by
  rcases requeue_eq op io res with ⟨heq, hnil⟩ | heq
  · rw [heq, hnil]
    exact ⟨h, rfl⟩
  · rw [heq, h.write_processed]
    exact h.with_write _

lemma keeps_write_ended (h : io.Flow) (res : Res) : IoState.Keeps io (write_ended io res).2 := by
  cases res with
  | ok n =>
    rw [write_ended]
    split
    · have hk := h.terminate none
      exact hk.trans (hk.flow.update_write_status _)
    · exact h.update_write_status _
  | error e => exact h.update_write_status (.error e)

lemma gather_no_cuts {items size : Nat} {pages : List Data}
    (h : gather items size [] buf = some (pages, rest)) : pages = [] := by
  cases items with
  | zero => exact (Prod.mk.inj (some.inj h)).1.symm
  | succ items =>
    obtain ⟨-, h⟩ := of_guard h
    exact (Prod.mk.inj (some.inj h)).1.symm

def submitted (sub : Option Submission) : Data := sub.elim [] fun s => s.op.bytes

/-- What is submitted is the front of the output, and an operation is submitted only if none is under way. -/
structure Sent (item : StreamItem) (again : Bool) (cuts : List Nat) (key : Nat) (item' : StreamItem)
    (sub : Option Submission) (rest : Data) : Prop where
  output : submitted sub ++ rest = item.ctx.buffer.output
  ctx : item'.ctx = item.ctx ∧ rest = item.ctx.buffer.output ∨ again = true ∧ item'.ctx = item.ctx.processed.with_write rest
  wr_op : sub = none ∧ item'.wr_op = item.wr_op ∨
    cuts ≠ [] ∧ again = true ∧ item.wr_op = none ∧ item'.wr_op = some key ∧ ∃ s, sub = some s ∧ s.key = key
  flags : item.flags.wr_canceling = false → item'.flags = item.flags

lemma submit_spec {pages : List Data} (hs : item.submit lim key pages = (item', sub)) :
    submitted sub = pages.flatten ∧ item'.ctx = item.ctx ∧ item'.flags = item.flags ∧
      (pages = [] ∧ sub = none ∧ item'.wr_op = item.wr_op ∨
        pages ≠ [] ∧ item'.wr_op = some key ∧ ∃ s, sub = some s ∧ s.key = key) := by
  unfold StreamItem.submit at hs
  split at hs
  all_goals cases hs
  · exact ⟨rfl, rfl, rfl, .inl ⟨rfl, rfl, rfl⟩⟩
  · exact ⟨rfl, rfl, rfl, .inr ⟨nofun, rfl, _, rfl, rfl⟩⟩
  next hne _ => exact ⟨rfl, rfl, rfl, .inr ⟨hne, rfl, _, rfl, rfl⟩⟩

lemma sent_send (h : item.ctx.Flow) (hs : item.send lim cuts key = some (item', sub)) :
    ∃ rest, Sent item true cuts key item' sub rest := by
  unfold StreamItem.send at hs
  split at hs
  · obtain ⟨-, hs⟩ := of_guard hs
    cases hs
    refine ⟨_, rfl, .inl ⟨rfl, rfl⟩, .inl ⟨rfl, rfl⟩, fun hc => ?_⟩
    have hreissue : (item.flags.wr_reissue || item.flags.wr_canceling) = item.flags.wr_reissue := by
      rw [hc, Bool.or_false]
    rw [hreissue]
  next hnone =>
    rw [not_isSome_iff_eq_none] at hnone
    obtain ⟨⟨pages, rest⟩, hgather, heq⟩ := of_map hs
    have hsplit := gather_flatten hgather
    rw [h.write_processed] at hsplit
    have hcuts : pages ≠ [] → cuts ≠ [] := by
      rintro hne rfl
      exact hne (gather_no_cuts hgather)
    obtain ⟨hbytes, hctx, hflags, hcase⟩ := submit_spec heq
    refine ⟨rest, hbytes ▸ hsplit, .inr ⟨rfl, hctx⟩, ?_, fun _ => hflags⟩
    rcases hcase with ⟨-, hsub, hop⟩ | ⟨hne, hop, hkey⟩
    · exact .inl ⟨hsub, hop⟩
    · exact .inr ⟨hcuts hne, rfl, hnone, hop, hkey⟩

lemma sent_send_if (h : item.ctx.Flow) (hs : item.send_if lim again cuts key = some (item', sub)) :
    ∃ rest, Sent item again cuts key item' sub rest := by
  unfold StreamItem.send_if at hs
  split at hs
  next hagain =>
    rw [hagain]
    exact sent_send h hs
  · obtain ⟨-, hs⟩ := of_guard hs
    cases hs
    exact ⟨_, rfl, .inl ⟨rfl, rfl⟩, .inl ⟨rfl, rfl⟩, fun _ => rfl⟩

lemma Sent.flow (hs : Sent item again cuts key item' sub rest) (h : item.ctx.Flow) :
    item'.ctx.Flow ∧ item'.ctx.buffer.output = rest ∧ item'.ctx.flags = item.ctx.flags := by
  rcases hs.ctx with ⟨hctx, hrest⟩ | ⟨-, hctx⟩
  · rw [hctx]
    exact ⟨h, hrest.symm, rfl⟩
  · rw [hctx]
    obtain ⟨hflow, hout⟩ := h.with_write rest
    exact ⟨hflow, hout, rfl⟩

end Output

end Geario.Uring
