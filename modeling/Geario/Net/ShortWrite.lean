import Geario.Net.PageLoops
import Geario.Polling.Stream
import Geario.Uring.Write
/-!
# Short writes

The pages of a write are taken out of the write buffer, and what the socket does
not accept goes back to the front. The polling driver does that in one call.
With io_uring and IOCP the application may append to the buffer meanwhile, layers
may pass on more when the pages are put back, and the handler of a completion
may go on with the next send: what that takes comes out of the front again.

The drivers are modelled over byte lists here; `Net.PageLoops` has their loops
over the pages as they are stored.
-/
open Geario.Io
open Lib List

namespace Geario.Net

open Buffers

def written : Polling.WriteResult → Nat
  | .ready n => n
  | .pending | .error _ => 0

def sent : Iocp.Completion → Nat
  | .done n => n
  | .error _ => 0

def sent_now : Iocp.SendResult → Nat
  | .done n => n
  | .error _ | .pending => 0

/-- The connection's write buffer has what was not accepted, and after that what was there and what layers have added. -/
def PutBack (io io' : IoState) (unsent : Data) : Prop :=
  ∃ passed, io'.buffer.write = unsent ++ (io.buffer.write ++ passed) ∧
    (io.buffer.layers = none → passed = [] ∧ io'.buffer.layers = none)

/-- The same after a handler, which may have submitted the next send. -/
def Handled (io : IoState) (did : Uring.Did) (unsent : Data) : Prop :=
  ∃ passed, (did.2.elim [] fun s => s.op.bytes) ++ did.1.ctx.buffer.write = unsent ++ (io.buffer.write ++ passed) ∧
    (io.buffer.layers = none → passed = [])

/-- The loops over pages of any storage kind, when `n` of their bytes were accepted, and when none was. -/
structure Loops (h : Heap) (pages : List BytePage) (wrt : BytePages) (F : Multiset Ref) (n : Nat) : Prop where
  put_back : Outcome (put_back n pages wrt) h (fun _ => False) (Returned h ((BytePages.pagesContent h pages).drop n) wrt F)
  put_back_sent : Outcome (put_back_sent n pages wrt) h (fun _ => False) (Returned h ((BytePages.pagesContent h pages).drop n) wrt F)
  requeue_unsent : ∀ p, pages = [p] → Outcome (requeue_unsent p n wrt) h (fun _ => False) (Returned h ((p.content h).drop n) wrt F)
  prepend_pages : Outcome (prepend_pages pages wrt) h (fun _ => False) (Returned h (BytePages.pagesContent h pages) wrt F)
  return_unsent : Outcome (return_unsent (pages.map some) wrt) h (fun _ => False) (Returned h (BytePages.pagesContent h pages) wrt F)

/-- A `WSASend` that ended at once has left its tail in the buffer; one that is pending keeps its pages. -/
structure SentNow (c c' : Iocp.Conn) (pages : List Data) (rest : Data) (r : Iocp.SendResult) : Prop where
  bytes : c'.pages.flatten ++ c'.ctx.buffer.write = pages.flatten.drop (sent_now r) ++ rest
  kept : c'.pages = if r = .pending then pages else []
  sent : c'.sent = c.sent ++ pages.flatten.take (sent_now r)

/-- A completion returns the tail to the buffer; `more` is what following calls of `WSASend` accepted at once. -/
def Completed (c c' : Iocp.Conn) (n : Nat) : Prop :=
  ∃ more passed, c'.sent = c.sent ++ (c.pages.flatten.take n ++ more) ∧
    more ++ (c'.pages.flatten ++ c'.ctx.buffer.write) = c.pages.flatten.drop n ++ (c.ctx.buffer.write ++ passed) ∧
    (c.ctx.buffer.layers = none → passed = [])

lemma write_processed (io : IoState) : ∃ passed, io.processed.buffer.write = io.buffer.write ++ passed ∧
    (io.buffer.layers = none → passed = [] ∧ io.processed.buffer.layers = none) := by
  have hsame : ∃ passed, io.buffer.write = io.buffer.write ++ passed ∧
      (io.buffer.layers = none → passed = [] ∧ io.buffer.layers = none) :=
    ⟨[], (append_nil _).symm, fun hl => ⟨rfl, hl⟩⟩
  unfold IoState.processed Stack.process_write_buf Stack.push_write
  split
  · exact hsame
  next hl =>
    split
    · exact hsame
    · rw [hl]
      dsimp only
      split
      · exact ⟨[], (append_nil _).symm, nofun⟩
      · exact ⟨_, rfl, nofun⟩

lemma putBack_with_write {io io₁ : IoState} (hb : io₁.buffer = io.buffer) (unsent : Data) :
    PutBack io (io₁.processed.with_write (unsent ++ io₁.processed.buffer.write)) unsent := by
  obtain ⟨passed, hw, hl⟩ := write_processed io₁
  rw [hb] at hw hl
  exact ⟨passed, congrArg (unsent ++ ·) hw, hl⟩

lemma buffer_status (io : IoState) (status : Except IoError Bool) : (io.update_write_status status).2.buffer = io.buffer := by
  cases status with
  | ok written => exact IoState.buffer_update_write_status io written
  | error e => exact (IoState.terminate_connection_spec io (some e)).1

lemma putBack_requeue (op : Uring.Op) (io : IoState) (res : Uring.Res) :
    PutBack io (op.requeue io res) (op.bytes.drop (Uring.accepted res)) := by
  rcases Uring.requeue_eq op io res with ⟨heq, hnil⟩ | heq
  · rw [heq, hnil]
    exact ⟨[], (append_nil _).symm, fun hl => ⟨rfl, hl⟩⟩
  · rw [heq]
    exact putBack_with_write rfl _

/-! ## io_uring -/

section

variable {lim : Uring.Limits} {item : Uring.StreamItem} {op : Uring.Op} {res : Uring.Res} {cuts : List Nat} {key : Nat} {did : Uring.Did}

lemma submit_bytes (lim : Uring.Limits) (item : Uring.StreamItem) (key : Nat) (pages : List Data) :
    ((item.submit lim key pages).2.elim [] fun s => s.op.bytes) = pages.flatten ∧ (item.submit lim key pages).1.ctx = item.ctx := by
  match pages with
  | [] => exact ⟨rfl, rfl⟩
  | [buf] => exact ⟨rfl, rfl⟩
  | _ :: _ :: _ => exact ⟨rfl, rfl⟩

/-- The next send takes its pages from the front of the buffer. -/
lemma send_if_bytes {again : Bool} (h : item.send_if lim again cuts key = some did) :
    ∃ passed, (did.2.elim [] fun s => s.op.bytes) ++ did.1.ctx.buffer.write = item.ctx.buffer.write ++ passed ∧
      (item.ctx.buffer.layers = none → passed = []) := by
  unfold Uring.StreamItem.send_if Uring.StreamItem.send at h
  split at h
  · split at h
    · split at h <;> cases h
      exact ⟨[], (append_nil _).symm, fun _ => rfl⟩
    · obtain ⟨p, hp, rfl⟩ := of_map h
      obtain ⟨passed, hw, hl⟩ := write_processed item.ctx
      obtain ⟨hsub, hctx⟩ := submit_bytes lim { item with ctx := item.ctx.processed.with_write p.2 } key p.1
      refine ⟨passed, ?_, fun hnone => (hl hnone).1⟩
      rw [hsub, hctx, ← hw]
      exact gather_flatten hp
  · split at h <;> cases h
    exact ⟨[], (append_nil _).symm, fun _ => rfl⟩

/-- After the pages are back a handler reports, which leaves the buffers alone, and may send again. -/
lemma PutBack.send_if {io ctx : IoState} {unsent : Data} {again : Bool} (hback : PutBack io ctx unsent)
    (hctx : item.ctx.buffer = ctx.buffer) (h : item.send_if lim again cuts key = some did) : Handled io did unsent := by
  obtain ⟨passed, hw, hnone⟩ := hback
  obtain ⟨later, heq, hlater⟩ := send_if_bytes h
  refine ⟨passed ++ later, ?_, fun hl => ?_⟩
  · rw [heq, hctx, hw, append_assoc, append_assoc]
  · rw [(hnone hl).1, hlater ((congrArg Stack.layers hctx).trans (hnone hl).2)]
    rfl

lemma buffer_write_ended (io : IoState) (res : Uring.Res) : (Uring.write_ended io res).2.buffer = io.buffer := by
  cases res with
  | ok n =>
    rw [Uring.write_ended, buffer_status]
    split
    · exact (IoState.terminate_connection_spec io none).1
    · rfl
  | error e => exact buffer_status io (.error e)

lemma handled_send_ended (h : item.send_ended lim op res cuts key = some did) :
    Handled item.ctx did (op.bytes.drop (Uring.accepted res)) :=
  (putBack_requeue op item.ctx res).send_if (buffer_write_ended _ res) h

lemma handled_write_canceled (h : item.write_canceled lim op cuts key = some did) : Handled item.ctx did op.bytes := by
  have hback : PutBack item.ctx (Uring.prepend item.ctx op.pages) op.bytes := by
    rw [Uring.prepend_eq]
    exact putBack_with_write rfl _
  exact hback.send_if (buffer_status _ _) h

end

/-! ## IOCP and the polling driver -/

variable {status : Except IoError Bool}

lemma buffer_stop_if_none (io : IoState) (n : Nat) : (Iocp.Conn.stop_if_none io n).buffer = io.buffer := by
  unfold Iocp.Conn.stop_if_none
  split
  · exact (IoState.terminate_connection_spec io none).1
  · rfl

lemma putBack_finish {c c' : Iocp.Conn} {res : Iocp.Completion}
    (h : c.finish res = some (status, c')) : PutBack c.ctx c'.ctx (c.pages.flatten.drop (sent res)) := by
  cases res with
  | done n =>
    obtain ⟨-, hc⟩ := Lib.of_ite h
    cases hc
    rw [Iocp.Conn.accepted, Iocp.return_remove_sent]
    exact putBack_with_write (buffer_stop_if_none c.ctx n) _
  | error e =>
    cases h
    have hback := Iocp.return_unsent_some c.pages 0 c.ctx.processed.buffer.write
    rw [replicate_zero, nil_append] at hback
    rw [Iocp.Conn.failed, hback]
    exact putBack_with_write rfl _

section

variable {c c' : Iocp.Conn} {rounds : List (List Nat × Iocp.SendResult)}

lemma sentNow_of_pages {pages : List Data} {rest : Data} {r : Iocp.SendResult} {st : IoTaskStatus}
    (h : c.sent_pages c.ctx.processed pages rest r = some (st, c')) :
    SentNow c c' pages rest r ∧ c'.ctx.buffer.layers = c.ctx.processed.buffer.layers ∧ (c'.waiting = false → c'.pages = []) := by
  have hstatus : ∀ (c : Iocp.Conn) status, (c.update_status status).2.ctx.buffer = c.ctx.buffer := fun c => buffer_status c.ctx
  cases r with
  | done n =>
    obtain ⟨-, hc⟩ := of_ite h
    obtain rfl : _ = c' := congrArg Prod.snd hc
    refine ⟨⟨?_, rfl, rfl⟩, ?_, fun _ => rfl⟩
    · rw [hstatus]
      exact Iocp.return_remove_sent n pages rest
    · rw [hstatus]
      show (Iocp.Conn.stop_if_none c.ctx.processed n).buffer.layers = _
      rw [buffer_stop_if_none]
  | error e =>
    obtain rfl : _ = c' := congrArg Prod.snd (Option.some.inj h)
    refine ⟨⟨?_, rfl, (append_nil _).symm⟩, ?_, fun _ => rfl⟩
    · rw [hstatus]
      exact Iocp.return_unsent_some pages 0 rest
    · rw [hstatus]
      rfl
  | pending =>
    obtain rfl : _ = c' := congrArg Prod.snd (Option.some.inj h)
    refine ⟨⟨?_, rfl, (append_nil _).symm⟩, ?_, nofun⟩
    all_goals
      rw [hstatus]
      rfl

/-- One round of `WriteOperation::write`: what it accepts, its pages and the buffer are what was in the buffer. -/
lemma write_round_bytes {cuts : List Nat} {r : Iocp.SendResult} {st : IoTaskStatus}
    (h : c.write_round cuts r = some (st, c')) (hp : c.pages = []) :
    ∃ more passed, c'.sent = c.sent ++ more ∧
      more ++ (c'.pages.flatten ++ c'.ctx.buffer.write) = c.ctx.buffer.write ++ passed ∧
      (c.ctx.buffer.layers = none → passed = [] ∧ c'.ctx.buffer.layers = none) ∧ (c'.waiting = false → c'.pages = []) := by
  obtain ⟨⟨pages, rest⟩, hg, h⟩ := of_bind h
  obtain ⟨passed, hw, hl⟩ := write_processed c.ctx
  have hcut : pages.flatten ++ rest = c.ctx.processed.buffer.write := gather_flatten hg
  dsimp only at h
  split at h
  · obtain rfl : _ = c' := congrArg Prod.snd (Option.some.inj h)
    have hbuffer : (({ c with ctx := c.ctx.processed } : Iocp.Conn).update_status (.ok false)).2.ctx.buffer =
        c.ctx.processed.buffer := buffer_status c.ctx.processed (.ok false)
    refine ⟨[], passed, (append_nil _).symm, ?_, ?_, fun _ => hp⟩
    · rw [hbuffer, ← hw, show ((_ : IoTaskStatus × Iocp.Conn).2).pages = [] from hp]
      rfl
    · rw [hbuffer]
      exact hl
  · obtain ⟨hsent, hlayers, hidle⟩ := sentNow_of_pages h
    refine ⟨_, passed, hsent.sent, ?_, ?_, hidle⟩
    · rw [hsent.bytes, ← append_assoc, take_append_drop, hcut, hw]
    · rw [hlayers]
      exact hl

/-- The loop of `write`, round by round. -/
lemma write_bytes (h : c.write rounds = some c') (hp : c.waiting = false → c.pages = []) :
    ∃ more passed, c'.sent = c.sent ++ more ∧
      more ++ (c'.pages.flatten ++ c'.ctx.buffer.write) = c.pages.flatten ++ (c.ctx.buffer.write ++ passed) ∧
      (c.ctx.buffer.layers = none → passed = []) := by
  induction rounds generalizing c with
  | nil =>
    obtain ⟨-, rfl⟩ := of_ite h
    exact ⟨[], [], (append_nil _).symm, by rw [append_nil]; rfl, fun _ => rfl⟩
  | cons r rounds ih =>
    obtain ⟨hwait, h⟩ := Option.ite_none_left_eq_some.1 h
    have hnil := hp (Bool.not_eq_true _ ▸ hwait)
    obtain ⟨⟨st, c₁⟩, hround, h⟩ := of_bind h
    obtain ⟨more, passed, hsent, hbytes, hl, hidle⟩ := write_round_bytes hround hnil
    simp only [hnil, flatten_nil, nil_append]
    dsimp only at h
    split at h
    · obtain ⟨more', passed', hsent', hbytes', hl'⟩ := ih h hidle
      refine ⟨more ++ more', passed ++ passed', ?_, ?_, fun hnone => ?_⟩
      · rw [hsent', hsent, append_assoc]
      · rw [append_assoc, hbytes', ← append_assoc c₁.pages.flatten, ← append_assoc more, hbytes, append_assoc]
      · rw [(hl hnone).1, hl' (hl hnone).2]
        rfl
    · obtain ⟨-, rfl⟩ := of_ite h
      exact ⟨more, passed, hsent, hbytes, fun hnone => (hl hnone).1⟩

lemma finish_sent {res : Iocp.Completion} (h : c.finish res = some (status, c')) :
    c'.sent = c.sent ++ c.pages.flatten.take (sent res) ∧ c'.pages = [] ∧ c'.waiting = false := by
  cases res with
  | done n =>
    obtain ⟨-, h⟩ := of_ite h
    cases h
    exact ⟨rfl, rfl, rfl⟩
  | error e =>
    cases h
    exact ⟨(append_nil _).symm, rfl, rfl⟩

lemma completed_bytes {res : Iocp.Completion} (h : c.completed res rounds = some c') : Completed c c' (sent res) := by
  obtain ⟨⟨status, c₁⟩, hfin, h⟩ := of_bind h
  obtain ⟨passed, hw, hl⟩ := putBack_finish hfin
  obtain ⟨hsent, hpages, hwait⟩ := finish_sent hfin
  -- the report leaves the buffers alone
  have hdone : Completed c c₁ (sent res) := by
    refine ⟨[], passed, ?_, ?_, fun hnone => (hl hnone).1⟩
    · rw [append_nil]
      exact hsent
    · rw [hpages]
      exact hw
  have hreport : Completed c (c₁.update_status status).2 (sent res) := by
    unfold Completed
    rw [show (c₁.update_status status).2.ctx.buffer = c₁.ctx.buffer from buffer_status c₁.ctx status]
    exact hdone
  dsimp only at h
  split at h
  · obtain ⟨-, rfl⟩ := of_ite h
    exact hdone
  · split at h
    · obtain ⟨more, later, hsent', hbytes, hlater⟩ := write_bytes h fun _ => hpages
      have hbuffer : (c₁.update_status status).2.ctx.buffer = c₁.ctx.buffer := buffer_status c₁.ctx status
      have hpages' : (c₁.update_status status).2.pages = [] := hpages
      rw [hbuffer, hpages', hw] at hbytes
      refine ⟨more, passed ++ later, ?_, ?_, fun hnone => ?_⟩
      · rw [← append_assoc, ← hsent]
        exact hsent'
      · rw [hbytes, flatten_nil, nil_append, append_assoc, append_assoc]
      · rw [(hl hnone).1, hlater ((congrArg Stack.layers hbuffer).trans (hl hnone).2)]
        rfl
    · obtain ⟨-, rfl⟩ := of_ite h
      exact hreport

end

lemma written_back {pages : List Data} {rest data : Data} {result : Polling.WriteResult}
    {stop : Bool} (hr : ∀ e, result ≠ .error e) (h : Polling.write_pages result pages rest = (status, stop, data)) :
    data = pages.flatten.drop (written result) ++ rest ∧ ∃ ok, status = .ok ok := by
  unfold Polling.write_pages at h
  split at h
  next hnil =>
    obtain ⟨rfl, -, rfl⟩ := h
    rw [hnil]
    exact ⟨by simp, _, rfl⟩
  · cases result with
    | ready n =>
      obtain ⟨rfl, -, rfl⟩ := h
      exact ⟨by rw [prepend_all_eq, advance_flatten, written], _, rfl⟩
    | pending =>
      obtain ⟨rfl, -, rfl⟩ := h
      exact ⟨prepend_all_eq, _, rfl⟩
    | error e => exact absurd rfl (hr e)

end Geario.Net
