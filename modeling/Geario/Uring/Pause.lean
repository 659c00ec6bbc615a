import Geario.Uring.Write
/-!
# Flush and close on the io_uring driver

Each completion of a send reports to `update_write_status`, which pauses the
write task when it finds the write buffer empty. With zero-copy sends a `notif`
can arrive when a newer send is under way, or when the tail of another one has
not come back: the write task is paused although bytes are in flight, a waiting
flush is woken, and a close goes on to shut the socket down. As long as a send
is the only one that is not settled when its end is reported, none of this
happens.

The order of what was sent is another matter, so the bytes are counted here and
not compared.
-/
open Geario.Io
open Lib (Reach Slab of_bind of_map)

namespace Geario.Uring

open List

def Slot.pending (e : Slot) : Bool := e.active || e.owed ≠ []

def busy (ops : Slab Slot) : Bool := ops.values.any Slot.pending

def in_flight (ops : Slab Slot) : Data := (ops.values.map Slot.owed).flatten

section Ops

variable {ops : Slab Slot} {k : Nat} {e : Slot}

lemma busy_get (hk : ops.get k = some e) : busy ops = (e.pending || busy (ops.remove k)) := by
  rw [busy, (Slab.values_perm hk).any_eq, any_cons]
  rfl

lemma in_flight_insert (ops : Slab Slot) (k : Nat) (e : Slot) :
    in_flight (ops.insert k e) = e.owed ++ in_flight (ops.remove k) := by
  rfl

lemma in_flight_get (hk : ops.get k = some e) : (in_flight ops).Perm (e.owed ++ in_flight (ops.remove k)) := by
  exact ((Slab.values_perm hk).map Slot.owed).flatten

lemma owed_of_settled (h : e.pending = false) : e.owed = [] := by
  simpa using (Bool.or_eq_false_iff.1 h).2

lemma in_flight_of_not_busy (h : busy ops = false) : in_flight ops = [] := by
  rw [in_flight, flatten_eq_nil_iff]
  intro d hd
  obtain ⟨e, he, rfl⟩ := mem_map.1 hd
  apply owed_of_settled
  rw [← Bool.not_eq_true]
  exact any_eq_false.1 h e he

end Ops

namespace Conn

variable {lim : Limits} {cfg : IoConfig} {layers : Option Nat} {no_zc : Bool} {c c' : Conn} {i : Step} {cuts : List Nat}
  {res : Res} {key : Nat}

/-- When the end of a send is reported, all others are settled. -/
def Settled (c : Conn) : Step → Prop
  | .completed k false _ _ => busy (c.ops.remove k) = false
  | .notif k _ _ => busy (c.ops.remove k) = false
  | .canceled k _ _ => busy (c.ops.remove k) = false
  | _ => True

instance (c : Conn) (i : Step) : Decidable (Settled c i) := by
  unfold Settled
  split <;> infer_instance

/-- When a full flush is called, the buffer has something to write or the write task is paused. -/
def Attended (c : Conn) : Prop := c.item.ctx.buffer.write_buf_size = 0 → c.item.ctx.flags.wr_paused = true

structure Good (c : Conn) : Prop where
  writer : c.item.ctx.Writer (busy c.ops)
  bytes : (c.sent ++ (in_flight c.ops ++ c.item.ctx.buffer.output)).Perm c.written
  kept : ∀ k e, c.ops.get k = some e → e.Kept
  /-- sends are not cancelled by the driver itself -/
  flags : c.item.flags.wr_canceling = false ∧ c.item.flags.wr_reissue = false
  early : c.early_flush = false
  graceful : c.graceful = true →
    in_flight c.ops = [] ∧ c.item.ctx.buffer.output = [] ∧ c.item.ctx.flags.is_stopping_any = true

namespace Good

lemma accepted (h : c.Good) (hf : in_flight c.ops = []) (ho : c.item.ctx.buffer.output = []) : c.sent.Perm c.written := by
  have hb := h.bytes
  rwa [hf, ho, append_nil, append_nil] at hb

lemma congr (h : c.Good) (hw : c'.item.ctx.Writer (busy c.ops)) (hk : IoState.Keeps c.item.ctx c'.item.ctx)
    (hfl : c'.item.flags = c.item.flags) (hops : c'.ops = c.ops) (hwr : c'.written = c.written) (hs : c'.sent = c.sent) (he : c'.early_flush = c.early_flush)
    (hg : c'.graceful = c.graceful) : c'.Good where
  writer := by
    rw [hops]
    exact hw
  bytes := by
    rw [hops, hwr, hs, hk.output]
    exact h.bytes
  kept := by
    rw [hops]
    exact h.kept
  flags := by
    rw [hfl]
    exact h.flags
  early := he.trans h.early
  graceful hgr := by
    obtain ⟨hf, ho, hany⟩ := h.graceful (hg ▸ hgr)
    rw [hops, hk.output]
    exact ⟨hf, ho, hk.stopping hany⟩

lemma did {slot : Option Nat} {again : Bool} {item item' : StreamItem}
    {sub : Option Submission} {rest : Data} (h : Good { c with item }) (hs : Sent item again cuts key item' sub rest)
    (hp : again → item.ctx.flags.wr_paused = false) (hd : c.did slot (item', sub) = some c') : c'.Good := by
  have hwr := h.writer
  obtain ⟨hflow, hout, hflags⟩ := hs.flow hwr.toFlow
  rcases hs.wr_op with ⟨rfl, -⟩ | ⟨-, hagain, -, -, s, rfl, rfl⟩
  · cases hd
    refine h.congr ?_ ⟨hflow, hout.trans hs.output, fun hany => hflags ▸ hany⟩ (hs.flags h.flags.1) rfl rfl rfl rfl rfl
    rcases hs.ctx with ⟨hctx, -⟩ | ⟨hagain, hctx⟩
    · rw [hctx]
      exact hwr
    · rw [hctx]
      exact hwr.with_write (hp hagain) rest _
  · obtain ⟨hfree, rfl⟩ := Lib.of_ite_not hd
    have hvacant : c.ops.get s.key = none := by
      simp only [Slab.contains, not_or, Option.not_isSome_iff_eq_none] at hfree
      exact hfree.1
    have hfl : in_flight (c.ops.insert s.key { op := s.op, zc := s.zc, kernel := .queued }) = s.op.bytes ++ in_flight c.ops := by
      rw [in_flight_insert, Slab.remove_vacant hvacant]
      rfl
    have hsplit : s.op.bytes ++ rest = item.ctx.buffer.output := hs.output
    refine ⟨?_, ?_, Slab.forall_insert nofun fun k e _ => h.kept k e, hs.flags h.flags.1 ▸ h.flags, h.early, fun hgr => ?_⟩
    · rcases hs.ctx with ⟨hctx, -⟩ | ⟨-, hctx⟩
      · rw [hctx]
        exact hwr.of_not_paused (hp hagain) _
      · rw [hctx]
        exact hwr.with_write (hp hagain) rest _
    · refine .trans (.append_left _ ?_) h.bytes
      rw [hfl, hout, ← hsplit, ← append_assoc]
      exact perm_append_comm.append_right rest
    · obtain ⟨hf, ho, hany⟩ := h.graceful hgr
      rw [← hsplit, append_eq_nil_iff] at ho
      rw [hfl, hf, hout, ho.1, ho.2, hflags]
      exact ⟨rfl, rfl, hany⟩

lemma not_paused {k : Nat} {e : Slot} (h : c.Good) (hk : c.ops.get k = some e) (he : e.pending) :
    c.item.ctx.flags.wr_paused = false := by
  by_contra hp
  have hidle := h.writer.idle (Bool.not_eq_false _ ▸ hp)
  rw [busy_get hk, he] at hidle
  cases hidle

end Good

lemma good_taken {k : Nat} {e : Slot} (h : c.Good) (hk : c.ops.get k = some e) (hq : e.kernel = .queued)
    (hst : c.taken k e res = some c') : c'.Good := by
  have hpend : e.pending := by rw [Slot.pending, Slot.active, hq, Bool.true_or]
  have howed : e.owed = e.op.bytes := by rw [Slot.owed, hq]
  have hf := in_flight_get hk
  rw [howed] at hf
  obtain ⟨sent, rfl, hsent⟩ := taken_spec hst
  have hfl : in_flight (c.ops.insert k { e with kernel := .done res }) =
      e.op.bytes.drop (accepted res) ++ in_flight (c.ops.remove k) := in_flight_insert _ _ _
  refine ⟨h.writer.of_not_paused (h.not_paused hk hpend) _, ?_, Slab.forall_insert (by rintro _ ⟨⟩) fun j e' _ => h.kept j e', h.flags,
    h.early, fun hgr => ?_⟩
  · refine .trans ?_ h.bytes
    rw [hfl, ← append_assoc, ← append_assoc, ← append_assoc, hsent]
    refine .append_right _ ?_
    rw [append_assoc]
    exact hf.symm.append_left _
  · obtain ⟨hnil, ho, hany⟩ := h.graceful hgr
    rw [hnil, nil_perm, append_eq_nil_iff] at hf
    refine ⟨?_, ho, hany⟩
    rw [hfl, hf.1, hf.2, drop_nil]
    rfl

section Ended

variable {k : Nat} {e : Slot} {io : IoState}

lemma writer_requeue (h : c.Good) (hk : c.ops.get k = some e) {d : Data} (hd : d = e.owed)
    (hio : io = c.item.ctx ∧ d = [] ∨ io = c.item.ctx.processed.with_write (d ++ c.item.ctx.processed.buffer.write)) :
    io.Writer false ∧ io.buffer.output = e.owed ++ c.item.ctx.buffer.output ∧ io.flags = c.item.ctx.flags := by
  -- a paused driver has nothing to put back
  have hnil : c.item.ctx.flags.wr_paused → e.owed = [] := by
    intro hp
    apply owed_of_settled
    rw [← Bool.not_eq_true]
    intro hpend
    cases hp.symm.trans (h.not_paused hk hpend)
  rcases hio with ⟨rfl, hd'⟩ | rfl
  · refine ⟨⟨h.writer.toFlow, h.writer.handle, fun _ => rfl, h.writer.empty⟩, ?_, rfl⟩
    rw [← hd, hd']
    rfl
  · rw [h.writer.write_processed, hd]
    refine ⟨h.writer.with_write_paused _ _ fun hp => ⟨rfl, ?_⟩, (h.writer.toFlow.with_write _).2, rfl⟩
    rw [hnil hp]
    rfl

lemma good_requeued (h : c.Good) (hk : c.ops.get k = some e) (hset : busy (c.ops.remove k) = false)
    (hout : io.buffer.output = e.owed ++ c.item.ctx.buffer.output) (hflags : io.flags = c.item.ctx.flags) (hflow : io.Flow)
    {item : StreamItem} (hw : item.ctx.Writer false) (hkeeps : IoState.Keeps io item.ctx)
    (hfl : item.flags.wr_canceling = false ∧ item.flags.wr_reissue = false) :
    Good { c with
      item
      ops := c.ops.remove k
      early_flush := c.early_flush || c.flushed_early io res } := by
  have hnone := in_flight_of_not_busy hset
  have hf := in_flight_get hk
  rw [hnone, append_nil] at hf
  have hb : (c.sent ++ (e.owed ++ c.item.ctx.buffer.output)).Perm c.written :=
    .trans (.append_left _ (hf.symm.append_right _)) h.bytes
  refine ⟨?_, ?_, fun j e' hj => h.kept j e' (Slab.get_of_remove hj).2, hfl, ?_, fun hgr => ?_⟩
  · rw [hset]
    exact hw
  · rw [hnone, hkeeps.output, hout]
    exact hb
  · rw [h.early, Bool.false_or]
    by_cases hsize : io.buffer.write_buf_size = 0
    · -- the buffer is empty, so all has been accepted
      have hlen := hb.length_eq
      rw [← hout, hflow.write_buf_size_eq_zero.1 hsize, append_nil] at hlen
      simp [flushed_early, hlen]
    · simp [flushed_early, hsize]
  · obtain ⟨hnil, ho, hany⟩ := h.graceful hgr
    rw [hnil, nil_perm] at hf
    refine ⟨hnone, ?_, hkeeps.stopping (hflags ▸ hany)⟩
    rw [hkeeps.output, hout, hf, ho]
    rfl

lemma writer_write_ended (h : io.Writer false) (res : Res) : (write_ended io res).2.Writer false := by
  cases res with
  | ok n =>
    rw [write_ended]
    split
    · exact (h.terminate none).update_write_status (fun _ => rfl) _
    · exact h.update_write_status (fun _ => rfl) _
  | error err => exact h.terminate (some err)

lemma not_paused_write_ended (h : (write_ended io res).1 = .Io) : (write_ended io res).2.flags.wr_paused = false := by
  cases res with
  | ok n => exact IoState.not_paused_of_io h
  | error err => cases h

section

variable (h : c.Good) (hk : c.ops.get k = some e)
include h hk

lemma good_ended {item : StreamItem}
    (hst : c.ended k e res (item.send_ended lim e.op res cuts key) = some c')
    (howed : e.op.bytes.drop (accepted res) = e.owed) (hctx : item.ctx = c.item.ctx) (hfl : item.flags = c.item.flags)
    (hset : busy (c.ops.remove k) = false) : c'.Good := by
  obtain ⟨⟨item', sub⟩, hs, hd⟩ := of_bind hst
  unfold StreamItem.send_ended at hs
  rw [hctx] at hs
  obtain ⟨hw, hout, hflags⟩ := writer_requeue h hk howed (requeue_eq e.op c.item.ctx res)
  have hw' := writer_write_ended hw res
  obtain ⟨rest, hsent⟩ := sent_send_if hw'.toFlow hs
  refine Good.did ?_ hsent (fun hio => ?_) hd
  · refine good_requeued h hk hset hout hflags hw.toFlow hw' (keeps_write_ended hw.toFlow res) ?_
    rw [hfl]
    exact h.flags
  · exact not_paused_write_ended (of_decide_eq_true hio)

lemma good_canceled (hq : e.kernel = .queued)
    (hset : busy (c.ops.remove k) = false) (hst : (c.item.write_canceled lim e.op cuts key).bind
      ({ c with
        ops := c.ops.remove k
        early_flush := c.early_flush || c.flushed_early (prepend c.item.ctx e.op.pages) (.ok 0) }.did none) = some c') :
    c'.Good := by
  have howed : e.op.bytes = e.owed := by rw [Slot.owed, hq]
  obtain ⟨⟨item', sub⟩, hs, hd⟩ := of_bind hst
  obtain ⟨hw, hout, hflags⟩ := writer_requeue h hk howed (.inr (prepend_eq c.item.ctx e.op.pages))
  have hw' := hw.update_write_status (fun _ => rfl) false
  unfold StreamItem.write_canceled at hs
  simp only [h.flags.2, Bool.false_or, Bool.false_and] at hs
  obtain ⟨rest, hsent⟩ := sent_send_if hw'.toFlow hs
  refine Good.did ?_ hsent (fun hio => ?_) hd
  · exact good_requeued h hk hset hout hflags hw.toFlow hw' (hw.toFlow.update_write_status (.ok false)) ⟨rfl, rfl⟩
  · exact IoState.not_paused_of_io (of_decide_eq_true hio)

lemma good_more {buf : Data} {result : Option Res} (hdone : e.kernel = .done res) (hsend : e.op = .Send buf result)
    (hst : (c.item.more_completed lim buf res cuts key).bind ({ c with ops := c.ops.insert k (e.reported buf res) }.did none) =
      some c') : c'.Good := by
  have hpend : e.pending := by rw [Slot.pending, Slot.active, hdone, Bool.true_or]
  have hp := h.not_paused hk hpend
  have hfl : (in_flight (c.ops.insert k (e.reported buf res))).Perm (in_flight c.ops) := by
    rw [in_flight_insert, Slot.owed_reported hdone hsend]
    exact (in_flight_get hk).symm
  -- the send is noted and `wr_op` is released
  have hnoted : Good { c with ops := c.ops.insert k (e.reported buf res), item.wr_op := none } := by
    refine ⟨h.writer.of_not_paused hp _, ?_, ?_, h.flags, h.early, fun hgr => ?_⟩
    · exact .trans (.append_left _ (hfl.append_right _)) h.bytes
    · exact Slab.forall_insert (e.kept_reported buf res) fun j e' _ => h.kept j e'
    · obtain ⟨hnil, hrest⟩ := h.graceful hgr
      rw [hnil, perm_nil] at hfl
      exact ⟨hfl, hrest⟩
  obtain ⟨⟨item', sub⟩, hs, hd⟩ := of_bind hst
  obtain ⟨rest, hsent⟩ := sent_send_if (by exact h.writer.toFlow) hs
  exact hnoted.did hsent (fun _ => hp) hd

end

end Ended

lemma good_poll {elapsed : Bool} (h : c.Good) (hst : c.poll_readiness lim elapsed cuts key = some c') : c'.Good := by
  obtain ⟨⟨item', sub⟩, hs, hd⟩ := of_bind hst
  have hread := h.writer.poll_read_ready elapsed
  obtain ⟨hw, hready⟩ := hread.poll_write_ready
  have hk := (h.writer.toFlow.poll_read_ready elapsed).trans hread.toFlow.poll_write_ready
  obtain ⟨rest, hsent⟩ := sent_send_if hw.toFlow hs
  refine Good.did ?_ hsent (fun hr => hready (of_decide_eq_true hr)) hd
  have hgood : Good { c with item.ctx := (c.item.ctx.poll_read_ready id elapsed).2.poll_write_ready.2 } :=
    h.congr hw hk rfl rfl rfl rfl rfl rfl
  refine { hgood with graceful := fun hgr => ?_ }
  rcases (Bool.or_eq_true _ _).mp hgr with hgr | hgr
  · exact hgood.graceful hgr
  · rw [Bool.and_eq_true] at hgr
    obtain ⟨hidle, hnil⟩ := (h.writer.process_shutdown hgr.1).2 hgr.2
    have hany : c.item.ctx.flags.is_stopping_any := by
      have hs := hgr.1
      rw [Io.Flags.is_shutting_down_filters, Bool.and_eq_true] at hs
      rw [Io.Flags.is_stopping_any, hs.1, Bool.or_true]
    exact ⟨in_flight_of_not_busy hidle, hk.output.trans hnil, hk.stopping hany⟩

lemma good_direct {d : Data} {n : Nat} (h : c.Good) (hst : c.try_write_vectored d n = some c') : c'.Good := by
  obtain ⟨hcond, hst⟩ := Option.ite_none_left_eq_some.1 hst
  simp only [Bool.or_eq_true, not_or, Bool.not_eq_true] at hcond
  have hopen : c.item.ctx.flags.is_stopping_any = false := hcond.1.1.1.1.1.1.1
  have hnot : c.graceful ≠ true := fun hgr => nomatch hopen.symm.trans (h.graceful hgr).2.2
  split at hst
  · cases hst
    have hw := h.writer.terminate none
    have hk := h.writer.toFlow.terminate none
    refine h.congr ?_ (hk.trans (hk.flow.keeps_of_buffer rfl id)) rfl rfl rfl rfl rfl rfl
    exact ⟨⟨hw.passing, hw.up⟩, fun _ => rfl, hw.idle, hw.empty⟩
  · cases hst
    refine { h with bytes := ?_, graceful := fun hgr => absurd hgr hnot }
    rw [append_assoc]
    refine .trans (.append_left _ perm_append_comm) ?_
    rw [← append_assoc]
    exact h.bytes.append_right _

lemma good_step (h : c.Good) (hok : Settled c i) (hst : c.step lim i = some c') : c'.Good := by
  cases i with
  | write d =>
    obtain ⟨ctx, hctx, rfl⟩ := of_map hst
    obtain ⟨-, hout, hopen⟩ := h.writer.toFlow.write hctx
    refine ⟨h.writer.write hctx, ?_, h.kept, h.flags, h.early, fun hgr => ?_⟩
    · rw [hout, ← append_assoc, ← append_assoc]
      refine .append_right d ?_
      rw [append_assoc]
      exact h.bytes
    · cases hopen.symm.trans (h.graceful hgr).2.2
  | direct d n => exact good_direct h hst
  | send_buf =>
    cases hst
    exact h.congr h.writer.ops_send_buf h.writer.toFlow.ops_send_buf rfl rfl rfl rfl rfl rfl
  | flush full =>
    cases hst
    exact h.congr (h.writer.poll_flush full).1 (h.writer.toFlow.poll_flush full) rfl rfl rfl rfl rfl rfl
  | close =>
    cases hst
    exact h.congr h.writer.start_shutdown h.writer.toFlow.start_shutdown rfl rfl rfl rfl rfl rfl
  | poll elapsed cuts key => exact good_poll h hst
  | take k res =>
    obtain ⟨e, hk, hq, hst⟩ := step_take hst
    exact good_taken h hk hq hst
  | completed k more cuts key =>
    cases more with
    | true =>
      obtain ⟨e, buf, result, res, hk, hdone, hsend, hst⟩ := step_more hst
      exact good_more h hk hdone hsend hst
    | false =>
      obtain ⟨e, res, hk, hdone, hst⟩ := step_last hst
      exact good_ended h hk hst (by rw [Slot.owed, hdone]) rfl rfl hok
  | notif k cuts key =>
    obtain ⟨e, res, hk, hnoted, hst⟩ := step_notif hst
    have hres := h.kept k e hk res hnoted
    exact good_ended h hk hst (by rw [Slot.owed, hnoted, hres]) rfl rfl hok
  | canceled k cuts key =>
    obtain ⟨e, hk, hq, hst⟩ := step_canceled hst
    exact good_canceled h hk hq hok hst
  | stop err =>
    cases hst
    exact h.congr (h.writer.terminate err) (h.writer.toFlow.terminate err) rfl rfl rfl rfl rfl rfl

lemma good_new : (new cfg layers no_zc).Good := by
  refine ⟨.new cfg layers, ?_, nofun, ⟨rfl, rfl⟩, rfl, nofun⟩
  have ho : (IoState.new cfg layers).buffer.output = [] := (Stack.passing_new layers).2
  change ([] ++ ([] ++ (IoState.new cfg layers).buffer.output)).Perm []
  rw [ho]
  exact .refl _

/-- If each send is the only one that is not settled when its end is reported: with a paused write task no operation owes
anything, waiting flushes and graceful closes end only when all that was written has been accepted, and a full flush that is
called with a buffer that is not empty, or with a paused write task, is over at once only if nothing is in flight. -/
theorem flush_when_accepted (hr : Reach (step lim) Settled (new cfg layers no_zc) c) :
    (c.item.ctx.flags.wr_paused = true → ∀ k e, c.ops.get k = some e → e.owed = []) ∧ c.early_flush = false ∧
      (c.graceful = true → c.sent.Perm c.written) ∧
      (c.Attended → (c.item.ctx.poll_flush id true).1 = some (.ok ()) → in_flight c.ops = [] ∧ c.sent.Perm c.written) := by
  have h : c.Good := hr.inv Good good_new fun _ _ _ h hok hst => good_step h hok hst
  refine ⟨fun hp k e hk => ?_, h.early, fun hg => ?_, fun hat hf => ?_⟩
  · apply owed_of_settled
    have hidle := h.writer.idle hp
    rw [busy_get hk] at hidle
    exact (Bool.or_eq_false_iff.1 hidle).1
  · obtain ⟨hnone, hnil, -⟩ := h.graceful hg
    exact h.accepted hnone hnil
  · have hnil := (h.writer.poll_flush true).2 rfl hf
    have hidle := h.writer.idle (hat (h.writer.toFlow.write_buf_size_eq_zero.2 hnil))
    have hnone := in_flight_of_not_busy hidle
    exact ⟨hnone, h.accepted hnone hnil⟩

/-- A zero-copy send is taken and its `notif` handled before the next one: the close waits for both, and a full flush is
over after the first. -/
theorem closed_after_notif :
    (∃ c : Conn, c.graceful = true ∧ c.written = [1, 2, 3, 4] ∧ c.sent.Perm c.written) ∧
      ∃ c : Conn, c.Attended ∧ c.written = [1, 2, 3] ∧ in_flight c.ops = [] ∧ c.sent.Perm c.written := by
  have hreach : Reach (step ⟨2, 16⟩) Settled (new ⟨64, 64, 32, 0⟩ none false) _ := .of_steps
      [.write [1, 2, 3], .send_buf, .poll false [3] 1, .take 1 (.ok 3), .completed 1 true [] 0, .notif 1 [] 0, .write [4],
        .send_buf, .poll false [1] 1, .close, .poll false [] 0, .take 1 (.ok 1), .completed 1 false [] 0, .poll false [] 0] rfl
  have hfirst : Reach (step ⟨2, 16⟩) Settled (new ⟨64, 64, 32, 0⟩ none false) _ := .of_steps
      [.write [1, 2, 3], .send_buf, .poll false [3] 1, .take 1 (.ok 3), .completed 1 true [] 0, .notif 1 [] 0] rfl
  constructor
  · refine ⟨_, ?_, ?_, (flush_when_accepted hreach).2.2.1 ?_⟩
    all_goals rfl
  · exact ⟨_, fun _ => rfl, rfl, (flush_when_accepted hfirst).2.2.2 (fun _ => rfl) rfl⟩

/-- The second page is under way when the `notif` of the first one arrives: the write task is paused and the close is taken
for done. And a full flush is over while a plain send is under way. -/
theorem closed_in_flight :
    (∃ c : Conn, Reach (step ⟨2, 16⟩) (fun _ _ => True) (new ⟨64, 64, 32, 0⟩ none false) c ∧
      c.item.ctx.flags.wr_paused = true ∧ c.graceful = true ∧ in_flight c.ops = [4] ∧ c.written = [1, 2, 3, 4] ∧
      c.sent = [1, 2, 3]) ∧
    ∃ c : Conn, Reach (step ⟨2, 16⟩) (fun _ _ => True) (new ⟨64, 64, 32, 0⟩ none false) c ∧
      (c.item.ctx.poll_flush id true).1 = some (.ok ()) ∧ c.written = [1] ∧ c.sent = [] := by
  constructor
  · exact ⟨_, .of_steps [.write [1, 2, 3], .send_buf, .poll false [3] 1, .take 1 (.ok 3), .write [4], .completed 1 true [1] 2,
      .notif 1 [] 0, .close, .poll false [] 0] rfl, rfl, rfl, rfl, rfl, rfl⟩
  · exact ⟨_, .of_steps [.write [1], .send_buf, .poll false [1] 1] rfl, rfl, rfl, rfl⟩

end Conn

end Geario.Uring
