import Geario.Io.Drain
import Geario.Lib.Run
/-!
# Writing on the IOCP driver

`WriteOperation` takes up to sixteen pages for one `WSASend`. The call is done at
once, fails, or is left pending, and then the operation keeps the pages until
the completion arrives. A pending send is reported to `update_write_status` as
`Ok(false)`, which looks at the length of the buffer only: when the pages were
all there was, the write task is paused although nothing has been sent, a flush
and a graceful close are over, and the close cancels the send. As long as a send
is left pending only with more in the buffer, none of this happens.

Reading is left out, except that it may stop the connection at any time.
-/
open Geario.Io
open Lib List Option Bool

namespace Geario.Iocp

open IoState

def MAX_WRITE_BUFS : Nat := 16

inductive SendResult
  | done (n : Nat)
  | error (e : IoError)
  | pending
  deriving DecidableEq

/-- The end of a pending send; a cancelled one ends with an error. -/
inductive Completion
  | done (n : Nat)
  | error (e : IoError)
  deriving DecidableEq

/-- The loop that removes `sent` bytes from the pages: a page that is empty is dropped. -/
def remove_sent (sent : Nat) : List (Option Data) → List (Option Data)
  | some p :: rest =>
    let len := min p.length sent
    let page := if p.drop len = [] then none else some (p.drop len)
    page :: if sent - len ≠ 0 then remove_sent (sent - len) rest else rest
  | rest => rest

/-- The loop that puts pages back, from the last one to the first that is gone. -/
def return_unsent (pages : List (Option Data)) (buf : Data) : Data :=
  (pages.reverse.takeWhile Option.isSome).foldl (fun buf page => page.getD [] ++ buf) buf

lemma return_unsent_some (l : List Data) (k : Nat) (buf : Data) :
    return_unsent (replicate k none ++ l.map some) buf = l.flatten ++ buf := by
  have hwhile : (replicate k none ++ l.map some).reverse.takeWhile isSome = (l.map some).reverse := by
    rw [reverse_append, takeWhile_append_of_pos]
    · cases k with
      | zero => exact append_nil _
      | succ k =>
        rw [reverse_replicate, replicate_succ, takeWhile_cons_of_neg (by simp), append_nil]
    · intro p hp
      obtain ⟨d, -, rfl⟩ := mem_map.1 (mem_reverse.1 hp)
      rfl
  rw [return_unsent, hwhile, foldl_reverse]
  clear hwhile
  induction l with
  | nil => rfl
  | cons d l ih =>
    rw [map_cons, foldr_cons, ih, flatten_cons, append_assoc]
    rfl

lemma remove_sent_eq (n : Nat) (l : List Data) :
    ∃ (k : Nat) (rest : List Data), remove_sent n (l.map some) = replicate k none ++ rest.map some ∧ rest.flatten = l.flatten.drop n := by
  induction l generalizing n with
  | nil => exact ⟨0, [], rfl, by rw [flatten_nil, drop_nil]⟩
  | cons p l ih =>
    rw [map_cons, remove_sent, flatten_cons]
    rcases Nat.lt_or_ge n p.length with hlt | hle
    · -- the page is not sent completely
      rw [Nat.min_eq_right (Nat.le_of_lt hlt), Nat.sub_self, if_neg (not_not_intro rfl)]
      have hne : p.drop n ≠ [] := by
        intro h0
        have := congrArg length h0
        rw [length_drop, length_nil] at this
        omega
      rw [if_neg hne]
      refine ⟨0, p.drop n :: l, rfl, ?_⟩
      rw [flatten_cons, drop_append_of_le_length (Nat.le_of_lt hlt)]
    · rw [Nat.min_eq_left hle, drop_length, if_pos rfl, drop_append, drop_of_length_le hle, nil_append]
      split
      · obtain ⟨k, rest, heq, hflat⟩ := ih (n - p.length)
        exact ⟨k + 1, rest, by rw [heq]; rfl, hflat⟩
      next hzero =>
        have hz : n - p.length = 0 := by omega
        exact ⟨1, l, rfl, by rw [hz, drop_zero]⟩

lemma return_remove_sent (n : Nat) (l : List Data) (buf : Data) :
    return_unsent (remove_sent n (l.map some)) buf = l.flatten.drop n ++ buf := by
  obtain ⟨k, rest, heq, hflat⟩ := remove_sent_eq n l
  rw [heq, return_unsent_some, hflat]

structure Conn where
  ctx : IoState
  waiting : Bool
  closing : Bool
  pages : List Data
  written : Data
  sent : Data
  /-- a send has been left pending with nothing more in the write buffer -/
  bare : Bool
  /-- a `WR_FLUSH` waiter was woken with length 0 before everything was accepted -/
  early_flush : Bool
  graceful : Bool
  deriving DecidableEq

namespace Conn

inductive Step
  | write (d : Data)
  | send_buf
  | flush (full : Bool)
  | close
  /-- the io task runs; the rounds are the cuts of the write buffer and the answers of `WSASend` -/
  | poll (elapsed : Bool) (rounds : List (List Nat × SendResult))
  | completed (res : Completion) (rounds : List (List Nat × SendResult))
  | stop (err : Option IoError)
  /-- `StreamCtl::shutdown`, which cancels a pending send -/
  | shutdown
  deriving DecidableEq

variable {cfg : IoConfig} {layers : Option Nat} {c c' : Conn} {i : Step} {rounds : List (List Nat × SendResult)}
  {res : Completion}

def new (cfg : IoConfig) (layers : Option Nat) : Conn :=
  { ctx := .new cfg layers, waiting := false, closing := false, pages := [], written := [], sent := [], bare := false,
    early_flush := false, graceful := false }

def update_status (c : Conn) (status : Except IoError Bool) : IoTaskStatus × Conn :=
  let r := c.ctx.update_write_status status
  (r.1, { c with
    ctx := r.2
    early_flush := c.early_flush ||
      status.isOk && c.ctx.flags.wr_flush && c.ctx.buffer.write_buf_size = 0 && c.sent ≠ c.written })

def accepted (c : Conn) (io : IoState) (n : Nat) (pages : List Data) (rest : Data) : Conn :=
  { c with
    waiting := false
    pages := []
    ctx := io.with_write (return_unsent (remove_sent n (pages.map some)) rest)
    sent := c.sent ++ pages.flatten.take n }

def failed (c : Conn) (io : IoState) (pages : List Data) (rest : Data) : Conn :=
  { c with waiting := false, pages := [], ctx := io.with_write (return_unsent (pages.map some) rest) }

def stop_if_none (io : IoState) (n : Nat) : IoState := if n = 0 then io.terminate_connection none else io

def sent_pages (c : Conn) (io : IoState) (pages : List Data) (rest : Data) : SendResult → Option (IoTaskStatus × Conn)
  | .done n =>
    if n ≤ pages.flatten.length then some ((c.accepted (stop_if_none io n) n pages rest).update_status (.ok true)) else none
  | .error e => some ((c.failed io pages rest).update_status (.error e))
  | .pending =>
    some ({ c with ctx := io.with_write rest, pages, waiting := true, bare := c.bare || rest = [] }.update_status (.ok false))

def write_round (c : Conn) (cuts : List Nat) (r : SendResult) : Option (IoTaskStatus × Conn) :=
  let io := c.ctx.processed
  -- the number of pages is limited, their size is not
  (gather MAX_WRITE_BUFS (io.buffer.write.length + 1) cuts io.buffer.write).bind fun p =>
    if p.1 = [] then some ({ c with ctx := io }.update_status (.ok false)) else c.sent_pages io p.1 p.2 r

def write (c : Conn) : List (List Nat × SendResult) → Option Conn
  | [] => if c.waiting then some c else none
  | r :: rounds =>
    if c.waiting then none
    else
      (c.write_round r.1 r.2).bind fun p =>
        if p.1 = .Io then write p.2 rounds else if rounds = [] then some p.2 else none

def finish (c : Conn) : Completion → Option (Except IoError Bool × Conn)
  | .done n =>
    if n ≤ c.pages.flatten.length then
      let io := (stop_if_none c.ctx n).processed
      some (.ok true, c.accepted io n c.pages io.buffer.write)
    else none
  | .error e => some (.error e, c.failed c.ctx.processed c.pages c.ctx.processed.buffer.write)

def completed (c : Conn) (res : Completion) (rounds : List (List Nat × SendResult)) : Option Conn :=
  (c.finish res).bind fun p =>
    if p.2.closing then if rounds = [] then some p.2 else none
    else
      let r := p.2.update_status p.1
      if r.1 = .Io then r.2.write rounds else if rounds = [] then some r.2 else none

def poll_readiness (c : Conn) (elapsed : Bool) (rounds : List (List Nat × SendResult)) : Option Conn :=
  let ready := c.ctx.flags.is_shutting_down_filters && (c.ctx.process_shutdown id).shutdown_ready
  let c := { c with ctx := (c.ctx.poll_read_ready id elapsed).2, graceful := c.graceful || ready }
  let w := c.ctx.poll_write_ready
  let c := { c with ctx := w.2 }
  if w.1 = some .Ready then c.write rounds else if rounds = [] then some c else none

def step (c : Conn) : Step → Option Conn
  | .write d => (c.ctx.write id d).map fun ctx => { c with ctx, written := c.written ++ d }
  | .send_buf => some { c with ctx := c.ctx.ops_send_buf id }
  | .flush full => some { c with ctx := (c.ctx.poll_flush id full).2 }
  | .close => some { c with ctx := c.ctx.start_shutdown }
  | .poll elapsed rounds => c.poll_readiness elapsed rounds
  | .completed res rounds => if c.waiting then c.completed res rounds else none
  | .stop err => some { c with ctx := c.ctx.terminate_connection err }
  | .shutdown => some { c with closing := c.closing || c.waiting }

/-- Everything written is accepted, with the pending send or still in the buffers; a pending send has more behind it. -/
structure Good (c : Conn) : Prop where
  writer : c.ctx.Writer c.waiting
  bytes : c.sent ++ (c.pages.flatten ++ c.ctx.buffer.output) = c.written
  idle : c.waiting = false → c.pages = []
  more : c.waiting = true → c.ctx.buffer.output ≠ []
  early : c.early_flush = false
  graceful : c.graceful = true → c.waiting = false ∧ c.ctx.buffer.output = [] ∧ c.ctx.flags.is_stopping_any = true

namespace Good

section

variable (h : c.Good)
include h

lemma idle_of_empty (ho : c.ctx.buffer.output = []) : c.waiting = false := by
  by_contra hw
  exact h.more (not_eq_false _ ▸ hw) ho

lemma accepted (ho : c.ctx.buffer.output = []) : c.sent = c.written := by
  have hb := h.bytes
  rwa [h.idle (h.idle_of_empty ho), ho, flatten_nil, append_nil, append_nil] at hb

lemma of_ctx {ctx : IoState} (hw : ctx.Writer c.waiting) (hk : IoState.Keeps c.ctx ctx) : Good { c with ctx } where
  writer := hw
  bytes := by
    rw [hk.output]
    exact h.bytes
  idle := h.idle
  more hwait := by
    rw [hk.output]
    exact h.more hwait
  early := h.early
  graceful hg := by
    obtain ⟨hwait, hout, hstop⟩ := h.graceful hg
    exact ⟨hwait, hk.output.trans hout, hk.stopping hstop⟩

lemma status (written : Bool) : (c.update_status (.ok written)).2.Good := by
  have hgood := h.of_ctx (h.writer.update_write_status h.idle_of_empty written)
    (h.writer.toFlow.update_write_status (.ok written))
  refine { hgood with early := ?_ }
  change (c.early_flush || _) = false
  rw [h.early, Bool.false_or]
  by_cases hzero : c.ctx.buffer.write_buf_size = 0
  · rw [h.writer.write_buf_size_eq_zero] at hzero
    simp [h.accepted hzero]
  · simp [hzero]

lemma status_error (e : IoError) : (c.update_status (.error e)).2.Good := by
  have hgood := h.of_ctx (h.writer.terminate (some e)) (h.writer.toFlow.terminate (some e))
  refine { hgood with early := ?_ }
  change (c.early_flush || _) = false
  rw [h.early]
  rfl

end

end Good

section Round

variable {io : IoState} {pages : List Data} {rest : Data}

section

variable (h : c.Good) (hb : c.sent ++ (pages.flatten ++ rest) = c.written) (hg : c.graceful = true → pages.flatten ++ rest = [])
include h hb hg

lemma good_part
    {n : Nat} (hwriter : io.Writer false) (hout : io.buffer.output = pages.flatten.drop n ++ rest)
    (hstop : c.ctx.flags.is_stopping_any → io.flags.is_stopping_any) :
    Good { c with waiting := false, pages := [], ctx := io, sent := c.sent ++ pages.flatten.take n } where
  writer := hwriter
  bytes := by
    rw [hout, flatten_nil, nil_append, append_assoc, ← append_assoc (take n _), take_append_drop]
    exact hb
  idle _ := rfl
  more := nofun
  early := h.early
  graceful hgr := by
    obtain ⟨-, -, hs⟩ := h.graceful hgr
    obtain ⟨hp, hr⟩ := append_eq_nil_iff.1 (hg hgr)
    refine ⟨rfl, ?_, hstop hs⟩
    rw [hout, hp, hr, drop_nil]
    rfl

lemma good_pending (hne : rest ≠ []) {bare : Bool} (hwriter : io.Writer true)
    (hout : io.buffer.output = rest) : Good { c with ctx := io, pages, waiting := true, bare } where
  writer := hwriter
  bytes := by
    rw [hout]
    exact hb
  idle := nofun
  more _ := by
    rw [hout]
    exact hne
  early := h.early
  graceful hgr := absurd (append_eq_nil_iff.1 (hg hgr)).2 hne

end

section

variable (h : c.Good) (hp : c.ctx.flags.wr_paused = false) (hb : c.sent ++ (pages.flatten ++ rest) = c.written) (hg : c.graceful = true → pages.flatten ++ rest = [])
include h hp hb hg

lemma good_accepted (n : Nat) : (c.accepted (stop_if_none c.ctx.processed n) n pages rest).Good := by
  have hwr := h.writer.with_write hp (pages.flatten.drop n ++ rest) false
  have hout := (h.writer.toFlow.with_write (pages.flatten.drop n ++ rest)).2
  unfold accepted stop_if_none
  rw [return_remove_sent]
  split
  · rw [with_write_terminate]
    have hk := hwr.toFlow.terminate none
    exact good_part h hb hg (hwr.terminate none) (hk.output.trans hout) fun _ => stopping_terminate none
  · exact good_part h hb hg hwr hout id

lemma good_failed : (c.failed c.ctx.processed pages rest).Good := by
  have hwr := h.writer.with_write hp (pages.flatten ++ rest) false
  have hout := (h.writer.toFlow.with_write (pages.flatten ++ rest)).2
  have hret : return_unsent (pages.map some) rest = pages.flatten ++ rest := return_unsent_some pages 0 rest
  have hpart := good_part (n := 0) h hb hg hwr hout id
  unfold failed
  rw [hret]
  rw [take_zero, append_nil] at hpart
  exact hpart

end

end Round

lemma good_round {cuts : List Nat} {r : SendResult} {st : IoTaskStatus} (h : c.Good) (hw : c.waiting = false)
    (hp : c.ctx.flags.wr_paused = false) (hr : c.write_round cuts r = some (st, c')) :
    (c'.bare = false → c'.Good) ∧ (st = .Io → c'.ctx.flags.wr_paused = false) := by
  obtain ⟨⟨pages, rest⟩, hgather, hr⟩ := of_bind hr
  have hsplit := gather_flatten hgather
  rw [h.writer.write_processed] at hsplit
  have hb : c.sent ++ (pages.flatten ++ rest) = c.written := by
    have hbytes := h.bytes
    rwa [h.idle hw, ← hsplit, flatten_nil, nil_append] at hbytes
  have hg : c.graceful → pages.flatten ++ rest = [] := fun hgr => hsplit.trans (h.graceful hgr).2.1
  split at hr
  · have hwr := h.writer.with_write hp c.ctx.processed.buffer.write c.waiting
    obtain ⟨hflow, hout⟩ := h.writer.toFlow.with_write c.ctx.processed.buffer.write
    have hgood : Good { c with ctx := c.ctx.processed } :=
      h.of_ctx hwr ⟨hflow, hout.trans h.writer.write_processed, id⟩
    cases hr
    exact ⟨fun _ => hgood.status false, not_paused_of_io⟩
  · cases r with
    | done n =>
      obtain ⟨-, hr⟩ := of_guard hr
      cases hr
      exact ⟨fun _ => (good_accepted h hp hb hg n).status true, not_paused_of_io⟩
    | error e =>
      cases hr
      exact ⟨fun _ => (good_failed h hp hb hg).status_error e, not_paused_of_io⟩
    | pending =>
      cases hr
      refine ⟨fun hbare => Good.status ?_ false, not_paused_of_io⟩
      have hne : rest ≠ [] := of_decide_eq_false (or_eq_false_iff.1 hbare).2
      exact good_pending h hb hg hne (h.writer.with_write hp rest true) (h.writer.toFlow.with_write rest).2

lemma bare_round {cuts : List Nat} {r : SendResult} {st : IoTaskStatus} (hr : c.write_round cuts r = some (st, c'))
    (hb : c'.bare = false) : c.bare = false := by
  obtain ⟨⟨pages, rest⟩, -, hr⟩ := of_bind hr
  split at hr
  · cases hr
    exact hb
  · cases r with
    | done n =>
      obtain ⟨-, hr⟩ := of_guard hr
      cases hr
      exact hb
    | error e =>
      cases hr
      exact hb
    | pending =>
      cases hr
      exact (or_eq_false_iff.1 hb).1

lemma bare_write (hr : c.write rounds = some c') (hb : c'.bare = false) : c.bare = false := by
  induction rounds generalizing c with
  | nil =>
    obtain ⟨-, rfl⟩ := of_ite hr
    exact hb
  | cons r rounds ih =>
    obtain ⟨-, hr⟩ := ite_none_left_eq_some.1 hr
    obtain ⟨⟨st, c₁⟩, hround, hr⟩ := of_bind hr
    split at hr
    · exact bare_round hround (ih hr)
    · obtain ⟨-, rfl⟩ := of_ite hr
      exact bare_round hround hb

lemma good_write (h : c.Good) (hp : c.ctx.flags.wr_paused = false)
    (hr : c.write rounds = some c') (hb : c'.bare = false) : c'.Good := by
  induction rounds generalizing c with
  | nil =>
    obtain ⟨-, rfl⟩ := of_ite hr
    exact h
  | cons r rounds ih =>
    obtain ⟨hw, hr⟩ := ite_none_left_eq_some.1 hr
    obtain ⟨⟨st, c₁⟩, hround, hr⟩ := of_bind hr
    obtain ⟨hgood, hpaused⟩ := good_round h (not_eq_true _ ▸ hw) hp hround
    split at hr
    next hst => exact ih (hgood (bare_write hr hb)) (hpaused hst) hr
    · obtain ⟨-, rfl⟩ := of_ite hr
      exact hgood hb

lemma good_finish {st : Except IoError Bool} (h : c.Good) (hw : c.waiting)
    (hr : c.finish res = some (st, c')) : c'.Good := by
  have hp : c.ctx.flags.wr_paused = false := by
    by_contra hpaused
    cases hw.symm.trans (h.writer.idle (not_eq_false _ ▸ hpaused))
  have hb : c.sent ++ (c.pages.flatten ++ c.ctx.processed.buffer.write) = c.written := by
    rw [h.writer.write_processed]
    exact h.bytes
  have hg : c.graceful → c.pages.flatten ++ c.ctx.processed.buffer.write = [] := by
    intro hgr
    cases hw.symm.trans (h.graceful hgr).1
  cases res with
  | done n =>
    obtain ⟨-, hr⟩ := of_guard hr
    cases hr
    have hproc : (stop_if_none c.ctx n).processed = stop_if_none c.ctx.processed n := by
      unfold stop_if_none
      split
      · exact processed_terminate c.ctx none
      · rfl
    have hwrite : (stop_if_none c.ctx.processed n).buffer.write = c.ctx.processed.buffer.write := by
      unfold stop_if_none
      split
      · rw [(c.ctx.processed.terminate_connection_spec none).1]
      · rfl
    rw [hproc, hwrite]
    exact good_accepted h hp hb hg n
  | error e =>
    cases hr
    exact good_failed h hp hb hg

lemma good_completed (h : c.Good) (hw : c.waiting)
    (hr : c.completed res rounds = some c') (hb : c'.bare = false) : c'.Good := by
  obtain ⟨⟨st, c₁⟩, hfinish, hr⟩ := of_bind hr
  have hgood := good_finish h hw hfinish
  have hstatus : (c₁.update_status st).2.Good := by
    cases st with
    | ok written => exact hgood.status written
    | error e => exact hgood.status_error e
  dsimp only at hr
  split at hr
  · obtain ⟨-, rfl⟩ := of_ite hr
    exact hgood
  · split at hr
    next hio => exact good_write hstatus (not_paused_of_io hio) hr hb
    · obtain ⟨-, rfl⟩ := of_ite hr
      exact hstatus

lemma bare_completed (hr : c.completed res rounds = some c') (hb : c'.bare = false) : c.bare = false := by
  obtain ⟨⟨st, c₁⟩, hfinish, hr⟩ := of_bind hr
  have hsame : c₁.bare = c.bare := by
    cases res with
    | done n =>
      obtain ⟨-, hfinish⟩ := of_guard hfinish
      cases hfinish
      rfl
    | error e =>
      cases hfinish
      rfl
  dsimp only at hr
  rw [← hsame]
  split at hr
  · obtain ⟨-, rfl⟩ := of_ite hr
    exact hb
  · split at hr
    · have hbare := bare_write hr hb
      exact hbare
    · obtain ⟨-, rfl⟩ := of_ite hr
      exact hb

lemma good_poll {elapsed : Bool} (h : c.Good)
    (hr : c.poll_readiness elapsed rounds = some c') (hb : c'.bare = false) : c'.Good := by
  have hw := h.writer.poll_read_ready elapsed
  obtain ⟨hw', hready⟩ := hw.poll_write_ready
  have hk := (h.writer.toFlow.poll_read_ready elapsed).trans hw.toFlow.poll_write_ready
  have hgood := h.of_ctx hw' hk
  have hgraceful : Good { c with
      ctx := (c.ctx.poll_read_ready id elapsed).2.poll_write_ready.2
      graceful := c.graceful || c.ctx.flags.is_shutting_down_filters && (c.ctx.process_shutdown id).shutdown_ready } := by
    refine { hgood with graceful := fun hgr => ?_ }
    rcases (or_eq_true _ _).mp hgr with hgr | hgr
    · exact hgood.graceful hgr
    · rw [and_eq_true] at hgr
      obtain ⟨hidle, hnil⟩ := (h.writer.process_shutdown hgr.1).2 hgr.2
      have hany : c.ctx.flags.is_stopping_any := by
        have hs := hgr.1
        rw [Flags.is_shutting_down_filters, and_eq_true] at hs
        rw [Flags.is_stopping_any, hs.1, Bool.or_true]
      exact ⟨hidle, hk.output.trans hnil, hk.stopping hany⟩
  unfold poll_readiness at hr
  dsimp only at hr
  split at hr
  next hst => exact good_write hgraceful (hready hst) hr hb
  · obtain ⟨-, rfl⟩ := of_ite hr
    exact hgraceful

lemma bare_poll {elapsed : Bool} (hr : c.poll_readiness elapsed rounds = some c')
    (hb : c'.bare = false) : c.bare = false := by
  unfold poll_readiness at hr
  dsimp only at hr
  split at hr
  · have hbare := bare_write hr hb
    exact hbare
  · obtain ⟨-, rfl⟩ := of_ite hr
    exact hb

lemma good_step (h : c.bare = false → c.Good) (hst : c.step i = some c') (hb : c'.bare = false) : c'.Good := by
  cases i with
  | write d =>
    obtain ⟨ctx, hctx, rfl⟩ := of_map hst
    replace h := h hb
    obtain ⟨-, ho, hopen⟩ := h.writer.toFlow.write hctx
    refine ⟨h.writer.write hctx, ?_, h.idle, fun hwait => ?_, h.early, fun hgr => ?_⟩
    · rw [ho, ← h.bytes]
      simp only [append_assoc]
    · rw [ho]
      exact append_ne_nil_of_left_ne_nil (h.more hwait) d
    · cases hopen.symm.trans (h.graceful hgr).2.2
  | send_buf =>
    cases hst
    replace h := h hb
    exact h.of_ctx h.writer.ops_send_buf h.writer.toFlow.ops_send_buf
  | flush full =>
    cases hst
    replace h := h hb
    exact h.of_ctx (h.writer.poll_flush full).1 (h.writer.toFlow.poll_flush full)
  | close =>
    cases hst
    replace h := h hb
    exact h.of_ctx h.writer.start_shutdown h.writer.toFlow.start_shutdown
  | poll elapsed rounds => exact good_poll (h (bare_poll hst hb)) hst hb
  | completed res rounds =>
    obtain ⟨hw, hst⟩ := of_guard hst
    exact good_completed (h (bare_completed hst hb)) hw hst hb
  | stop err =>
    cases hst
    replace h := h hb
    exact h.of_ctx (h.writer.terminate err) (h.writer.toFlow.terminate err)
  | shutdown =>
    cases hst
    replace h := h hb
    exact { h with }

lemma good_new : (new cfg layers).Good := by
  have ho := (Stack.passing_new layers).2
  exact ⟨.new cfg layers, ho, fun _ => rfl, nofun, rfl, nofun⟩

/-- As long as no send was left pending with an empty buffer behind it: a paused write task has nothing left to write unless
a send is scheduled, and flushes and graceful closes end only when all that was written has been accepted. -/
theorem flush_after_sends (hr : Reach step (fun _ _ => True) (new cfg layers) c) (hb : c.bare = false) :
    (c.ctx.flags.wr_paused = true → c.waiting = false ∧
        (c.ctx.flags.io_stopped = false → c.ctx.flags.wr_send_op = false → c.ctx.buffer.output = [])) ∧
      c.early_flush = false ∧ (c.graceful = true → c.waiting = false ∧ c.sent = c.written) ∧
      ((c.ctx.poll_flush id true).1 = some (.ok ()) → c.sent = c.written) := by
  have h : c.Good := hr.inv (fun c => c.bare = false → c.Good) (fun _ => good_new) (fun _ _ _ h _ hst => good_step h hst) hb
  refine ⟨fun hp => ⟨h.writer.idle hp, fun hs => h.writer.empty hs hp⟩, h.early, fun hg => ?_, fun hf => ?_⟩
  · obtain ⟨hw, hnil, -⟩ := h.graceful hg
    exact ⟨hw, h.accepted hnil⟩
  · exact h.accepted ((h.writer.poll_flush true).2 rfl hf)

/-- Seventeen pages: the send of the first sixteen is pending, and the close waits for both. -/
theorem flush_after_pending_send : ∃ c : Conn, c.graceful = true ∧ c.bare = false ∧ c.waiting = false ∧ c.sent = c.written := by
  have hreach : Reach step (fun _ _ => True) (new ⟨64, 64, 32, 0⟩ none) _ := .of_steps
      [.write (replicate 17 1), .send_buf, .poll false [(replicate 16 1, .pending)], .close, .poll false [],
        .completed (.done 16) [([1], .done 1)], .poll false []] rfl
  refine ⟨_, ?_, ?_, (flush_after_sends hreach rfl).2.2.1 rfl⟩
  · rfl
  · rfl

/-- One page: its send is pending, the write task is paused, the close is taken for done, and the send is cancelled with
the byte in it. -/
theorem closed_with_pending_send : ∃ c : Conn, Reach step (fun _ _ => True) (new ⟨64, 64, 32, 0⟩ none) c ∧
    c.ctx.flags.wr_paused = true ∧ c.waiting = true ∧ c.graceful = true ∧ c.closing = true ∧ c.pages = [[1]] ∧
    c.written = [1] ∧ c.sent = [] := by
  have hreach : Reach step (fun _ _ => True) (new ⟨64, 64, 32, 0⟩ none) _ := .of_steps
      [.write [1], .send_buf, .poll false [([1], .pending)], .close, .poll false [], .shutdown] rfl
  exact ⟨_, hreach, rfl, rfl, rfl, rfl, rfl, rfl, rfl⟩

/-- As long as no send was left pending with an empty buffer behind it, the bytes are sent in the order in which they were
written, and none is lost or sent twice. -/
theorem sent_then_rest (hr : Reach step (fun _ _ => True) (new cfg layers) c) (hb : c.bare = false) :
    c.sent ++ (c.pages.flatten ++ c.ctx.buffer.output) = c.written :=
  (hr.inv (fun c : Conn => c.bare = false → c.Good) (fun _ => good_new) (fun _ _ _ h _ hst => good_step h hst) hb).bytes

theorem sent_then_rest_pending : ∃ c : Conn, c.waiting ∧ c.pages.flatten = replicate 16 1 ∧
    c.sent ++ (c.pages.flatten ++ c.ctx.buffer.output) = c.written := by
  have hreach : Reach step (fun _ _ => True) (new ⟨64, 64, 32, 0⟩ none) _ := .of_steps
      [.write (replicate 17 1), .send_buf, .poll false [(replicate 16 1, .pending)]] rfl
  exact ⟨_, rfl, rfl, sent_then_rest hreach rfl⟩

end Conn

end Geario.Iocp
