import Geario.Io.Output
import Geario.Polling.Flush
import Geario.Polling.Read
/-!
# Closing a connection

With the base filter. The io task asks `shutdown_filters` whether everything is
written, and leaves its loop when the write task is paused and no send is
scheduled. Until then output is in one of three places: `Iops` is going to call
`ops_send_buf`, the io task has been woken, or the poller holds the interest to
write. `Sound` says so, and that the io task is woken when nothing is left.
-/
open Geario.Io
open Lib (run of_guard of_map)
open Option Bool

namespace Geario.Polling

open LocalWaker Stack IoState

/-- What one attempt to write meets: where the pages end and what the system call returns. -/
structure Syscall where
  cuts : List Nat
  result : WriteResult
  deriving DecidableEq

namespace Syscall

def hnd_write (w : Syscall) : IoState → IoState := Polling.hnd_write w.cuts w.result

def fits (w : Syscall) (io : Option IoState) : Bool := io.all fun io => (write io w.cuts w.result).isSome

def sent (w : Syscall) (io : Option IoState) : Data := Sender.sent_at (some ⟨[], w.cuts, w.result⟩) io

end Syscall

structure Closing where
  item : StreamItem
  queued : Bool
  ready : Bool
  written : Data
  accepted : Data
  tries : Nat
  deriving DecidableEq

namespace Closing

inductive Step
  | with_write_buf (d : Data) (w : Syscall)
  | close
  | poll_shutdown
  | run (w : Syscall)
  /-- the io task runs; `w` is for the handle and `w'` for the interest -/
  | poll (elapsed : Bool) (w : Syscall) (rd : ReadResult) (w' : Syscall)
  | event (ev : Event) (rd : ReadResult) (w : Syscall)
  | error (err : IoError)
  deriving DecidableEq

def new (cfg : IoConfig) : Closing :=
  { item := { flags := {}, ctx := { IoState.new cfg none with read_task := { registered := false, woken := true } } }
    queued := false, ready := false, written := [], accepted := [], tries := 0 }

def tried (c : Closing) (w : Syscall) (io : Option IoState) : Closing :=
  { c with
    accepted := c.accepted ++ w.sent io
    tries := c.tries + match io with | some io => if io.buffer.write = [] then 0 else 1 | none => 0 }

def scheduled (c : Closing) (ctx : IoState) : Closing :=
  { c with
    item.ctx := ctx
    queued := c.queued || (ctx.flags.wr_send_op && !c.item.ctx.flags.wr_send_op) }

def task_runs (io : IoState) : IoState :=
  { io with read_task.woken := false, write_task.woken := false }

def shutdown_at (io : IoState) : Option IoState :=
  if io.flags.is_shutting_down_filters then
    { io with buffer := io.buffer.process_shutdown }.consolidate_write_state_at true
  else none

def finds_ready (hnd_write : IoState → IoState) (io : IoState) : Bool :=
  io.flags.is_shutting_down_filters && (io.process_shutdown hnd_write).shutdown_ready

def modifies (r : Option Readiness) : Bool := r = none || r = some .Ready

def interest_at (item : StreamItem) (rd wr : Bool) (rres : ReadResult) : Option IoState :=
  if wr && !item.flags.wr then some (interest_read item rd rres).2.ctx else none

def event_at (item : StreamItem) (ev : Event) (rres : ReadResult) : Option IoState :=
  if ev.writable then some (event_read item ev.readable rres).2.ctx else none

def poll_ready (c : Closing) (elapsed : Bool) (w : Syscall) : Option Readiness × Option Readiness × Closing :=
  let io := task_runs c.item.ctx
  let r := io.poll_read_ready w.hnd_write elapsed
  let q := r.2.poll_write_ready
  (r.1, q.1, { (c.tried w (shutdown_at io)).scheduled q.2 with ready := c.ready || finds_ready w.hnd_write io })

def poll_interest (c : Closing) (rd wr : Bool) (rres : ReadResult) (w : Syscall) : Option Closing :=
  (interest c.item rd wr rres w.cuts w.result).map fun item => { c.tried w (interest_at c.item rd wr rres) with item }

def with_write_buf (c : Closing) (d : Data) (w : Syscall) : Option Closing :=
  let called := { c.item.ctx with buffer := c.item.ctx.buffer.append_write_src d }.consolidate_write_state_at false
  if w.fits called then
    (c.item.ctx.write w.hnd_write d).map fun ctx => { (c.tried w called).scheduled ctx with written := c.written ++ d }
  else none

def run_ops (c : Closing) (w : Syscall) : Option Closing :=
  if c.queued then
    if w.fits c.item.ctx.ops_send_buf_at then
      some { (c.tried w c.item.ctx.ops_send_buf_at).scheduled (c.item.ctx.ops_send_buf w.hnd_write) with queued := false }
    else none
  else some c

def poll (c : Closing) (elapsed : Bool) (w : Syscall) (rd : ReadResult) (w' : Syscall) : Option Closing :=
  if w.fits (shutdown_at (task_runs c.item.ctx)) then
    let (r, q, c) := c.poll_ready elapsed w
    if modifies r || modifies q then c.poll_interest (r = some .Ready) (q = some .Ready) rd w' else some c
  else none

def step (c : Closing) : Step → Option Closing
  | .with_write_buf d w => c.with_write_buf d w
  | .close => some (c.scheduled c.item.ctx.start_shutdown)
  | .poll_shutdown => some (c.scheduled c.item.ctx.poll_shutdown.2)
  | .run w => c.run_ops w
  | .poll elapsed w rd w' => c.poll elapsed w rd w'
  | .event ev rd w =>
    (event c.item ev rd w.cuts w.result).map fun item => { c.tried w (event_at c.item ev rd) with item }
  | .error err =>
    some (if c.item.ctx.flags.is_closed then c else c.scheduled (c.item.ctx.terminate_connection (some err)))

/-! ## An attempt to write -/

/-- The connection stays open, and the io task is woken if anything. -/
structure Turn (io io' : IoState) : Prop where
  base : io.buffer.layers = none → io'.buffer.layers = none
  handle : io'.handle = io.handle
  closed : io'.flags.is_closed = io.flags.is_closed
  io_stopping_filters : io'.flags.io_stopping_filters = io.flags.io_stopping_filters
  read_task : io'.read_task = io.read_task ∨ io'.read_task = io.read_task.wake
  write_task : io'.write_task = io.write_task ∨ io'.write_task = io.write_task.wake

lemma Turn.refl (io : IoState) : Turn io io := ⟨fun h => h, rfl, rfl, rfl, .inl rfl, .inl rfl⟩

variable {io₁ io₂ io₃ : IoState}

lemma Turn.trans (h : Turn io₁ io₂) (h' : Turn io₂ io₃) : Turn io₁ io₃ where
  base hb := h'.base (h.base hb)
  handle := h'.handle.trans h.handle
  closed := h'.closed.trans h.closed
  io_stopping_filters := h'.io_stopping_filters.trans h.io_stopping_filters
  read_task := same_or_woken h.read_task h'.read_task
  write_task := same_or_woken h.write_task h'.write_task

/-- The driver has tried to write: it is told to go on, or nothing is left. -/
structure Attempted (io : IoState) (st : IoTaskStatus) (io' : IoState) : Prop extends Turn io io' where
  wr_send_op : io'.flags.wr_send_op = io.flags.wr_send_op
  paused : io'.flags.wr_paused = true ↔ io'.buffer.write = []
  status : st = .Io ↔ io'.buffer.write ≠ []
  told : io.flags.io_stopping_filters = true → io'.buffer.write = [] → io'.read_task = io.read_task.wake

variable {st : IoTaskStatus} {called : Option IoState}

section Attempt

variable {io io' : IoState} {result : WriteResult} {cuts : List Nat}

lemma write_buf_size_base (hb : io.buffer.layers = none) : io.buffer.write_buf_size = io.buffer.write.length := by
  rw [write_buf_size, hb]

lemma process_write_buf_base (hb : io.buffer.layers = none) : io.buffer.process_write_buf = io.buffer := by
  rw [process_write_buf, hb]

lemma wr_paused_terminate (io : IoState) (err : Option IoError) :
    (io.terminate_connection err).flags.wr_paused = io.flags.wr_paused := by
  unfold terminate_connection
  split <;> rfl

lemma write_pages_fine {pages : List Data} {rest data : Data} {status : Except IoError Bool}
    {stop : Bool} (h : write_pages result pages rest = (status, stop, data)) :
    (result.Fine → ∃ written, status = .ok written) ∧ (result.Fine → stop = false) := by
  unfold write_pages at h
  split at h
  · obtain ⟨rfl, rfl, -⟩ := h
    exact ⟨fun _ => ⟨_, rfl⟩, fun _ => rfl⟩
  · cases result with
    | ready n =>
      obtain ⟨rfl, rfl, -⟩ := h
      exact ⟨fun _ => ⟨_, rfl⟩, fun hn => decide_eq_false (Nat.ne_of_gt hn)⟩
    | pending =>
      obtain ⟨rfl, rfl, -⟩ := h
      exact ⟨fun _ => ⟨_, rfl⟩, fun _ => rfl⟩
    | error e => exact ⟨False.elim, False.elim⟩

section

variable (hb : io.buffer.layers = none)
include hb

lemma write_closure (h : write io cuts result = some (st, io')) :
    ∃ io₁ status, io₁.update_write_status status = (st, io') ∧ io₁.buffer.layers = none ∧
      (result.Fine → ∃ written, status = .ok written) ∧
      ((io₁.flags.is_closed ∧ ¬ result.Fine) ∧ io₁.flags.wr_paused = io.flags.wr_paused ∨
        ∃ data, io₁ = { io with buffer.write := data }) := by
  obtain ⟨⟨pages, rest⟩, -, heq⟩ := of_map h
  dsimp only at heq
  rw [process_write_buf_base hb] at heq
  rcases hpages : write_pages result pages rest with ⟨status, stop, data⟩
  rw [hpages] at heq
  obtain ⟨hok, hstop⟩ := write_pages_fine hpages
  cases stop with
  | true =>
    refine ⟨_, status, heq, (congrArg layers (Sender.buffer_terminate io none)).trans hb, hok, .inl ⟨⟨?_, ?_⟩, ?_⟩⟩
    · exact closed_terminate io none
    · exact fun hf => nomatch hstop hf
    · exact wr_paused_terminate io none
  | false => exact ⟨_, status, heq, hb, hok, .inr ⟨data, rfl⟩⟩

lemma write_cases
    (ho : io.flags.is_closed = false) (h : write io cuts result = some (st, io')) :
    (io'.flags.is_closed ∧ ¬ result.Fine ∧ io'.flags.wr_paused = io.flags.wr_paused) ∨ Attempted io st io' := by
  obtain ⟨io₁, status, hupdate, -, hok, hclosure⟩ := write_closure hb h
  have hpaused : io₁.flags.wr_paused = io.flags.wr_paused := by
    rcases hclosure with ⟨-, hp⟩ | ⟨data, rfl⟩
    · exact hp
    · rfl
  cases status with
  | error err =>
    left
    cases hupdate
    refine ⟨closed_terminate io₁ _, fun hf => ?_, (wr_paused_terminate io₁ _).trans hpaused⟩
    obtain ⟨written, hwritten⟩ := hok hf
    cases hwritten
  | ok written =>
    rcases hclosure with ⟨⟨hc, hfine⟩, -⟩ | ⟨data, rfl⟩
    · left
      have hb : IoState.Beside io₁ ((io₁.wake_flushed io₁.buffer.write_buf_size).wake_written written) :=
        (beside_wake_flushed io₁ _).trans (beside_wake_written _ written)
      have hstatus : io₁.update_write_status (.ok written) =
          (.Stop, (io₁.wake_flushed io₁.buffer.write_buf_size).wake_written written) := if_pos (hb.closed.trans hc)
      cases hstatus.symm.trans hupdate
      exact ⟨hb.closed.trans hc, hfine, hb.wr_paused.trans hpaused⟩
    · right
      have hsize : (write_buf_size { io.buffer with write := data }) = data.length := by
        rw [write_buf_size, hb]
      have hw := wakes_update_write_status { io with buffer.write := data } written
      rw [hupdate] at hw
      have hlayers : io'.buffer.layers = none := (congrArg layers hw.buffer).trans hb
      have hdata : io'.buffer.write = data := congrArg Stack.write hw.buffer
      have hturn : io'.handle = io.handle → io'.flags.is_closed = io.flags.is_closed → Turn io io' := fun hh hc =>
        { hw with base := fun _ => hlayers, handle := hh, closed := hc }
      rcases update_write_status_cases { io with buffer.write := data } written ho with
        ⟨hpos, t, ht, -, heq⟩ | ⟨hzero, t, ht, -, htold, heq⟩
      · cases heq.symm.trans hupdate
        have hne : data ≠ [] := by
          rintro rfl
          exact absurd hpos (by rw [hsize]; exact Nat.lt_irrefl 0)
        rw [← hdata] at hne
        exact ⟨hturn ht.handle ht.closed, ht.wr_send_op, ⟨(by intros; contradiction), fun hnil => absurd hnil hne⟩, ⟨fun _ => hne, fun _ => rfl⟩,
          fun _ hnil => absurd hnil hne⟩
      · cases heq.symm.trans hupdate
        have hnil : data = [] := List.eq_nil_of_length_eq_zero (hsize.symm.trans hzero)
        rw [← hdata] at hnil
        exact ⟨hturn ht.handle ht.closed, ht.wr_send_op, ⟨fun _ => hnil, fun _ => rfl⟩, ⟨(by intros; contradiction), fun hne => absurd hnil hne⟩,
          fun hf _ => htold hf⟩

lemma write_stays
    (hc : io.flags.is_closed) (h : write io cuts result = some (st, io')) : io'.flags.is_closed := by
  obtain ⟨io₁, status, hupdate, -, -, hclosure⟩ := write_closure hb h
  have hc₁ : io₁.flags.is_closed := by
    rcases hclosure with ⟨⟨hc₁, -⟩, -⟩ | ⟨data, rfl⟩
    · exact hc₁
    · exact hc
  obtain rfl : (io₁.update_write_status status).2 = io' := congrArg Prod.snd hupdate
  cases status with
  | ok written => exact IoState.Stays.covers.update_write_status io₁ written hc₁
  | error err => exact closed_terminate io₁ (some err)

end

/-! ## Calls of the handle -/

variable {w : Syscall}

lemma wake_of_same_or_woken {w w' : LocalWaker} (h : w' = w ∨ w' = w.wake) : w'.wake = w.wake := by
  rcases h with rfl | rfl
  · rfl
  · exact w.wake_wake

lemma call_write_cases (hb : io.buffer.layers = none) (ho : io.flags.is_closed = false) (hh : io.handle)
    (hfits : w.fits io.call_write_at) :
    (∃ io', io.call_write w.hnd_write = (true, io') ∧ io'.flags.is_closed ∧ ¬ w.result.Fine) ∨
      ∃ st io', Attempted io st io' ∧ io.call_write w.hnd_write = (decide (io'.buffer.write ≠ []), io') := by
  have hcalled : io.call_write_at = some { io with flags.wr_paused := false, handle := false } := if_pos hh
  rw [hcalled] at hfits
  obtain ⟨⟨st, t⟩, hwrite⟩ := isSome_iff_exists.1 hfits
  have hcall : io.call_write w.hnd_write = (!t.flags.wr_paused, { t with handle := true }) := by
    unfold call_write
    rw [if_pos hh, Syscall.hnd_write, hnd_write, hwrite]
    rfl
  rw [hcall]
  have hb' : ({ io with flags.wr_paused := false, handle := false } : IoState).buffer.layers = none := hb
  rcases write_cases hb' ho hwrite with
    ⟨hc, hfine, hp⟩ | h
  · left
    rw [hp]
    exact ⟨_, rfl, hc, hfine⟩
  · refine .inr ⟨st, { t with handle := true }, ⟨{ h with handle := hh.symm },
      h.wr_send_op, h.paused, h.status, h.told⟩, ?_⟩
    congr 1
    cases hp : t.flags.wr_paused with
    | true => simp [h.paused.1 hp]
    | false =>
      have hne : t.buffer.write ≠ [] := fun hnil => by cases hp.symm.trans (h.paused.2 hnil)
      simp [hne]

/-- What `consolidate_write_state` does when it calls the handle in the state `called`, or does not call it. -/
inductive Consolidated (w : Syscall) (io : IoState) (called : Option IoState) (io' : IoState) : Prop
  | failed (closed : io'.flags.is_closed = true) (fine : ¬ w.result.Fine) (wr_send_op : io'.flags.wr_send_op = true)
  | unchanged (turn : Turn io io') (called : called = none) (buffer : io'.buffer = io.buffer)
      (wr_paused : io'.flags.wr_paused = io.flags.wr_paused) (wr_send_op : io'.flags.wr_send_op = io.flags.wr_send_op)
      (why : io.buffer.write = [] ∨ io.flags.wr_paused = false)
  | scheduled (turn : Turn io io') (called : called = none) (buffer : io'.buffer = io.buffer)
      (wr_paused : io'.flags.wr_paused = io.flags.wr_paused) (wr_send_op : io'.flags.wr_send_op = true)
      (why : io.buffer.write ≠ [] ∧ io.flags.wr_paused = true)
  | attempted (turn : Turn io io') (called : ∃ t, called = some t ∧ t.buffer = io.buffer) (output : io.buffer.write ≠ [])
      (wr_paused : io'.flags.wr_paused = true ↔ io'.buffer.write = [])
      (wr_send_op : io'.flags.wr_send_op = true ↔ io'.buffer.write ≠ [])

lemma Consolidated.backpressure (h : Consolidated w io called io') (size : Nat) :
    Consolidated w io called (io'.wr_backpressure size) := by
  have hb : IoState.Beside io' (io'.wr_backpressure size) ∧ (io'.wr_backpressure size).buffer = io'.buffer ∧
      Turn io' (io'.wr_backpressure size) := by
    unfold wr_backpressure
    split
    · exact ⟨⟨rfl, .inl rfl, rfl, rfl, rfl⟩, rfl, ⟨fun h => h, rfl, rfl, rfl, .inl rfl, .inl rfl⟩⟩
    · exact ⟨.refl io', rfl, .refl io'⟩
  obtain ⟨hbeside, hbuf, hturn⟩ := hb
  cases h with
  | failed hc hfine hop => exact .failed (hbeside.closed.trans hc) hfine (hbeside.wr_send_op.trans hop)
  | unchanged ht hcalled hb hp hop hwhy =>
    exact .unchanged (ht.trans hturn) hcalled (hbuf.trans hb) (hbeside.wr_paused.trans hp) (hbeside.wr_send_op.trans hop) hwhy
  | scheduled ht hcalled hb hp hop hwhy =>
    exact .scheduled (ht.trans hturn) hcalled (hbuf.trans hb) (hbeside.wr_paused.trans hp) (hbeside.wr_send_op.trans hop) hwhy
  | attempted ht hcalled hout hp hop =>
    refine .attempted (ht.trans hturn) hcalled hout ?_ ?_
    · rw [hbuf, hbeside.wr_paused]
      exact hp
    · rw [hbuf, hbeside.wr_send_op]
      exact hop

section

variable (hb : io.buffer.layers = none) (ho : io.flags.is_closed = false) (hh : io.handle = true)
include hb ho hh

lemma consolidated (force : Bool)
    (hfits : w.fits (io.consolidate_write_state_at force)) :
    Consolidated w io (io.consolidate_write_state_at force) (io.consolidate_write_state w.hnd_write force) := by
  refine Consolidated.backpressure ?_ _
  unfold consolidate_write_state_at at hfits ⊢
  dsimp only at hfits ⊢
  rw [write_buf_size_base hb] at hfits ⊢
  split
  next hsize =>
    rw [if_pos hsize] at hfits
    have hne : io.buffer.write ≠ [] := List.ne_nil_of_length_pos hsize.1
    unfold start_write start_write_at at *
    split
    next hdirect =>
      rw [if_pos hdirect] at hfits
      have hcalled : ∃ t, io.call_write_at = some t ∧ t.buffer = io.buffer := ⟨_, if_pos hh, rfl⟩
      rcases call_write_cases hb ho hh hfits with ⟨io', heq, hc, hfine⟩ | ⟨st, io', h, heq⟩
      · rw [heq]
        exact .failed hc hfine rfl
      · rw [heq]
        by_cases hnil : io'.buffer.write = []
        · rw [decide_eq_false (by simpa using hnil)]
          exact .attempted { h with } hcalled hne h.paused ⟨nofun, fun hne' => absurd hnil hne'⟩
        · rw [decide_eq_true hnil]
          exact .attempted { h with } hcalled hne h.paused ⟨fun _ => hnil, fun _ => rfl⟩
    · exact .scheduled ⟨fun h => h, rfl, rfl, rfl, .inl rfl, .inl rfl⟩ rfl rfl rfl rfl ⟨hne, hsize.2⟩
  next hsize =>
    refine .unchanged (.refl io) rfl rfl rfl rfl ?_
    rcases List.eq_nil_or_concat' io.buffer.write with hnil | ⟨init, last, hconcat⟩
    · exact .inl hnil
    · right
      by_contra hp
      refine hsize ⟨?_, not_eq_false _ ▸ hp⟩
      rw [hconcat, List.length_append]
      exact Nat.succ_pos _

inductive Sent (w : Syscall) (io : IoState) (called : Option IoState) (io' : IoState) : Prop
  | failed (closed : io'.flags.is_closed = true) (fine : ¬ w.result.Fine)
  | unscheduled (wr_send_op : io.flags.wr_send_op = false) (called : called = none) (eq : io' = io)
  | woken (wr_send_op : io.flags.wr_send_op = true) (wr_paused : io.flags.wr_paused = false) (called : called = none)
      (eq : io' = { io with flags.wr_send_op := false }.wake_write_task)
  | attempted (turn : Turn io io') (called : ∃ t, called = some t ∧ t.buffer = io.buffer)
      (before : io.flags.wr_send_op = true ∧ io.flags.wr_paused = true) (wr_send_op : io'.flags.wr_send_op = false)
      (wr_paused : io'.flags.wr_paused = true ↔ io'.buffer.write = [])
      (more : io'.buffer.write ≠ [] → io'.write_task = io.write_task.wake)
      (told : io.flags.io_stopping_filters = true → io'.buffer.write = [] → io'.read_task = io.read_task.wake)

lemma ops_sent
    (hfits : w.fits io.ops_send_buf_at) : Sent w io io.ops_send_buf_at (io.ops_send_buf w.hnd_write) := by
  unfold ops_send_buf_at at hfits ⊢
  unfold ops_send_buf
  by_cases hop : io.flags.wr_send_op = true
  · rw [hop, Bool.true_and] at hfits
    rw [if_pos hop, hop, Bool.true_and]
    by_cases hp : io.flags.wr_paused = true
    · rw [if_pos hp] at hfits ⊢
      rw [if_pos hp]
      have hcalled : ∃ t, ({ io with flags.wr_send_op := false } : IoState).call_write_at = some t ∧
          t.buffer = io.buffer := ⟨_, if_pos hh, rfl⟩
      have hb' : ({ io with flags.wr_send_op := false } : IoState).buffer.layers = none := hb
      rcases call_write_cases hb' ho hh hfits with
        ⟨io', heq, hc, hfine⟩ | ⟨st, io', h, heq⟩
      · rw [heq]
        exact .failed hc hfine
      · rw [heq]
        by_cases hnil : io'.buffer.write = []
        · rw [decide_eq_false (by simpa using hnil)]
          exact .attempted { h with } hcalled ⟨hop, hp⟩ h.wr_send_op h.paused (fun hne => absurd hnil hne) h.told
        · rw [decide_eq_true hnil]
          have hwake : io'.write_task.wake = io.write_task.wake := wake_of_same_or_woken h.write_task
          exact .attempted { h with write_task := .inr hwake } hcalled ⟨hop, hp⟩
            h.wr_send_op ⟨nofun, fun hnil' => absurd hnil' hnil⟩ (fun _ => hwake) fun _ hnil' => absurd hnil' hnil
    · rw [if_neg hp, if_neg hp]
      exact .woken hop (not_eq_true _ ▸ hp) rfl rfl
  · rw [if_neg hop, if_neg fun h => hop (and_eq_true_iff.1 h).1]
    exact .unscheduled (not_eq_true _ ▸ hop) rfl rfl

end

end Attempt

/-! ## Reads -/

structure Quiet (io io' : IoState) : Prop where
  write : io'.buffer.write = io.buffer.write
  layers : io'.buffer.layers = io.buffer.layers
  handle : io'.handle = io.handle
  io_stopped : io'.flags.io_stopped = io.flags.io_stopped
  closed : io'.flags.is_closed = io.flags.is_closed
  io_stopping_filters : io'.flags.io_stopping_filters = io.flags.io_stopping_filters
  wr_flush : io'.flags.wr_flush = io.flags.wr_flush
  wr_paused : io'.flags.wr_paused = io.flags.wr_paused
  wr_send_op : io'.flags.wr_send_op = io.flags.wr_send_op
  read_task : io'.read_task = io.read_task
  write_task : io'.write_task = io.write_task

section Read

variable {io : IoState}

lemma Quiet.refl (io : IoState) : Quiet io io := ⟨rfl, rfl, rfl, rfl, rfl, rfl, rfl, rfl, rfl, rfl, rfl⟩

lemma Quiet.trans (h : Quiet io₁ io₂) (h' : Quiet io₂ io₃) : Quiet io₁ io₃ where
  write := h'.write.trans h.write
  layers := h'.layers.trans h.layers
  handle := h'.handle.trans h.handle
  io_stopped := h'.io_stopped.trans h.io_stopped
  closed := h'.closed.trans h.closed
  io_stopping_filters := h'.io_stopping_filters.trans h.io_stopping_filters
  wr_flush := h'.wr_flush.trans h.wr_flush
  wr_paused := h'.wr_paused.trans h.wr_paused
  wr_send_op := h'.wr_send_op.trans h.wr_send_op
  read_task := h'.read_task.trans h.read_task
  write_task := h'.write_task.trans h.write_task

lemma quiet_get_read_buf (io : IoState) : Quiet io io.get_read_buf.2 := by
  unfold IoState.get_read_buf Stack.get_read_buf
  split
  · exact .refl io
  · cases io.buffer.read with
    | none => exact .refl io
    | some buf => exact { Quiet.refl _ with }

lemma quiet_read_processed (io : IoState) (orig : Nat) : Quiet io (io.read_processed orig) := by
  have hgrown : ∀ size, Quiet io (io.read_grown size) := by
    intro size
    unfold read_grown
    split <;> exact { Quiet.refl _ with }
  have hnotify : ∀ io : IoState, Quiet io io.read_notify := by
    intro io
    unfold read_notify
    split
    · exact { Quiet.refl _ with }
    · exact .refl io
  refine .trans ?_ (hnotify _)
  split
  · exact hgrown _
  · exact .refl io

lemma quiet_set_read_buf (io : IoState) (buf : Data) : Quiet io { io with buffer := io.buffer.set_read_buf buf } := by
  refine ⟨?_, layers_set_read_buf, rfl, rfl, rfl, rfl, rfl, rfl, rfl, rfl, rfl⟩
  unfold set_read_buf
  split <;> rfl

lemma quiet_update_read_status (hb : io.buffer.layers = none) (buf : Data) (nbytes : Nat) :
    Quiet io (io.update_read_status buf (.ok nbytes)).2 := by
  have hprocess : (io.buffer.set_read_buf buf).process_read_buf = io.buffer.set_read_buf buf := by
    rw [process_read_buf, layers_set_read_buf, hb]
  unfold update_read_status
  dsimp only
  split
  · exact quiet_set_read_buf io buf
  · rw [hprocess]
    exact (quiet_set_read_buf io buf).trans (quiet_read_processed _ _)

lemma read_cases (hb : io.buffer.layers = none) (rd : ReadResult) :
    (¬ rd.Fine ∧ ∃ io₁ io₂ err, Quiet io io₁ ∧ Quiet (io₁.terminate_connection err) io₂ ∧ (read io rd).2 = io₂) ∨
      Quiet io (read io rd).2 := by
  have hget := quiet_get_read_buf io
  have hbase := hget.layers.trans hb
  cases rd with
  | data | pending => exact .inr (hget.trans (quiet_update_read_status hbase _ _))
  | error e => exact .inl ⟨fun h => h, _, _, some e, hget.trans (quiet_set_read_buf _ _), .refl _, rfl⟩
  | eof =>
    have hlayers : (io.get_read_buf.2.terminate_connection none).buffer.layers = none :=
      (congrArg layers (terminate_connection_spec _ none).1).trans hbase
    exact .inl ⟨fun h => h, _, _, none, hget, quiet_update_read_status hlayers _ _, rfl⟩

structure ReadSpec (io : IoState) (rd : ReadResult) (io' : IoState) : Prop where
  write : io'.buffer.write = io.buffer.write
  layers : io'.buffer.layers = io.buffer.layers
  flushing : Sender.Flushing io io'
  ctx : io'.flags.is_closed = true ∧ ¬ rd.Fine ∨ Quiet io io'

lemma Quiet.flushing {io' : IoState} (h : Quiet io io') : Sender.Flushing io io' :=
  ⟨fun hs => h.io_stopped.trans hs, h.wr_flush⟩

lemma read_spec (hb : io.buffer.layers = none) (rd : ReadResult) : ReadSpec io rd (read io rd).2 := by
  rcases read_cases hb rd with ⟨hfine, io₁, io₂, err, h₁, h₂, heq⟩ | h
  · rw [heq]
    have hbuf := (io₁.terminate_connection_spec err).1
    refine ⟨?_, ?_, (h₁.flushing.trans (.terminate io₁ err)).trans h₂.flushing, .inl ⟨?_, hfine⟩⟩
    · rw [h₂.write, hbuf, h₁.write]
    · rw [h₂.layers, hbuf, h₁.layers]
    · exact h₂.closed.trans (closed_terminate io₁ err)
  · exact ⟨h.write, h.layers, h.flushing, .inr h⟩

lemma ReadSpec.refl (io : IoState) (rd : ReadResult) : ReadSpec io rd io := ⟨rfl, rfl, .refl io, .inr (.refl io)⟩

structure ReadHalf (item : StreamItem) (rd : ReadResult) (item' : StreamItem) : Prop where
  wr : item'.flags.wr = item.flags.wr
  arm_wr : item'.flags.arm_wr = item.flags.arm_wr
  ctx : ReadSpec item.ctx rd item'.ctx

lemma event_read_half {item : StreamItem} (hb : item.ctx.buffer.layers = none) (readable : Bool) (rd : ReadResult) :
    ReadHalf item rd (event_read item readable rd).2 := by
  unfold event_read
  split
  · exact ⟨rfl, rfl, read_spec hb rd⟩
  · exact ⟨rfl, rfl, .refl _ _⟩

lemma interest_read_half {item : StreamItem} (hb : item.ctx.buffer.layers = none) (wish : Bool) (rd : ReadResult) :
    ReadHalf item rd (interest_read item wish rd).2 := by
  unfold interest_read
  split
  · split
    · exact ⟨rfl, rfl, .refl _ _⟩
    · dsimp only
      split <;> exact ⟨rfl, rfl, read_spec hb rd⟩
  · exact ⟨rfl, rfl, .refl _ _⟩

end Read

/-! ## Somebody is going to write, or to find that nothing is left -/

/-- The io task is going to run. -/
def Woken (io : IoState) : Prop := io.read_task.woken = true ∨ io.write_task.woken = true

/-- The driver can be called, the io task will look again, and `Iops` has its queue. -/
structure Attended (c : Closing) : Prop where
  handle : c.item.ctx.handle = true
  read_task : c.item.ctx.read_task.registered = true ∨ Woken c.item.ctx
  write_task : c.item.ctx.write_task.registered = true ∨ Woken c.item.ctx
  queue : c.item.ctx.flags.wr_send_op = true → c.queued = true

/-- The flags of the writing side say what there is to write. -/
structure Agrees (io : IoState) : Prop where
  idle : io.flags.wr_paused = true → io.flags.wr_send_op = false → io.buffer.write = []
  busy : io.flags.wr_paused = false → io.buffer.write ≠ []

/-- An open connection: output is going to be written, and when nothing is left the io task is going to find out. -/
structure Sound (c : Closing) : Prop extends Attended c, Agrees c.item.ctx where
  armed : c.item.flags.arm_wr = c.item.flags.wr
  started : c.item.ctx.flags.wr_paused = false →
    c.item.ctx.flags.wr_send_op = true ∨ Woken c.item.ctx ∨ c.item.flags.wr = true
  closing : c.item.ctx.flags.io_stopping_filters = true → c.item.ctx.flags.wr_paused = true →
    c.item.ctx.flags.wr_send_op = false → Woken c.item.ctx

section Wake

variable {io io' : IoState}

lemma woken_wake {w : LocalWaker} (h : w.woken) : w.wake.woken := LocalWaker.woken_wake (.inr h)

lemma woken_of_same_or_woken {w w' : LocalWaker} (hw : w' = w ∨ w' = w.wake) (h : w.woken) : w'.woken := by
  rcases hw with rfl | rfl
  · exact h
  · exact woken_wake h

section

variable (h : Turn io io')
include h

lemma Turn.woken (hw : Woken io) : Woken io' :=
  hw.imp (woken_of_same_or_woken h.read_task) (woken_of_same_or_woken h.write_task)

lemma Turn.woken_read (hr : io'.read_task = io.read_task.wake)
    (hwait : io.read_task.registered ∨ Woken io) : Woken io' := by
  rcases hwait with hreg | hw
  · exact .inl (hr ▸ LocalWaker.woken_wake (.inl hreg))
  · exact h.woken hw

lemma Turn.woken_write (hr : io'.write_task = io.write_task.wake)
    (hwait : io.write_task.registered ∨ Woken io) : Woken io' := by
  rcases hwait with hreg | hw
  · exact .inr (hr ▸ LocalWaker.woken_wake (.inl hreg))
  · exact h.woken hw

lemma Turn.waits_read (hwait : io.read_task.registered ∨ Woken io) :
    io'.read_task.registered ∨ Woken io' := by
  rcases h.read_task with hr | hr
  · rw [hr]
    exact hwait.imp_right h.woken
  · exact .inr (h.woken_read hr hwait)

lemma Turn.waits_write (hwait : io.write_task.registered ∨ Woken io) :
    io'.write_task.registered ∨ Woken io' := by
  rcases h.write_task with hr | hr
  · rw [hr]
    exact hwait.imp_right h.woken
  · exact .inr (h.woken_write hr hwait)

end

lemma Quiet.turn (h : Quiet io io') : Turn io io' :=
  ⟨fun hb => h.layers.trans hb, h.handle, h.closed, h.io_stopping_filters, .inl h.read_task, .inl h.write_task⟩

end Wake

/-! ## Steps -/

variable {c c' : Closing} {w : Syscall} {io : IoState} {elapsed : Bool}

/-- Without an attempt to write, output that waits goes on waiting in the same place. -/
structure Stable (c c' : Closing) : Prop where
  tries : c.tries ≤ c'.tries
  wr_paused : c'.tries = c.tries → c.item.ctx.buffer.write ≠ [] → c'.item.ctx.flags.wr_paused = c.item.ctx.flags.wr_paused
  wr : c'.tries = c.tries → c.item.ctx.buffer.write ≠ [] → c.item.ctx.flags.wr_paused = false → c.item.flags.wr = true →
    c'.item.flags.wr = true
  wr_send_op : c.item.ctx.buffer.write = [] → c.item.ctx.flags.wr_send_op = false → c'.item.ctx.flags.wr_send_op = false
  closing : c.item.ctx.flags.io_stopping_filters = true → c'.item.ctx.flags.io_stopping_filters = true

lemma tries_le (c : Closing) (w : Syscall) (io : Option IoState) : c.tries ≤ (c.tried w io).tries := Nat.le_add_right _ _

lemma tries_lt (c : Closing) (w : Syscall) (h : io.buffer.write ≠ []) : c.tries < (c.tried w (some io)).tries := by
  rw [tried]
  rw [if_neg h]
  exact Nat.lt_succ_self _

lemma Attended.turn (h : Attended c) (ht : Turn c.item.ctx io) (hi : c'.item.ctx = io)
    (hq : io.flags.wr_send_op → c'.queued) : Attended c' where
  handle := hi ▸ ht.handle.trans h.handle
  read_task := hi ▸ ht.waits_read h.read_task
  write_task := hi ▸ ht.waits_write h.write_task
  queue := hi ▸ hq

lemma queued_scheduled (h : c.item.ctx.flags.wr_send_op → c.queued)
    (hop : io.flags.wr_send_op) : (c.scheduled io).queued := by
  rw [scheduled]
  cases ho : c.item.ctx.flags.wr_send_op with
  | true => rw [h ho, Bool.true_or]
  | false => rw [hop, Bool.not_false, Bool.and_self, Bool.or_true]

lemma Sound.same (h : Sound c) (ht : Turn c.item.ctx io) (hw : io.buffer.write = c.item.ctx.buffer.write)
    (hp : io.flags.wr_paused = c.item.ctx.flags.wr_paused) (hop : io.flags.wr_send_op = c.item.ctx.flags.wr_send_op)
    (hi : c'.item.ctx = io) (hwr : c'.item.flags.wr = c.item.flags.wr) (harm : c'.item.flags.arm_wr = c'.item.flags.wr)
    (hq : c.queued → c'.queued) : Sound c' := by
  subst hi
  refine ⟨h.toAttended.turn ht rfl fun ho => hq (h.queue (hop ▸ ho)), ⟨?_, ?_⟩, harm, ?_, ?_⟩
  · rw [hp, hop, hw]
    exact h.idle
  · rw [hp, hw]
    exact h.busy
  · rw [hp, hop, hwr]
    exact fun hpaused => (h.started hpaused).imp_right fun hst => hst.imp_left ht.woken
  · rw [ht.io_stopping_filters, hp, hop]
    exact fun hf hpaused ho => ht.woken (h.closing hf hpaused ho)

lemma Attended.attempted (h : Attended c) (ha : Attempted c.item.ctx st io)
    (hi : c'.item.ctx = io) (hwr : c'.item.flags.wr ↔ st = .Io) (harm : c'.item.flags.arm_wr = c'.item.flags.wr)
    (hq : c'.queued = c.queued) : Sound c' := by
  subst hi
  refine ⟨h.turn ha.toTurn rfl fun hop => hq.trans (h.queue (ha.wr_send_op ▸ hop)), ⟨fun hp _ => ha.paused.1 hp, fun hp hnil => ?_⟩,
    harm, fun hp => ?_, fun hf hp _ => ?_⟩
  · cases hp.symm.trans (ha.paused.2 hnil)
  · refine .inr (.inr (hwr.2 (ha.status.2 fun hnil => ?_)))
    cases hp.symm.trans (ha.paused.2 hnil)
  · rw [ha.io_stopping_filters] at hf
    exact ha.woken_read (ha.told hf (ha.paused.1 hp)) h.read_task

/-- Nothing ends the connection but that the application closes it: no call fails, the peer does not close, and the
timeout is not over. -/
def Calm : Step → Prop
  | .with_write_buf _ w | .run w => w.result.Fine
  | .close | .poll_shutdown => True
  | .poll elapsed w rd w' => elapsed = false ∧ w.result.Fine ∧ rd.Fine ∧ w'.result.Fine
  | .event ev rd w => ev.interrupt = false ∧ rd.Fine ∧ w.result.Fine
  | .error _ => False

instance (i : Step) : Decidable (Calm i) := by
  unfold Calm
  split <;> infer_instance

def Goes (c : Closing) (i : Step) (c' : Closing) : Prop :=
  c'.item.ctx.flags.is_closed = true ∧ (Calm i → c'.ready = true) ∨ c'.item.ctx.flags.is_closed = false ∧ Sound c' ∧ Stable c c'

lemma Sound.goes_same (h : Sound c) (ho : c.item.ctx.flags.is_closed = false) {i : Step}
    (ht : Turn c.item.ctx io) (hw : io.buffer.write = c.item.ctx.buffer.write)
    (hp : io.flags.wr_paused = c.item.ctx.flags.wr_paused) (hop : io.flags.wr_send_op = c.item.ctx.flags.wr_send_op) :
    Goes c i (c.scheduled io) := by
  refine .inr ⟨ht.closed.trans ho, h.same ht hw hp hop rfl rfl h.armed fun hq => ?_, Nat.le_refl _, fun _ _ => hp,
    fun _ _ _ hwr => hwr, fun _ ho => hop.trans ho, fun hf => ht.io_stopping_filters.trans hf⟩
  rw [scheduled, hq]
  rfl

lemma run_goes (hb : c.item.ctx.buffer.layers = none) (h : Sound c) (ho : c.item.ctx.flags.is_closed = false)
    (hst : c.run_ops w = some c') : Goes c (.run w) c' := by
  unfold run_ops at hst
  split at hst
  · split at hst
    next hq hfits =>
      cases hst
      rcases ops_sent hb ho h.handle hfits with ⟨hc, hfine⟩ | ⟨hop, hcalled, heq⟩ | ⟨hop, hp, hcalled, heq⟩ |
        ⟨ht, ⟨t, hcalled, htb⟩, ⟨hop, hp⟩, hop', hp', hmore, htold⟩
      · exact .inl ⟨hc, fun hcalm => absurd hcalm hfine⟩
      · rw [hcalled, heq]
        refine .inr ⟨ho, ⟨{ h with queue := fun hop' => ?_ }, h.toAgrees, h.armed, h.started, h.closing⟩,
          Nat.le_refl _, fun _ _ => rfl, fun _ _ _ hwr => hwr, fun _ hop => hop, fun hf => hf⟩
        cases hop.symm.trans hop'
      · rw [hcalled, heq]
        have ht : Turn c.item.ctx { c.item.ctx with flags.wr_send_op := false }.wake_write_task :=
          ⟨fun hb => hb, rfl, rfl, rfl, .inl rfl, .inr rfl⟩
        have hpaused : ∀ {p : Prop}, c.item.ctx.flags.wr_paused → p := fun hp' => by cases hp.symm.trans hp'
        refine .inr ⟨ho, ⟨h.toAttended.turn ht rfl nofun, ⟨fun hp' => hpaused hp', fun _ => h.busy hp⟩, h.armed,
          fun _ => .inr (.inl (ht.woken_write rfl h.write_task)), fun _ hp' => hpaused hp'⟩,
          Nat.le_refl _, fun _ _ => rfl, fun _ _ _ hwr => hwr, fun _ _ => rfl, fun hf => hf⟩
      · rw [hcalled]
        refine .inr ⟨ht.closed.trans ho, ⟨h.toAttended.turn ht rfl fun hop => ?_, ⟨fun hp _ => hp'.1 hp, fun hp hnil => ?_⟩,
          h.armed, fun hp => ?_, fun hf hp _ => ?_⟩, tries_le c w (some t), fun htries hne => ?_, fun htries hne => ?_,
          fun _ _ => hop', fun hf => ht.io_stopping_filters.trans hf⟩
        · cases hop'.symm.trans hop
        · cases hp.symm.trans (hp'.2 hnil)
        · refine .inr (.inl (ht.woken_write (hmore fun hnil => ?_) h.write_task))
          cases hp.symm.trans (hp'.2 hnil)
        · exact ht.woken_read (htold (ht.io_stopping_filters ▸ hf) (hp'.1 hp)) h.read_task
        all_goals exact absurd htries (Nat.ne_of_gt (tries_lt c w (htb ▸ hne)))
    · cases hst
  · cases hst
    exact .inr ⟨ho, h, Nat.le_refl _, fun _ _ => rfl, fun _ _ _ hwr => hwr, fun _ hop => hop, fun hf => hf⟩

lemma Quiet.attempted {io io' : IoState} (h : Quiet io io₁) (ha : Attempted io₁ st io') :
    Attempted io st io' :=
  ⟨h.turn.trans ha.toTurn, ha.wr_send_op.trans h.wr_send_op, ha.paused, ha.status, fun hf hnil =>
    (ha.told (h.io_stopping_filters.trans hf) hnil).trans (congrArg wake h.read_task)⟩

lemma event_goes (hb : c.item.ctx.buffer.layers = none) (h : Sound c) (ho : c.item.ctx.flags.is_closed = false) {ev : Event}
    {rd : ReadResult} (hst : c.step (.event ev rd w) = some c') : Goes c (.event ev rd w) c' := by
  obtain ⟨item, hev, rfl⟩ := of_map hst
  obtain ⟨⟨armed, item₂⟩, hwrite, rfl⟩ := of_map hev
  have hread := event_read_half hb ev.readable rd
  unfold event_at
  generalize event_read c.item ev.readable rd = r at hread hwrite ⊢
  dsimp only
  split
  next hint => exact .inl ⟨closed_terminate _ _, fun hcalm => by cases hcalm.1.symm.trans hint⟩
  unfold event_write at hwrite
  split at hwrite
  next hev' =>
    obtain ⟨⟨st, io⟩, hio, heq⟩ := of_map hwrite
    cases heq
    have hb₁ := hread.ctx.layers.trans hb
    rw [if_pos hev']
    rcases hread.ctx.ctx with ⟨hc, hfine⟩ | hq
    · exact .inl ⟨write_stays hb₁ hc hio, fun hcalm => absurd hcalm.2.1 hfine⟩
    rcases write_cases hb₁ (hq.closed.trans ho) hio with ⟨hc, hfine, -⟩ | ha
    · exact .inl ⟨hc, fun hcalm => absurd hcalm.2.2 hfine⟩
    have ha := hq.attempted ha
    have htries : c.item.ctx.buffer.write ≠ [] → c.tries < (c.tried w (some r.2.ctx)).tries := fun hne =>
      tries_lt c w (hq.write ▸ hne)
    refine .inr ⟨ha.closed.trans ho, h.toAttended.attempted ha rfl decide_eq_true_iff rfl rfl, tries_le c w (some r.2.ctx),
      fun hsame hne => ?_, fun hsame hne => ?_, fun _ hop => ha.wr_send_op.trans hop, fun hf => ha.io_stopping_filters.trans hf⟩
    all_goals exact absurd hsame (Nat.ne_of_gt (htries hne))
  next hev' =>
    cases hwrite
    rw [if_neg hev']
    rcases hread.ctx.ctx with ⟨hc, hfine⟩ | hq
    · exact .inl ⟨hc, fun hcalm => absurd hcalm.2.1 hfine⟩
    · exact .inr ⟨hq.closed.trans ho, h.same hq.turn hq.write hq.wr_paused hq.wr_send_op rfl hread.wr rfl fun hq => hq,
        Nat.le_refl _, fun _ _ => hq.wr_paused, fun _ _ _ hwr => hread.wr.trans hwr, fun _ hop => hq.wr_send_op.trans hop,
        fun hf => hq.io_stopping_filters.trans hf⟩

/-! ## The loop of the io task -/

section Poll

variable {io : IoState} {hnd : IoState → IoState}

lemma process_shutdown_base (hb : io.buffer.layers = none) (hnd : IoState → IoState) :
    { io with buffer := io.buffer.process_shutdown } = io ∧
      io.process_shutdown hnd = io.consolidate_write_state hnd true := by
  have hbuf : io.buffer.process_shutdown = io.buffer := by
    rw [Stack.process_shutdown, process_write_buf_base hb, Stack.push_write, hb]
    rw [hb]
    obtain ⟨cfg, flags, error, read_task, write_task, dispatch_task, ⟨read, write, layers⟩, handle⟩ := io
    exact congrArg (Stack.mk read write) hb.symm
  rw [IoState.process_shutdown, hbuf]
  exact ⟨rfl, rfl⟩

lemma shutting_of_open (ho : io.flags.is_closed = false) :
    io.flags.is_shutting_down_filters = io.flags.io_stopping_filters := by
  obtain ⟨h₁, h₂⟩ := Bool.or_eq_false_iff.1 ho
  rw [Flags.is_shutting_down_filters, h₁, h₂, Bool.or_self, Bool.not_false, Bool.and_true]

lemma process_shutdown_consolidated (hb : io.buffer.layers = none) (ho : io.flags.is_closed = false) (hh : io.handle)
    (hs : io.flags.is_shutting_down_filters) (hfits : w.fits (shutdown_at io)) :
    Consolidated w io (shutdown_at io) (io.process_shutdown w.hnd_write) := by
  obtain ⟨hbuf, hproc⟩ := process_shutdown_base hb w.hnd_write
  unfold shutdown_at at hfits ⊢
  rw [if_pos hs, hbuf] at hfits ⊢
  rw [hproc]
  exact consolidated hb ho hh true hfits

lemma Consolidated.ready {io' : IoState} (h : Consolidated w io called io')
    (hr : io'.shutdown_ready) : io'.flags.is_closed = io.flags.is_closed ∧ io'.buffer.write = [] := by
  unfold shutdown_ready at hr
  simp only [and_eq_true, not_eq_true'] at hr
  obtain ⟨hp, hop⟩ := hr
  cases h with
  | failed _ _ hop' => cases hop.symm.trans hop'
  | unchanged ht _ hb hp' _ hwhy =>
    refine ⟨ht.closed, ?_⟩
    rw [hb]
    rcases hwhy with hnil | hnp
    · exact hnil
    · cases (hp'.symm.trans hp).symm.trans hnp
  | scheduled _ _ _ _ hop' _ => cases hop.symm.trans hop'
  | attempted ht _ _ hp' _ => exact ⟨ht.closed, hp'.1 hp⟩

lemma shutdown_filters_cases (hb : io.buffer.layers = none) (ho : io.flags.is_closed = false) (hh : io.handle)
    (hfits : w.fits (shutdown_at io)) {io' : IoState} (hio : io.shutdown_filters w.hnd_write elapsed = io') :
    (io'.flags.is_closed ∧ (elapsed = false → w.result.Fine → finds_ready w.hnd_write io)) ∨
      (io.flags.io_stopping_filters = false ∧ io' = io ∧ shutdown_at io = none) ∨
      (io.flags.io_stopping_filters ∧ Consolidated w io (shutdown_at io) io' ∧ io'.flags.is_closed = false ∧
        (io'.flags.wr_paused → io'.flags.wr_send_op)) := by
  subst hio
  unfold shutdown_filters
  by_cases hs : io.flags.is_shutting_down_filters = true
  · have hcons := process_shutdown_consolidated hb ho hh hs hfits
    have hfilters : io.flags.io_stopping_filters := (shutting_of_open ho).symm.trans hs
    rw [if_pos hs]
    dsimp only
    by_cases hr : (io.process_shutdown w.hnd_write).shutdown_ready = true
    · left
      rw [hr, Bool.true_or, if_pos rfl, finds_ready, hs, hr]
      exact ⟨rfl, fun _ _ => rfl⟩
    · rw [not_eq_true] at hr
      rw [hr, Bool.false_or]
      cases elapsed with
      | true => exact .inl ⟨rfl, nofun⟩
      | false =>
        rw [if_neg Bool.false_ne_true]
        cases hc : (io.process_shutdown w.hnd_write).flags.is_closed with
        | true =>
          refine .inl ⟨rfl, fun _ hfine => ?_⟩
          cases hcons with
          | failed _ hfine' _ => exact absurd hfine hfine'
          | unchanged ht => cases (ht.closed.trans ho).symm.trans hc
          | scheduled ht => cases (ht.closed.trans ho).symm.trans hc
          | attempted ht => cases (ht.closed.trans ho).symm.trans hc
        | false =>
          refine .inr (.inr ⟨hfilters, hcons, rfl, fun hp => ?_⟩)
          by_contra hop
          rw [not_eq_true] at hop
          rw [shutdown_ready, hp, hop] at hr
          cases hr
  · rw [if_neg hs]
    refine .inr (.inl ⟨?_, rfl, if_neg hs⟩)
    rw [← shutting_of_open ho]
    exact not_eq_true _ ▸ hs

lemma polls_open (ho : io.flags.is_closed = false) :
    ∃ r, modifies r ∧ io.base_poll_read_ready = (r, { io with read_task := io.read_task.register }) ∧
      ({ io with read_task := io.read_task.register } : IoState).poll_write_ready =
        (if io.flags.wr_paused then none else some .Ready,
          { io with read_task := io.read_task.register, write_task := io.write_task.register }) := by
  have hne : ¬ io.flags.is_closed := by
    rw [ho]
    exact false_ne_true
  have hstopping : io.flags.is_stopping = false := (or_eq_false_iff.1 ho).1
  have hwrite : ({ io with read_task := io.read_task.register } : IoState).poll_write_ready =
      (if io.flags.wr_paused then none else some .Ready,
        { io with read_task := io.read_task.register, write_task := io.write_task.register }) := by
    unfold poll_write_ready
    rw [if_neg hne]
    dsimp only
    rw [hstopping, if_neg Bool.false_ne_true]
    split <;> rfl
  unfold base_poll_read_ready
  dsimp only
  rw [if_neg hne, hwrite]
  split
  · exact ⟨_, rfl, rfl, rfl⟩
  · split
    all_goals exact ⟨_, rfl, rfl, rfl⟩

lemma polls_closed (hc : io.flags.is_closed) :
    io.base_poll_read_ready = (some .Terminate, io) ∧ io.poll_write_ready = (some .Terminate, io) := by
  unfold base_poll_read_ready poll_write_ready
  exact ⟨if_pos hc, if_pos hc⟩

end Poll

/-- The io task has looked and the connection is open: it is going to ask the poller. -/
structure Polled (c c₁ : Closing) : Prop extends Attended c₁, Agrees c₁.item.ctx where
  base : c₁.item.ctx.buffer.layers = none
  isOpen : c₁.item.ctx.flags.is_closed = false
  flags : c₁.item.flags = c.item.flags
  settled : c₁.item.ctx.flags.io_stopping_filters = true → c₁.item.ctx.flags.wr_paused = true →
    c₁.item.ctx.flags.wr_send_op = true
  tries : c.tries ≤ c₁.tries
  filters : c₁.item.ctx.flags.io_stopping_filters = c.item.ctx.flags.io_stopping_filters
  waiting : c₁.tries = c.tries → c.item.ctx.buffer.write ≠ [] → c₁.item.ctx.flags.wr_paused = c.item.ctx.flags.wr_paused
  empty : c.item.ctx.buffer.write = [] → c₁.item.ctx.flags.wr_send_op = c.item.ctx.flags.wr_send_op ∧
    c₁.item.ctx.flags.wr_paused = c.item.ctx.flags.wr_paused

lemma poll_ready_cases (hb : c.item.ctx.buffer.layers = none) (h : Sound c) (ho : c.item.ctx.flags.is_closed = false)
    (elapsed : Bool) (hfits : w.fits (shutdown_at (task_runs c.item.ctx))) :
    (∃ c₁, c.poll_ready elapsed w = (some .Terminate, some .Terminate, c₁) ∧ c₁.item.ctx.flags.is_closed ∧
        (elapsed = false → w.result.Fine → c₁.ready)) ∨
      ∃ r c₁, c.poll_ready elapsed w = (r, if c₁.item.ctx.flags.wr_paused then none else some .Ready, c₁) ∧
        modifies r ∧ Polled c c₁ := by
  have hb' : (task_runs c.item.ctx).buffer.layers = none := hb
  have hcases := shutdown_filters_cases hb' ho h.handle hfits (rfl : _ = (task_runs c.item.ctx).shutdown_filters w.hnd_write elapsed)
  unfold poll_ready poll_read_ready
  dsimp only
  cases hc : ((task_runs c.item.ctx).shutdown_filters w.hnd_write elapsed).flags.is_closed with
  | true =>
    left
    obtain ⟨hr, hq⟩ := polls_closed hc
    rw [hr, hq]
    refine ⟨_, rfl, hc, fun he hfine => ?_⟩
    rcases hcases with ⟨-, hready⟩ | ⟨-, heq, -⟩ | ⟨-, -, hopen, -⟩
    · rw [hready he hfine, Bool.or_true]
    · rw [heq] at hc
      cases ho.symm.trans hc
    · cases hopen.symm.trans hc
  | false =>
    right
    obtain ⟨r, hmod, hr, hq⟩ := polls_open hc
    rw [hr, hq]
    generalize (task_runs c.item.ctx).shutdown_filters w.hnd_write elapsed = t at hcases hc ⊢
    refine ⟨r, { (c.tried w (shutdown_at (task_runs c.item.ctx))).scheduled
      { t with read_task := t.read_task.register, write_task := t.write_task.register } with
      ready := c.ready || finds_ready w.hnd_write (task_runs c.item.ctx) }, rfl, hmod, ?_⟩
    -- what is the same in all cases
    have hpolled : Turn (task_runs c.item.ctx) t → Agrees t →
        (t.flags.io_stopping_filters = true → t.flags.wr_paused = true → t.flags.wr_send_op = true) →
        ((c.tried w (shutdown_at (task_runs c.item.ctx))).tries = c.tries → c.item.ctx.buffer.write ≠ [] →
          t.flags.wr_paused = c.item.ctx.flags.wr_paused) →
        (c.item.ctx.buffer.write = [] → t.flags.wr_send_op = c.item.ctx.flags.wr_send_op ∧
          t.flags.wr_paused = c.item.ctx.flags.wr_paused) →
        Polled c { (c.tried w (shutdown_at (task_runs c.item.ctx))).scheduled
          { t with read_task := t.read_task.register, write_task := t.write_task.register } with
          ready := c.ready || finds_ready w.hnd_write (task_runs c.item.ctx) } := fun ht ha hs hw he =>
      ⟨⟨ht.handle.trans h.handle, .inl rfl, .inl rfl, queued_scheduled h.queue⟩, ⟨ha.idle, ha.busy⟩, ht.base hb, hc, rfl, hs,
        tries_le c w _, ht.io_stopping_filters, hw, he⟩
    rcases hcases with ⟨hclosed, -⟩ | ⟨hf, rfl, -⟩ | ⟨hf, hcons, -, hsettled⟩
    · cases hc.symm.trans hclosed
    · refine hpolled (.refl _) ⟨h.idle, h.busy⟩ (fun hf' => ?_) (fun _ _ => rfl) fun _ => ⟨rfl, rfl⟩
      cases hf.symm.trans hf'
    · cases hcons with
      | failed hclosed => cases hc.symm.trans hclosed
      | unchanged ht hcalled hbuf hp hop hwhy =>
        refine hpolled ht ⟨?_, ?_⟩ (fun _ => hsettled) (fun _ _ => hp) fun _ => ⟨hop, hp⟩
        · rw [hp, hop, hbuf]
          exact h.idle
        · rw [hp, hbuf]
          exact h.busy
      | scheduled ht hcalled hbuf hp hop hwhy =>
        refine hpolled ht ⟨fun _ hop' => ?_, ?_⟩ (fun _ => hsettled) (fun _ _ => hp) fun hnil => absurd hnil hwhy.1
        · cases hop.symm.trans hop'
        · rw [hp, hbuf]
          exact h.busy
      | attempted ht hcalled hne hp hop =>
        obtain ⟨t', hcalled, hbuf⟩ := hcalled
        refine hpolled ht ⟨fun hp' _ => hp.1 hp', fun hp' hnil => ?_⟩ (fun _ => hsettled) (fun htries _ => ?_)
          fun hnil => absurd hnil hne
        · cases hp'.symm.trans (hp.2 hnil)
        · rw [hcalled] at htries
          exact absurd htries (Nat.ne_of_gt (tries_lt c w (hbuf ▸ hne)))

lemma arm_if {item item' : StreamItem} {update readable writable : Bool}
    (h : (if update then arm item readable writable else item) = item') (hwr : writable = item.flags.wr)
    (harm : update = false → item.flags.arm_wr = item.flags.wr) :
    item'.ctx = item.ctx ∧ item'.flags.wr = item.flags.wr ∧ item'.flags.arm_wr = item'.flags.wr := by
  subst h
  cases update with
  | true => exact ⟨rfl, rfl, hwr⟩
  | false => exact ⟨rfl, rfl, harm rfl⟩

lemma Polled.goes {c₁ : Closing} (h : Polled c c₁) (hq : Quiet c₁.item.ctx c'.item.ctx)
    (harm : c'.item.flags.arm_wr = c'.item.flags.wr) (hqueued : c'.queued = c₁.queued) (htries : c'.tries = c₁.tries)
    (hwr : c₁.item.ctx.flags.wr_paused = false → c'.item.flags.wr) :
    c'.item.ctx.flags.is_closed = false ∧ Sound c' ∧ Stable c c' := by
  refine ⟨hq.closed.trans h.isOpen, ⟨h.toAttended.turn hq.turn rfl fun hop => ?_, ⟨?_, ?_⟩, harm, fun hp => ?_, fun hf hp hop => ?_⟩,
    htries ▸ h.tries, fun hsame hne => ?_, fun hsame hne hp _ => ?_, fun hnil hop => ?_,
    fun hf => hq.io_stopping_filters.trans (h.filters.trans hf)⟩
  · exact hqueued.trans (h.queue (hq.wr_send_op ▸ hop))
  · rw [hq.wr_paused, hq.wr_send_op, hq.write]
    exact h.idle
  · rw [hq.wr_paused, hq.write]
    exact h.busy
  · exact .inr (.inr (hwr (hq.wr_paused ▸ hp)))
  · rw [hq.io_stopping_filters] at hf
    rw [hq.wr_paused] at hp
    rw [hq.wr_send_op, h.settled hf hp] at hop
    cases hop
  · exact hq.wr_paused.trans (h.waiting (htries.symm.trans hsame) hne)
  · exact hwr ((h.waiting (htries.symm.trans hsame) hne).trans hp)
  · exact hq.wr_send_op.trans ((h.empty hnil).1.trans hop)

lemma Polled.interest {c₁ : Closing} (h : Polled c c₁) (harmed : c.item.flags.arm_wr = c.item.flags.wr) {rd : Bool}
    {rres : ReadResult} (hst : c₁.poll_interest rd (!c₁.item.ctx.flags.wr_paused) rres w = some c') :
    (c'.item.ctx.flags.is_closed ∧ (rres.Fine → ¬ w.result.Fine)) ∨
      (c'.item.ctx.flags.is_closed = false ∧ Sound c' ∧ Stable c c') ∧
        (c.item.ctx.buffer.write ≠ [] → c.item.ctx.flags.wr_paused = false → c.item.flags.wr = false → c.tries < c'.tries) := by
  obtain ⟨item, hint, rfl⟩ := of_map hst
  obtain ⟨⟨⟨writable, update⟩, item₂⟩, hwrite, hitem⟩ := of_map hint
  have hread := interest_read_half h.base rd rres
  unfold interest_at
  generalize interest_read c₁.item rd rres = r at hread hwrite hitem ⊢
  have hwr : r.2.flags.wr = c.item.flags.wr := hread.wr.trans (congrArg Flags.wr h.flags)
  have harm : r.2.flags.arm_wr = r.2.flags.wr := by
    rw [hread.arm_wr, hwr, h.flags]
    exact harmed
  unfold interest_write at hwrite
  cases hp : c₁.item.ctx.flags.wr_paused with
  | true =>
    rw [hp, Bool.not_true, if_neg Bool.false_ne_true] at hwrite
    obtain ⟨hw, rfl⟩ := Prod.mk.inj (some.inj hwrite)
    cases hw
    obtain ⟨hctx, -, harm'⟩ := arm_if hitem rfl fun hu => harm.trans (or_eq_false_iff.1 hu).2
    rcases hread.ctx.ctx with ⟨hc, hfine⟩ | hq
    · exact .inl ⟨(congrArg (·.flags.is_closed) hctx).trans hc, fun hf => absurd hf hfine⟩
    refine .inr ⟨h.goes (hctx ▸ hq) harm' rfl rfl fun hp' => ?_, fun hne hp' _ => ?_⟩
    · cases hp.symm.trans hp'
    · refine Nat.lt_of_le_of_ne h.tries fun hsame => ?_
      cases ((h.waiting hsame.symm hne).symm.trans hp).symm.trans hp'
  | false =>
    rw [hp, Bool.not_false, if_pos rfl] at hwrite
    split at hwrite
    next hset =>
      obtain ⟨hw, rfl⟩ := Prod.mk.inj (some.inj hwrite)
      cases hw
      obtain ⟨hctx, hwr', harm'⟩ := arm_if hitem hset.symm fun _ => harm
      rw [← hread.wr, hset, Bool.not_true, Bool.and_false, if_neg Bool.false_ne_true]
      rcases hread.ctx.ctx with ⟨hc, hfine⟩ | hq
      · exact .inl ⟨(congrArg (·.flags.is_closed) hctx).trans hc, fun hf => absurd hf hfine⟩
      refine .inr ⟨h.goes (hctx ▸ hq) harm' rfl rfl fun _ => hwr'.trans hset, fun _ _ hunset => ?_⟩
      cases (hset.symm.trans hwr).trans hunset
    next hunset =>
      rw [not_eq_true] at hunset
      obtain ⟨⟨st, io⟩, hio, heq⟩ := of_map hwrite
      have hnew : item.ctx = io ∧ (item.flags.wr = true ↔ st = .Io) ∧ item.flags.arm_wr = item.flags.wr := by
        split at heq
        next hst =>
          obtain ⟨hw, rfl⟩ := Prod.mk.inj heq
          cases hw
          obtain ⟨hctx, hwr', harm'⟩ := arm_if hitem rfl fun hu => nomatch (or_eq_false_iff.1 hu).2
          exact ⟨hctx, iff_of_true hwr' hst, harm'⟩
        next hst =>
          obtain ⟨hw, rfl⟩ := Prod.mk.inj heq
          cases hw
          obtain ⟨hctx, hwr', harm'⟩ := arm_if hitem hunset.symm fun _ => harm
          exact ⟨hctx, iff_of_false (ne_true_of_eq_false (hwr'.trans hunset)) hst, harm'⟩
      obtain ⟨rfl, hwr', harm'⟩ := hnew
      rw [← hread.wr, hunset, Bool.not_false, Bool.and_true, if_pos rfl]
      have hb₁ := hread.ctx.layers.trans h.base
      rcases hread.ctx.ctx with ⟨hc, hfine⟩ | hq
      · exact .inl ⟨write_stays hb₁ hc hio, fun hf => absurd hf hfine⟩
      rcases write_cases hb₁ (hq.closed.trans h.isOpen) hio with ⟨hc, hfine, -⟩ | ha
      · exact .inl ⟨hc, fun _ => hfine⟩
      have ha := hq.attempted ha
      have hlt : c₁.tries < (c₁.tried w (some r.2.ctx)).tries := tries_lt c₁ w (hq.write ▸ h.busy hp)
      have hlt : c.tries < (c₁.tried w (some r.2.ctx)).tries := Nat.lt_of_le_of_lt h.tries hlt
      refine .inr ⟨⟨ha.closed.trans h.isOpen, h.toAttended.attempted ha rfl hwr' harm' rfl, Nat.le_of_lt hlt, fun hsame => ?_,
        fun hsame => ?_, fun hnil hop => ?_, fun hf => ha.io_stopping_filters.trans (h.filters.trans hf)⟩, fun _ _ _ => hlt⟩
      · exact absurd hsame (Nat.ne_of_gt hlt)
      · exact absurd hsame (Nat.ne_of_gt hlt)
      · exact ha.wr_send_op.trans ((h.empty hnil).1.trans hop)

lemma poll_goes (hb : c.item.ctx.buffer.layers = none) (h : Sound c) (ho : c.item.ctx.flags.is_closed = false)
    {rd : ReadResult} {w' : Syscall} (hst : c.poll elapsed w rd w' = some c') :
    (c'.item.ctx.flags.is_closed ∧ (Calm (.poll elapsed w rd w') → c'.ready)) ∨
      (c'.item.ctx.flags.is_closed = false ∧ Sound c' ∧ Stable c c') ∧
        (c.item.ctx.buffer.write ≠ [] → c.item.ctx.flags.wr_paused = false → c.item.flags.wr = false → c.tries < c'.tries) ∧
        (c.item.ctx.flags.io_stopping_filters → c.item.ctx.buffer.write = [] → c.item.ctx.flags.wr_send_op) := by
  obtain ⟨hfits, hst⟩ := of_guard hst
  rcases poll_ready_cases hb h ho elapsed hfits with ⟨c₁, heq, hc, hready⟩ | ⟨r, c₁, heq, hmod, hpolled⟩
  · rw [heq] at hst
    cases hst
    exact .inl ⟨hc, fun hcalm => hready hcalm.1 hcalm.2.1⟩
  · rw [heq] at hst
    dsimp only at hst
    rw [hmod, Bool.true_or, if_pos rfl] at hst
    have hwish : decide ((if c₁.item.ctx.flags.wr_paused then none else some Readiness.Ready) = some .Ready) =
        !c₁.item.ctx.flags.wr_paused := by
      cases c₁.item.ctx.flags.wr_paused <;> rfl
    rw [hwish] at hst
    rcases hpolled.interest h.armed hst with ⟨hc, hfine⟩ | ⟨hgoes, hattempt⟩
    · exact .inl ⟨hc, fun hcalm => absurd hcalm.2.2.2 (hfine hcalm.2.2.1)⟩
    · refine .inr ⟨hgoes, hattempt, fun hf hnil => ?_⟩
      obtain ⟨hop, hp⟩ := hpolled.empty hnil
      refine hop.symm.trans (hpolled.settled (hpolled.filters.trans hf) (hp.trans ?_))
      by_contra hp
      exact h.busy (not_eq_true _ ▸ hp) hnil

/-! ## The application -/

lemma Sound.awake (h : Sound c) (ho : c.item.ctx.flags.is_closed = false) {i : Step}
    (hb : io.buffer = c.item.ctx.buffer) (hh : io.handle = c.item.ctx.handle)
    (hc : io.flags.is_closed = c.item.ctx.flags.is_closed) (hp : io.flags.wr_paused = c.item.ctx.flags.wr_paused)
    (hop : io.flags.wr_send_op = c.item.ctx.flags.wr_send_op) (hw : Woken io)
    (hf : c.item.ctx.flags.io_stopping_filters → io.flags.io_stopping_filters) : Goes c i (c.scheduled io) := by
  have hio : (c.scheduled io).item.ctx = io := rfl
  refine .inr ⟨hc.trans ho, ⟨⟨hh.trans h.handle, .inr hw, .inr hw, queued_scheduled h.queue⟩, ⟨?_, ?_⟩, h.armed,
    fun _ => .inr (.inl hw), fun _ _ _ => hw⟩, Nat.le_refl _, fun _ _ => hp, fun _ _ _ hwr => hwr, fun _ ho => hop.trans ho, hf⟩
  · rw [hio, hb, hp, hop]
    exact h.idle
  · rw [hio, hb, hp]
    exact h.busy

lemma woken_wake_read_task (h : c.item.ctx.read_task.registered ∨ Woken c.item.ctx)
    (hr : io.read_task = c.item.ctx.read_task.wake)
    (hw : io.write_task = c.item.ctx.write_task ∨ io.write_task = c.item.ctx.write_task.wake) : Woken io := by
  rcases h with hreg | hwoken | hwoken
  · exact .inl (hr ▸ LocalWaker.woken_wake (.inl hreg))
  · exact .inl (hr ▸ woken_wake hwoken)
  · exact .inr (woken_of_same_or_woken hw hwoken)

section

variable (h : Sound c) (ho : c.item.ctx.flags.is_closed = false)
include h ho

lemma close_goes : Goes c .close (c.scheduled c.item.ctx.start_shutdown) := by
  unfold start_shutdown
  split
  · exact h.goes_same ho (.refl _) rfl rfl rfl
  · exact h.awake ho rfl rfl rfl rfl rfl (woken_wake_read_task h.read_task rfl (.inr rfl)) fun _ => rfl

lemma poll_shutdown_goes : Goes c .poll_shutdown (c.scheduled c.item.ctx.poll_shutdown.2) := by
  unfold poll_shutdown start_shutdown
  split
  · exact h.goes_same ho (.refl _) rfl rfl rfl
  · split
    · exact h.awake ho rfl rfl rfl rfl rfl (woken_wake_read_task h.read_task rfl (.inl rfl)) id
    · split
      · exact h.awake ho rfl rfl rfl rfl rfl (woken_wake_read_task h.read_task rfl (.inl rfl)) id
      · refine h.awake ho rfl rfl rfl rfl rfl (woken_wake_read_task h.read_task ?_ (.inr rfl)) fun _ => rfl
        exact c.item.ctx.read_task.wake_wake

end

lemma with_write_buf_some {d : Data} (hst : c.with_write_buf d w = some c') :
    c.item.ctx.flags.is_stopping_any = false ∧
      w.fits ({ c.item.ctx with buffer := c.item.ctx.buffer.append_write_src d }.consolidate_write_state_at false) ∧
      c' = { (c.tried w ({ c.item.ctx with
          buffer := c.item.ctx.buffer.append_write_src d }.consolidate_write_state_at false)).scheduled
        ({ c.item.ctx with buffer := c.item.ctx.buffer.append_write_src d }.consolidate_write_state w.hnd_write false) with
        written := c.written ++ d } := by
  obtain ⟨hfits, hst⟩ := of_guard hst
  obtain ⟨ctx, hctx, rfl⟩ := of_map hst
  obtain ⟨hany, rfl⟩ := Lib.of_ite_not hctx
  exact ⟨not_eq_true _ ▸ hany, hfits, rfl⟩

lemma append_write_src_base {s : Stack} (hb : s.layers = none) (d : Data) :
    s.append_write_src d = { s with write := s.write ++ d } := by
  rw [append_write_src, hb]

section

variable (hb : c.item.ctx.buffer.layers = none) (h : Sound c)
include hb h

lemma with_write_buf_sound {d : Data}
    (hst : c.with_write_buf d w = some c') :
    (c'.item.ctx.flags.is_closed ∧ ¬ w.result.Fine) ∨ (c'.item.ctx.flags.is_closed = false ∧ Sound c') := by
  obtain ⟨hany, hfits, rfl⟩ := with_write_buf_some hst
  obtain ⟨ho, hfilters⟩ := Bool.or_eq_false_iff.1 hany
  rw [Bool.or_comm] at ho
  rw [append_write_src_base hb] at hfits ⊢
  have hb' : ({ c.item.ctx with buffer.write := c.item.ctx.buffer.write ++ d } :
    IoState).buffer.layers = none := hb
  have hcons := consolidated hb' ho h.handle false hfits
  have hturn : Turn c.item.ctx { c.item.ctx with
    buffer.write := c.item.ctx.buffer.write ++ d } := ⟨fun hb => hb, rfl, rfl, rfl, .inl rfl, .inl rfl⟩
  generalize ({ c.item.ctx with
    buffer.write := c.item.ctx.buffer.write ++ d } : IoState).consolidate_write_state
      w.hnd_write false = io at hcons ⊢
  have hclosing : ∀ {p : Prop}, Turn c.item.ctx io → io.flags.io_stopping_filters → p := fun ht hf => by
    cases hfilters.symm.trans (ht.io_stopping_filters.symm.trans hf)
  cases hcons with
  | failed hc hfine => exact .inl ⟨hc, hfine⟩
  | unchanged ht _ hbuf hp hop hwhy =>
    have ht := hturn.trans ht
    refine .inr ⟨ht.closed.trans ho, h.toAttended.turn ht rfl (queued_scheduled h.queue), ⟨fun hp' _ => ?_, fun hp' hnil => ?_⟩,
      h.armed, fun hp' => ?_, fun hf => hclosing ht hf⟩
    · refine (congrArg Stack.write hbuf).trans (hwhy.resolve_right fun hfalse => ?_)
      cases (hp.trans hfalse).symm.trans hp'
    · have hnil := (congrArg Stack.write hbuf).symm.trans hnil
      exact h.busy (hp.symm.trans hp') (List.append_eq_nil_iff.1 hnil).1
    · exact (h.started (hp.symm.trans hp')).imp hop.trans (Or.imp_left ht.woken)
  | scheduled ht _ hbuf hp hop hwhy =>
    have ht := hturn.trans ht
    have hpaused : io.flags.wr_paused := hp.trans hwhy.2
    refine .inr ⟨ht.closed.trans ho, h.toAttended.turn ht rfl (queued_scheduled h.queue), ⟨fun _ hop' => ?_, fun hp' => ?_⟩,
      h.armed, fun _ => .inl hop, fun hf => hclosing ht hf⟩
    · cases hop.symm.trans hop'
    · cases hpaused.symm.trans hp'
  | attempted ht _ hne hp hop =>
    have ht := hturn.trans ht
    refine .inr ⟨ht.closed.trans ho, h.toAttended.turn ht rfl (queued_scheduled h.queue), ⟨fun hp' _ => hp.1 hp', fun hp' hnil => ?_⟩,
      h.armed, fun hp' => .inl (hop.2 fun hnil => ?_), fun hf => hclosing ht hf⟩
    all_goals cases hp'.symm.trans (hp.2 hnil)

lemma step_goes (ho : c.item.ctx.flags.is_closed = false) {i : Step}
    (hst : c.step i = some c') :
    (c'.item.ctx.flags.is_closed ∧ (Calm i → c'.ready)) ∨
      c'.item.ctx.flags.is_closed = false ∧ Sound c' ∧ (c.item.ctx.flags.io_stopping_filters → Stable c c') := by
  have hgoes : Goes c i c' → (c'.item.ctx.flags.is_closed ∧ (Calm i → c'.ready = true)) ∨
      c'.item.ctx.flags.is_closed = false ∧ Sound c' ∧ (c.item.ctx.flags.io_stopping_filters → Stable c c') :=
    fun hg => hg.imp_right fun hg => ⟨hg.1, hg.2.1, fun _ => hg.2.2⟩
  cases i with
  | with_write_buf d w =>
    rcases with_write_buf_sound hb h hst with ⟨hc, hfine⟩ | ⟨ho', hsound⟩
    · exact .inl ⟨hc, fun hcalm => absurd hcalm hfine⟩
    · refine .inr ⟨ho', hsound, fun hf => ?_⟩
      obtain ⟨hany, -⟩ := with_write_buf_some hst
      cases (or_eq_false_iff.1 hany).2.symm.trans hf
  | close =>
    cases hst
    exact hgoes (close_goes h ho)
  | poll_shutdown =>
    cases hst
    exact hgoes (poll_shutdown_goes h ho)
  | run w => exact hgoes (run_goes hb h ho hst)
  | poll elapsed w rd w' => exact hgoes ((poll_goes hb h ho hst).imp_right And.left)
  | event ev rd w => exact hgoes (event_goes hb h ho hst)
  | error err =>
    cases hst
    rw [if_neg (ne_true_of_eq_false ho)]
    exact .inl ⟨closed_terminate _ _, False.elim⟩

end

end Closing

end Geario.Polling
