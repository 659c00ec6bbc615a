import Geario.Io.Chain
import Geario.Lib.Run
/-!
# Buffered output gets written

A connection with something to write is in the queue of `Iops`, or its write
task has been woken or is writing. Whoever puts output into the first or the last
of the write buffers has to end in `consolidate_write_state`, or say that it did
through `wants_write`.

`add_filter` does neither: what the layers write when the new one gets the input
that is already there stays in the buffer until something else is written.
`poll_flush` leaves without it when a filter fails.
-/
open Lib (Reach run of_map)
open List Bool

namespace Geario.Io

open Chain LocalWaker

structure Iops where
  running : Bool
  ops : List Nat
  deriving DecidableEq

def Iops.schedule_write (q : Iops) (id : Nat) : Iops := { running := true, ops := q.ops ++ [id] }

/-- While it processes input a layer may pass on what it is to write and write more, but nothing goes back. -/
def Touch.Outwards : Touch → Prop
  | .read_buffers _ => True
  | .write_buffers f => ∀ curr next, (f curr next).1.length ≤ curr.length

structure InputCall extends Call where
  outwards : ∀ t ∈ touches, t.Outwards

structure WriteSide where
  io : IoState
  id : Nat
  iops : Iops
  writing : Bool

namespace WriteSide

inductive Step
  /-- also `encode` -/
  | with_write_buf (f : Data → Data) (w : Option Chain.Attempt)
  | with_buf (touches : List Touch) (w : Option Chain.Attempt)
  | update_read_status (buf : Data) (status : Except IoError Nat) (read : List InputCall) (notify : Bool) (write : List Call)
      (w : Option Chain.Attempt)
  | poll_flush (full : Bool) (calls : List Call) (w : Option Chain.Attempt)
  | add_filter (write : List Call) (read : List InputCall)
  | map_filter (write : List Call)
  | run (w : Option Chain.Attempt)
  | schedule (id : Nat)
  | poll
  | attempt (w : Chain.Attempt)
  | stop (err : Option IoError)

def new (cfg : IoConfig) (layers : Option Nat) (id : Nat) : WriteSide :=
  { io := { IoState.new cfg layers with write_task := { registered := false, woken := true } }, id,
    iops := { running := false, ops := [] }, writing := false }

def scheduled (c : WriteSide) (io : IoState) : WriteSide :=
  { c with io, iops := if io.flags.wr_send_op && !c.io.flags.wr_send_op then c.iops.schedule_write c.id else c.iops }

/-- `Iops::run`. Of several calls of `ops_send_buf` only the first finds `WR_SEND_OP` set. -/
def run_ops (c : WriteSide) (w : Option Chain.Attempt) : WriteSide :=
  { c with
    io := c.iops.ops.foldl (fun io id => if id = c.id then io.ops_send_buf (Chain.hnd_write w) else io) c.io
    iops := { running := false, ops := [] } }

def poll_write (c : WriteSide) : WriteSide :=
  let r := { c.io with write_task.woken := false }.poll_write_ready
  { c with io := r.2, writing := c.writing || r.1 = some .Ready }

def step (c : WriteSide) : Step → Option WriteSide
  | .with_write_buf f w => (Chain.write (Chain.hnd_write w) c.io f).map c.scheduled
  | .with_buf touches w => some (c.scheduled (Chain.with_buf (Chain.hnd_write w) c.io touches))
  | .update_read_status buf status read notify write w =>
    some (c.scheduled (Chain.update_read_status ⟨read.map (·.toCall), notify, write, w⟩ c.io buf status).2)
  | .poll_flush full calls w => some (c.scheduled (Chain.poll_flush calls (Chain.hnd_write w) c.io full).2)
  | .add_filter write read => some { c with io := Chain.add_filter write (read.map (·.toCall)) c.io }
  | .map_filter write => some { c with io := Chain.map_filter write c.io }
  | .run w => some (c.run_ops w)
  | .schedule id => some { c with iops := c.iops.schedule_write id }
  | .poll => some c.poll_write
  | .attempt w =>
    if c.writing then
      let r := Chain.attempt w c.io
      some { c with io := r.2, writing := r.1 = .Io }
    else none
  | .stop err => some { c with io := c.io.terminate_connection err }

def Started (io : IoState) : Prop := io.flags.wr_send_op = true ∨ io.flags.wr_paused = false

/-- `add_filter`, and a `poll_flush` in which a filter fails, leave no output behind unless a write is under way. -/
def Announced (c : WriteSide) : Step → Prop
  | .add_filter write read =>
    Started c.io ∨ (Chain.add_filter write (read.map (·.toCall)) c.io).buffer.write_buf_size = 0
  | .poll_flush _ calls _ =>
    match Chain.process_write_buf_force calls c.io with
    | (.ok _, _) => True
    | (.error _, io) => Started c.io ∨ io.buffer.write_buf_size = 0
  | _ => True

instance (io : IoState) : Decidable (Started io) := by
  unfold Started
  infer_instance

instance (c : WriteSide) (i : Step) : Decidable (c.Announced i) := by
  unfold Announced
  split
  · infer_instance
  · split <;> infer_instance
  · infer_instance

end WriteSide

/-! ## What a layer writes it says -/

namespace Chain

def Shrinks (b b' : Buffer) : Prop := b'.write.length ≤ b.write.length

lemma shrinks_touch_all {touches : List Touch} (ht : ∀ t ∈ touches, t.Outwards) {b : FilterBuf}
    (h : (b.touch_all touches).wants_write = false) :
    b.wants_write = false ∧ Shrinks b.curr (b.touch_all touches).curr ∧ Shrinks b.next (b.touch_all touches).next := by
  refine FilterBuf.touch_all_inv (fun b' => b'.wants_write = false →
    b.wants_write = false ∧ Shrinks b.curr b'.curr ∧ Shrinks b.next b'.next) (fun b' t hmem hb' => ?_) ?_ h
  · cases t with
    | read_buffers f => exact hb'
    | write_buffers f =>
      intro hw
      obtain ⟨hw, hnext⟩ := or_eq_false_iff.1 hw
      obtain ⟨hwb, hc, hn⟩ := hb' hw
      have hcurr : (f b'.curr.write b'.next.write).1.length ≤ b'.curr.write.length := ht _ hmem _ _
      exact ⟨hwb, Nat.le_trans hcurr hc, Nat.le_trans (Nat.le_of_not_lt (of_decide_eq_false hnext)) hn⟩
  · exact fun hw => ⟨hw, Nat.le_refl _, Nat.le_refl _⟩

lemma shrinks_process_read_buf (calls : List InputCall) (first : Buffer) (rest : List Buffer) (wants : Bool)
    (h : (process_read_buf (calls.map (·.toCall)) first rest wants).wants_write = false) :
    wants = false ∧ Shrinks first (process_read_buf (calls.map (·.toCall)) first rest wants).first ∧
      List.Forall₂ Shrinks rest (process_read_buf (calls.map (·.toCall)) first rest wants).rest := by
  have hrefl : ∀ l : List Buffer, List.Forall₂ Shrinks l l := fun l => forall₂_same.2 fun _ _ => Nat.le_refl _
  induction calls generalizing first rest with
  | nil => exact ⟨h, Nat.le_refl _, hrefl rest⟩
  | cons c calls ih =>
    cases rest with
    | nil => exact ⟨h, Nat.le_refl _, hrefl []⟩
    | cons next rest =>
      rw [map_cons, process_read_buf] at h ⊢
      split
      next err hres =>
        rw [hres] at h
        obtain ⟨hw, hf, hr⟩ := ih next rest h
        exact ⟨hw, Nat.le_refl _, .cons hf hr⟩
      next hres =>
        rw [hres] at h
        obtain ⟨hw, hcurr, hnext⟩ := shrinks_touch_all c.outwards h
        obtain ⟨hw, hf, hr⟩ := ih next rest hw
        exact ⟨hw, hcurr, .cons (Nat.le_trans hnext hf) hr⟩

variable {rest rest' : List Buffer} {notify full : Bool}

lemma shrinks_getLast (h : List.Forall₂ Shrinks rest rest') {b b' : Buffer} (hb : Shrinks b b') :
    Shrinks (rest.getLast?.getD b) (rest'.getLast?.getD b') := by
  induction h generalizing b b' with
  | nil => exact hb
  | cons hc _ ih =>
    rw [getLast?_cons, getLast?_cons]
    exact ih hc

lemma size_le {first first' : Buffer} (hf : Shrinks first first')
    (hr : List.Forall₂ Shrinks rest rest') : Stack.size first' rest' ≤ Stack.size first rest := by
  refine Nat.add_le_add hf ?_
  cases hr with
  | nil => exact Nat.le_refl _
  | cons hc hr =>
    rw [getLast?_cons, getLast?_cons]
    exact shrinks_getLast hr hc

lemma read_pass_size {calls : List InputCall} {s t : IoState} (h : read_pass (calls.map (·.toCall)) s = (.ok false, t)) :
    t.buffer.write_buf_size ≤ s.buffer.write_buf_size := by
  obtain ⟨hres, rfl⟩ := Prod.mk.inj h
  have hw : (process_read_buf (calls.map (·.toCall)) s.buffer.first s.buffer.rest false).wants_write = false := by
    cases hr : (process_read_buf (calls.map (·.toCall)) s.buffer.first s.buffer.rest false).result with
    | ok _ =>
      rw [hr] at hres
      exact Except.ok.inj hres
    | error err =>
      rw [hr] at hres
      cases hres
  obtain ⟨-, hf, hr⟩ := shrinks_process_read_buf calls _ _ _ hw
  rw [Stack.write_buf_size_of_buffers, Stack.write_buf_size_first]
  exact size_le hf hr

end Chain

/-! ## Somebody is there to write -/

variable {w : Option Chain.Attempt} {read : List InputCall}

namespace IoState

variable {s s' s'' : IoState} {writing : Bool}

def Stays (s s' : IoState) : Prop := s.flags.is_closed = true → s'.flags.is_closed = true

lemma Stays.open (h : Stays s s') (hc : s'.flags.is_closed = false) : s.flags.is_closed = false := by
  by_contra hcl
  rw [not_eq_false] at hcl
  cases hc.symm.trans (h hcl)

lemma Stays.covers : Covers Stays where
  trans h h' hc := h' (h hc)
  of_wakes h := by
    unfold Stays
    rw [Flags.is_closed, Flags.is_closed, h.io_stopped, h.io_stopping]
    exact id

lemma closed_terminate (s : IoState) (err : Option IoError) : (s.terminate_connection err).flags.is_closed := by
  rw [Flags.is_closed, (s.terminate_connection_spec err).2.2.1, Bool.or_true]

lemma Stays.coversChain : CoversChain Stays where
  toCovers := covers
  of_buffer _ _ := id
  terminate s err _ := closed_terminate s err
  read_processed s orig := by
    unfold Stays
    rw [(read_processed_spec s orig).2.1.is_closed]
    exact id

/-- The driver can be called, its write task will look again, and it is about to when it is not paused. -/
structure Attended (s : IoState) (writing : Bool) : Prop where
  handle : s.handle = true
  armed : s.write_task.Armed
  started : s.flags.wr_paused = false → s.flags.wr_send_op = true ∨ s.write_task.woken = true ∨ writing = true

/-- And when it is paused with something to write, a write is scheduled. -/
structure Served (s : IoState) (writing : Bool) : Prop extends Attended s writing where
  output : s.flags.wr_paused = true → 0 < s.buffer.write_buf_size → s.flags.wr_send_op = true

/-- What has nothing to do with writing, and does not close the connection. -/
structure Beside (s s' : IoState) : Prop where
  handle : s'.handle = s.handle
  write_task : s'.write_task = s.write_task ∨ s'.write_task = s.write_task.wake
  wr_paused : s'.flags.wr_paused = s.flags.wr_paused
  wr_send_op : s'.flags.wr_send_op = s.flags.wr_send_op
  closed : s'.flags.is_closed = s.flags.is_closed

lemma Beside.refl (s : IoState) : Beside s s := ⟨rfl, .inl rfl, rfl, rfl, rfl⟩

lemma Beside.trans (h : Beside s s') (h' : Beside s' s'') : Beside s s'' where
  handle := h'.handle.trans h.handle
  write_task := same_or_woken h.write_task h'.write_task
  wr_paused := h'.wr_paused.trans h.wr_paused
  wr_send_op := h'.wr_send_op.trans h.wr_send_op
  closed := h'.closed.trans h.closed

lemma Beside.of_buffer (s : IoState) (buffer : Stack) : Beside s { s with buffer } := ⟨rfl, .inl rfl, rfl, rfl, rfl⟩

lemma Attended.of_beside (h : s.Attended writing) (hb : Beside s s') : s'.Attended writing := by
  refine ⟨hb.handle.trans h.handle, h.armed.of_same_or_woken hb.write_task, fun hp => ?_⟩
  rw [hb.wr_send_op]
  rcases h.started (hb.wr_paused ▸ hp) with hop | hw | hwr
  · exact .inl hop
  · exact .inr (.inl (h.armed.woken_of_same_or_woken hb.write_task hw))
  · exact .inr (.inr hwr)

lemma Served.of_beside (h : s.Served writing) (hb : Beside s s')
    (hsize : s.flags.wr_paused → 0 < s'.buffer.write_buf_size → s.flags.wr_send_op ∨ 0 < s.buffer.write_buf_size) :
    s'.Served writing := by
  refine ⟨h.toAttended.of_beside hb, fun hp hs => ?_⟩
  rw [hb.wr_paused] at hp
  rw [hb.wr_send_op]
  rcases hsize hp hs with hop | hpos
  · exact hop
  · exact h.output hp hpos

lemma beside_wake_flushed (s : IoState) (len : Nat) : Beside s (s.wake_flushed len) := by
  unfold wake_flushed
  split <;> split <;> exact ⟨rfl, .inl rfl, rfl, rfl, rfl⟩

lemma beside_wake_written (s : IoState) (written : Bool) : Beside s (s.wake_written written) := by
  unfold wake_written
  split
  · exact ⟨rfl, .inr rfl, rfl, rfl, rfl⟩
  · exact .refl s

lemma beside_read_processed (s : IoState) (orig : Nat) : Beside s (s.read_processed orig) := by
  have hgrown : ∀ size, Beside s (s.read_grown size) := by
    intro size
    unfold read_grown
    split <;> exact ⟨rfl, .inl rfl, rfl, rfl, rfl⟩
  have hnotify : ∀ t : IoState, Beside t t.read_notify := by
    intro t
    unfold read_notify
    split <;> exact ⟨rfl, .inl rfl, rfl, rfl, rfl⟩
  refine .trans ?_ (hnotify _)
  split
  · exact hgrown _
  · exact .refl s

lemma update_write_status_cases (s : IoState) (written : Bool) (hc : s.flags.is_closed = false) :
    0 < s.buffer.write_buf_size ∧ (∃ t, Beside s t ∧ t.buffer = s.buffer ∧
      s.update_write_status (.ok written) = (.Io, { t with flags.wr_paused := false })) ∨
    s.buffer.write_buf_size = 0 ∧ ∃ t, Beside s t ∧ t.buffer = s.buffer ∧
      (s.flags.io_stopping_filters → t.read_task = s.read_task.wake) ∧
      s.update_write_status (.ok written) = (.Pause, { t with flags.wr_paused := true }) := by
  have hb : Beside s ((s.wake_flushed s.buffer.write_buf_size).wake_written written) :=
    (beside_wake_flushed s _).trans (beside_wake_written _ written)
  have hw : Wakes s ((s.wake_flushed s.buffer.write_buf_size).wake_written written) :=
    (wakes_wake_flushed s _).trans (wakes_wake_written _ written)
  have hclosed := hb.closed.trans hc
  have hstatus : s.update_write_status (.ok written) =
    ((s.wake_flushed s.buffer.write_buf_size).wake_written written).write_status s.buffer.write_buf_size := rfl
  rw [hstatus, write_status]
  rw [if_neg (by rw [hclosed]; exact false_ne_true)]
  split
  next hlen =>
    right
    refine ⟨hlen, ?_⟩
    dsimp only
    split
    · refine ⟨IoState.wake_read_task _, hb.trans ⟨rfl, .inl rfl, rfl, rfl, rfl⟩, hw.buffer, fun _ => ?_, rfl⟩
      rcases hw.read_task with hr | hr
      · exact congrArg wake hr
      · exact (congrArg wake hr).trans s.read_task.wake_wake
    next hfilters =>
      refine ⟨_, hb, hw.buffer, fun hf => ?_, rfl⟩
      exact absurd (hw.io_stopping_filters.trans hf) hfilters
  next hlen => exact .inl ⟨Nat.pos_of_ne_zero hlen, _, hb, hw.buffer, rfl⟩

lemma attempt_cases (w : Chain.Attempt) (s : IoState) (hc : (attempt w s).2.flags.is_closed = false) :
    s.flags.is_closed = false ∧
      ((∃ t, Beside s t ∧ attempt w s = (.Io, { t with flags.wr_paused := false })) ∨
        ∃ t, Beside s t ∧ t.buffer.write_buf_size = 0 ∧
          attempt w s = (.Pause, { t with flags.wr_paused := true })) := by
  have hpass : ∀ r : Except IoError Unit × IoState, Beside s r.2 →
      (or_terminate r).flags.is_closed = false → Beside s (or_terminate r) := by
    rintro ⟨res, t⟩ hb hopen
    cases res with
    | ok _ => exact hb
    | error err => cases hopen.symm.trans (closed_terminate t (some err))
  have hwrite : Beside s (write_pass w.calls s).2 := by
    unfold write_pass
    split
    · exact .refl s
    · exact .of_buffer s _
  unfold attempt at hc ⊢
  cases hst : w.status with
  | error err =>
    rw [hst] at hc
    cases hc.symm.trans (closed_terminate _ (some err))
  | ok written =>
    rw [hst] at hc
    have hopen : (Chain.with_write_buf w.calls w.take s).flags.is_closed = false :=
      (Stays.covers.update_write_status _ written).open hc
    have hb : Beside s (Chain.with_write_buf w.calls w.take s) := (hpass _ hwrite hopen).trans (.of_buffer _ _)
    refine ⟨hb.closed.symm.trans hopen, ?_⟩
    rcases update_write_status_cases _ written hopen with ⟨-, t, ht, -, heq⟩ | ⟨hlen, t, ht, hbuf, -, heq⟩
    · exact .inl ⟨t, hb.trans ht, heq⟩
    · exact .inr ⟨t, hb.trans ht, hbuf ▸ hlen, heq⟩

lemma call_write_cases (w : Option Chain.Attempt) (hh : s.handle)
    (hc : (s.call_write (hnd_write w)).2.flags.is_closed = false) :
    ∃ t : IoState, Beside { s with flags.wr_paused := false } t ∧
      (s.call_write (hnd_write w) = (true, t) ∨
        t.buffer.write_buf_size = 0 ∧
          s.call_write (hnd_write w) = (false, { t with flags.wr_paused := true })) := by
  have hcall : s.call_write (hnd_write w) =
      (!(hnd_write w { s with flags.wr_paused := false, handle := false }).flags.wr_paused,
        { hnd_write w { s with flags.wr_paused := false, handle := false } with handle := true }) := by
    unfold call_write
    rw [if_pos hh]
  rw [hcall] at hc ⊢
  cases w with
  | none =>
    exact ⟨{ s with flags.wr_paused := false, handle := true }, ⟨hh.symm, .inl rfl, rfl, rfl, rfl⟩, .inl rfl⟩
  | some w =>
    obtain ⟨-, ⟨t, ht, heq⟩ | ⟨t, ht, hlen, heq⟩⟩ := attempt_cases w _ hc
    all_goals
      have hb : Beside { s with flags.wr_paused := false }
          { t with flags.wr_paused := false, handle := true } :=
        { ht with handle := hh.symm, wr_paused := rfl }
      refine ⟨_, hb, ?_⟩
      rw [hnd_write, heq]
    · exact .inl rfl
    · exact .inr ⟨hlen, rfl⟩

namespace Attended

lemma consolidate (h : s.Attended writing) (w : Option Chain.Attempt) (force : Bool)
    (hc : (s.consolidate_write_state (hnd_write w) force).flags.is_closed = false) :
    (s.consolidate_write_state (hnd_write w) force).Served writing := by
  have hback : ∀ t : IoState, ∀ size, (t.wr_backpressure size).flags.is_closed = false →
      (t.flags.is_closed = false → t.Served writing) → (t.wr_backpressure size).Served writing := by
    intro t size hopen ht
    have hb : Beside t (t.wr_backpressure size) := by
      unfold wr_backpressure
      split
      · exact ⟨rfl, .inl rfl, rfl, rfl, rfl⟩
      · exact .refl t
    refine (ht (hb.closed.symm.trans hopen)).of_beside hb fun _ hpos => .inr ?_
    rwa [(wakes_wr_backpressure t size).buffer] at hpos
  refine hback _ _ hc fun hopen => ?_
  split
  next hsize =>
    rw [if_pos hsize] at hopen
    unfold start_write at hopen ⊢
    split
    next hdirect =>
      rw [if_pos hdirect] at hopen
      have hcl : (s.call_write (hnd_write w)).2.flags.is_closed = false := by
        split at hopen
        all_goals
          rename_i t heq
          rw [heq]
          exact hopen
      obtain ⟨t, ht, heq | ⟨hlen, heq⟩⟩ := call_write_cases w h.handle hcl
      · rw [heq]
        exact ⟨⟨ht.handle.trans h.handle, h.armed.of_same_or_woken ht.write_task, fun _ => .inl rfl⟩, fun _ _ => rfl⟩
      · rw [heq]
        refine ⟨⟨ht.handle.trans h.handle, h.armed.of_same_or_woken ht.write_task, nofun⟩, fun _ hpos => ?_⟩
        exact absurd hlen (Nat.ne_of_gt hpos)
    · exact ⟨⟨h.handle, h.armed, fun _ => .inl rfl⟩, fun _ _ => rfl⟩
  next hsize => exact ⟨h, fun hp hpos => absurd ⟨hpos, hp⟩ hsize⟩

end Attended

lemma Served.ops_send_buf (h : s.Served writing) (w : Option Chain.Attempt)
    (hc : (s.ops_send_buf (hnd_write w)).flags.is_closed = false) :
    (s.ops_send_buf (hnd_write w)).Served writing ∧ (s.ops_send_buf (hnd_write w)).flags.wr_send_op = false := by
  unfold IoState.ops_send_buf at hc ⊢
  split
  next hop =>
    rw [if_pos hop] at hc
    dsimp only at hc ⊢
    split
    next hp =>
      rw [if_pos hp] at hc
      have hcl : ({ s with flags.wr_send_op := false }.call_write (hnd_write w)).2.flags.is_closed =
          false := by
        split at hc
        all_goals
          rename_i t heq
          rw [heq]
          exact hc
      obtain ⟨t, ht, heq | ⟨hlen, heq⟩⟩ :=
        call_write_cases (s := { s with flags.wr_send_op := false }) w h.handle hcl
      · rw [heq]
        have harmed : t.write_task.Armed := h.armed.of_same_or_woken ht.write_task
        exact ⟨⟨⟨ht.handle.trans h.handle, armed_wake harmed, fun _ => .inr (.inl (woken_wake harmed))⟩,
          nofun⟩, ht.wr_send_op⟩
      · rw [heq]
        refine ⟨⟨⟨ht.handle.trans h.handle, h.armed.of_same_or_woken ht.write_task, nofun⟩, fun _ hpos => ?_⟩, ht.wr_send_op⟩
        exact absurd hlen (Nat.ne_of_gt hpos)
    next hp =>
      refine ⟨⟨⟨h.handle, armed_wake h.armed, fun _ => .inr (.inl (woken_wake h.armed))⟩, fun hp' => absurd hp' hp⟩, rfl⟩
  next hop => exact ⟨h, not_eq_true _ ▸ hop⟩

lemma Beside.or_terminate {α : Type} {r : Except IoError α × IoState} (h : Beside s r.2)
    (hc : (or_terminate r).flags.is_closed = false) : Beside s (or_terminate r) ∧ or_terminate r = r.2 := by
  obtain ⟨res, t⟩ := r
  cases res with
  | ok _ => exact ⟨h, rfl⟩
  | error err => cases hc.symm.trans (closed_terminate t (some err))

lemma beside_write_pass (calls : List Call) (s : IoState) : Beside s (write_pass calls s).2 := by
  unfold write_pass
  split
  · exact .refl s
  · exact .of_buffer s _

lemma Attended.filter_wrote (h : s.Attended writing) {calls : List Call}
    (hc : (filter_wrote w calls s).flags.is_closed = false) : (filter_wrote w calls s).Served writing := by
  unfold Chain.filter_wrote at hc ⊢
  split at hc
  · cases hc.symm.trans (closed_terminate _ _)
  next t ht =>
    have hb : Beside s t := (Prod.mk.inj ht).2 ▸ .of_buffer s _
    exact (h.of_beside hb).consolidate w false hc

lemma Served.process_input (h : s.Served writing) {write : List Call} {orig : Nat} {t : IoState}
    (hp : process_input ⟨read.map (·.toCall), notify, write, w⟩ s orig = (.ok (), t)) (hc : t.flags.is_closed = false) :
    t.Served writing := by
  have hnotify : ∀ u : IoState, (if notify then call_notify u else u).flags.is_closed = false →
      (u.flags.is_closed = false → u.Served writing) → (if notify then call_notify u else u).Served writing := by
    intro u hopen hu
    have hb : Beside u (if notify then call_notify u else u) ∧ (if notify then call_notify u else u).buffer = u.buffer := by
      unfold call_notify
      split
      · split <;> exact ⟨⟨rfl, .inl rfl, rfl, rfl, rfl⟩, rfl⟩
      · exact ⟨.refl u, rfl⟩
    refine (hu (hb.1.closed.symm.trans hopen)).of_beside hb.1 fun _ hpos => .inr ?_
    rwa [hb.2] at hpos
  unfold Chain.process_input at hp
  split at hp
  · cases hp
  next wants u hpass =>
    cases hp
    have hb : Beside s (u.read_processed orig) := by
      obtain rfl := (Prod.mk.inj hpass).2
      exact (Beside.of_buffer s _).trans (beside_read_processed _ orig)
    refine hnotify _ hc fun hopen => ?_
    cases wants with
    | true =>
      exact (h.toAttended.of_beside hb).filter_wrote hopen
    | false =>
      refine h.of_beside hb fun _ hpos => .inr ?_
      have hsize := read_pass_size hpass
      change 0 < (u.read_processed orig).buffer.write_buf_size at hpos
      rw [(read_processed_spec u orig).1] at hpos
      omega

lemma Served.update_read_status (h : s.Served writing) {write : List Call}
    {buf : Data} {status : Except IoError Nat}
    (hc : (Chain.update_read_status ⟨read.map (·.toCall), notify, write, w⟩ s buf status).2.flags.is_closed = false) :
    (Chain.update_read_status ⟨read.map (·.toCall), notify, write, w⟩ s buf status).2.Served writing := by
  have hbuf : Served { s with buffer := s.buffer.set_read_buf buf } writing := by
    refine h.of_beside (.of_buffer s _) fun _ hpos => .inr ?_
    have hsize : (s.buffer.set_read_buf buf).write_buf_size = s.buffer.write_buf_size := by
      unfold Stack.set_read_buf
      split <;> rfl
    rwa [← hsize]
  unfold Chain.update_read_status at hc ⊢
  dsimp only at hc ⊢
  split
  · cases hc.symm.trans (closed_terminate _ _)
  · split
    · exact hbuf
    next hn =>
      dsimp only at hc
      rw [if_neg hn] at hc
      split at hc
      · cases hc.symm.trans (closed_terminate _ _)
      next t ht => exact hbuf.process_input ht hc

lemma beside_flush_rest (w : Option Chain.Attempt) (s : IoState) (full : Bool) :
    Beside (s.consolidate_write_state (hnd_write w) false) (flush_rest (hnd_write w) s full).2 ∧
      (flush_rest (hnd_write w) s full).2.buffer = (s.consolidate_write_state (hnd_write w) false).buffer := by
  unfold flush_rest
  dsimp only
  split
  · split
    · exact ⟨.refl _, rfl⟩
    · split
      · exact ⟨⟨rfl, .inl rfl, rfl, rfl, rfl⟩, rfl⟩
      · split
        · exact ⟨⟨rfl, .inl rfl, rfl, rfl, rfl⟩, rfl⟩
        · split
          · exact ⟨.refl _, rfl⟩
          · exact ⟨⟨rfl, .inl rfl, rfl, rfl, rfl⟩, rfl⟩
  · split
    · exact ⟨.refl _, rfl⟩
    · exact ⟨⟨rfl, .inl rfl, rfl, rfl, rfl⟩, rfl⟩

lemma Attended.flush_rest (h : s.Attended writing)
    (hc : (flush_rest (hnd_write w) s full).2.flags.is_closed = false) : (flush_rest (hnd_write w) s full).2.Served writing := by
  obtain ⟨hb, hbuf⟩ := beside_flush_rest w s full
  refine (h.consolidate w false (hb.closed.symm.trans hc)).of_beside hb fun _ hpos => .inr ?_
  rwa [hbuf] at hpos

lemma stays_poll_flush (calls : List Call) (w : Option Chain.Attempt) (s : IoState) (full : Bool) :
    Stays s (Chain.poll_flush calls (Chain.hnd_write w) s full).2 := by
  intro hclosed
  unfold Chain.poll_flush
  split
  next err t h => exact (Prod.mk.inj h).2 ▸ hclosed
  next t h =>
    have ht : t.flags.is_closed := (Prod.mk.inj h).2 ▸ hclosed
    rw [(beside_flush_rest w t full).1.closed]
    exact Stays.coversChain.consolidate w t false ht

end IoState

namespace WriteSide

open IoState (Served Stays)

variable {c c' : WriteSide}

/-- Whatever is scheduled is in the queue, and the queue will be run. -/
structure Good (c : WriteSide) : Prop where
  running : c.iops.ops ≠ [] → c.iops.running = true
  queued : c.io.flags.is_closed = false → c.io.flags.wr_send_op = true → c.id ∈ c.iops.ops
  served : c.io.flags.is_closed = false → c.io.Served c.writing

namespace Good

lemma new (cfg : IoConfig) (layers : Option Nat) (id : Nat) : (new cfg layers id).Good := by
  have hsize : (Stack.new layers).write_buf_size = 0 := by cases layers <;> rfl
  refine ⟨fun h => absurd rfl h, nofun, fun _ => ⟨⟨rfl, .inr rfl, nofun⟩, fun _ hpos => ?_⟩⟩
  exact absurd hsize (Nat.ne_of_gt hpos)

variable {io : IoState}

section

variable (h : c.Good)
include h

lemma scheduled (hstays : Stays c.io io)
    (hs : io.flags.is_closed = false → c.io.Served c.writing → io.Served c.writing) : (c.scheduled io).Good := by
  have hserved : io.flags.is_closed = false → io.Served c.writing := fun hc => hs hc (h.served (hstays.open hc))
  unfold WriteSide.scheduled
  split
  · exact ⟨fun _ => rfl, fun _ _ => mem_append_right _ mem_cons_self, hserved⟩
  next hop =>
    refine ⟨h.running, fun hc hop' => h.queued (hstays.open hc) ?_, hserved⟩
    rw [hop', Bool.true_and, not_eq_true, not_eq_false'] at hop
    exact hop

lemma of_beside (hstays : Stays c.io io) (hs : io.flags.is_closed = false → c.io.Served c.writing →
      io.Served c.writing ∧ io.flags.wr_send_op = c.io.flags.wr_send_op) : Good { c with io } := by
  have hboth := fun hc => hs hc (h.served (hstays.open hc))
  refine ⟨h.running, fun hc hop => h.queued (hstays.open hc) ?_, fun hc => (hboth hc).1⟩
  rw [← (hboth hc).2]
  exact hop

lemma consolidate (w : Option Chain.Attempt) (buffer : Stack) :
    (c.scheduled ({ c.io with buffer }.consolidate_write_state (hnd_write w) false)).Good := by
  have hbuf : Stays c.io { c.io with buffer } := Stays.coversChain.of_buffer c.io buffer
  refine h.scheduled (Stays.coversChain.trans hbuf (Stays.coversChain.consolidate w _ false)) fun hc hs => ?_
  exact (hs.toAttended.of_beside (.of_buffer c.io _)).consolidate w false hc

lemma write {f : Data → Data} (hw : write (hnd_write w) c.io f = some io) : (c.scheduled io).Good := by
  obtain ⟨-, rfl⟩ := Lib.of_ite_not hw
  exact h.consolidate w _

lemma with_buf (w : Option Chain.Attempt) (touches : List Touch) :
    (c.scheduled (with_buf (hnd_write w) c.io touches)).Good :=
  h.consolidate w _

lemma poll_flush {calls : List Call}
    (hann : c.Announced (.poll_flush full calls w)) : (c.scheduled (poll_flush calls (hnd_write w) c.io full).2).Good := by
  refine h.scheduled (IoState.stays_poll_flush calls w c.io full) fun hc hs => ?_
  have hann' : match process_write_buf_force calls c.io with
      | (.ok _, _) => True
      | (.error _, io) => Started c.io ∨ io.buffer.write_buf_size = 0 := hann
  have hb : IoState.Beside c.io (process_write_buf_force calls c.io).2 := .of_buffer c.io _
  unfold Chain.poll_flush at hc ⊢
  split at hc
  next err t ht =>
    rw [ht] at hann' hb
    refine hs.of_beside hb fun hp hpos => ?_
    rcases hann' with (hop | hnp) | hzero
    · exact .inl hop
    · cases hp.symm.trans hnp
    · exact absurd hzero (Nat.ne_of_gt hpos)
  next t ht =>
    rw [ht] at hb
    exact (hs.toAttended.of_beside hb).flush_rest hc

lemma add_filter {write : List Call} (hann : c.Announced (.add_filter write read)) :
    Good { c with io := add_filter write (read.map (·.toCall)) c.io } := by
  refine h.of_beside (Stays.coversChain.add_filter _ _ c.io) fun hc hs => ?_
  have hb : IoState.Beside c.io (Chain.add_filter write (read.map (·.toCall)) c.io) := by
    have hlast : ∀ t : IoState, Stays t (or_terminate (read_pass (read.map (·.toCall))
        { t with buffer := t.buffer.add_layer })) := fun t => Stays.coversChain.or_terminate fun hcl => hcl
    have hopen := (hlast (or_terminate (write_pass write c.io))).open hc
    obtain ⟨hwrite, -⟩ := (IoState.beside_write_pass write c.io).or_terminate hopen
    have hread : IoState.Beside c.io (read_pass (read.map (·.toCall))
        { or_terminate (write_pass write c.io) with
          buffer := (or_terminate (write_pass write c.io)).buffer.add_layer }).2 :=
      (hwrite.trans (.of_buffer _ _)).trans (.of_buffer _ _)
    exact (hread.or_terminate hc).1
  refine ⟨hs.of_beside hb fun hp hpos => ?_, hb.wr_send_op⟩
  rcases hann with (hop | hnp) | hzero
  · exact .inl hop
  · cases hp.symm.trans hnp
  · exact absurd hzero (Nat.ne_of_gt hpos)

lemma map_filter (write : List Call) : Good { c with io := map_filter write c.io } := by
  have hstays : Stays c.io (Chain.map_filter write c.io) :=
    Stays.coversChain.or_terminate (Stays.coversChain.write_pass write c.io)
  refine h.of_beside hstays fun hc hs => ?_
  obtain ⟨hb, heq⟩ := (IoState.beside_write_pass write c.io).or_terminate hc
  refine ⟨hs.of_beside hb fun _ hpos => .inr ?_, hb.wr_send_op⟩
  change 0 < (or_terminate (write_pass write c.io)).buffer.write_buf_size at hpos
  rw [heq, write_pass] at hpos
  split at hpos
  · exact hpos
  next hne =>
    -- the layers have been given something, so it was counted before
    rw [Stack.write_buf_size_first, Stack.size]
    exact Nat.add_pos_left (length_pos_iff.2 hne) _

end

lemma run_ops_io {id : Nat} {w : Option Chain.Attempt} {ops : List Nat} {io io' : IoState}
    (hrun : ops.foldl (fun io id' => if id' = id then io.ops_send_buf (hnd_write w) else io) io = io') (writing : Bool) :
    Stays io io' ∧ (io'.flags.is_closed = false → io.Served writing →
      io'.Served writing ∧ (io'.flags.wr_send_op → io.flags.wr_send_op ∧ id ∉ ops)) := by
  induction ops generalizing io with
  | nil =>
    obtain rfl : io = io' := hrun
    exact ⟨Stays.covers.refl io, fun _ hs => ⟨hs, fun hop => ⟨hop, not_mem_nil⟩⟩⟩
  | cons id' ops ih =>
    rw [foldl_cons] at hrun
    obtain ⟨hstays, hserved⟩ := ih hrun
    by_cases hid : id' = id
    · rw [if_pos hid] at hstays hserved
      have hops : Stays io (io.ops_send_buf (hnd_write w)) :=
        Stays.coversChain.ops_send_buf (Stays.coversChain.hnd_write w) io
      refine ⟨Stays.coversChain.trans hops hstays, fun hc hs => ?_⟩
      obtain ⟨hs', hop⟩ := hs.ops_send_buf w (hstays.open hc)
      obtain ⟨hfinal, hrest⟩ := hserved hc hs'
      refine ⟨hfinal, fun hop' => ?_⟩
      cases hop.symm.trans (hrest hop').1
    · rw [if_neg hid] at hstays hserved
      refine ⟨hstays, fun hc hs => ?_⟩
      obtain ⟨hfinal, hrest⟩ := hserved hc hs
      refine ⟨hfinal, fun hop => ?_⟩
      obtain ⟨hop', hmem⟩ := hrest hop
      refine ⟨hop', fun h => ?_⟩
      rcases mem_cons.1 h with rfl | h
      · exact hid rfl
      · exact hmem h

lemma run_ops (h : c.Good) (w : Option Chain.Attempt) : (c.run_ops w).Good := by
  obtain ⟨hstays, hserved⟩ := run_ops_io (rfl : _ = (c.run_ops w).io) c.writing
  have hboth := fun hc => hserved hc (h.served (hstays.open hc))
  refine ⟨fun hne => absurd rfl hne, fun hc hop => ?_, fun hc => (hboth hc).1⟩
  obtain ⟨hop', hmem⟩ := (hboth hc).2 hop
  exact absurd (h.queued (hstays.open hc) hop') hmem

lemma poll_write (h : c.Good) : c.poll_write.Good := by
  have hready : ∀ io : IoState, io.flags.is_closed = false →
      io.poll_write_ready.2 = { io with write_task := io.write_task.register } ∧
        (io.flags.wr_paused = false → io.poll_write_ready.1 = some .Ready) := by
    intro io hc
    have hstop : io.flags.is_stopping = false := (or_eq_false_iff.1 hc).1
    unfold IoState.poll_write_ready
    rw [if_neg (by rw [hc]; exact false_ne_true)]
    rw [if_neg (by rw [hstop]; exact false_ne_true)]
    split
    next hp => exact ⟨rfl, fun hnp => nomatch hp.symm.trans hnp⟩
    · exact ⟨rfl, fun _ => rfl⟩
  have hflags : c.poll_write.io.flags = c.io.flags := by
    unfold WriteSide.poll_write IoState.poll_write_ready
    dsimp only
    split
    · rfl
    · split
      · rfl
      · split <;> rfl
  refine ⟨h.running, ?_, ?_⟩
  · rw [hflags]
    exact h.queued
  · rw [hflags]
    intro hc
    have hs := h.served hc
    obtain ⟨hio, hr⟩ := hready { c.io with write_task.woken := false } hc
    unfold WriteSide.poll_write
    dsimp only
    rw [hio]
    refine ⟨⟨hs.handle, .inl rfl, fun hp => .inr (.inr ?_)⟩, hs.output⟩
    rw [hr hp]
    simp

lemma attempt (h : c.Good) (w : Chain.Attempt) :
    Good { c with io := (Chain.attempt w c.io).2, writing := (Chain.attempt w c.io).1 = .Io } := by
  have hboth : (Chain.attempt w c.io).2.flags.is_closed = false →
      (Chain.attempt w c.io).2.Served ((Chain.attempt w c.io).1 = .Io) ∧
        (Chain.attempt w c.io).2.flags.wr_send_op = c.io.flags.wr_send_op := by
    intro hc
    obtain ⟨hopen, ⟨t, ht, heq⟩ | ⟨t, ht, hlen, heq⟩⟩ := IoState.attempt_cases w c.io hc
    · have hs := h.served hopen
      rw [heq]
      exact ⟨⟨⟨ht.handle.trans hs.handle, hs.armed.of_same_or_woken ht.write_task, fun _ => .inr (.inr rfl)⟩, nofun⟩,
        ht.wr_send_op⟩
    · have hs := h.served hopen
      rw [heq]
      refine ⟨⟨⟨ht.handle.trans hs.handle, hs.armed.of_same_or_woken ht.write_task, nofun⟩, fun _ hpos => ?_⟩, ht.wr_send_op⟩
      exact absurd hlen (Nat.ne_of_gt hpos)
  refine ⟨h.running, fun hc hop => h.queued ((Stays.coversChain.attempt w c.io).open hc) ?_, fun hc => (hboth hc).1⟩
  rw [← (hboth hc).2]
  exact hop

end Good

lemma step_good (h : c.Good) {i : Step} (hann : c.Announced i) (hstep : c.step i = some c') : c'.Good := by
  cases i with
  | with_write_buf f w =>
    obtain ⟨io, hw, rfl⟩ := of_map hstep
    exact h.write hw
  | with_buf touches w =>
    cases hstep
    exact h.with_buf w touches
  | update_read_status buf status read notify write w =>
    cases hstep
    exact h.scheduled (Stays.coversChain.update_read_status _ c.io buf status) fun hc hs => hs.update_read_status hc
  | poll_flush full calls w =>
    cases hstep
    exact h.poll_flush hann
  | add_filter write read =>
    cases hstep
    exact h.add_filter hann
  | map_filter write =>
    cases hstep
    exact h.map_filter write
  | run w =>
    cases hstep
    exact h.run_ops w
  | schedule id =>
    cases hstep
    exact ⟨fun _ => rfl, fun hc hop => mem_append_left _ (h.queued hc hop), h.served⟩
  | poll =>
    cases hstep
    exact h.poll_write
  | attempt w =>
    obtain ⟨-, rfl⟩ := Lib.of_ite hstep
    exact h.attempt w
  | stop err =>
    cases hstep
    have hclosed := IoState.closed_terminate c.io err
    exact ⟨h.running, fun hc => (nomatch hc.symm.trans hclosed), fun hc => (nomatch hc.symm.trans hclosed)⟩

/-- An open connection with something to write has a write scheduled in a queue that will be run, or a write task that is
writing or about to. -/
theorem output_served {cfg : IoConfig} {layers : Option Nat} {id : Nat} (h : Reach step Announced (new cfg layers id) c)
    (hc : c.io.flags.is_closed = false) (hsize : 0 < c.io.buffer.write_buf_size) :
    (c.io.flags.wr_send_op = true ∧ c.id ∈ c.iops.ops ∧ c.iops.running = true) ∨
      (c.io.flags.wr_paused = false ∧ (c.io.write_task.woken = true ∨ c.writing = true)) := by
  have hgood : c.Good := h.inv Good (Good.new cfg layers id) fun _ _ _ hg hok hst => step_good hg hok hst
  have hs := hgood.served hc
  by_cases hop : c.io.flags.wr_send_op = true
  · have hmem := hgood.queued hc hop
    exact .inl ⟨hop, hmem, hgood.running (ne_nil_of_mem hmem)⟩
  · right
    have hp : c.io.flags.wr_paused = false := by
      by_contra hp
      rw [not_eq_false] at hp
      exact hop (hs.output hp hsize)
    exact ⟨hp, (hs.started hp).resolve_left hop⟩

def answering : InputCall :=
  { touches := [.write_buffers fun curr next => (curr, next ++ [7])], result := .ok (),
    outwards := by
      intro t ht
      obtain rfl := List.mem_singleton.1 ht
      exact fun _ _ => Nat.le_refl _ }

/-- The layer is there when the bytes come. -/
theorem output_served_answer :
    ∃ c, Reach step Announced (new ⟨8, 8, 4, 0⟩ (some 0) 1) c ∧ c.io.buffer.write = [7] ∧
      ((c.io.flags.wr_send_op = true ∧ c.id ∈ c.iops.ops ∧ c.iops.running = true) ∨
        (c.io.flags.wr_paused = false ∧ (c.io.write_task.woken = true ∨ c.writing = true))) := by
  have hreach : Reach step Announced (new ⟨8, 8, 4, 0⟩ (some 0) 1) _ := .of_steps
      [.poll, .update_read_status [1] (.ok 1) [answering] false [] none] rfl
  exact ⟨_, hreach, rfl, output_served hreach rfl (Nat.lt_of_sub_eq_succ rfl)⟩

def Stranded (c : WriteSide) : Prop :=
  c.io.flags.is_closed = false ∧ 0 < c.io.buffer.write_buf_size ∧ c.io.flags.wr_send_op = false ∧ c.iops.ops = [] ∧
    c.io.flags.wr_paused = true ∧ c.writing = false

instance (c : WriteSide) : Decidable c.Stranded := by
  unfold Stranded
  infer_instance

/-- The layer is added when the bytes have come. And a layer writes and fails in a flush. -/
theorem output_stranded :
    (∃ c, Reach step (fun _ _ => True) (new ⟨8, 8, 4, 0⟩ none 1) c ∧ c.Stranded) ∧
      ∃ c, Reach step (fun _ _ => True) (new ⟨8, 8, 4, 0⟩ (some 0) 1) c ∧ c.Stranded := by
  refine ⟨⟨_, .of_steps [.poll, .update_read_status [1] (.ok 1) [] false [] none, .add_filter [] [answering]] rfl, ?_⟩,
    ⟨_, .of_steps [.poll, .poll_flush true [{ answering.toCall with result := .error 5 }] none] rfl, ?_⟩⟩
  all_goals exact of_decide_eq_true rfl

end WriteSide

end Geario.Io
