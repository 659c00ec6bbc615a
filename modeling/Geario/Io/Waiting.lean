import Geario.Io.Chain
import Geario.Io.Recv
import Geario.Lib.Run
/-!
# The reader and the read task

The dispatcher waits for input and the read task waits for the dispatcher to
take some. Four flags and two wakers are between them, and any chain of filters.
A dispatcher that waits has cleared the flags that hold back the read task and
woken it, and only new input sets them again, which wakes the dispatcher.

A driver reads at once, or takes the read buffer, waits for the kernel and gives
the buffer back later. Bytes that come back this way as the result of a read of
length zero, as from one that was cancelled, are put into the read buffer in
silence. Nor is anyone told what a layer puts there while it processes output.
-/
open Lib (Reach of_map)

namespace Geario.Io

open LocalWaker IoState Chain

inductive IoStatusUpdate
  | KeepAlive
  | WriteBackpressure
  | PeerGone (err : Option IoError)
  deriving DecidableEq

namespace IoState

def poll_status_update (s : IoState) : Option IoStatusUpdate × IoState :=
  let s := { s with dispatch_task := s.dispatch_task.register }
  if s.flags.is_closed then (some (.PeerGone s.error), s)
  else
    match s.flags.check_dispatcher_timeout with
    | (true, flags) => (some .KeepAlive, { s with flags })
    | (false, _) =>
      if s.flags.dsp_w_backpressure then
        (some .WriteBackpressure,
          if s.should_disable_wr_backpressure s.buffer.write_buf_size then
            { s with flags.dsp_w_backpressure := false }
          else s)
      else (none, s)

def poll_read_notify (s : IoState) : Option (Option Unit) × IoState :=
  if s.flags.is_stopping then (some none, s)
  else
    match s.flags.check_read_notifed with
    | (true, flags) => (some (some ()), { s with flags })
    | (false, _) =>
      let s := { s with flags.rd_notify := true }.poll_read.2
      (none, { s with dispatch_task := s.dispatch_task.register })

/-- `Io::poll_recv_decode` with a decoder that may change the buffer as it likes, and fail. -/
def poll_recv_decode {ε ι : Type} (decode : Data → Except ε (Option ι) × Data) (s : IoState) :
    Except (ε ⊕ RecvError) (Option ι) × IoState :=
  match { s with flags.buf_r_ready := false }.with_read_buf decode with
  | (.error err, s) => (.error (.inl err), s)
  | (.ok (some item), s) => (.ok (some item), s)
  | (.ok none, s) =>
    match s.need_more with
    | (some err, s) => (.error (.inr err), s)
    | (none, s) => (.ok none, s)

def notify_timeout (s : IoState) : IoState :=
  if s.flags.dsp_timeout then s else { s with flags.dsp_timeout := true }.wake_dispatch_task

end IoState

def Touch.is_write : Touch → Bool
  | .read_buffers _ => false
  | .write_buffers _ => true

def Call.writes (c : Call) : Bool := c.touches.all Touch.is_write

def Chain.Attempt.writes (w : Chain.Attempt) : Bool := w.calls.all Call.writes

def Chain.Input.writes (i : Chain.Input) : Bool := i.write.all Call.writes && i.hnd_write.all Chain.Attempt.writes

structure ReadSide where
  io : IoState
  taken : Option Data
  /-- the last call of the dispatcher found nothing to read, and it has not been woken since -/
  waiting : Bool
  parked : Bool

namespace ReadSide

inductive Step (ε ι : Type)
  | read (r : Except IoError Data) (i : Chain.Input)
  | take
  /-- and its end, with what has been added to the buffer and what is reported -/
  | finish (d : Data) (status : Except IoError Nat) (i : Chain.Input)
  | write (w : Chain.Attempt)
  | poll_io
  | stop (err : Option IoError)
  | timeout
  | pause
  | poll_read
  | poll_read_notify
  | poll_recv (decode : Data → Except ε (Option ι) × Data)
  | with_read_buf (f : Data → Data)
  | poll_status_update

variable {ε ι : Type}

def Step.consumer : Step ε ι → Bool
  | .pause | .poll_read | .poll_read_notify | .poll_recv _ | .with_read_buf _ | .poll_status_update => true
  | _ => false

def new (cfg : IoConfig) (layers : Option Nat) : ReadSide :=
  { io := .new cfg layers, taken := none, waiting := false, parked := false }

def read (io : IoState) (r : Except IoError Data) (i : Chain.Input) : IoState :=
  match r with
  | .ok d => (Chain.update_read_status i io.get_read_buf.2 (io.get_read_buf.1 ++ d) (.ok d.length)).2
  | .error e => (Chain.update_read_status i io.get_read_buf.2 io.get_read_buf.1 (.error e)).2

def drive (s : ReadSide) (io : IoState) (taken : Option Data) : ReadSide :=
  { s with io, taken, waiting := s.waiting && io.dispatch_task.registered }

def step (s : ReadSide) : Step ε ι → Option ReadSide
  | .read r i => if s.taken = none then some (s.drive (read s.io r i) none) else none
  | .take => if s.taken = none then some (s.drive s.io.get_read_buf.2 (some s.io.get_read_buf.1)) else none
  | .finish d status i =>
    s.taken.map fun buf => s.drive (Chain.update_read_status i s.io (buf ++ d) status).2 none
  | .write w => some (s.drive (Chain.attempt w s.io).2 s.taken)
  -- the task runs, so it has not been woken since
  | .poll_io =>
    let r := { s.io with read_task.woken := false }.base_poll_read_ready
    some { s.drive r.2 s.taken with parked := r.1.isNone }
  | .stop err => some (s.drive (s.io.terminate_connection err) s.taken)
  | .timeout => some (s.drive s.io.notify_timeout s.taken)
  | .pause => some { s with io := s.io.pause, waiting := false }
  | .poll_read => some { s with io := s.io.poll_read.2, waiting := s.io.poll_read.1.isNone }
  | .poll_read_notify => some { s with io := s.io.poll_read_notify.2, waiting := s.io.poll_read_notify.1.isNone }
  | .poll_recv decode =>
    let r := s.io.poll_recv_decode decode
    some { s with io := r.2, waiting := match r.1 with | .ok none => true | _ => false }
  | .with_read_buf f => some { s with io := (s.io.with_read_buf fun buf => ((), f buf)).2, waiting := false }
  | .poll_status_update => some { s with io := s.io.poll_status_update.2, waiting := false }

/-- A read that is given back with length zero gives back nothing into the dispatcher's buffer, and layers that process
output leave their read buffers alone. -/
def Tells (s : ReadSide) : Step ε ι → Prop
  | .read _ i => i.writes = true
  | .finish d (.ok 0) i => i.writes = true ∧ (s.io.buffer.layers = none → s.taken.getD [] ++ d = [])
  | .finish _ _ i => i.writes = true
  | .write w => w.writes = true
  | _ => True

instance (s : ReadSide) (i : Step ε ι) : Decidable (s.Tells i) := by
  unfold Tells
  split <;> infer_instance

end ReadSide

/-! ## The read task goes on -/

namespace IoState

structure Resumes (s s' : IoState) : Prop where
  backpressure : (s.flags.rd_backpressure = true → s.flags.rd_paused = true) →
    s'.flags.rd_backpressure = true → s'.flags.rd_paused = true
  read_task : s'.read_task = s.read_task ∨ s'.read_task = s.read_task.wake
  resumed : s.flags.rd_paused = true → s'.flags.rd_paused = true ∨ s'.read_task = s.read_task.wake

variable {s s' s'' : IoState}

lemma Resumes.trans (h : Resumes s s') (h' : Resumes s' s'') : Resumes s s'' where
  backpressure hb := h'.backpressure (h.backpressure hb)
  read_task := same_or_woken h.read_task h'.read_task
  resumed hp := by
    rcases h.resumed hp with hp' | hw
    · rcases h'.resumed hp' with hp'' | hw'
      · exact .inl hp''
      · right
        rcases h.read_task with hr | hr
        · rw [hw', hr]
        · rw [hw', hr, wake_wake]
    · right
      rcases h'.read_task with hr | hr
      · rw [hr, hw]
      · rw [hr, hw, wake_wake]

lemma Resumes.of_same (hp : s'.flags.rd_paused = s.flags.rd_paused)
    (hb : s'.flags.rd_backpressure = s.flags.rd_backpressure) (hr : s'.read_task = s.read_task) : Resumes s s' := by
  refine ⟨?_, .inl hr, ?_⟩
  · rw [hp, hb]
    exact id
  · rw [hp]
    exact .inl

/-- What the driver, a filter or a timer does: what holds back the read task is set only with the dispatcher woken. -/
structure Driven (s s' : IoState) : Prop where
  flags : s'.flags.rd_paused = s.flags.rd_paused ∧ s'.flags.rd_backpressure = s.flags.rd_backpressure ∨
    s'.flags.rd_paused = true ∧ s'.dispatch_task.registered = false
  registered : s'.dispatch_task.registered = true → s.dispatch_task.registered = true
  read_task : s'.read_task = s.read_task ∨ s'.read_task = s.read_task.wake
  closed : s.flags.is_closed = true → s'.flags.is_closed = true

namespace Driven

lemma trans (h : Driven s s') (h' : Driven s' s'') : Driven s s'' where
  flags := by
    rcases h'.flags with ⟨hp', hb'⟩ | hset
    · rcases h.flags with ⟨hp, hb⟩ | ⟨hp, hd⟩
      · exact .inl ⟨hp'.trans hp, hb'.trans hb⟩
      · right
        refine ⟨hp'.trans hp, ?_⟩
        by_contra hreg
        rw [Bool.not_eq_false] at hreg
        cases hd.symm.trans (h'.registered hreg)
    · exact .inr hset
  registered hreg := h.registered (h'.registered hreg)
  read_task := same_or_woken h.read_task h'.read_task
  closed hc := h'.closed (h.closed hc)

lemma resumes (h : Driven s s') : Resumes s s' := by
  rcases h.flags with ⟨hp, hb⟩ | ⟨hp, -⟩
  · refine ⟨?_, h.read_task, ?_⟩
    · rw [hp, hb]
      exact id
    · rw [hp]
      exact .inl
  · exact ⟨fun _ _ => hp, h.read_task, fun _ => .inl hp⟩

lemma of_same (hp : s'.flags.rd_paused = s.flags.rd_paused) (hb : s'.flags.rd_backpressure = s.flags.rd_backpressure)
    (hr : s'.read_task = s.read_task ∨ s'.read_task = s.read_task.wake)
    (hd : s'.dispatch_task = s.dispatch_task ∨ s'.dispatch_task = s.dispatch_task.wake)
    (hc : s.flags.is_closed → s'.flags.is_closed) : Driven s s' := by
  refine ⟨.inl ⟨hp, hb⟩, fun hreg => ?_, hr, hc⟩
  rcases hd with h | h
  · exact h ▸ hreg
  · rw [h, registered_wake] at hreg
    cases hreg

lemma covers : Covers Driven where
  trans := trans
  of_wakes h := by
    refine of_same h.rd_paused h.rd_backpressure h.read_task h.dispatch_task ?_
    rw [Flags.is_closed, Flags.is_closed, h.io_stopped, h.io_stopping]
    exact id

section

variable (s : IoState)

lemma of_buffer (buffer : Stack) : Driven s { s with buffer } := of_same rfl rfl (.inl rfl) (.inl rfl) id

lemma terminate (err : Option IoError) : Driven s (s.terminate_connection err) := by
  unfold terminate_connection
  split
  · exact covers.refl s
  · exact of_same rfl rfl (.inr rfl) (.inr rfl) fun _ => rfl

lemma read_grown (size : Nat) : Driven s (s.read_grown size) := by
  have hreg : (s.read_grown size).dispatch_task.registered = false := registered_wake _
  refine ⟨?_, fun h => ?_, .inl rfl, ?_⟩
  · unfold IoState.read_grown at hreg ⊢
    split
    · exact .inr ⟨rfl, registered_wake _⟩
    · exact .inl ⟨rfl, rfl⟩
  · cases hreg.symm.trans h
  · rw [(read_grown_spec s size).2.1.is_closed]
    exact id

lemma read_notify : Driven s s.read_notify := by
  unfold IoState.read_notify
  split
  · exact of_same rfl rfl (.inl rfl) (.inr rfl) id
  · exact covers.refl s

lemma read_processed (orig : Nat) : Driven s (s.read_processed orig) := by
  refine .trans ?_ (read_notify _)
  split
  · exact read_grown s _
  · exact covers.refl s

end

lemma coversChain : CoversChain Driven := ⟨covers, of_buffer, terminate, read_processed⟩

lemma get_read_buf (s : IoState) : Driven s s.get_read_buf.2 := by
  obtain ⟨-, -, -, buffer, hio, -⟩ := s.get_read_buf_spec
  rw [hio]
  exact of_buffer s buffer

end Driven

/-! ## Calls of the dispatcher -/

section

variable (s : IoState)

lemma resumes_update_read_destination (buf : Data) : Resumes s (s.update_read_destination buf) := by
  have hresume : ∀ t : IoState, t.flags.rd_backpressure = false → Resumes t t.resume_read := by
    intro t hb
    unfold resume_read
    split
    · refine ⟨fun _ h => ?_, .inr rfl, fun _ => .inr rfl⟩
      cases hb.symm.trans h
    · exact .of_same rfl rfl rfl
  unfold update_read_destination
  split
  · split
    · exact .of_same rfl rfl rfl
    · have hflags : Resumes s { s with flags := s.flags.unset_all_read_flags } := ⟨nofun, .inl rfl, .inl⟩
      exact hflags.trans (hresume _ rfl)
  next hb =>
    have hflags : Resumes s { s with flags.buf_r_ready := false } := .of_same rfl rfl rfl
    exact hflags.trans (hresume _ (Bool.not_eq_true _ ▸ hb))

lemma resumes_with_read_buf {α : Type} (f : Data → α × Data) : Resumes s (s.with_read_buf f).2 :=
  (resumes_update_read_destination s _).trans (.of_same rfl rfl rfl)

lemma resumes_pause : Resumes s s.pause := by
  unfold pause
  split
  · exact .of_same rfl rfl rfl
  · exact ⟨fun _ _ => rfl, .inr rfl, fun _ => .inl rfl⟩

lemma resumes_restart_read : Resumes s s.restart_read ∧ s.restart_read.flags.rd_paused = false := by
  unfold restart_read
  split
  · exact ⟨⟨nofun, .inr rfl, fun _ => .inr rfl⟩, rfl⟩
  next h =>
    simp only [Flags.is_read_paused_or_backpressure, Bool.not_eq_true, Bool.or_eq_false_iff] at h
    exact ⟨.of_same rfl rfl rfl, h.1⟩

lemma resumes_poll_read :
    Resumes s s.poll_read.2 ∧ (s.flags.is_closed = false → s.poll_read.2.flags.rd_paused = false) ∧
      (s.poll_read.1 = none → s.flags.is_closed = false ∧ s.poll_read.2.dispatch_task.registered) := by
  obtain ⟨hr, hp⟩ := resumes_restart_read s
  unfold poll_read
  split
  next hc =>
    refine ⟨.of_same rfl rfl rfl, fun h => ?_, nofun⟩
    cases hc.symm.trans h
  next hc =>
    rw [Bool.not_eq_true] at hc
    split
    · exact ⟨hr, fun _ => hp, nofun⟩
    · exact ⟨hr.trans (.of_same rfl rfl rfl), fun _ => hp, fun _ => ⟨hc, rfl⟩⟩

lemma resumes_poll_status_update : Resumes s s.poll_status_update.2 := by
  unfold poll_status_update
  dsimp only
  split
  · exact .of_same rfl rfl rfl
  · split
    next flags h =>
      unfold Flags.check_dispatcher_timeout at h
      split at h
      · cases h
        exact .of_same rfl rfl rfl
      · cases h
    · split
      · split <;> exact .of_same rfl rfl rfl
      · exact .of_same rfl rfl rfl

lemma resumes_poll_read_notify :
    Resumes s s.poll_read_notify.2 ∧ (s.poll_read_notify.1 = none → s.poll_read_notify.2.flags.is_closed = false →
      s.poll_read_notify.2.flags.rd_paused = false ∧ s.poll_read_notify.2.dispatch_task.registered) := by
  unfold poll_read_notify
  split
  · exact ⟨.of_same rfl rfl rfl, nofun⟩
  · split
    next flags h =>
      unfold Flags.check_read_notifed at h
      split at h
      · cases h
        exact ⟨.of_same rfl rfl rfl, nofun⟩
      · cases h
    · obtain ⟨hr, hp, -⟩ := resumes_poll_read { s with flags.rd_notify := true }
      have hflags : Resumes s { s with flags.rd_notify := true } := .of_same rfl rfl rfl
      have hclosed := ({ s with flags.rd_notify := true } : IoState).poll_read_spec.2.1.is_closed
      exact ⟨(hflags.trans hr).trans (.of_same rfl rfl rfl), fun _ hc => ⟨hp (hclosed.symm.trans hc), rfl⟩⟩

lemma resumes_need_more :
    Resumes s s.need_more.2 ∧ (s.flags.buf_r_ready = false → s.need_more.1 = none →
      s.need_more.2.flags.rd_paused = false ∧ s.need_more.2.dispatch_task.registered) := by
  unfold need_more
  split
  · exact ⟨.of_same rfl rfl rfl, nofun⟩
  · split
    next flags h =>
      unfold Flags.check_dispatcher_timeout at h
      split at h
      · cases h
        exact ⟨.of_same rfl rfl rfl, nofun⟩
      · cases h
    · split
      · exact ⟨.of_same rfl rfl rfl, nofun⟩
      · obtain ⟨hr, hp, hreg⟩ := resumes_poll_read s
        have hspec := s.poll_read_spec.2.2
        split
        next t h =>
          rw [h] at hr
          exact ⟨hr, nofun⟩
        next r t hne h =>
          rw [h] at hr hp hreg hspec
          refine ⟨hr, fun hready _ => ?_⟩
          -- nothing new has come since the decoder looked
          rcases hspec with ⟨-, hr⟩ | ⟨-, hready', -⟩ | ⟨hc, -, hnone, -⟩
          · exact (hne hr).elim
          · cases hready.symm.trans hready'
          · exact ⟨hp hc, (hreg hnone).2⟩

end

lemma resumes_poll_recv_decode {ε ι : Type} (decode : Data → Except ε (Option ι) × Data) (s : IoState) :
    Resumes s (s.poll_recv_decode decode).2 ∧ ((s.poll_recv_decode decode).1 = .ok none →
      (s.poll_recv_decode decode).2.flags.rd_paused = false ∧
        (s.poll_recv_decode decode).2.dispatch_task.registered) := by
  have hflags : Resumes s { s with flags.buf_r_ready := false } := .of_same rfl rfl rfl
  have hbuf := hflags.trans (resumes_with_read_buf _ decode)
  have hready : ({ s with flags.buf_r_ready := false }.with_read_buf decode).2.flags.buf_r_ready = false :=
    with_read_buf_not_ready decode rfl
  unfold poll_recv_decode
  split
  next err t h =>
    rw [h] at hbuf
    exact ⟨hbuf, nofun⟩
  next item t h =>
    rw [h] at hbuf
    exact ⟨hbuf, nofun⟩
  next t h =>
    rw [h] at hbuf hready
    obtain ⟨hmore, hnone⟩ := resumes_need_more t
    split
    next err t' h' =>
      rw [h'] at hmore
      exact ⟨hbuf.trans hmore, nofun⟩
    next t' h' =>
      rw [h'] at hmore hnone
      exact ⟨hbuf.trans hmore, fun _ => hnone hready rfl⟩

end IoState

/-! ## New input is announced -/

namespace IoState

/-- What happens to output: the dispatcher's read buffer stays as it is, and the dispatcher may be woken. -/
structure Aside (s s' : IoState) : Prop where
  dst : s'.buffer.dst = s.buffer.dst
  dispatch_task : s'.dispatch_task = s.dispatch_task ∨ s'.dispatch_task = s.dispatch_task.wake

variable {s s' s'' : IoState} {calls : List Call}

lemma dst_of_buffers (first : Buffer) (rest : List Buffer) : (Stack.of_buffers first rest).dst = first.read.getD [] := by
  rw [Stack.dst, Stack.read_dst_of_buffers]

lemma read_touch_all {touches : List Touch} (h : touches.all Touch.is_write) (b : FilterBuf) :
    (b.touch_all touches).curr.read = b.curr.read := by
  refine FilterBuf.touch_all_inv (fun b' => b'.curr.read = b.curr.read) (fun b' t ht hb' => ?_) rfl
  cases t with
  | read_buffers f => cases List.all_eq_true.1 h _ ht
  | write_buffers f => exact hb'

lemma read_process_write_buf (h : calls.all Call.writes) (first : Buffer) (rest : List Buffer)
    (wants : Bool) : (process_write_buf calls first rest wants).first.read = first.read := by
  cases calls with
  | nil => rfl
  | cons c calls =>
    cases rest with
    | nil => rfl
    | cons next rest =>
      have hc : c.touches.all Touch.is_write := List.all_eq_true.1 h c List.mem_cons_self
      have hread := read_touch_all hc ⟨first, next, wants⟩
      rw [process_write_buf]
      split <;> exact hread

namespace Aside

lemma covers : Covers Aside where
  trans h h' := ⟨h'.dst.trans h.dst, same_or_woken h.dispatch_task h'.dispatch_task⟩
  of_wakes h := ⟨congrArg Stack.dst h.buffer, h.dispatch_task⟩

lemma terminate (s : IoState) (err : Option IoError) : Aside s (s.terminate_connection err) := by
  unfold terminate_connection
  split
  · exact covers.refl s
  · exact ⟨rfl, .inr rfl⟩

lemma process_write_buf_force (h : calls.all Call.writes) (s : IoState) :
    Aside s (process_write_buf_force calls s).2 := by
  refine ⟨?_, .inl rfl⟩
  change (Stack.of_buffers _ _).dst = _
  rw [dst_of_buffers, read_process_write_buf h, Stack.dst, Stack.read_dst_first]

lemma with_write_buf (h : calls.all Call.writes) (f : Data → Data) (s : IoState) :
    Aside s (Chain.with_write_buf calls f s) := by
  have hpass : Aside s (write_pass calls s).2 := by
    unfold write_pass
    split
    · exact covers.refl s
    · exact process_write_buf_force h s
  have hterm : ∀ r : Except IoError Unit × IoState, Aside s r.2 → Aside s (or_terminate r) := by
    rintro ⟨res, t⟩ ht
    cases res with
    | ok _ => exact ht
    | error err => exact covers.trans ht (terminate t (some err))
  exact covers.trans (hterm _ hpass) ⟨rfl, .inl rfl⟩

lemma attempt {w : Chain.Attempt} (h : w.writes) (s : IoState) : Aside s (attempt w s).2 := by
  have hbuf := with_write_buf h w.take s
  unfold Chain.attempt
  cases w.status with
  | ok written => exact covers.trans hbuf (covers.update_write_status _ written)
  | error err => exact covers.trans hbuf (terminate _ (some err))

lemma hnd_write {w : Option Chain.Attempt} (h : w.all Chain.Attempt.writes) (s : IoState) :
    Aside s (hnd_write w s) := by
  cases w with
  | none => exact covers.refl s
  | some w => exact attempt h s

lemma filter_wrote {w : Option Chain.Attempt} (hw : w.all Chain.Attempt.writes)
    (h : calls.all Call.writes) (s : IoState) : Aside s (filter_wrote w calls s) := by
  have hpass := process_write_buf_force h s
  unfold Chain.filter_wrote
  split
  next err t ht =>
    rw [ht] at hpass
    exact covers.trans hpass (terminate t (some err))
  next t ht =>
    rw [ht] at hpass
    exact covers.trans hpass (covers.consolidate_write_state (hnd_write hw) t false)

end Aside

lemma process_input_grows {i : Chain.Input} (hi : i.writes) {orig : Nat} {res : Except IoError Unit} {u : IoState}
    (hp : process_input i s orig = (res, u)) (h : orig < u.buffer.dst.length) :
    u.dispatch_task = s.dispatch_task.wake ∨ (∃ err, res = .error err) ∧ u.flags = s.flags ∧ u.dispatch_task = s.dispatch_task := by
  obtain ⟨hwrite, hhnd⟩ := Bool.and_eq_true_iff.1 hi
  unfold process_input at hp
  split at hp
  next err t ht =>
    cases hp
    obtain rfl := (Prod.mk.inj ht).2
    exact .inr ⟨⟨err, rfl⟩, rfl, rfl⟩
  next wants t ht =>
    cases hp
    have hd : t.dispatch_task = s.dispatch_task := by
      obtain rfl := (Prod.mk.inj ht).2
      rfl
    have hwrote : Aside (t.read_processed orig)
        (if wants then filter_wrote i.hnd_write i.write (t.read_processed orig) else t.read_processed orig) := by
      split
      · exact Aside.filter_wrote hhnd hwrite _
      · exact Aside.covers.refl _
    have hnotify : ∀ u : IoState, Aside u (if i.notify then call_notify u else u) := by
      intro u
      unfold call_notify
      split
      · split <;> exact ⟨rfl, .inl rfl⟩
      · exact Aside.covers.refl u
    obtain ⟨hdst, hwake⟩ := Aside.covers.trans hwrote (hnotify _)
    obtain ⟨hb, -, -, hgrown⟩ := read_processed_spec t orig
    rw [hdst, hb] at h
    rw [hgrown h, hd, wake_wake, or_self] at hwake
    exact .inl hwake

lemma terminate_wakes (hc : s.flags.is_closed = false) (err : Option IoError) :
    (s.terminate_connection err).dispatch_task = s.dispatch_task.wake := by
  rcases (s.terminate_connection_spec err).2.2.2.2.2 with ⟨hstop, -⟩ | ⟨-, -, -, hd⟩
  · simp [Flags.is_closed, hstop] at hc
  · exact hd

lemma update_read_status_grows {i : Chain.Input} (hi : i.writes) {buf : Data} {status : Except IoError Nat}
    (hstatus : status ≠ .ok 0) (hc : s.flags.is_closed = false)
    (h : s.buffer.dst.length < (Chain.update_read_status i s buf status).2.buffer.dst.length) :
    (Chain.update_read_status i s buf status).2.dispatch_task = s.dispatch_task.wake := by
  unfold Chain.update_read_status at h ⊢
  cases status with
  | error err => exact terminate_wakes (s := { s with buffer := s.buffer.set_read_buf buf }) hc (some err)
  | ok n =>
    have hn : n ≠ 0 := fun h0 => hstatus (congrArg _ h0)
    dsimp only at h ⊢
    rw [if_neg hn] at h ⊢
    cases hp : process_input i { s with buffer := s.buffer.set_read_buf buf } s.buffer.read_dst_size with
    | mk res u =>
      rw [hp] at h
      cases res with
      | ok _ =>
        rcases process_input_grows hi hp h with hwake | ⟨⟨err, herr⟩, -⟩
        · exact hwake
        · cases herr
      | error err =>
        obtain ⟨hb, -⟩ := u.terminate_connection_spec (some err)
        rw [hb] at h
        rcases process_input_grows hi hp h with hwake | ⟨-, hflags, hd⟩
        · rcases (Aside.terminate u (some err)).dispatch_task with ht | ht
          · rw [ht, hwake]
          · rw [ht, hwake, wake_wake]
        · have hc' : u.flags.is_closed = false := by
            rw [hflags]
            exact hc
          rw [terminate_wakes hc', hd]

end IoState

namespace ReadSide

variable {ε ι : Type} {s s' : ReadSide}

/-- A dispatcher that waits is registered and does not hold back the read task, and a read task that is held back or has
been can be woken. -/
structure Good (s : ReadSide) : Prop where
  backpressure : s.io.flags.rd_backpressure = true → s.io.flags.rd_paused = true
  waiting : s.waiting = true → s.io.flags.is_closed = false →
    s.io.dispatch_task.registered = true ∧ s.io.flags.rd_paused = false
  parked : s.parked = true → s.io.read_task.Armed ∧ (s.io.flags.rd_paused = true ∨ s.io.read_task.woken = true)

namespace Good

lemma new (cfg : IoConfig) (layers : Option Nat) : (new cfg layers).Good := ⟨nofun, nofun, nofun⟩

lemma of_resumes (h : s.Good) {io : IoState} (hr : s.io.Resumes io) {taken : Option Data} {waiting : Bool}
    (hw : waiting → io.flags.is_closed = false → io.dispatch_task.registered ∧ io.flags.rd_paused = false) :
    Good { s with io, taken, waiting } where
  backpressure := hr.backpressure h.backpressure
  waiting := hw
  parked hp := by
    obtain ⟨harmed, hrest⟩ := h.parked hp
    refine ⟨harmed.of_same_or_woken hr.read_task, ?_⟩
    rcases hrest with hpaused | hwoken
    · rcases hr.resumed hpaused with hpaused' | ht
      · exact .inl hpaused'
      · exact .inr (ht ▸ woken_wake harmed)
    · exact .inr (harmed.woken_of_same_or_woken hr.read_task hwoken)

lemma drive (h : s.Good) {io : IoState} (hd : s.io.Driven io) (taken : Option Data) : (s.drive io taken).Good := by
  refine h.of_resumes hd.resumes fun hw hc => ?_
  obtain ⟨hwait, hreg⟩ := Bool.and_eq_true_iff.1 hw
  have hc' : s.io.flags.is_closed = false := by
    by_contra hcl
    rw [Bool.not_eq_false] at hcl
    cases hc.symm.trans (hd.closed hcl)
  refine ⟨hreg, ?_⟩
  rcases hd.flags with ⟨hp, -⟩ | ⟨-, hnreg⟩
  · exact hp.trans (h.waiting hwait hc').2
  · cases hreg.symm.trans hnreg

lemma poll_io (h : s.Good) {r : Option Readiness × IoState}
    (hr : { s.io with read_task.woken := false }.base_poll_read_ready = r) :
    Good { s.drive r.2 s.taken with parked := r.1.isNone } := by
  have hframe : r.2.flags = s.io.flags ∧ r.2.dispatch_task = s.io.dispatch_task := by
    subst hr
    unfold base_poll_read_ready
    split
    · exact ⟨rfl, rfl⟩
    · dsimp only
      split
      · exact ⟨rfl, rfl⟩
      · split <;> exact ⟨rfl, rfl⟩
  obtain ⟨hflags, hd⟩ := hframe
  refine ⟨?_, fun hw hc => ?_, fun hp => ?_⟩
  · change r.2.flags.rd_backpressure = true → r.2.flags.rd_paused = true
    rw [hflags]
    exact h.backpressure
  · obtain ⟨hwait, hreg⟩ := Bool.and_eq_true_iff.1 hw
    change r.2.flags.is_closed = false at hc
    change _ ∧ r.2.flags.rd_paused = false
    rw [hflags] at hc ⊢
    exact ⟨hreg, (h.waiting hwait hc).2⟩
  · subst hr
    unfold base_poll_read_ready at hp ⊢
    split
    next hc =>
      rw [if_pos hc] at hp
      cases hp
    next hc =>
      rw [if_neg hc] at hp
      dsimp only at hp ⊢
      split
      next hf =>
        rw [if_pos hf] at hp
        cases hp
      next hf =>
        rw [if_neg hf] at hp
        split
        next hpb =>
          refine ⟨.inl rfl, .inl ?_⟩
          rcases Bool.or_eq_true_iff.1 hpb with hpaused | hback
          · exact hpaused
          · exact h.backpressure hback
        next hpb =>
          rw [if_neg hpb] at hp
          cases hp

end Good

lemma step_good {i : Step ε ι} (h : s.Good) (hstep : s.step i = some s') : s'.Good := by
  cases i with
  | read r i =>
    obtain ⟨-, rfl⟩ := Lib.of_ite hstep
    have hbuf := IoState.Driven.get_read_buf s.io
    refine h.drive ?_ none
    cases r with
    | ok | error => exact hbuf.trans (IoState.Driven.coversChain.update_read_status i _ _ _)
  | take =>
    obtain ⟨-, rfl⟩ := Lib.of_ite hstep
    exact h.drive (.get_read_buf s.io) _
  | finish d status i =>
    obtain ⟨buf, -, rfl⟩ := of_map hstep
    exact h.drive (IoState.Driven.coversChain.update_read_status i s.io (buf ++ d) status) none
  | write w =>
    cases hstep
    exact h.drive (IoState.Driven.coversChain.attempt w s.io) _
  | poll_io =>
    cases hstep
    exact h.poll_io rfl
  | stop err =>
    cases hstep
    exact h.drive (.terminate s.io err) _
  | timeout =>
    cases hstep
    refine h.drive ?_ _
    unfold notify_timeout
    split
    · exact IoState.Driven.covers.refl s.io
    · exact .of_same rfl rfl (.inl rfl) (.inr rfl) id
  | pause =>
    cases hstep
    exact h.of_resumes s.io.resumes_pause nofun
  | poll_read =>
    cases hstep
    obtain ⟨hr, hp, hreg⟩ := s.io.resumes_poll_read
    refine h.of_resumes hr fun hw _ => ?_
    obtain ⟨hc, hd⟩ := hreg (Option.isNone_iff_eq_none.1 hw)
    exact ⟨hd, hp hc⟩
  | poll_read_notify =>
    cases hstep
    obtain ⟨hr, hnone⟩ := s.io.resumes_poll_read_notify
    refine h.of_resumes hr fun hw hc => ?_
    exact (hnone (Option.isNone_iff_eq_none.1 hw) hc).symm
  | poll_recv decode =>
    cases hstep
    obtain ⟨hr, hnone⟩ := s.io.resumes_poll_recv_decode decode
    refine h.of_resumes hr fun hw _ => ?_
    split at hw
    next hres => exact (hnone hres).symm
    · cases hw
  | with_read_buf f =>
    cases hstep
    exact h.of_resumes (s.io.resumes_with_read_buf _) nofun
  | poll_status_update =>
    cases hstep
    exact h.of_resumes s.io.resumes_poll_status_update nofun

lemma dst_read_zero (io : IoState) (i : Chain.Input) : (read io (.ok []) i).buffer.dst = io.buffer.dst := by
  obtain ⟨buffer, hio, -, hd, -⟩ := io.put_read_buf_back
  have hread : read io (.ok []) i = { io with buffer } := by
    rw [read, List.append_nil]
    exact hio
  rw [hread]
  exact hd

lemma dst_set_read_buf {b : Stack} {buf : Data} (h : b.layers = none → buf = []) : (b.set_read_buf buf).dst = b.dst := by
  have hl : (b.set_read_buf buf).layers = b.layers := Stack.layers_set_read_buf
  cases hlay : b.layers with
  | none => rw [Stack.dst_base (hl.trans hlay), Stack.dst_base hlay, Stack.read_set_read_buf, h hlay, List.append_nil]
  | some l => rw [Stack.dst, Stack.dst, Stack.read_dst, Stack.read_dst, hl, hlay]

lemma buffer_base_poll_read_ready (io : IoState) : io.base_poll_read_ready.2.buffer = io.buffer := by
  unfold base_poll_read_ready
  split
  · rfl
  · dsimp only
    split
    · rfl
    · split <;> rfl

lemma buffer_notify_timeout (io : IoState) : io.notify_timeout.buffer = io.buffer := by
  unfold notify_timeout
  split <;> rfl

lemma step_tells {i : Step ε ι} (htells : s.Tells i) (hstep : s.step i = some s') (hi : i.consumer = false)
    (hc : s.io.flags.is_closed = false) (h : s.io.buffer.dst.length < s'.io.buffer.dst.length) :
    s'.io.dispatch_task = s.io.dispatch_task.wake := by
  cases i with
  | read r i =>
    obtain ⟨-, rfl⟩ := Lib.of_ite hstep
    obtain ⟨-, -, hle, buffer, hio, -⟩ := s.io.get_read_buf_spec
    have hd : s.io.get_read_buf.2.dispatch_task = s.io.dispatch_task := by rw [hio]
    have hc' : s.io.get_read_buf.2.flags.is_closed = false := by rw [hio]; exact hc
    change _ < (read s.io r i).buffer.dst.length at h
    rw [← hd]
    cases r with
    | ok d =>
      refine update_read_status_grows htells ?_ hc' (Nat.lt_of_le_of_lt hle h)
      rintro hzero
      obtain rfl := List.eq_nil_of_length_eq_zero (Except.ok.inj hzero)
      rw [dst_read_zero] at h
      exact Nat.lt_irrefl _ h
    | error e => exact update_read_status_grows htells nofun hc' (Nat.lt_of_le_of_lt hle h)
  | take =>
    obtain ⟨-, rfl⟩ := Lib.of_ite hstep
    obtain ⟨-, -, hle, -⟩ := s.io.get_read_buf_spec
    exact absurd h (Nat.not_lt_of_le hle)
  | finish d status i =>
    obtain ⟨buf, hbuf, rfl⟩ := of_map hstep
    cases status with
    | error e => exact update_read_status_grows htells nofun hc h
    | ok n =>
      cases n with
      | succ n => exact update_read_status_grows htells nofun hc h
      | zero =>
        obtain ⟨-, hempty⟩ : i.writes = true ∧ (s.io.buffer.layers = none → s.taken.getD [] ++ d = []) := htells
        rw [hbuf] at hempty
        have hdst : (s.io.buffer.set_read_buf (buf ++ d)).dst = s.io.buffer.dst := dst_set_read_buf hempty
        exact absurd (congrArg List.length hdst) (Nat.ne_of_gt h)
  | write w =>
    cases hstep
    have hdst : (attempt w s.io).2.buffer.dst = _ := (IoState.Aside.attempt htells s.io).dst
    exact absurd (congrArg List.length hdst) (Nat.ne_of_gt h)
  | poll_io =>
    cases hstep
    have hb := buffer_base_poll_read_ready { s.io with read_task.woken := false }
    exact absurd (congrArg (·.dst.length) hb) (Nat.ne_of_gt h)
  | stop err =>
    cases hstep
    exact terminate_wakes hc err
  | timeout =>
    cases hstep
    exact absurd (congrArg (·.dst.length) (buffer_notify_timeout s.io)) (Nat.ne_of_gt h)
  | _ => cases hi

/-- A dispatcher that waits does not hold back the read task, which runs again if it was held back; and it is woken whenever
its buffer grows. -/
theorem reader_goes_on {cfg : IoConfig} {layers : Option Nat} (h : Reach (step (ε := ε) (ι := ι)) Tells (new cfg layers) s) :
    (s.waiting = true → s.io.flags.is_closed = false →
      s.io.dispatch_task.registered = true ∧ s.io.flags.rd_paused = false ∧ s.io.flags.rd_backpressure = false ∧
        (s.parked = true → s.io.read_task.woken = true)) ∧
    ∀ (i : Step ε ι) (s' : ReadSide), s.Tells i → s.step i = some s' → i.consumer = false → s.io.flags.is_closed = false →
      s.io.buffer.dst.length < s'.io.buffer.dst.length → s'.io.dispatch_task = s.io.dispatch_task.wake := by
  have hgood : s.Good := h.inv Good (Good.new cfg layers) fun _ _ _ hg _ hst => step_good hg hst
  refine ⟨fun hw hc => ?_, fun i s' htells hstep hi hc hlt => step_tells htells hstep hi hc hlt⟩
  obtain ⟨hreg, hpaused⟩ := hgood.waiting hw hc
  refine ⟨hreg, hpaused, ?_, fun hp => ?_⟩
  · by_contra hback
    rw [Bool.not_eq_false] at hback
    cases hpaused.symm.trans (hgood.backpressure hback)
  · rcases (hgood.parked hp).2 with hpaused' | hwoken
    · cases hpaused.symm.trans hpaused'
    · exact hwoken

/-- Three bytes are more than the high watermark and less than a frame. -/
theorem reader_goes_on_watermark :
    ∃ s, Reach (step (ε := Unit) (ι := Unit)) Tells (new ⟨2, 8, 4, 0⟩ none) s ∧ s.waiting = true ∧ s.parked = true ∧
      s.io.buffer.dst = [1, 2, 3] ∧ s.io.flags.is_closed = false ∧
      (s.io.dispatch_task.registered = true ∧ s.io.flags.rd_paused = false ∧ s.io.flags.rd_backpressure = false ∧
        (s.parked = true → s.io.read_task.woken = true)) := by
  have hreach : Reach (step (ε := Unit) (ι := Unit)) Tells (new ⟨2, 8, 4, 0⟩ none) _ := .of_steps
      [.poll_io, .poll_read, .read (.ok [1, 2, 3]) ⟨[], false, [], none⟩, .poll_io, .poll_recv fun buf => (.ok none, buf)] rfl
  refine ⟨_, hreach, rfl, rfl, rfl, rfl, (reader_goes_on hreach).1 rfl rfl⟩

/-- A read that has been left to the kernel is cancelled with two bytes in its buffer. -/
theorem reader_not_told :
    ∃ s s', Reach (step (ε := Unit) (ι := Unit)) (fun _ _ => True) (new ⟨64, 64, 32, 0⟩ none) s ∧
      s.step (.finish [1, 2] (.ok 0) ⟨[], false, [], none⟩ : Step Unit Unit) = some s' ∧ s.io.flags.is_closed = false ∧
      s.io.buffer.dst = [] ∧ s'.io.buffer.dst = [1, 2] ∧ s'.io.dispatch_task = { registered := true, woken := false } := by
  have hreach : Reach (step (ε := Unit) (ι := Unit)) (fun _ _ => True) (new ⟨64, 64, 32, 0⟩ none) _ := .of_steps
      [.poll_read, .poll_io, .take, .pause, .poll_io] rfl
  exact ⟨_, _, hreach, rfl, rfl, rfl, rfl, rfl⟩

end ReadSide

end Geario.Io
