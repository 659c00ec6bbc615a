import Geario.Io.Read
import Geario.Lib.Run
/-!
# Reading on the IOCP driver

`ReadOperation` takes the read buffer of the connection, with what the consumer
has left in it, as the target of a `WSARecv`. A call that is done at once or
fails gives the buffer back before anyone can look. A call that is left pending
keeps it until the completion arrives, and what was in it is out of the
consumer's sight until then. As long as a receive is left pending with an empty
buffer only, everything received is where the consumer looks for it.
-/
open Geario.Io
open Lib (Reach of_map)
open List

namespace Geario.Iocp

open Stack

/-- What `WSARecv` returned; no bytes are the end of the stream. -/
inductive RecvResult
  | done (d : Data)
  | error (e : IoError)
  | pending
  deriving DecidableEq

inductive RecvCompletion
  | done (d : Data)
  | aborted
  | error (e : IoError)
  deriving DecidableEq

def RecvCompletion.data : RecvCompletion → Data
  | .done d => d
  | _ => []

def recv_done (io : IoState) (buf d : Data) : IoTaskStatus × IoState :=
  if d = [] then (io.terminate_connection none).update_read_status buf (.ok 0)
  else io.update_read_status (buf ++ d) (.ok d.length)

structure ReadOperation where
  ctx : IoState
  buf : Option Data
  waiting : Bool
  closing : Bool
  /-- in the loop of `read`, which nothing else interrupts -/
  reading : Bool
  received : Data
  consumed : Data
  deriving DecidableEq

namespace ReadOperation

inductive Step
  /-- `poll_readiness`; `elapsed` is the timeout of the filters, `cancel` what `CancelIoEx` returned -/
  | poll (elapsed : Bool) (cancel : Option IoError)
  | recv (r : RecvResult)
  | completed (res : RecvCompletion)
  | shutdown (cancel : Option IoError)
  | stop (err : Option IoError)
  | decode (n : Nat)
  | with_read_buf (n : Nat)
  | poll_read
  | pause
  deriving DecidableEq

def new (cfg : IoConfig) (layers : Option Nat) : ReadOperation :=
  { ctx := .new cfg layers, buf := none, waiting := false, closing := false, reading := false, received := [], consumed := [] }

/-- `ReadOperation::pause`. `cancel` is an error other than `ERROR_NOT_FOUND` and `ERROR_OPERATION_ABORTED`; when there
is no buffer then, it panics. -/
def pause (c : ReadOperation) (closing : Bool) (cancel : Option IoError) : Option ReadOperation :=
  if c.waiting then
    match cancel with
    | some err => c.buf.map fun buf => { c with buf := none, ctx := (c.ctx.update_read_status buf (.error err)).2 }
    | none => some { c with closing := c.closing || closing }
  else some c

def read_round (c : ReadOperation) (r : RecvResult) : ReadOperation :=
  let (buf, io) := c.ctx.get_read_buf
  match r with
  | .done d =>
    let (status, ctx) := recv_done io buf d
    { c with ctx, reading := status = .Io && !d.isEmpty, received := c.received ++ d }
  | .error err => { c with ctx := (io.update_read_status buf (.error err)).2, reading := false }
  | .pending => { c with ctx := io, buf := some buf, waiting := true, reading := false }

def completed (c : ReadOperation) (res : RecvCompletion) : ReadOperation :=
  match c.buf with
  | some buf =>
    let (status, ctx) := match res with
      | .done d => recv_done c.ctx buf d
      | .aborted => c.ctx.update_read_status buf (.ok 0)
      | .error err => c.ctx.update_read_status buf (.error err)
    { c with ctx, buf := none, waiting := false, reading := status = .Io && !c.closing, received := c.received ++ res.data }
  -- the buffer has been given back already, and what arrives now is lost
  | none => { c with waiting := false, received := c.received ++ res.data }

def poll_readiness (c : ReadOperation) (elapsed : Bool) (cancel : Option IoError) : Option ReadOperation :=
  let (ready, ctx) := c.ctx.poll_read_ready id elapsed
  match ready with
  | some .Ready => some { c with ctx, reading := !c.waiting }
  | some _ => some { c with ctx }
  | none => pause { c with ctx } false cancel

def take (c : ReadOperation) (io : IoState) (n : Nat) : ReadOperation :=
  let (taken, ctx) := io.with_read_buf fun buf => (buf.take n, buf.drop n)
  { c with ctx, consumed := c.consumed ++ taken }

def step (c : ReadOperation) (i : Step) : Option ReadOperation :=
  match i, c.reading with
  | .recv r, true => some (c.read_round r)
  | .recv _, false => none
  | _, true => none
  | .poll elapsed cancel, false => c.poll_readiness elapsed cancel
  | .completed res, false => if c.waiting then some (c.completed res) else none
  | .shutdown cancel, false => c.pause true cancel
  | .stop err, false => some { c with ctx := c.ctx.terminate_connection err }
  | .decode n, false => some (c.take { c.ctx with flags.buf_r_ready := false } n)
  | .with_read_buf n, false => some (c.take c.ctx n)
  | .poll_read, false => some { c with ctx := c.ctx.poll_read.2 }
  | .pause, false => some { c with ctx := c.ctx.pause }

/-- A receive is left pending only when the consumer has looked at all there is, or has not looked since the last bytes
came; and nothing arrives after a cancellation that failed has taken the buffer away. -/
def Clear (c : ReadOperation) : Step → Prop
  | .recv .pending => c.ctx.buffer.read.getD [] = [] ∨ c.ctx.flags.buf_r_ready = true
  | .completed res => c.buf = none → res.data = []
  | _ => True

instance (c : ReadOperation) (i : Step) : Decidable (c.Clear i) := by
  unfold Clear
  split <;> infer_instance

variable {c c' : ReadOperation} {io io' : IoState} {buf d : Data}

/-! ## Input of a connection -/

/-- All input is in the consumer's buffer and the filters are not shutting down. -/
structure Shown (io : IoState) (input : Data) : Prop where
  up : io.buffer.Up
  pending : io.buffer.pending = []
  dst : io.buffer.dst = input
  filters : io.flags.is_shutting_down_filters = false

lemma get_read_buf_read (io : IoState) :
    io.get_read_buf.2.buffer.read.getD [] ++ io.get_read_buf.1 = io.buffer.read.getD [] := by
  unfold IoState.get_read_buf
  split
  · exact append_nil _
  · cases hread : io.buffer.read with
    | none | some => simp [get_read_buf, hread]

namespace Shown

variable {input : Data}

section

variable (h : Shown io input)
include h

lemma received : io.buffer.received = input := by
  rw [Stack.received, h.pending, append_nil, h.dst]

lemma filters_of (ho : io.OnlyReads io') : io'.flags.is_shutting_down_filters = false := by
  rw [Flags.is_shutting_down_filters, ho.io_stopped, ho.io_stopping, ho.io_stopping_filters]
  exact h.filters

lemma of_reads (hb : io'.buffer = io.buffer) (ho : io.OnlyReads io') : Shown io' input where
  up := hb ▸ h.up
  pending := hb ▸ h.pending
  dst := hb ▸ h.dst
  filters := h.filters_of ho

lemma terminate (err : Option IoError) : Shown (io.terminate_connection err) input := by
  obtain ⟨hb, -, hstop, -⟩ := io.terminate_connection_spec err
  refine ⟨hb ▸ h.up, hb ▸ h.pending, hb ▸ h.dst, ?_⟩
  simp [Flags.is_shutting_down_filters, hstop]

section

variable (hbuf : io.buffer.layers = none ∨ buf = [])
include hbuf

lemma set_read_buf : Shown { io with buffer := io.buffer.set_read_buf buf } (input ++ buf) := by
  have hrec : (io.buffer.set_read_buf buf).received = io.buffer.received ++ buf := received_set_read_buf
  have hpending : (io.buffer.set_read_buf buf).pending = [] := by
    rcases hbuf with hl | rfl
    · exact pending_base (layers_set_read_buf.trans hl)
    · have hread : (io.buffer.set_read_buf []).read.getD [] = io.buffer.read.getD [] := by
        rw [read_set_read_buf, append_nil]
      exact (same_content layers_set_read_buf hread).2.trans h.pending
  refine ⟨up_set_read_buf h.up, hpending, ?_, h.filters⟩
  rw [h.received, Stack.received, hpending, append_nil] at hrec
  exact hrec

lemma update_error (e : IoError) :
    Shown (io.update_read_status buf (.error e)).2 (input ++ buf) := (h.set_read_buf hbuf).terminate (some e)

lemma update_none : Shown (io.update_read_status buf (.ok 0)).2 (input ++ buf) := h.set_read_buf hbuf

end

lemma update_some (hd : d ≠ []) : Shown (io.update_read_status (buf ++ d) (.ok d.length)).2 (input ++ (buf ++ d)) := by
  have hn : d.length ≠ 0 := fun hz => hd (eq_nil_of_length_eq_zero hz)
  obtain ⟨hrec, hup, ho, -, hpending, -⟩ := io.update_read_status_spec (buf ++ d) d.length h.up rfl
  refine ⟨hup, hpending hn, ?_, h.filters_of ho⟩
  rwa [h.received, Stack.received, hpending hn, append_nil] at hrec

lemma recv_done (hbuf : io.buffer.layers = none ∨ buf = []) : Shown (recv_done io buf d).2 (input ++ (buf ++ d)) := by
  unfold Iocp.recv_done
  split
  next hd =>
    rw [hd, append_nil]
    have hb := (io.terminate_connection_spec none).1
    exact (h.terminate none).update_none (hb ▸ hbuf)
  next hd => exact h.update_some hd

lemma get_read_buf :
    (io.get_read_buf.2.buffer.layers = none ∨ io.get_read_buf.1 = []) ∧
      ∃ rest, Shown io.get_read_buf.2 rest ∧ rest ++ io.get_read_buf.1 = input := by
  obtain ⟨hrec, hup, -, buffer, hio, hl⟩ := io.get_read_buf_spec
  have hlayers : io.get_read_buf.2.buffer.layers = io.buffer.layers := by rw [hio, ← hl]
  have hfilters : io.get_read_buf.2.flags.is_shutting_down_filters = false := by rw [hio]; exact h.filters
  -- what is left is the input without the buffer, once it is known that no layer holds any of it
  have hrest : io.get_read_buf.2.buffer.pending = [] →
      ∃ rest, Shown io.get_read_buf.2 rest ∧ rest ++ io.get_read_buf.1 = input := by
    intro hp
    refine ⟨_, ⟨hup h.up, hp, rfl, hfilters⟩, ?_⟩
    rw [h.received, Stack.received, hp, append_nil] at hrec
    exact hrec.symm
  cases hlay : io.buffer.layers with
  | none => exact ⟨.inl (hlayers.trans hlay), hrest (pending_base (hlayers.trans hlay))⟩
  | some l =>
    have hread : io.buffer.read.getD [] = [] := by
      have hp := h.pending
      rw [Stack.pending, hlay] at hp
      exact (append_eq_nil_iff.1 hp).2
    obtain ⟨hleft, hbuf⟩ := append_eq_nil_iff.1 ((get_read_buf_read io).trans hread)
    exact ⟨.inr hbuf, hrest ((same_content hlayers (hleft.trans hread.symm)).2.trans h.pending)⟩

lemma with_read_buf (n : Nat) :
    (io.with_read_buf fun buf => (buf.take n, buf.drop n)).1 = input.take n ∧
      Shown (io.with_read_buf fun buf => (buf.take n, buf.drop n)).2 (input.drop n) := by
  obtain ⟨htaken, hdst, hpending, ho, hup, -⟩ := io.with_read_buf_spec fun buf => (buf.take n, buf.drop n)
  rw [h.dst] at htaken hdst
  exact ⟨htaken, hup h.up, hpending.trans h.pending, hdst, h.filters_of ho⟩

lemma poll_read_ready (elapsed : Bool) : Shown (io.poll_read_ready id elapsed).2 input := by
  have hfilters : io.shutdown_filters id elapsed = io := by
    unfold IoState.shutdown_filters
    rw [h.filters]
    rfl
  have hreg : Shown { io with read_task := io.read_task.register } input := h.of_reads rfl { IoState.OnlyReads.refl _ with }
  unfold IoState.poll_read_ready IoState.base_poll_read_ready
  rw [hfilters]
  dsimp only
  split
  · exact h
  · split
    · exact hreg
    · split <;> exact hreg

end

end Shown

/-! ## Input of the driver -/

/-- The consumer sees all that has been received and not consumed, and a pending receive holds none of it. -/
structure Good (c : ReadOperation) : Prop where
  shown : ∃ input, Shown c.ctx input ∧ c.consumed ++ input = c.received
  buf : ∀ b ∈ c.buf, b = []

namespace Good

lemma new (cfg : IoConfig) (layers : Option Nat) : (new cfg layers).Good := by
  obtain ⟨hdst, hpending, hup⟩ := new_input layers
  exact ⟨⟨[], ⟨hup, hpending, hdst, rfl⟩, rfl⟩, nofun⟩

section

variable (h : c.Good)
include h

lemma of_ctx (hio : ∀ input, Shown c.ctx input → Shown io input) {waiting closing reading : Bool} :
    Good { c with ctx := io, waiting, closing, reading } := by
  obtain ⟨input, hs, hbytes⟩ := h.shown
  exact ⟨⟨input, hio input hs, hbytes⟩, h.buf⟩

variable {cancel : Option IoError}

lemma pause {closing : Bool} (hp : c.pause closing cancel = some c') : c'.Good := by
  unfold ReadOperation.pause at hp
  split at hp
  · split at hp
    next err =>
      obtain ⟨buf, hbuf, rfl⟩ := of_map hp
      obtain ⟨input, hs, hbytes⟩ := h.shown
      have hs' := hs.update_error (.inr (h.buf buf hbuf)) err
      rw [h.buf buf hbuf, append_nil] at hs'
      refine ⟨⟨input, ?_, hbytes⟩, nofun⟩
      rw [h.buf buf hbuf]
      exact hs'
    · cases hp
      exact h.of_ctx fun _ => id
  · cases hp
    exact h

lemma read_round {r : RecvResult} (hclear : c.Clear (.recv r)) : (c.read_round r).Good := by
  obtain ⟨input, hs, hbytes⟩ := h.shown
  obtain ⟨hbuf, rest, hrest, hinput⟩ := hs.get_read_buf
  cases r with
  | done d =>
    have hsum : c.consumed ++ (rest ++ (c.ctx.get_read_buf.1 ++ d)) = c.received ++ d := by
      rw [← append_assoc rest, hinput, ← hbytes, append_assoc]
    exact ⟨⟨_, hrest.recv_done hbuf, hsum⟩, h.buf⟩
  | error e =>
    refine ⟨⟨_, hrest.update_error hbuf e, ?_⟩, h.buf⟩
    rw [hinput]
    exact hbytes
  | pending =>
    have hempty : c.ctx.get_read_buf.1 = [] := by
      rcases hclear with hread | hready
      · exact (append_eq_nil_iff.1 ((get_read_buf_read c.ctx).trans hread)).2
      · rw [IoState.get_read_buf, if_pos hready]
    rw [hempty, append_nil] at hinput
    refine ⟨⟨rest, hrest, hinput ▸ hbytes⟩, ?_⟩
    intro b hb
    cases hb
    exact hempty

lemma completed {res : RecvCompletion} (hclear : c.Clear (.completed res)) : (c.completed res).Good := by
  obtain ⟨input, hs, hbytes⟩ := h.shown
  unfold ReadOperation.completed
  split
  next buf hb =>
    have hempty := h.buf buf hb
    refine ⟨⟨input ++ (buf ++ res.data), ?_, ?_⟩, nofun⟩
    · cases res with
      | done d => exact hs.recv_done (.inr hempty)
      | aborted =>
        change Shown _ (input ++ (buf ++ []))
        rw [append_nil buf]
        exact hs.update_none (.inr hempty)
      | error e =>
        change Shown _ (input ++ (buf ++ []))
        rw [append_nil buf]
        exact hs.update_error (.inr hempty) e
    · rw [hempty, nil_append, ← append_assoc, hbytes]
  next hb =>
    refine ⟨⟨input, hs, ?_⟩, h.buf⟩
    rw [hclear hb, append_nil]
    exact hbytes

lemma poll_readiness {elapsed : Bool} (hp : c.poll_readiness elapsed cancel = some c') : c'.Good := by
  have hpoll : ∀ {waiting closing reading : Bool},
      Good { c with ctx := (c.ctx.poll_read_ready id elapsed).2, waiting, closing, reading } :=
    h.of_ctx fun _ hs => hs.poll_read_ready elapsed
  unfold ReadOperation.poll_readiness at hp
  dsimp only at hp
  split at hp
  · cases hp
    exact hpoll
  · cases hp
    exact hpoll
  · exact hpoll.pause hp

lemma take (hio : ∀ input, Shown c.ctx input → Shown io input) (n : Nat) : (c.take io n).Good := by
  obtain ⟨input, hs, hbytes⟩ := h.shown
  obtain ⟨htaken, hleft⟩ := (hio input hs).with_read_buf n
  have hsum : c.consumed ++ (io.with_read_buf fun buf => (buf.take n, buf.drop n)).1 ++ input.drop n = c.received := by
    rw [htaken, append_assoc, take_append_drop]
    exact hbytes
  exact ⟨⟨_, hleft, hsum⟩, h.buf⟩

end

end Good

lemma step_good (h : c.Good) {i : Step} (hclear : c.Clear i) (hstep : c.step i = some c') : c'.Good := by
  unfold step at hstep
  split at hstep
  · cases hstep
    exact h.read_round hclear
  · cases hstep
  · cases hstep
  · exact h.poll_readiness hstep
  · obtain ⟨-, rfl⟩ := Lib.of_ite hstep
    exact h.completed hclear
  · exact h.pause hstep
  · cases hstep
    exact h.of_ctx fun _ hs => hs.terminate _
  · cases hstep
    have hflags : ∀ input, Shown c.ctx input →
        Shown { c.ctx with flags.buf_r_ready := false } input :=
      fun _ hs => hs.of_reads rfl { IoState.OnlyReads.refl _ with }
    exact h.take hflags _
  · cases hstep
    exact h.take (fun _ => id) _
  · cases hstep
    obtain ⟨hb, ho, -⟩ := c.ctx.poll_read_spec
    exact h.of_ctx fun _ hs => hs.of_reads hb ho
  · cases hstep
    obtain ⟨hb, ho, -⟩ := c.ctx.pause_spec
    exact h.of_ctx fun _ hs => hs.of_reads hb ho

/-- What has been received and not consumed is in the consumer's buffer, in order, and a pending receive holds nothing. -/
theorem input_visible {cfg : IoConfig} {layers : Option Nat} (h : Reach step Clear (new cfg layers) c) :
    c.consumed ++ c.ctx.buffer.dst = c.received ∧ c.buf.getD [] = [] := by
  obtain ⟨⟨input, hs, hbytes⟩, hbuf⟩ := h.inv Good (Good.new cfg layers) fun _ _ _ hg hok hst => step_good hg hok hst
  refine ⟨hs.dst.symm ▸ hbytes, ?_⟩
  cases hb : c.buf with
  | none => rfl
  | some b => exact hbuf b hb

/-- A receive is left pending behind bytes the consumer has not been shown yet. -/
theorem input_visible_pending :
    ∃ c, Reach step Clear (new ⟨4, 8, 4, 0⟩ none) c ∧ c.waiting = true ∧ c.ctx.buffer.dst = [2, 3] ∧
      (c.consumed ++ c.ctx.buffer.dst = c.received ∧ c.buf.getD [] = []) := by
  have hreach : Reach step Clear (new ⟨4, 8, 4, 0⟩ none) _ := .of_steps
      [.poll false none, .recv .pending, .completed (.done [1, 2]), .recv .pending, .with_read_buf 1, .completed (.done [3]),
        .recv .pending] rfl
  refine ⟨_, hreach, rfl, rfl, input_visible hreach⟩

/-- The consumer leaves one of two bytes in its buffer, and the next receive is left pending with it. -/
theorem input_hidden :
    ∃ c, Reach step (fun _ _ => True) (new ⟨2, 8, 4, 0⟩ none) c ∧ c.received = [1, 2] ∧ c.consumed = [1] ∧
      c.ctx.buffer.dst = [] ∧ c.buf = some [2] := by
  have hreach : Reach step (fun _ _ => True) (new ⟨2, 8, 4, 0⟩ none) _ := .of_steps
      [.poll false none, .recv (.done [1, 2]), .decode 1, .poll false none, .recv .pending] rfl
  exact ⟨_, hreach, rfl, rfl, rfl, rfl⟩

end ReadOperation

end Geario.Iocp
