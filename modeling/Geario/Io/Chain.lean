import Geario.Io.Write
/-!
# Filter chains

The layers of `State` copy. Here a layer does what it likes with the two buffers
it stands between: a `Call` is what it does in one call, the closures it runs on
the buffers and what it returns, so that a list of calls, one for each layer from
the application on, is one pass of any chain. A layer that has been shut down is
one that does nothing. The functions of `IoContext`, `IoRef` and `Io` that run
the chain get the calls it makes as arguments.
-/

namespace Geario.Io

structure Buffer where
  read : Option Data
  write : Data
  deriving DecidableEq

inductive Touch
  | read_buffers (f : Option Data → Data → Option Data × Data)
  | write_buffers (f : Data → Data → Data × Data)

structure Call where
  touches : List Touch
  result : Except IoError Unit

/-- What a layer does when it is first asked to shut down, with the calls of the layers behind it when it is ready. -/
structure ShutdownCall where
  touches : List Touch
  result : Except IoError Bool
  write : List Call

structure FilterBuf where
  curr : Buffer
  next : Buffer
  wants_write : Bool
  deriving DecidableEq

namespace FilterBuf

def with_read_buffers (b : FilterBuf) (f : Option Data → Data → Option Data × Data) : FilterBuf :=
  let r := f b.next.read (b.curr.read.getD [])
  { b with
    curr.read := Stack.put_back r.2
    next.read := r.1.bind Stack.put_back }

def with_write_buffers (b : FilterBuf) (f : Data → Data → Data × Data) : FilterBuf :=
  let r := f b.curr.write b.next.write
  { curr := { b.curr with write := r.1 }
    next := { b.next with write := r.2 }
    wants_write := b.wants_write || b.next.write.length < r.2.length }

def touch (b : FilterBuf) : Touch → FilterBuf
  | .read_buffers f => b.with_read_buffers f
  | .write_buffers f => b.with_write_buffers f

def touch_all (b : FilterBuf) (touches : List Touch) : FilterBuf := touches.foldl touch b

lemma touch_all_inv {touches : List Touch} (I : FilterBuf → Prop) (hI : ∀ b, ∀ t ∈ touches, I b → I (b.touch t))
    {b : FilterBuf} (h : I b) : I (b.touch_all touches) := by
  induction touches generalizing b with
  | nil => exact h
  | cons t touches ih => exact ih (fun b t' ht' => hI b t' (List.mem_cons_of_mem t ht')) (hI b t List.mem_cons_self h)

end FilterBuf

/-- The buffers of a chain after a pass, from the application's on, and how the pass ended. -/
structure FilterCtx where
  result : Except IoError Unit
  first : Buffer
  rest : List Buffer
  wants_write : Bool

namespace Chain

/-- `Filter::process_read_buf`: the layer next to the driver is the first. -/
def process_read_buf : List Call → Buffer → List Buffer → Bool → FilterCtx
  | c :: calls, curr, next :: rest, wants_write =>
    let r := process_read_buf calls next rest wants_write
    match r.result with
    | .error err => { r with result := .error err, first := curr, rest := r.first :: r.rest }
    | .ok () =>
      let b := FilterBuf.touch_all { curr, next := r.first, wants_write := r.wants_write } c.touches
      { result := c.result, first := b.curr, rest := b.next :: r.rest, wants_write := b.wants_write }
  | _, first, rest, wants_write => { result := .ok (), first, rest, wants_write }

/-- `Filter::process_write_buf`: the layer next to the application is the first. -/
def process_write_buf : List Call → Buffer → List Buffer → Bool → FilterCtx
  | c :: calls, curr, next :: rest, wants_write =>
    let b := FilterBuf.touch_all { curr, next, wants_write } c.touches
    match c.result with
    | .error err => { result := .error err, first := b.curr, rest := b.next :: rest, wants_write := b.wants_write }
    | .ok () =>
      let r := process_write_buf calls b.next rest b.wants_write
      { r with first := b.curr, rest := r.first :: r.rest }
  | _, first, rest, wants_write => { result := .ok (), first, rest, wants_write }

/-- `Filter::shutdown`, with whether it is ready: `none` stands for a layer that has been shut down before. A layer that
is ready passes on what it has, with the layers behind it, and what is left in its buffer is discarded. -/
def shutdown : List (Option ShutdownCall) → Buffer → List Buffer → Except IoError Bool × Buffer × List Buffer
  | none :: calls, curr, next :: rest =>
    let r := shutdown calls next rest
    (r.1, curr, r.2.1 :: r.2.2)
  | some c :: calls, curr, next :: rest =>
    let b := FilterBuf.touch_all { curr, next, wants_write := false } c.touches
    match c.result with
    | .error err => (.error err, b.curr, b.next :: rest)
    | .ok false => (.ok false, b.curr, b.next :: rest)
    | .ok true =>
      let w := process_write_buf c.write b.curr (b.next :: rest) b.wants_write
      match w.result, w.rest with
      | .ok (), next :: rest =>
        let r := shutdown calls next rest
        (r.1, { w.first with write := [] }, r.2.1 :: r.2.2)
      | result, rest => (result.map fun _ => true, w.first, rest)
  | _, first, rest => (.ok true, first, rest)

end Chain

namespace Stack

def first (s : Stack) : Buffer :=
  match s.layers with
  | none => ⟨s.read, s.write⟩
  | some l => ⟨l.read_dst, l.write_src⟩

def rest (s : Stack) : List Buffer :=
  match s.layers with
  | none => []
  | some l => (l.read_mid.zip l.write_mid).map (fun b => ⟨b.1, b.2⟩) ++ [⟨s.read, s.write⟩]

def of_buffers (first : Buffer) (rest : List Buffer) : Stack :=
  match rest.getLast? with
  | none => { read := first.read, write := first.write, layers := none }
  | some last =>
    { read := last.read, write := last.write
      layers := some {
        read_dst := first.read, read_mid := rest.dropLast.map (·.read)
        write_src := first.write, write_mid := rest.dropLast.map (·.write), down := false } }

def add_layer (s : Stack) : Stack := of_buffers ⟨none, []⟩ (s.first :: s.rest)

def set_write (s : Stack) (write : Data) : Stack := { s with write }

variable {s : Stack} {first : Buffer} {rest : List Buffer}

lemma read_dst_first (s : Stack) : s.read_dst = s.first.read := by
  cases hl : s.layers with
  | none | some => rw [read_dst, Stack.first, hl]

lemma read_dst_of_buffers : (of_buffers first rest).read_dst = first.read := by
  unfold of_buffers
  split <;> rfl

def size (first : Buffer) (rest : List Buffer) : Nat :=
  first.write.length + (rest.getLast?.map (·.write.length)).getD 0

lemma write_buf_size_first (s : Stack) : s.write_buf_size = size s.first s.rest := by
  cases hl : s.layers with
  | none =>
    rw [write_buf_size, size, Stack.first, Stack.rest, hl]
    rfl
  | some l =>
    rw [write_buf_size, size, Stack.first, Stack.rest, hl]
    rw [List.getLast?_append]
    rfl

lemma write_buf_size_of_buffers : (of_buffers first rest).write_buf_size = size first rest := by
  unfold of_buffers size
  split
  next h =>
    rw [h]
    rfl
  next last h =>
    rw [h]
    rfl

end Stack

namespace Chain

/-- `Stack::process_read_buf`; with whether a layer has written. -/
def read_pass (calls : List Call) (s : IoState) : Except IoError Bool × IoState :=
  let r := process_read_buf calls s.buffer.first s.buffer.rest false
  (r.result.map fun _ => r.wants_write, { s with buffer := .of_buffers r.first r.rest })

def process_write_buf_force (calls : List Call) (s : IoState) : Except IoError Unit × IoState :=
  let r := process_write_buf calls s.buffer.first s.buffer.rest true
  (r.result, { s with buffer := .of_buffers r.first r.rest })

def write_pass (calls : List Call) (s : IoState) : Except IoError Unit × IoState :=
  if s.buffer.first.write = [] then (.ok (), s) else process_write_buf_force calls s

def or_terminate {α : Type} : Except IoError α × IoState → IoState
  | (.ok _, s) => s
  | (.error err, s) => s.terminate_connection (some err)

/-! ## The driver -/

def with_write_buf (calls : List Call) (f : Data → Data) (s : IoState) : IoState :=
  let s := or_terminate (write_pass calls s)
  { s with buffer := s.buffer.set_write (f s.buffer.write) }

/-- One attempt of a driver to write: what it leaves in the buffer and what it reports. -/
structure Attempt where
  calls : List Call
  take : Data → Data
  status : Except IoError Bool

def attempt (w : Attempt) (s : IoState) : IoTaskStatus × IoState :=
  (with_write_buf w.calls w.take s).update_write_status w.status

def hnd_write : Option Attempt → IoState → IoState
  | none, s => s
  | some w, s => (attempt w s).2

def filter_wrote (w : Option Attempt) (calls : List Call) (s : IoState) : IoState :=
  match process_write_buf_force calls s with
  | (.error err, s) => s.terminate_connection (some err)
  | (.ok _, s) => s.consolidate_write_state (hnd_write w) false

def call_notify (s : IoState) : IoState := if s.handle then s.wake_read_task else s

/-- What the layers do with new input: their calls, whether readiness is to be looked at again, and what follows. -/
structure Input where
  read : List Call
  notify : Bool
  write : List Call
  hnd_write : Option Attempt

/-- What `update_read_status` does when there are new bytes; `orig` is the size of the application's buffer before. -/
def process_input (i : Input) (s : IoState) (orig : Nat) : Except IoError Unit × IoState :=
  match read_pass i.read s with
  | (.error err, s) => (.error err, s)
  | (.ok wants_write, s) =>
    let s := s.read_processed orig
    let s := if wants_write then filter_wrote i.hnd_write i.write s else s
    (.ok (), if i.notify then call_notify s else s)

def update_read_status (i : Input) (s : IoState) (buf : Data) (status : Except IoError Nat) : IoTaskStatus × IoState :=
  let orig := s.buffer.read_dst_size
  let s := { s with buffer := s.buffer.set_read_buf buf }
  match status with
  | .error err => (.Stop, s.terminate_connection (some err))
  | .ok nbytes =>
    if nbytes = 0 then (s.read_status, s)
    else
      match process_input i s orig with
      | (.error err, s) => (.Stop, s.terminate_connection (some err))
      | (.ok _, s) => (s.read_status, s)

def process_shutdown (write : List Call) (calls : List (Option ShutdownCall)) (s : IoState) : Except IoError Bool × IoState :=
  match write_pass write s with
  | (.error err, s) => (.error err, s)
  | (.ok _, s) =>
    let r := shutdown calls s.buffer.first s.buffer.rest
    (r.1, { s with buffer := .of_buffers r.2.1 r.2.2 })

/-- `IoContext::shutdown_filters`; `elapsed`: the timeout for the filters is over. -/
def shutdown_filters (write : List Call) (calls : List (Option ShutdownCall)) (hnd_write : IoState → IoState) (s : IoState)
    (elapsed : Bool) : IoState :=
  if s.flags.is_shutting_down_filters then
    match process_shutdown write calls s with
    | (.error err, s) => s.terminate_connection (some err)
    | (.ok ready, s) =>
      let s := s.consolidate_write_state hnd_write true
      if ready && s.shutdown_ready then s.filters_stopped
      -- a filter is unlikely to finish when nobody reads
      else if !ready && (s.flags.rd_paused || s.flags.is_read_ready_and_backpressure) then s.filters_stopped
      else if elapsed then s.filters_stopped
      else s
  else s

/-! ## The application -/

/-- `IoRef::with_write_buf`; `none` when the stream is closing. -/
def write (hnd_write : IoState → IoState) (s : IoState) (f : Data → Data) : Option IoState :=
  if s.flags.is_stopping_any then none
  else
    let first := { s.buffer.first with write := f s.buffer.first.write }
    some ({ s with buffer := .of_buffers first s.buffer.rest }.consolidate_write_state hnd_write false)

/-- `IoRef::with_buf`. Without layers the second buffer is one that nobody else looks at. -/
def with_buf (hnd_write : IoState → IoState) (s : IoState) (touches : List Touch) : IoState :=
  let buffer := match s.buffer.rest with
    | next :: rest =>
      let b := FilterBuf.touch_all { curr := s.buffer.first, next, wants_write := false } touches
      Stack.of_buffers b.curr (b.next :: rest)
    | [] =>
      let b := FilterBuf.touch_all { curr := s.buffer.first, next := ⟨none, []⟩, wants_write := false } touches
      Stack.of_buffers b.curr []
  { s with buffer }.consolidate_write_state hnd_write false

/-- `Io::poll_flush`: a filter that fails ends it at once, without stopping the connection. -/
def poll_flush (calls : List Call) (hnd_write : IoState → IoState) (s : IoState) (full : Bool) :
    Option (Except (Option IoError) Unit) × IoState :=
  match process_write_buf_force calls s with
  | (.error err, s) => (some (.error (some err)), s)
  | (.ok _, s) => s.flush_rest hnd_write full

/-- `Io::add_filter`: what the layers write here, nobody asks for. -/
def add_filter (write read : List Call) (s : IoState) : IoState :=
  let s := or_terminate (write_pass write s)
  or_terminate (read_pass read { s with buffer := s.buffer.add_layer })

/-- `Io::map_filter`; the new filter has the old one's buffers. -/
def map_filter (write : List Call) (s : IoState) : IoState := or_terminate (write_pass write s)

end Chain

namespace IoState

lemma wakes_call_notify (s : IoState) : Wakes s (Chain.call_notify s) := by
  unfold Chain.call_notify
  split
  · exact ⟨rfl, rfl, rfl, rfl, rfl, rfl, rfl, .inr rfl, .inl rfl, .inl rfl⟩
  · exact wakes_refl s

/-- A relation on connections that holds for whatever a chain does to the buffers, and for what follows from it. -/
structure CoversChain (R : IoState → IoState → Prop) : Prop extends Covers R where
  of_buffer : ∀ s buffer, R s { s with buffer }
  terminate : ∀ s err, R s (s.terminate_connection err)
  read_processed : ∀ s orig, R s (s.read_processed orig)

namespace CoversChain

variable {R : IoState → IoState → Prop} (hR : CoversChain R) {s : IoState}

include hR

lemma or_terminate {α : Type} {r : Except IoError α × IoState} (h : R s r.2) : R s (Chain.or_terminate r) := by
  obtain ⟨res, t⟩ := r
  cases res with
  | ok _ => exact h
  | error err => exact hR.trans h (hR.terminate t (some err))

lemma write_pass (calls : List Call) (s : IoState) : R s (Chain.write_pass calls s).2 := by
  unfold Chain.write_pass
  split
  · exact hR.refl s
  · exact hR.of_buffer s _

lemma attempt (w : Chain.Attempt) (s : IoState) : R s (Chain.attempt w s).2 := by
  have hbuf : R s (Chain.with_write_buf w.calls w.take s) :=
    hR.trans (hR.or_terminate (hR.write_pass w.calls s)) (hR.of_buffer _ _)
  unfold Chain.attempt
  cases w.status with
  | ok written => exact hR.trans hbuf (hR.update_write_status _ written)
  | error err => exact hR.trans hbuf (hR.terminate _ (some err))

section

variable (w : Option Chain.Attempt)

lemma hnd_write (s : IoState) : R s (Chain.hnd_write w s) := by
  cases w with
  | none => exact hR.refl s
  | some w => exact hR.attempt w s

lemma consolidate (s : IoState) (force : Bool) :
    R s (s.consolidate_write_state (Chain.hnd_write w) force) := hR.consolidate_write_state (hR.hnd_write w) s force

lemma filter_wrote (calls : List Call) (s : IoState) : R s (Chain.filter_wrote w calls s) := by
  unfold Chain.filter_wrote
  split
  next err t h =>
    have hbuf : R s t := (Prod.mk.inj h).2 ▸ hR.of_buffer s _
    exact hR.trans hbuf (hR.terminate t (some err))
  next t h =>
    have hbuf : R s t := (Prod.mk.inj h).2 ▸ hR.of_buffer s _
    exact hR.trans hbuf (hR.consolidate w t false)

end

lemma process_input (i : Chain.Input) (s : IoState) (orig : Nat) : R s (Chain.process_input i s orig).2 := by
  unfold Chain.process_input
  split
  next err t h => exact (Prod.mk.inj h).2 ▸ hR.of_buffer s _
  next wants t h =>
    have hbuf : R s t := (Prod.mk.inj h).2 ▸ hR.of_buffer s _
    have hprocessed := hR.trans hbuf (hR.read_processed t orig)
    have hwrote : R s (if wants then Chain.filter_wrote i.hnd_write i.write (t.read_processed orig)
        else t.read_processed orig) := by
      split
      · exact hR.trans hprocessed (hR.filter_wrote _ _ _)
      · exact hprocessed
    dsimp only
    split
    · exact hR.trans hwrote (hR.of_wakes (wakes_call_notify _))
    · exact hwrote

lemma update_read_status (i : Chain.Input) (s : IoState) (buf : Data) (status : Except IoError Nat) :
    R s (Chain.update_read_status i s buf status).2 := by
  have hbuf := hR.of_buffer s (s.buffer.set_read_buf buf)
  unfold Chain.update_read_status
  dsimp only
  split
  · exact hR.trans hbuf (hR.terminate _ _)
  · split
    · exact hbuf
    · have hinput := hR.process_input i { s with buffer := s.buffer.set_read_buf buf } s.buffer.read_dst_size
      split
      next err t h =>
        rw [h] at hinput
        exact hR.trans (hR.trans hbuf hinput) (hR.terminate t (some err))
      next t h =>
        rw [h] at hinput
        exact hR.trans hbuf hinput

lemma add_filter (write read : List Call) (s : IoState) : R s (Chain.add_filter write read s) := by
  have hwrite : R s (Chain.or_terminate (Chain.write_pass write s)) := hR.or_terminate (hR.write_pass write s)
  exact hR.or_terminate (hR.trans (hR.trans hwrite (hR.of_buffer _ _)) (hR.of_buffer _ _))

end CoversChain

end IoState

end Geario.Io
