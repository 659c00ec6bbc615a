import Geario.Io.Pages
import Geario.Io.Write
/-!
# Output on its way through a connection

For drivers whose `Handle::write` does nothing. `output` is all the application
has written that a driver has not taken: what is in the driver's buffer and what
the layers have not passed on. `Flow` is the invariant of the buffers that makes
`output` the thing to look at, and `Keeps` says of a call that it neither adds
nor takes output.
-/

open List Option

namespace Geario.Io

open Stack

namespace Stack

variable {s : Stack}

/-- What the layers have not passed on, in the order it was written. -/
def upper (s : Stack) : Data :=
  match s.layers with
  | none => []
  | some l => l.write_mid.foldl (fun src mid => mid ++ src) l.write_src

def output (s : Stack) : Data := s.write ++ s.upper

/-- Data does not stay between layers, nor above layers that are shut down. -/
structure Passing (s : Stack) : Prop where
  mid : ∀ l ∈ s.layers, ∀ mid ∈ l.write_mid, mid = []
  down : ∀ l ∈ s.layers, l.down = true → l.write_src = []

lemma foldl_empty {mid : List Data} (h : ∀ d ∈ mid, d = []) (src : Data) :
    mid.foldl (fun src mid => mid ++ src) src = src := by
  induction mid generalizing src with
  | nil => rfl
  | cons d mid ih =>
    rw [foldl_cons, h d mem_cons_self, nil_append]
    exact ih (fun d hd => h d (mem_cons_of_mem _ hd)) src

lemma upper_some {l : Layers} (h : s.Passing) (hl : s.layers = some l) : s.upper = l.write_src := by
  rw [upper, hl]
  exact foldl_empty (h.mid l hl) l.write_src

lemma write_buf_size_eq (h : s.Passing) : s.write_buf_size = s.output.length := by
  unfold write_buf_size output
  split
  next hl => rw [upper, hl, append_nil]
  next l hl => rw [upper_some h hl, length_append, Nat.add_comm]

lemma passing_new (layers : Option Nat) : (new layers).Passing ∧ (new layers).output = [] := by
  have hp : (new layers).Passing := by
    constructor
    · intro l hl mid hm
      obtain ⟨n, -, rfl⟩ := map_eq_some_iff.1 hl
      exact eq_of_mem_replicate hm
    · intro l hl hd
      obtain ⟨n, -, rfl⟩ := map_eq_some_iff.1 hl
      rfl
  refine ⟨hp, eq_nil_of_length_eq_zero ?_⟩
  rw [← write_buf_size_eq hp]
  cases layers <;> rfl

lemma passing_of_layers {l : Layers} {write : Data} (hm : ∀ mid ∈ l.write_mid, mid = [])
    (hd : l.down → l.write_src = []) : Passing { s with write, layers := some l } := by
  constructor
  · intro l' hl'
    cases hl'
    exact hm
  · intro l' hl'
    cases hl'
    exact hd

section

variable (h : s.Passing)
include h

lemma passing_write (write : Data) : Passing { s with write } := ⟨h.mid, h.down⟩

lemma output_append_write_src (hup : s.Up) (d : Data) :
    (s.append_write_src d).output = s.output ++ d ∧ (s.append_write_src d).Passing := by
  unfold append_write_src
  split
  next hl =>
    refine ⟨?_, passing_write h _⟩
    simp only [output, upper, hl, append_nil]
  next l hl =>
    have hp : Passing { s with layers := some { l with write_src := l.write_src ++ d } } := by
      refine passing_of_layers (h.mid l hl) fun hd => ?_
      rw [hup l hl] at hd
      cases hd
    refine ⟨?_, hp⟩
    rw [output, upper_some hp rfl, output, upper_some h hl, append_assoc]

lemma output_push_write : s.push_write.output = s.output ∧ s.push_write.Passing ∧ s.push_write.upper = [] := by
  unfold push_write
  split
  next hl => exact ⟨rfl, h, by rw [upper, hl]⟩
  next l hl =>
    split
    next hd => exact ⟨rfl, h, (upper_some h hl).trans (h.down l hl hd)⟩
    · have hp : Passing { s with
          write := s.write ++ l.write_mid.foldl (fun src mid => mid ++ src) l.write_src
          layers := some { l with write_src := [], write_mid := l.write_mid.map fun _ => [] } } := by
        refine passing_of_layers (fun mid hm => ?_) fun _ => rfl
        obtain ⟨-, -, rfl⟩ := mem_map.1 hm
        rfl
      refine ⟨?_, hp, upper_some hp rfl⟩
      rw [output, upper_some hp rfl, append_nil, output, upper, hl]

lemma output_process_write_buf :
    s.process_write_buf.output = s.output ∧ s.process_write_buf.Passing ∧ s.process_write_buf.upper = [] := by
  unfold process_write_buf
  split
  next hl => exact ⟨rfl, h, by rw [upper, hl]⟩
  next l hl =>
    split
    next hsrc => exact ⟨rfl, h, (upper_some h hl).trans hsrc⟩
    · exact output_push_write h

lemma output_process_shutdown : s.process_shutdown.output = s.output ∧ s.process_shutdown.Passing := by
  obtain ⟨ho, hp, -⟩ := output_process_write_buf h
  obtain ⟨ho', hp', hu'⟩ := output_push_write hp
  have hp'' : s.process_shutdown.Passing := by
    constructor
    · intro l hl mid hm
      obtain ⟨l', -, rfl⟩ := map_eq_some_iff.1 hl
      obtain ⟨-, -, rfl⟩ := mem_map.1 hm
      rfl
    · intro l hl _
      obtain ⟨l', -, rfl⟩ := map_eq_some_iff.1 hl
      rfl
  refine ⟨?_, hp''⟩
  have hupper : s.process_shutdown.upper = [] := by
    cases hl : s.process_shutdown.layers with
    | none => rw [upper, hl]
    | some l =>
      obtain ⟨l', -, rfl⟩ := map_eq_some_iff.1 hl
      exact upper_some hp'' hl
  have hwrite : s.process_shutdown.write = s.process_write_buf.push_write.write := rfl
  rw [output, hupper, hwrite, ← ho, ← ho', output, hu']

end

end Stack

namespace IoState

variable {s s' s'' : IoState}

structure Flow (s : IoState) : Prop where
  passing : s.buffer.Passing
  /-- layers are shut down only when nothing more can be written -/
  up : s.flags.is_stopping_any = false → s.buffer.Up

lemma Flow.new (cfg : IoConfig) (layers : Option Nat) : (IoState.new cfg layers).Flow :=
  ⟨(passing_new layers).1, fun _ => (new_input layers).2.2⟩

lemma Flow.write_buf_size_eq_zero (h : s.Flow) : s.buffer.write_buf_size = 0 ↔ s.buffer.output = [] := by
  rw [write_buf_size_eq h.passing, length_eq_zero_iff]

/-- What there is to write stays, and a connection that is closing goes on closing. -/
structure Keeps (s s' : IoState) : Prop where
  flow : s'.Flow
  output : s'.buffer.output = s.buffer.output
  stopping : s.flags.is_stopping_any = true → s'.flags.is_stopping_any = true

lemma Keeps.trans (h : Keeps s s') (h' : Keeps s' s'') : Keeps s s'' :=
  ⟨h'.flow, h'.output.trans h.output, fun hs => h'.stopping (h.stopping hs)⟩

lemma Flow.keeps_of_buffer (h : s.Flow) (hb : s'.buffer = s.buffer)
    (hs : s.flags.is_stopping_any → s'.flags.is_stopping_any) : Keeps s s' := by
  refine ⟨⟨hb ▸ h.passing, fun hany => ?_⟩, congrArg output hb, hs⟩
  rw [hb]
  apply h.up
  by_contra hopen
  rw [Bool.not_eq_false] at hopen
  cases hany.symm.trans (hs hopen)

/-! ## What does not touch the buffers -/

section

variable (s : IoState)

lemma buffer_call_write : (s.call_write id).2.buffer = s.buffer := by
  unfold call_write
  split <;> rfl

lemma buffer_start_write (size : Nat) (force : Bool) : (s.start_write id size force).buffer = s.buffer := by
  have hcall := buffer_call_write s
  unfold start_write
  split
  · split
    all_goals
      rename_i h
      rw [h] at hcall
      exact hcall
  · rfl

lemma buffer_consolidate_write_state (force : Bool) : (s.consolidate_write_state id force).buffer = s.buffer := by
  have hback : ∀ (t : IoState) (size : Nat), (t.wr_backpressure size).buffer = t.buffer := by
    intro t size
    unfold wr_backpressure
    split <;> rfl
  unfold consolidate_write_state
  rw [hback]
  split
  · exact buffer_start_write s _ force
  · rfl

lemma buffer_ops_send_buf : (s.ops_send_buf id).buffer = s.buffer := by
  have hcall := buffer_call_write { s with flags.wr_send_op := false }
  unfold ops_send_buf
  split
  · dsimp only
    split
    · split
      all_goals
        rename_i h
        rw [h] at hcall
        exact hcall
    · rfl
  · rfl

lemma buffer_start_shutdown : s.start_shutdown.buffer = s.buffer := by
  unfold start_shutdown
  split <;> rfl

lemma buffer_poll_write_ready : s.poll_write_ready.2.buffer = s.buffer := by
  unfold poll_write_ready
  split
  · rfl
  · dsimp only
    split
    · rfl
    · split <;> rfl

lemma buffer_update_write_status (written : Bool) : (s.update_write_status (.ok written)).2.buffer = s.buffer := by
  have hflushed : ∀ len, (s.wake_flushed len).buffer = s.buffer := by
    intro len
    unfold wake_flushed
    split <;> split <;> rfl
  have hwritten : ∀ t : IoState, (t.wake_written written).buffer = t.buffer := by
    intro t
    unfold wake_written
    split <;> rfl
  have hstatus : ∀ (t : IoState) (len : Nat), (t.write_status len).2.buffer = t.buffer := by
    intro t len
    unfold write_status
    split
    · rfl
    · split
      · dsimp only
        split <;> rfl
      · rfl
  rw [update_write_status, hstatus, hwritten, hflushed]

end

lemma stopping_terminate (err : Option IoError) : (s.terminate_connection err).flags.is_stopping_any := by
  obtain ⟨-, -, hs, -⟩ := s.terminate_connection_spec err
  rw [Flags.is_stopping_any, hs]
  rfl

namespace Flow

/-! ## What the application calls -/

lemma write {d : Data} (h : s.Flow) (hst : s.write id d = some s') :
    s'.Flow ∧ s'.buffer.output = s.buffer.output ++ d ∧ s.flags.is_stopping_any = false := by
  obtain ⟨hopen, hst⟩ := ite_none_left_eq_some.1 hst
  rw [Bool.not_eq_true] at hopen
  cases hst
  obtain ⟨ho, hp⟩ := output_append_write_src h.passing (h.up hopen) d
  have hpre : Flow { s with buffer := s.buffer.append_write_src d } :=
    ⟨hp, fun _ => (sameInput_append_write_src s.buffer d).up (h.up hopen)⟩
  have hkeeps := hpre.keeps_of_buffer (buffer_consolidate_write_state _ false)
    (onlyWrites_consolidate_write_state OnlyWrites.refl _ false).stopping
  exact ⟨hkeeps.flow, hkeeps.output.trans ho, hopen⟩

lemma ops_send_buf (h : s.Flow) : Keeps s (s.ops_send_buf id) :=
  h.keeps_of_buffer (buffer_ops_send_buf s) (onlyWrites_ops_send_buf OnlyWrites.refl s).stopping

lemma start_shutdown (h : s.Flow) : Keeps s s.start_shutdown := by
  refine h.keeps_of_buffer (buffer_start_shutdown s) fun hs => ?_
  unfold IoState.start_shutdown
  rw [if_pos hs]
  exact hs

lemma poll_flush (h : s.Flow) (full : Bool) : Keeps s (s.poll_flush id full).2 := by
  obtain ⟨ho, hp, -⟩ := output_push_write h.passing
  have hpush : Keeps s { s with buffer := s.buffer.push_write } :=
    ⟨⟨hp, fun hany => (sameInput_push_write s.buffer).up (h.up hany)⟩, ho, id⟩
  have hkeeps := hpush.trans (hpush.flow.keeps_of_buffer (buffer_consolidate_write_state _ false)
    (onlyWrites_consolidate_write_state OnlyWrites.refl _ false).stopping)
  unfold IoState.poll_flush IoState.flush_rest
  dsimp only
  -- every branch sets flags or registers a waker
  split
  · split
    · exact hkeeps
    · split
      · exact hkeeps.trans (hkeeps.flow.keeps_of_buffer rfl id)
      · split
        · exact hkeeps.trans (hkeeps.flow.keeps_of_buffer rfl id)
        · split <;> exact hkeeps.trans (hkeeps.flow.keeps_of_buffer rfl id)
  · split <;> exact hkeeps.trans (hkeeps.flow.keeps_of_buffer rfl id)

/-! ## What a driver calls -/

section

variable (h : s.Flow)
include h

lemma terminate (err : Option IoError) : Keeps s (s.terminate_connection err) :=
  h.keeps_of_buffer (s.terminate_connection_spec err).1 fun _ => stopping_terminate err

lemma update_write_status (status : Except IoError Bool) : Keeps s (s.update_write_status status).2 := by
  cases status with
  | ok written => exact h.keeps_of_buffer (buffer_update_write_status s written) (onlyWrites_update_write_status s written).stopping
  | error e => exact h.terminate (some e)

lemma process_shutdown (hs : s.flags.is_shutting_down_filters) : Keeps s (s.process_shutdown id) := by
  obtain ⟨ho, hp⟩ := output_process_shutdown h.passing
  have hany : s.flags.is_stopping_any := by
    rw [Flags.is_shutting_down_filters, Bool.and_eq_true] at hs
    rw [Flags.is_stopping_any, hs.1, Bool.or_true]
  have hpre : Keeps s { s with buffer := s.buffer.process_shutdown } :=
    ⟨⟨hp, fun h0 => absurd (hany.symm.trans h0) (by decide)⟩, ho, id⟩
  exact hpre.trans (hpre.flow.keeps_of_buffer (buffer_consolidate_write_state _ true)
    (onlyWrites_consolidate_write_state OnlyWrites.refl _ true).stopping)

lemma shutdown_filters (elapsed : Bool) : Keeps s (s.shutdown_filters id elapsed) := by
  unfold IoState.shutdown_filters
  split
  next hs =>
    have hkeeps := h.process_shutdown hs
    dsimp only
    split
    · refine hkeeps.trans (hkeeps.flow.keeps_of_buffer rfl fun _ => ?_)
      simp [filters_stopped, Flags.is_stopping_any]
    · exact hkeeps
  · exact h.keeps_of_buffer rfl id

lemma poll_read_ready (elapsed : Bool) : Keeps s (s.poll_read_ready id elapsed).2 := by
  have hkeeps := h.shutdown_filters elapsed
  unfold IoState.poll_read_ready IoState.base_poll_read_ready
  dsimp only
  split
  · exact hkeeps
  · split
    · exact hkeeps.trans (hkeeps.flow.keeps_of_buffer rfl id)
    · split <;> exact hkeeps.trans (hkeeps.flow.keeps_of_buffer rfl id)

lemma poll_write_ready : Keeps s s.poll_write_ready.2 := by
  refine h.keeps_of_buffer (buffer_poll_write_ready s) fun hs => ?_
  unfold IoState.poll_write_ready
  split
  · exact hs
  · dsimp only
    split
    · exact hs
    · split <;> exact hs

lemma write_processed : s.processed.buffer.write = s.buffer.output := by
  obtain ⟨hout, -, hupper⟩ := output_process_write_buf h.passing
  rw [← hout, output, hupper, append_nil]
  rfl

lemma with_write (write : Data) :
    (s.processed.with_write write).Flow ∧ (s.processed.with_write write).buffer.output = write := by
  obtain ⟨-, hpass, hupper⟩ := output_process_write_buf h.passing
  have hout : (s.processed.with_write write).buffer.output = write ++ [] := congrArg (write ++ ·) hupper
  refine ⟨⟨passing_write hpass write, fun hany => ?_⟩, ?_⟩
  · exact ((sameInput_process_write_buf s.buffer).trans (sameInput_write _ write)).up (h.up hany)
  · rw [hout, append_nil]

end

end Flow

lemma with_write_terminate (s : IoState) (err : Option IoError) (write : Data) :
    (s.terminate_connection err).with_write write = (s.with_write write).terminate_connection err := by
  unfold with_write terminate_connection
  split <;> rfl

lemma processed_terminate (s : IoState) (err : Option IoError) :
    (s.terminate_connection err).processed = s.processed.terminate_connection err := by
  unfold processed terminate_connection
  split <;> rfl

end IoState

end Geario.Io
