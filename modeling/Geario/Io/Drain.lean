import Geario.Io.Flow
/-!
# When writing is paused

A driver takes pages out of the write buffer, is `busy` as long as it holds
some, and reports back through `update_write_status`, which looks only at the
length of the buffers. `Writer` is the invariant: a connection whose write task
is paused has no busy driver, and nothing to write unless a send is scheduled.
Every call keeps it as long as a driver that reports an empty buffer holds
nothing.
-/

namespace Geario.Io

namespace IoState

/-- `busy`: the driver holds bytes it has taken from the buffer. -/
structure Writer (s : IoState) (busy : Bool) : Prop extends Flow s where
  handle : s.flags.io_stopped = false → s.handle = true
  idle : s.flags.wr_paused = true → busy = false
  empty : s.flags.io_stopped = false → s.flags.wr_paused = true → s.flags.wr_send_op = false → s.buffer.output = []

variable {s s' : IoState} {busy : Bool}

lemma Writer.congr (h : s.Writer busy) (hf : Keeps s s') (hh : s'.handle = s.handle)
    (hs : s'.flags.io_stopped = s.flags.io_stopped) (hp : s'.flags.wr_paused = s.flags.wr_paused)
    (ho : s'.flags.wr_send_op = s.flags.wr_send_op) : s'.Writer busy where
  toFlow := hf.flow
  handle := by rw [hs, hh]; exact h.handle
  idle := by rw [hp]; exact h.idle
  empty := by rw [hs, hp, ho, hf.output]; exact h.empty

lemma Writer.congr_flags (h : s.Writer busy) (hb : s'.buffer = s.buffer) (hh : s'.handle = s.handle)
    (hs : s'.flags.io_stopped = s.flags.io_stopped)
    (ha : s.flags.is_stopping_any → s'.flags.is_stopping_any)
    (hp : s'.flags.wr_paused = s.flags.wr_paused) (ho : s'.flags.wr_send_op = s.flags.wr_send_op) : s'.Writer busy :=
  h.congr (h.keeps_of_buffer hb ha) hh hs hp ho

lemma Writer.new (cfg : IoConfig) (layers : Option Nat) : (IoState.new cfg layers).Writer false :=
  ⟨.new cfg layers, fun _ => rfl, fun _ => rfl, fun _ _ _ => (Stack.passing_new layers).2⟩

/-- What `consolidate_write_state` is given: there may be something to write and nobody knows. -/
structure Unsettled (s : IoState) (busy : Bool) : Prop extends Flow s where
  handle : s.flags.io_stopped = false → s.handle = true
  idle : s.flags.wr_paused = true → busy = false

lemma stopped_of_no_handle (h : s.flags.io_stopped = false → s.handle) (hh : s.handle = false) :
    s.flags.io_stopped := by
  by_contra hs
  cases hh.symm.trans (h (Bool.not_eq_true _ ▸ hs))

lemma call_write_id (hh : s.handle) :
    s.call_write id = (true, { s with flags.wr_paused := false }) := by
  obtain ⟨cfg, flags, error, read_task, write_task, dispatch_task, buffer, handle⟩ := s
  obtain rfl : handle = true := hh
  rfl

lemma call_write_none (hh : s.handle = false) : s.call_write id = (!s.flags.wr_paused, s) := by
  unfold call_write
  rw [hh]
  rfl

lemma Unsettled.start_write (h : s.Unsettled busy) (hp : s.flags.wr_paused) (size : Nat) (force : Bool) :
    (s.start_write id size force).Writer busy := by
  have hflow : (s.start_write id size force).Flow :=
    (h.keeps_of_buffer (buffer_start_write s size force) (onlyWrites_start_write OnlyWrites.refl s size force).stopping).flow
  unfold IoState.start_write at hflow ⊢
  split
  next hsize =>
    rw [if_pos hsize] at hflow
    cases hh : s.handle with
    | true =>
      rw [call_write_id hh] at hflow ⊢
      exact ⟨hflow, h.handle, nofun, nofun⟩
    | false =>
      have hstop := stopped_of_no_handle h.handle hh
      rw [call_write_none hh, hp] at hflow ⊢
      exact ⟨hflow, h.handle, h.idle, fun hs => nomatch hs.symm.trans hstop⟩
  next hsize =>
    rw [if_neg hsize] at hflow
    exact ⟨hflow, h.handle, h.idle, nofun⟩

lemma Unsettled.consolidate (h : s.Unsettled busy) (force : Bool) : (s.consolidate_write_state id force).Writer busy := by
  have hback : ∀ t : IoState, t.Writer busy → ∀ size, (t.wr_backpressure size).Writer busy := by
    intro t ht size
    unfold wr_backpressure
    split
    · exact ht.congr_flags rfl rfl rfl id rfl rfl
    · exact ht
  apply hback
  split
  next hsize => exact h.start_write hsize.2 s.buffer.write_buf_size force
  next hsize =>
    refine ⟨h.toFlow, h.handle, h.idle, fun _ hp _ => ?_⟩
    -- paused, so the buffers are empty
    rw [← h.write_buf_size_eq_zero]
    by_contra hne
    exact hsize ⟨Nat.pos_of_ne_zero hne, hp⟩

namespace Writer

section

variable (h : s.Writer busy)
include h

lemma write {d : Data} (hst : s.write id d = some s') : s'.Writer busy := by
  obtain ⟨hopen, hst⟩ := Option.ite_none_left_eq_some.1 hst
  rw [Bool.not_eq_true] at hopen
  cases hst
  obtain ⟨-, hp⟩ := Stack.output_append_write_src h.passing (h.up hopen) d
  have hpre : Unsettled { s with buffer := s.buffer.append_write_src d } busy :=
    ⟨⟨hp, fun _ => (Stack.sameInput_append_write_src s.buffer d).up (h.up hopen)⟩, h.handle, h.idle⟩
  exact hpre.consolidate false

lemma ops_send_buf : (s.ops_send_buf id).Writer busy := by
  have hflow := h.toFlow.ops_send_buf.flow
  unfold IoState.ops_send_buf at hflow ⊢
  split
  next hop =>
    rw [if_pos hop] at hflow
    dsimp only at hflow ⊢
    split
    next hp =>
      rw [if_pos hp] at hflow
      rcases Bool.eq_false_or_eq_true s.handle with hh | hh
      · rw [call_write_id (s := { s with flags.wr_send_op := false }) hh] at hflow ⊢
        exact ⟨hflow, h.handle, nofun, nofun⟩
      · have hstop := stopped_of_no_handle h.handle hh
        rw [call_write_none (s := { s with flags.wr_send_op := false }) hh] at hflow ⊢
        rw [hp] at hflow ⊢
        exact ⟨hflow, h.handle, fun _ => h.idle hp, fun hs => nomatch hs.symm.trans hstop⟩
    next hp =>
      rw [if_neg hp] at hflow
      exact ⟨hflow, h.handle, h.idle, fun _ hp' => absurd hp' hp⟩
  · exact h

lemma start_shutdown : s.start_shutdown.Writer busy := by
  have hkeeps := h.toFlow.start_shutdown
  unfold IoState.start_shutdown at hkeeps ⊢
  split
  · exact h
  next hany =>
    rw [if_neg hany] at hkeeps
    exact h.congr hkeeps rfl rfl rfl rfl

lemma terminate (err : Option IoError) : (s.terminate_connection err).Writer busy := by
  have hflow := (h.toFlow.terminate err).flow
  unfold terminate_connection at hflow ⊢
  split
  · exact h
  next hterm =>
    rw [if_neg hterm] at hflow
    exact ⟨hflow, nofun, h.idle, nofun⟩

lemma process_shutdown (hs : s.flags.is_shutting_down_filters) :
    (s.process_shutdown id).Writer busy ∧
      ((s.process_shutdown id).shutdown_ready → busy = false ∧ s.buffer.output = []) := by
  obtain ⟨-, hp⟩ := Stack.output_process_shutdown h.passing
  have hout := (h.toFlow.process_shutdown hs).output
  have hfilters : s.flags.io_stopping_filters ∧ s.flags.io_stopped = false := by
    unfold Flags.is_shutting_down_filters at hs
    simp only [Bool.and_eq_true, Bool.not_eq_true', Bool.or_eq_false_iff] at hs
    exact ⟨hs.1, hs.2.1⟩
  have hany : s.flags.is_stopping_any := by
    rw [Flags.is_stopping_any, hfilters.1, Bool.or_true]
  have hpre : Unsettled { s with buffer := s.buffer.process_shutdown } busy :=
    ⟨⟨hp, fun h0 => absurd (hany.symm.trans h0) (by decide)⟩, h.handle, h.idle⟩
  have hw : (s.process_shutdown id).Writer busy := hpre.consolidate true
  refine ⟨hw, fun hready => ?_⟩
  unfold shutdown_ready at hready
  simp only [Bool.and_eq_true, Bool.not_eq_true'] at hready
  have hstopped : (s.process_shutdown id).flags.io_stopped = false := by
    have hwrites : OnlyWrites _ (s.process_shutdown id) :=
      onlyWrites_consolidate_write_state OnlyWrites.refl { s with buffer := s.buffer.process_shutdown } true
    exact hwrites.io_stopped.trans hfilters.2
  exact ⟨hw.idle hready.1, hout.symm.trans (hw.empty hstopped hready.1 hready.2)⟩

lemma filters_stopped : s.filters_stopped.Writer busy :=
  h.congr_flags rfl rfl rfl (fun _ => by simp [IoState.filters_stopped, Flags.is_stopping_any]) rfl rfl

lemma shutdown_filters (elapsed : Bool) : (s.shutdown_filters id elapsed).Writer busy := by
  unfold IoState.shutdown_filters
  split
  next hs =>
    have hw := (h.process_shutdown hs).1
    dsimp only
    split
    · exact hw.filters_stopped
    · exact hw
  · exact h

lemma poll_read_ready (elapsed : Bool) : (s.poll_read_ready id elapsed).2.Writer busy := by
  have hw := h.shutdown_filters elapsed
  unfold IoState.poll_read_ready IoState.base_poll_read_ready
  dsimp only
  split
  · exact hw
  · split
    · exact hw.congr_flags rfl rfl rfl id rfl rfl
    · split <;> exact hw.congr_flags rfl rfl rfl id rfl rfl

lemma poll_write_ready :
    s.poll_write_ready.2.Writer busy ∧ (s.poll_write_ready.1 = some .Ready → s.poll_write_ready.2.flags.wr_paused = false) := by
  unfold IoState.poll_write_ready
  split
  · exact ⟨h, nofun⟩
  · dsimp only
    split
    · exact ⟨h.congr_flags rfl rfl rfl id rfl rfl, nofun⟩
    · split
      · exact ⟨h.congr_flags rfl rfl rfl id rfl rfl, nofun⟩
      next hp => exact ⟨h.congr_flags rfl rfl rfl id rfl rfl, fun _ => Bool.not_eq_true _ ▸ hp⟩

lemma poll_flush (full : Bool) :
    (s.poll_flush id full).2.Writer busy ∧ (full → (s.poll_flush id full).1 = some (.ok ()) → s.buffer.output = []) := by
  obtain ⟨ho, hp, -⟩ := Stack.output_push_write h.passing
  have hpre : Unsettled { s with buffer := s.buffer.push_write } busy :=
    ⟨⟨hp, fun hany => (Stack.sameInput_push_write s.buffer).up (h.up hany)⟩, h.handle, h.idle⟩
  have hw := hpre.consolidate false
  have hout := (congrArg Stack.output (buffer_consolidate_write_state { s with buffer := s.buffer.push_write } false)).trans ho
  unfold IoState.poll_flush IoState.flush_rest
  dsimp only
  split
  · split
    · exact ⟨hw, nofun⟩
    · split
      · exact ⟨hw.congr_flags rfl rfl rfl id rfl rfl, nofun⟩
      next hfull =>
        split
        · exact ⟨hw.congr_flags rfl rfl rfl id rfl rfl, nofun⟩
        · split
          · exact ⟨hw, nofun⟩
          · exact ⟨hw.congr_flags rfl rfl rfl id rfl rfl, fun h0 => absurd h0 hfull⟩
  next hlen =>
    have hnil : s.buffer.output = [] := by
      rw [← hout, ← hw.write_buf_size_eq_zero]
      exact Nat.eq_zero_of_not_pos hlen
    split
    · exact ⟨hw, fun _ _ => hnil⟩
    · exact ⟨hw.congr_flags rfl rfl rfl id rfl rfl, fun _ _ => hnil⟩

lemma update_write_status (hbusy : s.buffer.output = [] → busy = false) (written : Bool) :
    (s.update_write_status (.ok written)).2.Writer busy := by
  have hflushed : ∀ len, (s.wake_flushed len).Writer busy ∧ (s.wake_flushed len).buffer = s.buffer := by
    intro len
    unfold wake_flushed
    split <;> split <;> exact ⟨h.congr_flags rfl rfl rfl id rfl rfl, rfl⟩
  have hwritten : ∀ t : IoState, t.Writer busy ∧ t.buffer = s.buffer →
      (t.wake_written written).Writer busy ∧ (t.wake_written written).buffer = s.buffer := by
    intro t ht
    unfold wake_written
    split
    · exact ⟨ht.1.congr_flags rfl rfl rfl id rfl rfl, ht.2⟩
    · exact ht
  obtain ⟨hw, hb⟩ := hwritten _ (hflushed s.buffer.write_buf_size)
  unfold IoState.update_write_status
  dsimp only
  unfold write_status
  split
  · exact hw
  · split
    next hlen =>
      rw [h.write_buf_size_eq_zero] at hlen
      have hpaused : ∀ t : IoState, t.Writer busy → t.buffer = s.buffer →
          ({ t with flags.wr_paused := true } : IoState).Writer busy := fun t ht hb =>
        ⟨⟨ht.passing, ht.up⟩, ht.handle, fun _ => hbusy hlen, fun _ _ _ => (congrArg Stack.output hb).trans hlen⟩
      dsimp only
      split
      · exact (hpaused _ hw hb).congr_flags rfl rfl rfl id rfl rfl
      · exact hpaused _ hw hb
    · exact ⟨⟨hw.passing, hw.up⟩, hw.handle, nofun, nofun⟩

lemma with_write_paused (write : Data) (busy' : Bool)
    (hp : s.flags.wr_paused → busy' = false ∧ write = s.buffer.output) : (s.processed.with_write write).Writer busy' := by
  obtain ⟨hflow, hout⟩ := h.toFlow.with_write write
  refine ⟨hflow, h.handle, fun hpaused => (hp hpaused).1, fun hs hpaused hop => ?_⟩
  rw [hout, (hp hpaused).2]
  exact h.empty hs hpaused hop

lemma with_write (hp : s.flags.wr_paused = false) (write : Data) (busy' : Bool) :
    (s.processed.with_write write).Writer busy' := by
  refine h.with_write_paused write busy' fun hpaused => ?_
  cases hp.symm.trans hpaused

lemma of_not_paused (hp : s.flags.wr_paused = false) (busy' : Bool) : s.Writer busy' := by
  refine ⟨h.toFlow, h.handle, fun hpaused => ?_, h.empty⟩
  cases hp.symm.trans hpaused

end

end Writer

lemma not_paused_of_io {status : Except IoError Bool} (h : (s.update_write_status status).1 = .Io) :
    (s.update_write_status status).2.flags.wr_paused = false := by
  have hstatus : ∀ (t : IoState) (len : Nat), (t.write_status len).1 = .Io → (t.write_status len).2.flags.wr_paused = false := by
    intro t len h
    unfold write_status at h ⊢
    split
    next hc =>
      rw [if_pos hc] at h
      cases h
    next hc =>
      rw [if_neg hc] at h
      split
      next hl =>
        rw [if_pos hl] at h
        cases h
      · rfl
  cases status with
  | ok written => exact hstatus _ _ h
  | error e => cases h

end IoState

end Geario.Io
