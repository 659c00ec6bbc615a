import Geario.Io.Read
/-!
# The writing side leaves input alone

Nothing that happens to output touches the read buffers or stops a connection,
except a failed write. Apart from what the driver's `Handle::write` does, the
functions that start and end a write only wake tasks and set flags of the
writing side (`Wakes`), and they call the handle at most once (`Calls`). So a
relation that holds for such changes and for the handle holds for all of them
(`Covers`).
-/

namespace Geario.Io

namespace Stack

variable {s : Stack}

structure SameInput (s s' : Stack) : Prop where
  dst : s'.dst = s.dst
  pending : s'.pending = s.pending
  up : s.Up → s'.Up

lemma SameInput.refl (s : Stack) : SameInput s s := ⟨rfl, rfl, id⟩

lemma SameInput.trans {s₁ s₂ s₃ : Stack} (h : SameInput s₁ s₂) (h' : SameInput s₂ s₃) : SameInput s₁ s₃ :=
  ⟨h'.dst.trans h.dst, h'.pending.trans h.pending, fun hu => h'.up (h.up hu)⟩

lemma sameInput_of_layers {l l' : Layers} {write : Data} (hl : s.layers = some l) (hd : l'.read_dst = l.read_dst)
    (hm : l'.read_mid = l.read_mid) (hdown : l'.down = l.down) : SameInput s { s with write, layers := some l' } := by
  refine ⟨?_, ?_, fun hup => ?_⟩
  · simp only [dst, read_dst, hl, hd]
  · simp only [pending, hl, hm]
  · intro l'' hl''
    cases hl''
    exact hdown.trans (hup l hl)

lemma sameInput_write (s : Stack) (write : Data) : SameInput s { s with write } := ⟨rfl, rfl, id⟩

lemma sameInput_append_write_src (s : Stack) (d : Data) : SameInput s (s.append_write_src d) := by
  unfold append_write_src
  split
  · exact sameInput_write s _
  next l hl => exact sameInput_of_layers hl rfl rfl rfl

lemma sameInput_push_write (s : Stack) : SameInput s s.push_write := by
  unfold push_write
  split
  · exact .refl s
  next l hl =>
    split
    · exact .refl s
    · exact sameInput_of_layers hl rfl rfl rfl

lemma sameInput_process_write_buf (s : Stack) : SameInput s s.process_write_buf := by
  unfold process_write_buf
  split
  · exact .refl s
  · split
    · exact .refl s
    · exact sameInput_push_write s

end Stack

namespace IoState

structure Wakes (s s' : IoState) : Prop where
  buffer : s'.buffer = s.buffer
  io_stopped : s'.flags.io_stopped = s.flags.io_stopped
  io_stopping : s'.flags.io_stopping = s.flags.io_stopping
  io_stopping_filters : s'.flags.io_stopping_filters = s.flags.io_stopping_filters
  rd_paused : s'.flags.rd_paused = s.flags.rd_paused
  rd_backpressure : s'.flags.rd_backpressure = s.flags.rd_backpressure
  wr_flush : s'.flags.wr_flush = s.flags.wr_flush
  read_task : s'.read_task = s.read_task ∨ s'.read_task = s.read_task.wake
  write_task : s'.write_task = s.write_task ∨ s'.write_task = s.write_task.wake
  dispatch_task : s'.dispatch_task = s.dispatch_task ∨ s'.dispatch_task = s.dispatch_task.wake

variable {s s' : IoState}

section

variable (s : IoState)

lemma wakes_refl : Wakes s s := ⟨rfl, rfl, rfl, rfl, rfl, rfl, rfl, .inl rfl, .inl rfl, .inl rfl⟩

lemma wakes_wake_flushed (len : Nat) : Wakes s (s.wake_flushed len) := by
  unfold wake_flushed
  split
  all_goals
    split
    · exact ⟨rfl, rfl, rfl, rfl, rfl, rfl, rfl, .inl rfl, .inl rfl, .inr rfl⟩
    · exact wakes_refl s

lemma wakes_wake_written (written : Bool) : Wakes s (s.wake_written written) := by
  unfold wake_written
  split
  · exact ⟨rfl, rfl, rfl, rfl, rfl, rfl, rfl, .inr rfl, .inr rfl, .inl rfl⟩
  · exact wakes_refl s

lemma wakes_write_status (len : Nat) : Wakes s (s.write_status len).2 := by
  unfold write_status
  split
  · exact wakes_refl s
  · split
    · dsimp only
      split
      · exact ⟨rfl, rfl, rfl, rfl, rfl, rfl, rfl, .inr rfl, .inl rfl, .inl rfl⟩
      · exact { wakes_refl (s := _) with }
    · exact { wakes_refl (s := _) with }

lemma wakes_wr_backpressure (size : Nat) : Wakes s (s.wr_backpressure size) := by
  unfold wr_backpressure
  split
  · exact ⟨rfl, rfl, rfl, rfl, rfl, rfl, rfl, .inl rfl, .inl rfl, .inr rfl⟩
  · exact wakes_refl s

end

lemma Wakes.trans {s'' : IoState} (h : Wakes s s') (h' : Wakes s' s'') : Wakes s s'' where
  buffer := h'.buffer.trans h.buffer
  io_stopped := h'.io_stopped.trans h.io_stopped
  io_stopping := h'.io_stopping.trans h.io_stopping
  io_stopping_filters := h'.io_stopping_filters.trans h.io_stopping_filters
  rd_paused := h'.rd_paused.trans h.rd_paused
  rd_backpressure := h'.rd_backpressure.trans h.rd_backpressure
  wr_flush := h'.wr_flush.trans h.wr_flush
  read_task := LocalWaker.same_or_woken h.read_task h'.read_task
  write_task := LocalWaker.same_or_woken h.write_task h'.write_task
  dispatch_task := LocalWaker.same_or_woken h.dispatch_task h'.dispatch_task

lemma wakes_update_write_status (s : IoState) (written : Bool) : Wakes s (s.update_write_status (.ok written)).2 :=
  ((wakes_wake_flushed s _).trans (wakes_wake_written _ written)).trans (wakes_write_status _ _)

/-! ## Calls of the handle -/

def call_write_at (s : IoState) : Option IoState :=
  if s.handle then some { s with flags.wr_paused := false, handle := false } else none

def start_write_at (s : IoState) (size : Nat) (force : Bool) : Option IoState :=
  if s.flags.direct_wr_sup ∧ (force ∨ s.cfg.write_buf_threshold ≤ size) then s.call_write_at else none

def consolidate_write_state_at (s : IoState) (force : Bool) : Option IoState :=
  let size := s.buffer.write_buf_size
  if 0 < size ∧ s.flags.wr_paused then s.start_write_at size force else none

def ops_send_buf_at (s : IoState) : Option IoState :=
  if s.flags.wr_send_op && s.flags.wr_paused then { s with flags.wr_send_op := false }.call_write_at
  else none

/-- `s'` comes from `s` by one call of the handle in the given state, or without a call. -/
def Calls (hnd_write : IoState → IoState) (s : IoState) : Option IoState → IoState → Prop
  | none, s' => Wakes s s'
  | some t, s' => Wakes s t ∧ Wakes (hnd_write t) s'

section Calls

variable {hnd_write : IoState → IoState} {t : Option IoState}

lemma Calls.after {s'' : IoState} (h : Calls hnd_write s t s') (h' : Wakes s' s'') : Calls hnd_write s t s'' := by
  cases t with
  | none => exact Wakes.trans h h'
  | some t => exact ⟨h.1, h.2.trans h'⟩

lemma Calls.before {s₀ : IoState} (h : Calls hnd_write s t s') (h₀ : Wakes s₀ s) : Calls hnd_write s₀ t s' := by
  cases t with
  | none => exact h₀.trans h
  | some t => exact ⟨h₀.trans h.1, h.2⟩

variable (s) (hnd_write)

lemma calls_call_write : Calls hnd_write s s.call_write_at (s.call_write hnd_write).2 := by
  unfold call_write call_write_at
  split
  · exact ⟨{ wakes_refl (s := _) with },
      { wakes_refl (s := _) with }⟩
  · exact wakes_refl s

lemma calls_start_write (size : Nat) (force : Bool) :
    Calls hnd_write s (s.start_write_at size force) (s.start_write hnd_write size force) := by
  have hcall := calls_call_write s hnd_write
  unfold start_write start_write_at
  split
  · split
    all_goals
      rename_i s₁ h
      rw [h] at hcall
      exact hcall.after { wakes_refl (s := _) with }
  · exact { wakes_refl (s := _) with }

lemma calls_consolidate_write_state (force : Bool) :
    Calls hnd_write s (s.consolidate_write_state_at force) (s.consolidate_write_state hnd_write force) := by
  unfold consolidate_write_state consolidate_write_state_at
  dsimp only
  split
  · exact (calls_start_write s hnd_write _ force).after (wakes_wr_backpressure _ _)
  · exact wakes_wr_backpressure s _

lemma calls_ops_send_buf : Calls hnd_write s s.ops_send_buf_at (s.ops_send_buf hnd_write) := by
  have hop : Wakes s { s with flags.wr_send_op := false } :=
    { wakes_refl (s := _) with }
  unfold ops_send_buf ops_send_buf_at
  by_cases hsend : s.flags.wr_send_op = true
  · rw [if_pos hsend, hsend, Bool.true_and]
    dsimp only
    split
    · have hcall := (calls_call_write { s with flags.wr_send_op := false } hnd_write).before hop
      split
      next s₁ h =>
        rw [h] at hcall
        exact hcall.after ⟨rfl, rfl, rfl, rfl, rfl, rfl, rfl, .inl rfl, .inr rfl, .inl rfl⟩
      next s₁ h =>
        rw [h] at hcall
        exact hcall
    · exact hop.trans ⟨rfl, rfl, rfl, rfl, rfl, rfl, rfl, .inl rfl, .inr rfl, .inl rfl⟩
  · rw [if_neg hsend, if_neg fun h => hsend (Bool.and_eq_true_iff.1 h).1]
    exact wakes_refl s

end Calls

structure Covers (R : IoState → IoState → Prop) : Prop where
  trans : ∀ {s s' s''}, R s s' → R s' s'' → R s s''
  of_wakes : ∀ {s s'}, Wakes s s' → R s s'

namespace Covers

variable {R : IoState → IoState → Prop} (hR : Covers R)

include hR

lemma refl (s : IoState) : R s s := hR.of_wakes (wakes_refl s)

lemma update_write_status (s : IoState) (written : Bool) : R s (s.update_write_status (.ok written)).2 :=
  hR.of_wakes (wakes_update_write_status s written)

variable {hnd_write : IoState → IoState} (hwrite : ∀ s, R s (hnd_write s))

include hwrite

lemma of_calls {t : Option IoState} (h : Calls hnd_write s t s') : R s s' := by
  cases t with
  | none => exact hR.of_wakes h
  | some t => exact hR.trans (hR.trans (hR.of_wakes h.1) (hwrite t)) (hR.of_wakes h.2)

lemma start_write (s : IoState) (size : Nat) (force : Bool) : R s (s.start_write hnd_write size force) :=
  hR.of_calls hwrite (calls_start_write s hnd_write size force)

lemma consolidate_write_state (s : IoState) (force : Bool) : R s (s.consolidate_write_state hnd_write force) :=
  hR.of_calls hwrite (calls_consolidate_write_state s hnd_write force)

lemma ops_send_buf (s : IoState) : R s (s.ops_send_buf hnd_write) :=
  hR.of_calls hwrite (calls_ops_send_buf s hnd_write)

end Covers

structure OnlyWrites (s s' : IoState) : Prop where
  input : Stack.SameInput s.buffer s'.buffer
  io_stopped : s'.flags.io_stopped = s.flags.io_stopped
  stopping : s.flags.is_stopping_any = true → s'.flags.is_stopping_any = true

namespace OnlyWrites

lemma refl (s : IoState) : OnlyWrites s s := ⟨.refl s.buffer, rfl, id⟩

lemma trans {s s' s'' : IoState} (h : OnlyWrites s s') (h' : OnlyWrites s' s'') : OnlyWrites s s'' :=
  ⟨h.input.trans h'.input, h'.io_stopped.trans h.io_stopped, fun hs => h'.stopping (h.stopping hs)⟩

lemma covers : Covers OnlyWrites where
  trans := trans
  of_wakes h := by
    refine ⟨h.buffer ▸ .refl _, h.io_stopped, ?_⟩
    rw [Flags.is_stopping_any, Flags.is_stopping_any, h.io_stopped, h.io_stopping, h.io_stopping_filters]
    exact id

end OnlyWrites

lemma onlyWrites_update_write_status (s : IoState) (written : Bool) :
    OnlyWrites s (s.update_write_status (.ok written)).2 := OnlyWrites.covers.update_write_status s written

section Handle

variable {hnd_write : IoState → IoState} (hwrite : ∀ s, OnlyWrites s (hnd_write s))

include hwrite

lemma onlyWrites_start_write (s : IoState) (size : Nat) (force : Bool) :
    OnlyWrites s (s.start_write hnd_write size force) := OnlyWrites.covers.start_write hwrite s size force

lemma onlyWrites_consolidate_write_state (s : IoState) (force : Bool) :
    OnlyWrites s (s.consolidate_write_state hnd_write force) := OnlyWrites.covers.consolidate_write_state hwrite s force

lemma onlyWrites_write {d : Data} (h : s.write hnd_write d = some s') : OnlyWrites s s' := by
  unfold write at h
  split at h
  · cases h
  · cases h
    have happend : OnlyWrites s { s with buffer := s.buffer.append_write_src d } :=
      ⟨Stack.sameInput_append_write_src s.buffer d, rfl, id⟩
    exact happend.trans (onlyWrites_consolidate_write_state hwrite _ false)

lemma onlyWrites_ops_send_buf (s : IoState) : OnlyWrites s (s.ops_send_buf hnd_write) :=
  OnlyWrites.covers.ops_send_buf hwrite s

end Handle

end IoState

end Geario.Io
