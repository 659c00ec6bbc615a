import Geario.Io.Ctx
/-!
# What becomes of input

Input goes into the buffer next to the driver and through the layers into the
application's buffer. `received` is all of it in order, whether it has passed
the layers or not; `dst` is the part the application sees. Putting data in adds
to the end of `received`, and running the layers makes all of it visible.
-/

namespace Geario.Io

open Stack List

namespace Stack

def dst (s : Stack) : Data := s.read_dst.getD []

/-- The buffers from the second on, which the layers have not processed. -/
def pending (s : Stack) : Data :=
  match s.layers with
  | none => []
  | some l => (l.read_mid.map (·.getD [])).flatten ++ s.read.getD []

def received (s : Stack) : Data := s.dst ++ s.pending

def Up (s : Stack) : Prop := ∀ l ∈ s.layers, l.down = false

variable {s s' : Stack} {buf : Data}

@[simp] lemma put_back_getD : (put_back buf).getD [] = buf := by
  unfold put_back
  split
  next h => exact h.symm
  · rfl

lemma dst_base (h : s.layers = none) : s.dst = s.read.getD [] := by rw [dst, read_dst, h]

lemma pending_base (h : s.layers = none) : s.pending = [] := by rw [pending, h]

lemma received_base (h : s.layers = none) : s.received = s.read.getD [] := by
  rw [received, dst_base h, pending_base h, append_nil]

lemma layers_set_read_buf : (s.set_read_buf buf).layers = s.layers := by
  unfold set_read_buf
  split <;> rfl

lemma read_set_read_buf : (s.set_read_buf buf).read.getD [] = s.read.getD [] ++ buf := by
  unfold set_read_buf
  split
  next first h =>
    rw [h]
    rfl
  next h =>
    rw [h]
    exact put_back_getD

lemma received_set_read_buf : (s.set_read_buf buf).received = s.received ++ buf := by
  cases hl : s.layers with
  | none => rw [received_base (layers_set_read_buf.trans hl), received_base hl, read_set_read_buf]
  | some l =>
    rw [received, received, dst, read_dst, pending, layers_set_read_buf, hl, read_set_read_buf, dst, read_dst, pending, hl]
    simp only [append_assoc]

lemma foldr_copy_read (mid : List (Option Data)) (src : Option Data) :
    (mid.foldr (fun mid src => copy_read src mid) src).getD [] = (mid.map (·.getD [])).flatten ++ src.getD [] := by
  induction mid with
  | nil => rfl
  | cons m mid ih =>
    rw [foldr_cons, copy_read, put_back_getD, ih, map_cons, flatten_cons, append_assoc]

lemma up_set_read_buf (h : s.Up) : (s.set_read_buf buf).Up := by
  rw [Up, layers_set_read_buf]
  exact h

lemma process_read_buf_eq (h : s.Up) :
    s.process_read_buf.dst = s.received ∧ s.process_read_buf.pending = [] ∧ s.process_read_buf.Up := by
  cases hl : s.layers with
  | none =>
    have hp : s.process_read_buf = s := by rw [process_read_buf, hl]
    rw [hp, received_base hl, dst_base hl, pending_base hl]
    exact ⟨rfl, rfl, h⟩
  | some l =>
    have hdown : l.down = false := h l hl
    have hp : s.process_read_buf =
        { s with
          read := none
          layers := some { l with
            read_mid := l.read_mid.map fun _ => none
            read_dst := copy_read (l.read_mid.foldr (fun mid src => copy_read src mid) s.read) l.read_dst } } := by
      rw [process_read_buf, hl]
      simp only [hdown, Bool.false_eq_true, if_false]
    rw [hp]
    refine ⟨?_, ?_, ?_⟩
    · rw [dst, read_dst, copy_read, put_back_getD, foldr_copy_read, received, dst, read_dst, pending, hl]
    · simp only [pending, map_map, Option.getD_none, append_nil]
      refine flatten_eq_nil_iff.2 fun x hx => ?_
      obtain ⟨-, -, rfl⟩ := mem_map.1 hx
      rfl
    · intro l' hl'
      cases hl'
      exact hdown

lemma get_read_buf_received : s.received = s.get_read_buf.2.received ++ s.get_read_buf.1.getD [] := by
  cases hl : s.layers with
  | none =>
    have hl' : s.get_read_buf.2.layers = none := hl
    rw [received_base hl, received_base hl']
    rfl
  | some l =>
    simp only [received, dst, read_dst, pending, get_read_buf, hl, Option.getD_none, append_nil, append_assoc]

lemma same_content (hl : s'.layers = s.layers) (hr : s'.read.getD [] = s.read.getD []) :
    s'.dst = s.dst ∧ s'.pending = s.pending := by
  cases h : s.layers with
  | none => rw [dst_base h, dst_base (hl.trans h), pending_base h, pending_base (hl.trans h), hr]; exact ⟨rfl, rfl⟩
  | some l => simp only [dst, read_dst, pending, hl, h, hr, and_self]

lemma dst_get_read_buf_le : s.get_read_buf.2.dst.length ≤ s.dst.length := by
  cases hl : s.layers with
  | none =>
    have hl' : s.get_read_buf.2.layers = none := hl
    rw [dst_base hl']
    exact Nat.zero_le _
  | some l =>
    simp only [dst, read_dst, get_read_buf, hl]
    exact Nat.le_refl _

lemma dst_set_read_dst (d : Option Data) : (s.set_read_dst d).dst = d.getD [] := by
  cases hl : s.layers with
  | none | some => simp only [set_read_dst, dst, read_dst, hl]

lemma pending_set_read_dst (d : Option Data) : (s.set_read_dst d).pending = s.pending := by
  cases hl : s.layers with
  | none | some => simp only [set_read_dst, pending, hl]

lemma isSome_set_read_dst (d : Option Data) : (s.set_read_dst d).layers.isSome = s.layers.isSome := by
  unfold set_read_dst
  split
  · rfl
  next l hl =>
    rw [hl]
    rfl

lemma isSome_process_read_buf : s.process_read_buf.layers.isSome = s.layers.isSome := by
  unfold process_read_buf
  split
  · rfl
  next l hl =>
    split
    · rfl
    · rw [hl]
      rfl

lemma up_set_read_dst (d : Option Data) (h : s.Up) : (s.set_read_dst d).Up := by
  unfold set_read_dst
  split
  · exact h
  next l hl =>
    intro l' hl'
    cases hl'
    exact h l hl

lemma new_input (layers : Option Nat) : (new layers).dst = [] ∧ (new layers).pending = [] ∧ (new layers).Up := by
  refine ⟨?_, ?_, ?_⟩
  · cases layers <;> rfl
  · cases layers with
    | none => rfl
    | some n =>
      refine append_eq_nil_iff.2 ⟨flatten_eq_nil_iff.2 fun x hx => ?_, rfl⟩
      obtain ⟨y, hy, rfl⟩ := mem_map.1 hx
      rw [eq_of_mem_replicate hy]
      rfl
  · intro l hl
    obtain ⟨n, -, rfl⟩ := Option.map_eq_some_iff.1 hl
    rfl

end Stack

@[simp] lemma LocalWaker.wake_wake (w : LocalWaker) : w.wake.wake = w.wake := by
  unfold LocalWaker.wake
  split <;> simp_all

@[simp] lemma LocalWaker.registered_wake (w : LocalWaker) : w.wake.registered = false := by
  unfold LocalWaker.wake
  split <;> simp_all

variable {w w' : LocalWaker}

lemma LocalWaker.same_or_woken {w'' : LocalWaker} (h : w' = w ∨ w' = w.wake) (h' : w'' = w' ∨ w'' = w'.wake) :
    w'' = w ∨ w'' = w.wake := by
  rcases h with rfl | rfl
  · exact h'
  · rw [wake_wake, or_self] at h'
    exact .inr h'

/-- A task that is registered or has been woken will look again. -/
def LocalWaker.Armed (w : LocalWaker) : Prop := w.registered = true ∨ w.woken = true

lemma LocalWaker.woken_wake (h : w.Armed) : w.wake.woken := by
  unfold LocalWaker.wake
  rcases h with h | h
  · rw [if_pos h]
  · split <;> simp_all

lemma LocalWaker.armed_wake (h : w.Armed) : w.wake.Armed := .inr (woken_wake h)

lemma LocalWaker.Armed.of_same_or_woken (h : w.Armed) (hw : w' = w ∨ w' = w.wake) : w'.Armed := by
  rcases hw with rfl | rfl
  · exact h
  · exact armed_wake h

lemma LocalWaker.Armed.woken_of_same_or_woken (h : w.Armed) (hw : w' = w ∨ w' = w.wake)
    (hwoken : w.woken) : w'.woken := by
  rcases hw with rfl | rfl
  · exact hwoken
  · exact woken_wake h

namespace IoState

/-- A step on the reading side leaves alone what belongs to writing and closing. -/
structure OnlyReads (s s' : IoState) : Prop where
  cfg : s'.cfg = s.cfg
  error : s'.error = s.error
  handle : s'.handle = s.handle
  io_stopped : s'.flags.io_stopped = s.flags.io_stopped
  io_stopping : s'.flags.io_stopping = s.flags.io_stopping
  io_stopping_filters : s'.flags.io_stopping_filters = s.flags.io_stopping_filters
  dsp_timeout : s'.flags.dsp_timeout = s.flags.dsp_timeout
  dsp_w_backpressure : s'.flags.dsp_w_backpressure = s.flags.dsp_w_backpressure
  layers : s'.buffer.layers.isSome = s.buffer.layers.isSome

namespace OnlyReads

lemma refl (s : IoState) : OnlyReads s s := ⟨rfl, rfl, rfl, rfl, rfl, rfl, rfl, rfl, rfl⟩

variable {s s' s'' : IoState}

lemma trans (h : OnlyReads s s') (h' : OnlyReads s' s'') : OnlyReads s s'' where
  cfg := h'.cfg.trans h.cfg
  error := h'.error.trans h.error
  handle := h'.handle.trans h.handle
  io_stopped := h'.io_stopped.trans h.io_stopped
  io_stopping := h'.io_stopping.trans h.io_stopping
  io_stopping_filters := h'.io_stopping_filters.trans h.io_stopping_filters
  dsp_timeout := h'.dsp_timeout.trans h.dsp_timeout
  dsp_w_backpressure := h'.dsp_w_backpressure.trans h.dsp_w_backpressure
  layers := h'.layers.trans h.layers

lemma is_closed (h : OnlyReads s s') : s'.flags.is_closed = s.flags.is_closed := by
  rw [Flags.is_closed, Flags.is_closed, h.io_stopped, h.io_stopping]

end OnlyReads

variable {s : IoState} {buf : Data}

section

variable (s : IoState)

lemma read_grown_spec (size : Nat) :
    (s.read_grown size).buffer = s.buffer ∧ OnlyReads s (s.read_grown size) ∧
      (s.read_grown size).dispatch_task = s.dispatch_task.wake := by
  unfold read_grown
  split <;> exact ⟨rfl, { OnlyReads.refl _ with }, rfl⟩

lemma read_notify_spec :
    s.read_notify.buffer = s.buffer ∧ OnlyReads s s.read_notify ∧
      (s.read_notify.dispatch_task = s.dispatch_task ∨ s.read_notify.dispatch_task = s.dispatch_task.wake) := by
  unfold read_notify
  split
  · exact ⟨rfl, { OnlyReads.refl _ with }, .inr rfl⟩
  · exact ⟨rfl, .refl s, .inl rfl⟩

lemma read_processed_spec (orig : Nat) :
    (s.read_processed orig).buffer = s.buffer ∧ OnlyReads s (s.read_processed orig) ∧
      ((s.read_processed orig).dispatch_task = s.dispatch_task ∨
        (s.read_processed orig).dispatch_task = s.dispatch_task.wake) ∧
      (orig < s.buffer.read_dst_size → (s.read_processed orig).dispatch_task = s.dispatch_task.wake) := by
  unfold read_processed
  split
  · obtain ⟨hb, ho, hd⟩ := read_grown_spec s s.buffer.read_dst_size
    obtain ⟨hb', ho', hd'⟩ := read_notify_spec (s.read_grown s.buffer.read_dst_size)
    have hw : (s.read_grown s.buffer.read_dst_size).read_notify.dispatch_task = s.dispatch_task.wake := by
      rcases hd' with h | h
      · exact h.trans hd
      · rw [h, hd, LocalWaker.wake_wake]
    exact ⟨hb'.trans hb, ho.trans ho', .inr hw, fun _ => hw⟩
  next hsize =>
    obtain ⟨hb, ho, hd⟩ := read_notify_spec s
    exact ⟨hb, ho, hd, fun h => absurd h hsize⟩

lemma update_read_status_ok (buf : Data) (n : Nat) : (s.update_read_status buf (.ok n)).2 =
    if n = 0 then { s with buffer := s.buffer.set_read_buf buf }
    else { s with buffer := (s.buffer.set_read_buf buf).process_read_buf }.read_processed s.buffer.read_dst_size := rfl

/-- A completed read: what was in `buf` is part of the input, and when it brought new bytes all input is visible. -/
lemma update_read_status_spec (buf : Data) (n : Nat) (hup : s.buffer.Up) (hs : (s.update_read_status buf (.ok n)).2 = s') :
    s'.buffer.received = s.buffer.received ++ buf ∧ s'.buffer.Up ∧ OnlyReads s s' ∧
      (n = 0 → s' = { s with buffer := s.buffer.set_read_buf buf }) ∧ (n ≠ 0 → s'.buffer.pending = []) ∧
      (n ≠ 0 → s.buffer.dst.length < (s.buffer.received ++ buf).length → s'.dispatch_task = s.dispatch_task.wake) ∧
      (s'.dispatch_task = s.dispatch_task ∨ s'.dispatch_task = s.dispatch_task.wake) := by
  have hup' : (s.buffer.set_read_buf buf).Up := up_set_read_buf hup
  rw [← hs, update_read_status_ok]
  split
  next hn =>
    refine ⟨received_set_read_buf, hup', ⟨rfl, rfl, rfl, rfl, rfl, rfl, rfl, rfl, ?_⟩, fun _ => rfl, fun h => absurd hn h,
      fun h => absurd hn h, .inl rfl⟩
    exact congrArg Option.isSome layers_set_read_buf
  next hn =>
    obtain ⟨hd, hp, hup''⟩ := process_read_buf_eq hup'
    rw [received_set_read_buf] at hd
    obtain ⟨hb, ho, hw, hgrow⟩ :=
      read_processed_spec { s with buffer := (s.buffer.set_read_buf buf).process_read_buf } s.buffer.read_dst_size
    refine ⟨?_, ?_, ?_, fun h => absurd h hn, fun _ => ?_, fun _ hlt => hgrow ?_, hw⟩
    · rw [hb, received, hd, hp, append_nil]
    · rw [hb]
      exact hup''
    · have hl : (s.buffer.set_read_buf buf).process_read_buf.layers.isSome = s.buffer.layers.isSome :=
        isSome_process_read_buf.trans (congrArg Option.isSome layers_set_read_buf)
      have hbuf : OnlyReads s { s with buffer := (s.buffer.set_read_buf buf).process_read_buf } :=
        ⟨rfl, rfl, rfl, rfl, rfl, rfl, rfl, rfl, hl⟩
      exact hbuf.trans ho
    · rw [hb]
      exact hp
    · rw [← hd] at hlt
      exact hlt

lemma read_processed_ready {orig : Nat} (h : orig < s.buffer.read_dst_size) :
    (s.read_processed orig).flags.buf_r_ready := by
  have hgrown : (s.read_grown s.buffer.read_dst_size).flags.buf_r_ready := by
    unfold read_grown
    split <;> rfl
  unfold read_processed
  rw [if_pos h]
  unfold read_notify
  split <;> exact hgrown

lemma update_read_status_ready {buf : Data} {n : Nat} (hup : s.buffer.Up) (hn : n ≠ 0)
    (hlt : s.buffer.dst.length < (s.buffer.received ++ buf).length) :
    (s.update_read_status buf (.ok n)).2.flags.buf_r_ready := by
  rw [update_read_status_ok, if_neg hn]
  refine read_processed_ready _ ?_
  rw [← received_set_read_buf, ← (process_read_buf_eq (up_set_read_buf hup)).1] at hlt
  exact hlt

lemma resume_read_spec :
    s.resume_read.buffer = s.buffer ∧ OnlyReads s s.resume_read ∧ s.resume_read.dispatch_task = s.dispatch_task := by
  unfold resume_read
  split
  · exact ⟨rfl, { OnlyReads.refl _ with }, rfl⟩
  · exact ⟨rfl, .refl s, rfl⟩

end

lemma resume_read_not_ready (h : s.flags.buf_r_ready = false) : s.resume_read.flags.buf_r_ready = false := by
  unfold resume_read
  split <;> exact h

lemma update_read_destination_spec (s : IoState) (buf : Data) :
    (s.update_read_destination buf).buffer = s.buffer ∧ OnlyReads s (s.update_read_destination buf) ∧
      (s.update_read_destination buf).dispatch_task = s.dispatch_task := by
  have hresume : ∀ flags : Flags, OnlyReads s { s with flags } →
      ({ s with flags } : IoState).resume_read.buffer = s.buffer ∧ OnlyReads s ({ s with flags } : IoState).resume_read ∧
        ({ s with flags } : IoState).resume_read.dispatch_task = s.dispatch_task := by
    intro flags hf
    obtain ⟨hb, ho, hd⟩ := resume_read_spec { s with flags }
    exact ⟨hb, hf.trans ho, hd⟩
  unfold update_read_destination
  split
  · split
    · exact ⟨rfl, .refl s, rfl⟩
    · exact hresume _ { OnlyReads.refl _ with }
  · exact hresume _ { OnlyReads.refl _ with }

lemma with_read_buf_spec {α : Type} (s : IoState) (f : Data → α × Data) :
    (s.with_read_buf f).1 = (f s.buffer.dst).1 ∧ (s.with_read_buf f).2.buffer.dst = (f s.buffer.dst).2 ∧
      (s.with_read_buf f).2.buffer.pending = s.buffer.pending ∧ OnlyReads s (s.with_read_buf f).2 ∧
      (s.buffer.Up → (s.with_read_buf f).2.buffer.Up) ∧ (s.with_read_buf f).2.dispatch_task = s.dispatch_task := by
  obtain ⟨hb, ho, hd⟩ := update_read_destination_spec s (f s.buffer.dst).2
  refine ⟨rfl, ?_, pending_set_read_dst _, ?_, up_set_read_dst _, hd⟩
  · exact (dst_set_read_dst _).trans put_back_getD
  · refine .trans ho ⟨rfl, rfl, rfl, rfl, rfl, rfl, rfl, rfl, ?_⟩
    exact (isSome_set_read_dst _).trans (congrArg (·.layers.isSome) hb).symm

lemma with_read_buf_not_ready {α : Type} (f : Data → α × Data) (h : s.flags.buf_r_ready = false) :
    (s.with_read_buf f).2.flags.buf_r_ready = false := by
  change (s.update_read_destination (f s.buffer.dst).2).flags.buf_r_ready = false
  unfold update_read_destination
  split
  · split
    · exact h
    · exact resume_read_not_ready rfl
  · exact resume_read_not_ready rfl

section

variable (s : IoState)

lemma pause_spec :
    s.pause.buffer = s.buffer ∧ OnlyReads s s.pause ∧ s.pause.dispatch_task = s.dispatch_task ∧
      s.pause.flags.buf_r_ready = s.flags.buf_r_ready := by
  unfold pause
  split
  · exact ⟨rfl, .refl s, rfl, rfl⟩
  · exact ⟨rfl, { OnlyReads.refl _ with }, rfl, rfl⟩

lemma get_read_buf_spec :
    s.buffer.received = s.get_read_buf.2.buffer.received ++ s.get_read_buf.1 ∧
      (s.buffer.Up → s.get_read_buf.2.buffer.Up) ∧ s.get_read_buf.2.buffer.dst.length ≤ s.buffer.dst.length ∧
      ∃ buffer, s.get_read_buf.2 = { s with buffer } ∧ buffer.layers = s.buffer.layers := by
  unfold get_read_buf
  split
  · exact ⟨(append_nil _).symm, id, Nat.le_refl _, s.buffer, rfl, rfl⟩
  · split
    next buf buffer hget =>
      have hr := get_read_buf_received (s := s.buffer)
      have hd := dst_get_read_buf_le (s := s.buffer)
      have hl : s.buffer.get_read_buf.2.layers = s.buffer.layers := rfl
      rw [hget] at hr hd hl
      refine ⟨hr, fun hup => ?_, hd, buffer, rfl, hl⟩
      intro l hm
      exact hup l (hl ▸ hm)
    · exact ⟨(append_nil _).symm, id, Nat.le_refl _, s.buffer, rfl, rfl⟩

lemma restart_read_spec :
    s.restart_read.buffer = s.buffer ∧ OnlyReads s s.restart_read ∧ s.restart_read.dispatch_task = s.dispatch_task := by
  unfold restart_read
  split
  · exact ⟨rfl, { OnlyReads.refl _ with }, rfl⟩
  · exact ⟨rfl, .refl s, rfl⟩

lemma put_read_buf_back :
    ∃ buffer, (s.get_read_buf.2.update_read_status s.get_read_buf.1 (.ok 0)).2 = { s with buffer } ∧
      buffer.layers = s.buffer.layers ∧ buffer.dst = s.buffer.dst ∧ buffer.pending = s.buffer.pending := by
  have hset : ∀ buf : Data, ∀ b : Stack, b.layers = s.buffer.layers → b.read.getD [] ++ buf = s.buffer.read.getD [] →
      (b.set_read_buf buf).layers = s.buffer.layers ∧ (b.set_read_buf buf).dst = s.buffer.dst ∧
        (b.set_read_buf buf).pending = s.buffer.pending := by
    intro buf b hl hr
    have hl' : (b.set_read_buf buf).layers = s.buffer.layers := layers_set_read_buf.trans hl
    exact ⟨hl', same_content hl' (read_set_read_buf.trans hr)⟩
  unfold get_read_buf
  split
  · exact ⟨_, rfl, hset [] s.buffer rfl (append_nil _)⟩
  · split
    next buf buffer hget =>
      obtain ⟨hbuf, hbuffer⟩ := Prod.mk.inj hget
      refine ⟨_, rfl, hset buf buffer ?_ ?_⟩
      · rw [← hbuffer]
      · rw [← hbuffer, hbuf]
        rfl
    · exact ⟨_, rfl, hset [] s.buffer rfl (append_nil _)⟩

lemma poll_read_spec :
    s.poll_read.2.buffer = s.buffer ∧ OnlyReads s s.poll_read.2 ∧
      (s.flags.is_closed ∧ s.poll_read.1 = some none ∨
        s.flags.is_closed = false ∧ s.flags.buf_r_ready ∧ s.poll_read.1 = some (some ()) ∧
          s.poll_read.2.dispatch_task = s.dispatch_task ∨
        s.flags.is_closed = false ∧ s.flags.buf_r_ready = false ∧ s.poll_read.1 = none ∧
          s.poll_read.2.dispatch_task = s.dispatch_task.register) := by
  obtain ⟨hb, ho, hd⟩ := restart_read_spec s
  unfold poll_read
  cases hc : s.flags.is_closed with
  | true => exact ⟨rfl, .refl s, .inl ⟨rfl, rfl⟩⟩
  | false =>
    cases hr : s.flags.buf_r_ready with
    | true => exact ⟨hb, ho, .inr (.inl ⟨rfl, rfl, rfl, hd⟩)⟩
    | false =>
      refine ⟨hb, ho.trans { OnlyReads.refl _ with }, .inr (.inr ⟨rfl, rfl, rfl, ?_⟩)⟩
      exact congrArg LocalWaker.register hd

lemma terminate_connection_spec (err : Option IoError) :
    (s.terminate_connection err).buffer = s.buffer ∧ (s.terminate_connection err).cfg = s.cfg ∧
      (s.terminate_connection err).flags.io_stopped ∧
      (s.terminate_connection err).flags.dsp_timeout = s.flags.dsp_timeout ∧
      (s.terminate_connection err).flags.dsp_w_backpressure = s.flags.dsp_w_backpressure ∧
      (s.flags.io_stopped ∧ s.terminate_connection err = s ∨
        s.flags.io_stopped = false ∧ (s.terminate_connection err).flags.io_stopping ∧
          (s.terminate_connection err).error = err.or s.error ∧
          (s.terminate_connection err).dispatch_task = s.dispatch_task.wake) := by
  unfold terminate_connection Flags.is_terminated
  split
  next h => exact ⟨rfl, rfl, h, rfl, rfl, .inl ⟨h, rfl⟩⟩
  next h => exact ⟨rfl, rfl, rfl, rfl, rfl, .inr ⟨Bool.not_eq_true _ ▸ h, rfl, rfl, rfl⟩⟩

end

end IoState

end Geario.Io
