import Geario.Lib.Fair
import Geario.Polling.Close
/-!
# A close loses no output

Two things about runs of `Closing`. When the io task finds everything ready,
the socket has accepted all that was written (`Accounted`, kept by every step).
And when nothing ends the connection but the close, everything is found ready at
some time, if the queue of `Iops` is run, the io task is polled when it has been
woken, the poller reports that the socket is writable, and the socket accepts
something now and then: as long as nothing is accepted no attempt to write is
made for ever (`tries`), and then whoever is going to write stays the same.
-/
open Geario.Io
open Lib (Reach run Run eventually_const of_guard of_map)
open List Option Bool

namespace Geario.Polling.Closing

open Nat Stack IoState

variable {c c' : Closing} {w : Syscall} {rd : ReadResult}

/-! ## Bytes -/

/-- The socket takes `sent` from the front of the output, with the base filter. -/
structure Sends (io : IoState) (sent : Data) (io' : IoState) : Prop where
  moved : Sender.Moved false io sent io'
  base : io'.buffer.layers = none
  stays : IoState.Stays io io'

section Sends

variable {io io₁ io' : IoState} {d : Data}

section

variable (hb : io.buffer.layers = none)
include hb

lemma outgoing_base : io.buffer.outgoing = io.buffer.write := by
  rw [outgoing_eq, above, hb]
  exact append_nil _

lemma pass_base (w : Syscall) : Sender.Write.pass ⟨[], w.cuts, w.result⟩ io = io := by
  unfold Sender.Write.pass Chain.write_pass
  split
  · rfl
  · have hbuf : of_buffers io.buffer.first io.buffer.rest = io.buffer := by
      obtain ⟨cfg, flags, error, read_task, write_task, dispatch_task, ⟨read, write, layers⟩, handle⟩ := io
      obtain rfl : layers = none := hb
      rfl
    show { io with buffer := of_buffers io.buffer.first io.buffer.rest } = io
    rw [hbuf]

lemma write_stream (w : Syscall) : write io w.cuts w.result = Sender.stream_write ⟨[], w.cuts, w.result⟩ io := by
  unfold write Sender.stream_write
  rw [pass_base hb, process_write_buf_base hb]
  rfl

lemma write_base {st : IoTaskStatus} (h : write io w.cuts w.result = some (st, io')) : io'.buffer.layers = none := by
  obtain ⟨io₁, status, hupdate, hb₁, -⟩ := write_closure hb h
  cases status with
  | ok written =>
    have hw := io₁.wakes_update_write_status written
    rw [hupdate] at hw
    exact (congrArg layers hw.buffer).trans hb₁
  | error err =>
    cases hupdate
    exact (congrArg layers (Sender.buffer_terminate io₁ _)).trans hb₁

lemma write_sends {st : IoTaskStatus} (h : write io w.cuts w.result = some (st, io')) :
    Sends io (w.sent (some io)) io' :=
  ⟨(Sender.stream_write_moved ((write_stream hb w).symm.trans h)).unspared, write_base hb h, fun hc => write_stays hb hc h⟩

lemma Sends.of_same (h : Sender.Flushing io io') (hbuf : io'.buffer = io.buffer)
    (hs : IoState.Stays io io') : Sends io [] io' :=
  ⟨.of_same h (congrArg outgoing hbuf), (congrArg layers hbuf).trans hb, hs⟩

end

lemma Sends.after (h : Sends io d io₁) (h₁ : Sender.Flushing io₁ io') (hbuf : io'.buffer = io₁.buffer)
    (hs : IoState.Stays io₁ io') : Sends io d io' :=
  ⟨h.moved.after h₁ (congrArg outgoing hbuf), (congrArg layers hbuf).trans h.base, fun hc => hs (h.stays hc)⟩

section

variable (hb : io.buffer.layers = none)
include hb

lemma sends_of_wakes (h : io.Wakes io') : Sends io [] io' :=
  .of_same hb (Sender.Flushing.coversChain.of_wakes h) h.buffer (IoState.Stays.covers.of_wakes h)

lemma sends_terminate (err : Option IoError) : Sends io [] (io.terminate_connection err) :=
  .of_same hb (.terminate io err) (Sender.buffer_terminate io err) fun _ => closed_terminate io err

lemma hnd_write_sends (hfits : w.fits (some io)) : Sends io (w.sent (some io)) (w.hnd_write io) := by
  obtain ⟨⟨st, t⟩, hwrite⟩ := isSome_iff_exists.1 hfits
  rw [Syscall.hnd_write, hnd_write, hwrite]
  exact write_sends hb hwrite

lemma sends_of_calls {t : Option IoState} (hfits : w.fits t)
    (h : io.Calls w.hnd_write t io') : Sends io (w.sent t) io' := by
  cases t with
  | none => exact sends_of_wakes hb h
  | some t =>
    have hbt : t.buffer.layers = none := (congrArg layers h.1.buffer).trans hb
    have hsend := hnd_write_sends hbt hfits
    have hbefore : Sends io (w.sent (some t)) (w.hnd_write t) :=
      ⟨hsend.moved.before (Sender.Flushing.coversChain.of_wakes h.1) (congrArg outgoing h.1.buffer), hsend.base,
        fun hc => hsend.stays (IoState.Stays.covers.of_wakes h.1 hc)⟩
    exact hbefore.after (Sender.Flushing.coversChain.of_wakes h.2) h.2.buffer (IoState.Stays.covers.of_wakes h.2)

lemma read_sends (h : ReadSpec io rd io') : Sends io [] io' := by
  have hb' := h.layers.trans hb
  refine ⟨.of_same h.flushing ?_, hb', fun hc => ?_⟩
  · rw [outgoing_base hb, outgoing_base hb', h.write]
  · rcases h.ctx with ⟨hc', -⟩ | hq
    · exact hc'
    · exact hq.closed.trans hc

end

end Sends

/-- All that was written is in the buffer or has been accepted, unless the connection was stopped; and all is accepted when
everything was found ready. -/
structure Accounted (c : Closing) : Prop where
  base : c.item.ctx.buffer.layers = none
  bytes : c.item.ctx.flags.io_stopped = false → c.accepted ++ c.item.ctx.buffer.write = c.written
  ready : c.ready = true → c.item.ctx.flags.is_closed = true ∧ c.item.ctx.buffer.write = [] ∧ c.accepted = c.written

structure Kept (c c' : Closing) : Prop extends Accounted c' where
  stays : IoState.Stays c.item.ctx c'.item.ctx
  accepted : c.accepted <+: c'.accepted

lemma Accounted.refl (h : Accounted c) : Kept c c := ⟨h, id, prefix_rfl⟩

lemma Kept.trans {c₁ : Closing} (h : Kept c c₁) (h' : Kept c₁ c') : Kept c c' :=
  ⟨h'.toAccounted, fun hc => h'.stays (h.stays hc), h.accepted.trans h'.accepted⟩

lemma Accounted.sends (h : Accounted c) {sent : Data} (hs : Sends c.item.ctx sent c'.item.ctx)
    (ha : c'.accepted = c.accepted ++ sent) (hw : c'.written = c.written) (hr : c'.ready = c.ready) : Kept c c' := by
  obtain ⟨lost, hlost, hopen, -⟩ := hs.moved.bytes
  rw [outgoing_base h.base, outgoing_base hs.base] at hlost
  refine ⟨⟨hs.base, fun ho => ?_, fun hready => ?_⟩, hs.stays, ⟨sent, ha.symm⟩⟩
  · rw [hopen ho, nil_append] at hlost
    rw [ha, hw, append_assoc, ← hlost]
    exact h.bytes (hs.moved.isOpen ho)
  · obtain ⟨hc, hnil, hacc⟩ := h.ready (hr ▸ hready)
    rw [hnil] at hlost
    obtain ⟨hsent, hrest⟩ := append_eq_nil_iff.1 hlost.symm
    refine ⟨hs.stays hc, (append_eq_nil_iff.1 hrest).2, ?_⟩
    rw [ha, hw, hsent, append_nil, hacc]

/-! ## What each step does to them -/

section

variable (h : Accounted c)
include h

lemma with_write_buf_accounted {d : Data} (hst : c.with_write_buf d w = some c') : Kept c c' := by
  obtain ⟨hany, hfits, rfl⟩ := with_write_buf_some hst
  have happend : Accounted { c with
      item.ctx := { c.item.ctx with buffer := c.item.ctx.buffer.append_write_src d }
      written := c.written ++ d } := by
    rw [append_write_src_base h.base]
    refine ⟨h.base, fun ho => ?_, fun hready => ?_⟩
    · rw [← append_assoc, h.bytes ho]
    · have hc := (h.ready hready).1
      rw [Flags.is_closed, Bool.or_comm] at hc
      cases (or_eq_false_iff.1 hany).1.symm.trans hc
  exact .trans ⟨happend, id, prefix_rfl⟩
    (happend.sends (sends_of_calls happend.base hfits (calls_consolidate_write_state _ _ false)) rfl rfl rfl)

lemma run_accounted (hst : c.run_ops w = some c') : Kept c c' := by
  unfold run_ops at hst
  split at hst
  · obtain ⟨hfits, rfl⟩ := Lib.of_ite hst
    exact h.sends (sends_of_calls h.base hfits (calls_ops_send_buf _ _)) rfl rfl rfl
  · cases hst
    exact h.refl

lemma close_accounted : Kept c (c.scheduled c.item.ctx.start_shutdown) := by
  suffices hs : Sends c.item.ctx [] c.item.ctx.start_shutdown from h.sends hs (append_nil _).symm rfl rfl
  unfold start_shutdown
  split
  · exact .of_same h.base (.refl _) rfl id
  · exact .of_same h.base ⟨id, rfl⟩ rfl id

lemma poll_shutdown_accounted : Kept c (c.scheduled c.item.ctx.poll_shutdown.2) := by
  suffices hs : Sends c.item.ctx [] c.item.ctx.poll_shutdown.2 from h.sends hs (append_nil _).symm rfl rfl
  unfold poll_shutdown start_shutdown
  split
  · exact .of_same h.base (.refl _) rfl id
  · split
    · exact .of_same h.base ⟨id, rfl⟩ rfl id
    · split
      all_goals exact .of_same h.base ⟨id, rfl⟩ rfl id

lemma event_accounted {ev : Event} (hst : c.step (.event ev rd w) = some c') : Kept c c' := by
  obtain ⟨item, hev, rfl⟩ := of_map hst
  obtain ⟨⟨armed, item₂⟩, hwrite, hitem⟩ := of_map hev
  have hread := event_read_half h.base ev.readable rd
  unfold event_at
  generalize event_read c.item ev.readable rd = r at hread hwrite hitem ⊢
  have hr : Kept c { c with item := r.2 } :=
    h.sends (read_sends h.base hread.ctx) (append_nil _).symm rfl rfl
  -- the rest of the event
  have hrest : Kept c { c.tried w (if ev.writable then some r.2.ctx else none) with item := item₂ } := by
    unfold event_write at hwrite
    split at hwrite
    next hev' =>
      obtain ⟨⟨st, io⟩, hio, heq⟩ := of_map hwrite
      cases heq
      rw [if_pos hev']
      exact hr.trans (hr.sends (write_sends hr.base hio) rfl rfl rfl)
    next hev' =>
      cases hwrite
      rw [if_neg hev']
      exact hr.trans (hr.sends (.of_same hr.base (.refl _) rfl id) rfl rfl rfl)
  split at hitem
  · subst hitem
    exact hrest.trans (hrest.sends (sends_terminate hrest.base none) (append_nil _).symm rfl rfl)
  · subst hitem
    exact hrest.trans (hrest.sends (.of_same hrest.base (.refl _) rfl id) (append_nil _).symm rfl rfl)

lemma poll_interest_accounted {rd wr : Bool} {rres : ReadResult}
    (hst : c.poll_interest rd wr rres w = some c') : Kept c c' := by
  obtain ⟨item, hint, rfl⟩ := of_map hst
  obtain ⟨⟨⟨writable, update⟩, item₂⟩, hwrite, hitem⟩ := of_map hint
  have hread := interest_read_half h.base rd rres
  unfold interest_at
  generalize interest_read c.item rd rres = r at hread hwrite hitem ⊢
  have hr : Kept c { c with item := r.2 } :=
    h.sends (read_sends h.base hread.ctx) (append_nil _).symm rfl rfl
  have hrest : Kept c { c.tried w (if wr && !c.item.flags.wr then some r.2.ctx else none) with item := item₂ } := by
    rw [← hread.wr]
    unfold interest_write at hwrite
    split at hwrite
    · split at hwrite
      next hset =>
        cases hwrite
        rw [hset, Bool.not_true, Bool.and_false, if_neg Bool.false_ne_true]
        exact hr.trans (hr.sends (.of_same hr.base (.refl _) rfl id) rfl rfl rfl)
      next hwr hunset =>
        rw [not_eq_true] at hunset
        obtain ⟨⟨st, io⟩, hio, heq⟩ := of_map hwrite
        have hctx : item₂.ctx = io := by
          split at heq <;> exact (congrArg StreamItem.ctx (Prod.mk.inj heq).2).symm
        rw [hunset, hwr, Bool.not_false, Bool.and_true, if_pos rfl]
        refine hr.trans (hr.sends (?_ : Sends _ (w.sent (some r.2.ctx)) _) rfl rfl rfl)
        rw [hctx]
        exact write_sends hr.base hio
    next hwr =>
      cases hwrite
      rw [not_eq_true] at hwr
      rw [hwr, Bool.false_and, if_neg Bool.false_ne_true]
      exact hr.trans (hr.sends (.of_same hr.base (.refl _) rfl id) rfl rfl rfl)
  split at hitem
  · subst hitem
    exact hrest.trans (hrest.sends (.of_same hrest.base (.refl _) rfl id) (append_nil _).symm rfl rfl)
  · subst hitem
    exact hrest

end

lemma shutdown_filters_sends {io : IoState} (hb : io.buffer.layers = none) (hfits : w.fits (shutdown_at io))
    (elapsed : Bool) : Sends io (w.sent (shutdown_at io)) (io.shutdown_filters w.hnd_write elapsed) := by
  obtain ⟨hbuf, hproc⟩ := process_shutdown_base hb w.hnd_write
  unfold shutdown_at at hfits ⊢
  unfold shutdown_filters
  by_cases hs : io.flags.is_shutting_down_filters = true
  · rw [if_pos hs, hbuf] at hfits ⊢
    rw [if_pos hs, hproc]
    have hsend := sends_of_calls hb hfits (io.calls_consolidate_write_state w.hnd_write true)
    dsimp only
    split
    · exact hsend.after ⟨id, rfl⟩ rfl fun _ => rfl
    · exact hsend
  · rw [if_neg hs, if_neg hs]
    exact .of_same hb (.refl io) rfl id

section

variable (h : Accounted c)
include h

lemma Accounted.runs : Accounted { c with item.ctx := task_runs c.item.ctx } :=
  { h with }

section

variable (hs : c.item.ctx.flags.is_closed = false → Sound c)
include hs

lemma finds_ready_accounted
    (hfits : w.fits (shutdown_at (task_runs c.item.ctx))) (elapsed : Bool)
    (hr : finds_ready w.hnd_write (task_runs c.item.ctx)) :
    ((task_runs c.item.ctx).shutdown_filters w.hnd_write elapsed).flags.is_closed ∧
      ((task_runs c.item.ctx).shutdown_filters w.hnd_write elapsed).buffer.write = [] ∧
      c.accepted ++ w.sent (shutdown_at (task_runs c.item.ctx)) = c.written := by
  obtain ⟨hshut, hready⟩ := and_eq_true_iff.1 hr
  have ho : c.item.ctx.flags.is_closed = false := by
    have hopen := (and_eq_true_iff.1 hshut).2
    rw [not_eq_true', Bool.or_comm] at hopen
    exact hopen
  have hb : (task_runs c.item.ctx).buffer.layers = none := h.base
  obtain ⟨hc, hnil⟩ := (process_shutdown_consolidated hb ho (hs ho).handle hshut hfits).ready hready
  have hstop : (task_runs c.item.ctx).shutdown_filters w.hnd_write elapsed =
      ((task_runs c.item.ctx).process_shutdown w.hnd_write).filters_stopped := by
    unfold shutdown_filters
    rw [if_pos hshut]
    dsimp only
    rw [hready, Bool.true_or, if_pos rfl]
  -- the state in which the io task looks
  have hlook : Kept { c with item.ctx := task_runs c.item.ctx }
      { c.tried w (shutdown_at (task_runs c.item.ctx)) with
        item := { c.item with ctx := (task_runs c.item.ctx).process_shutdown w.hnd_write } } := by
    obtain ⟨hbuf, hproc⟩ := process_shutdown_base hb w.hnd_write
    have hsend : Sends (task_runs c.item.ctx) (w.sent (shutdown_at (task_runs c.item.ctx)))
        ((task_runs c.item.ctx).process_shutdown w.hnd_write) := by
      unfold shutdown_at at hfits ⊢
      rw [if_pos hshut, hbuf] at hfits ⊢
      rw [hproc]
      exact sends_of_calls hb hfits (calls_consolidate_write_state _ w.hnd_write true)
    exact h.runs.sends hsend rfl rfl rfl
  rw [hstop]
  refine ⟨rfl, hnil, ?_⟩
  have hbytes := hlook.bytes (or_eq_false_iff.1 (hc.trans ho)).2
  rw [hnil, append_nil] at hbytes
  exact hbytes

lemma poll_ready_accounted
    (hfits : w.fits (shutdown_at (task_runs c.item.ctx))) (elapsed : Bool) :
    Kept c (c.poll_ready elapsed w).2.2 := by
  have hb : (task_runs c.item.ctx).buffer.layers = none := h.base
  have hfilters : Kept { c with item.ctx := task_runs c.item.ctx }
      { c.tried w (shutdown_at (task_runs c.item.ctx)) with
        item := { c.item with ctx := (task_runs c.item.ctx).shutdown_filters w.hnd_write elapsed } } :=
    h.runs.sends (shutdown_filters_sends hb hfits elapsed) rfl rfl rfl
  have hready := finds_ready_accounted h hs hfits elapsed
  -- the tasks are registered, and that is all
  have hctx : ∃ read_task write_task, ((task_runs c.item.ctx).poll_read_ready w.hnd_write elapsed).2.poll_write_ready.2 =
      { (task_runs c.item.ctx).shutdown_filters w.hnd_write elapsed with read_task, write_task } := by
    cases hc : ((task_runs c.item.ctx).shutdown_filters w.hnd_write elapsed).flags.is_closed with
    | true =>
      obtain ⟨hr, hq⟩ := polls_closed hc
      rw [poll_read_ready, hr, hq]
      exact ⟨_, _, rfl⟩
    | false =>
      obtain ⟨r, -, hr, hq⟩ := polls_open hc
      rw [poll_read_ready, hr, hq]
      exact ⟨_, _, rfl⟩
  obtain ⟨read_task, write_task, hctx⟩ := hctx
  unfold poll_ready
  dsimp only
  rw [hctx]
  refine ⟨{ hfilters with ready := fun hr => ?_ }, hfilters.stays, hfilters.accepted⟩
  rcases or_eq_true_iff.1 hr with hr | hr
  · exact hfilters.ready hr
  · exact hready hr

lemma poll_accounted {elapsed : Bool} {w' : Syscall} (hst : c.poll elapsed w rd w' = some c') : Kept c c' := by
  obtain ⟨hfits, hst⟩ := of_guard hst
  have hready := poll_ready_accounted h hs hfits elapsed
  generalize c.poll_ready elapsed w = r at hready hst
  dsimp only at hst
  split at hst
  · exact hready.trans (poll_interest_accounted hready.toAccounted hst)
  · cases hst
    exact hready

lemma step_accounted {i : Step} (hst : c.step i = some c') : Kept c c' := by
  cases i with
  | with_write_buf d w => exact with_write_buf_accounted h hst
  | close =>
    cases hst
    exact close_accounted h
  | poll_shutdown =>
    cases hst
    exact poll_shutdown_accounted h
  | run w => exact run_accounted h hst
  | poll elapsed w rd w' => exact poll_accounted h hs hst
  | event ev rd w => exact event_accounted h hst
  | error err =>
    cases hst
    split
    · exact h.refl
    · exact h.sends (sends_terminate h.base _) (append_nil _).symm rfl rfl

end

end

/-! ## Runs -/

/-- The bytes are accounted for, and an open connection is attended to. -/
structure Inv (c : Closing) : Prop extends Accounted c where
  sound : c.item.ctx.flags.is_closed = false → Sound c

variable {cfg : IoConfig}

lemma inv_new (cfg : IoConfig) : Inv (new cfg) where
  base := rfl
  bytes _ := rfl
  ready := nofun
  sound _ := ⟨⟨rfl, .inr (.inl rfl), .inr (.inl rfl), nofun⟩, ⟨fun _ _ => rfl, nofun⟩, rfl, nofun, nofun⟩

lemma inv_step (h : Inv c) {i : Step} (hst : c.step i = some c') : Inv c' := by
  have hkept := step_accounted h.toAccounted h.sound hst
  refine ⟨hkept.toAccounted, fun ho' => ?_⟩
  have ho := hkept.stays.open ho'
  rcases step_goes h.base (h.sound ho) ho hst with ⟨hc, -⟩ | ⟨-, hs, -⟩
  · cases ho'.symm.trans hc
  · exact hs

lemma inv_reach {ok : Closing → Step → Prop} (h : Reach step ok (new cfg) c) : Inv c :=
  h.inv Inv (inv_new cfg) fun _ _ _ hi _ hst => inv_step hi hst

/-- Output of an open connection is not left alone: `Iops` has the connection in its queue, the io task is going to be
polled, or the poller watches for the socket. Until the connection is stopped, the socket has accepted what was written
before the rest. -/
theorem output_attended (h : Reach step (fun _ _ => True) (new cfg) c) :
    (c.item.ctx.flags.io_stopped = false → c.accepted ++ c.item.ctx.buffer.write = c.written) ∧
      (c.item.ctx.flags.is_closed = false → c.item.ctx.buffer.write ≠ [] →
        c.queued = true ∨ Woken c.item.ctx ∨ c.item.flags.arm_wr = true) := by
  have hinv := inv_reach h
  refine ⟨hinv.bytes, fun ho hne => ?_⟩
  have hs := hinv.sound ho
  cases hop : c.item.ctx.flags.wr_send_op with
  | true => exact .inl (hs.queue hop)
  | false =>
    cases hp : c.item.ctx.flags.wr_paused with
    | true => exact absurd (hs.idle hp hop) hne
    | false =>
      rcases hs.started hp with h | h | h
      · cases hop.symm.trans h
      · exact .inr (.inl h)
      · exact .inr (.inr (hs.armed.trans h))

theorem output_attended_one : ∃ c : Closing, c.written = [1] ∧ c.accepted ++ c.item.ctx.buffer.write = [1] ∧
    (c.queued = true ∨ Woken c.item.ctx ∨ c.item.flags.arm_wr = true) := by
  have hreach : Reach step (fun _ _ => True) (new ⟨64, 64, 32, 0⟩) _ := .of_steps [.with_write_buf [1] ⟨[], .pending⟩] rfl
  have hboth := output_attended hreach
  exact ⟨_, rfl, hboth.1 rfl, hboth.2 rfl nofun⟩

/-! ## Progress -/

lemma written_of_closing {i : Step} (hst : c.step i = some c') (hf : c.item.ctx.flags.io_stopping_filters) :
    c'.written = c.written := by
  cases i with
  | with_write_buf d w =>
    obtain ⟨hany, -⟩ := with_write_buf_some hst
    cases (or_eq_false_iff.1 hany).2.symm.trans hf
  | close | poll_shutdown =>
    cases hst
    rfl
  | run w =>
    change c.run_ops w = some c' at hst
    unfold run_ops at hst
    split at hst
    · obtain ⟨-, rfl⟩ := Lib.of_ite hst
      rfl
    · cases hst
      rfl
  | poll elapsed w rd w' =>
    obtain ⟨-, hst⟩ := of_guard hst
    split at hst
    · obtain ⟨item, -, rfl⟩ := of_map hst
      rfl
    · cases hst
      rfl
  | event ev rd w =>
    obtain ⟨item, -, rfl⟩ := of_map hst
    rfl
  | error err =>
    cases hst
    split <;> rfl

lemma run_effect (hb : c.item.ctx.buffer.layers = none) (h : Sound c) (ho : c.item.ctx.flags.is_closed = false)
    (hst : c.run_ops w = some c') (ho' : c'.item.ctx.flags.is_closed = false) (hop : c.item.ctx.flags.wr_send_op) :
    c'.item.ctx.flags.wr_send_op = false ∧
      (c.item.ctx.flags.wr_paused = false → Woken c'.item.ctx) ∧
      (c.item.ctx.flags.wr_paused → c.item.ctx.buffer.write ≠ [] → c.tries < c'.tries) := by
  unfold run_ops at hst
  rw [if_pos (h.queue hop)] at hst
  obtain ⟨hfits, rfl⟩ := Lib.of_ite hst
  rcases ops_sent hb ho h.handle hfits with ⟨hc, -⟩ | ⟨hop', -, -⟩ | ⟨-, hp, -, heq⟩ | ⟨-, ⟨t, hcalled, htb⟩, ⟨-, hp⟩, hop', -⟩
  · cases ho'.symm.trans hc
  · cases hop'.symm.trans hop
  · rw [heq]
    have ht : Turn c.item.ctx { c.item.ctx with flags.wr_send_op := false }.wake_write_task :=
      ⟨fun hb => hb, rfl, rfl, rfl, .inl rfl, .inr rfl⟩
    refine ⟨rfl, fun _ => ht.woken_write rfl h.write_task, fun hp' => ?_⟩
    cases hp.symm.trans hp'
  · rw [hcalled]
    refine ⟨hop', fun hp' => ?_, fun _ hne => tries_lt c w (htb ▸ hne)⟩
    cases hp.symm.trans hp'

lemma event_tries (hb : c.item.ctx.buffer.layers = none) {ev : Event}
    (hst : c.step (.event ev rd w) = some c') (hev : ev.writable) (hne : c.item.ctx.buffer.write ≠ []) :
    c.tries < c'.tries := by
  obtain ⟨item, -, rfl⟩ := of_map hst
  have hread := event_read_half hb ev.readable rd
  rw [event_at, if_pos hev]
  exact tries_lt c w (hread.ctx.write ▸ hne)

/-- What is asked of those who run the connection, and of the socket. -/
structure Fair (r : Run step (new cfg)) : Prop where
  iops : ∀ n, (r.state n).queued = true → ∃ m ≥ n, ∃ w, r.act m = .run w
  task : ∀ n, Woken (r.state n).item.ctx → ∃ m ≥ n, ∃ elapsed w rd w', r.act m = .poll elapsed w rd w'
  poller : ∀ n, (∀ m ≥ n, (r.state m).item.flags.arm_wr = true) → ∃ m ≥ n, ∃ ev rd w, r.act m = .event ev rd w ∧ ev.writable = true
  socket : ∀ n, (∀ k, ∃ m ≥ n, k ≤ (r.state m).tries) → ∃ m ≥ n, (r.state m).accepted ≠ (r.state n).accepted

section Progress

variable {r : Run step (new cfg)} {n : Nat} {m : Nat}

lemma inv_run (r : Run step (new cfg)) (n : Nat) : Inv (r.state n) := inv_reach (r.reach n)

structure Unfinished (r : Run step (new cfg)) (n : Nat) : Prop where
  isOpen : ∀ m ≥ n, (r.state m).item.ctx.flags.is_closed = false
  closing : ∀ m ≥ n, (r.state m).item.ctx.flags.io_stopping_filters = true

lemma Unfinished.later (h : Unfinished r n) (hm : m ≥ n) : Unfinished r m :=
  ⟨fun k hk => h.isOpen k (Nat.le_trans hm hk), fun k hk => h.closing k (Nat.le_trans hm hk)⟩

lemma Unfinished.stable (h : Unfinished r n) (hm : m ≥ n) : Stable (r.state m) (r.state (m + 1)) := by
  have ho := h.isOpen m hm
  rcases step_goes (inv_run r m).base ((inv_run r m).sound ho) ho (r.next m) with ⟨hc, -⟩ | ⟨-, -, hstable⟩
  · cases (h.isOpen (m + 1) (le_succ_of_le hm)).symm.trans hc
  · exact hstable (h.closing m hm)

lemma unfinished_of_never (hn : (r.state n).item.ctx.flags.io_stopping_filters ∧
    (r.state n).item.ctx.flags.is_closed = false) (hcalm : ∀ m ≥ n, Calm (r.act m))
    (hnever : ∀ m ≥ n, (r.state m).ready = false) : Unfinished r n := by
  have hall : ∀ m ≥ n, (r.state m).item.ctx.flags.io_stopping_filters = true ∧
      (r.state m).item.ctx.flags.is_closed = false := by
    intro m hm
    induction m, hm using le_induction with
    | base => exact hn
    | succ m hm ih =>
      rcases step_goes (inv_run r m).base ((inv_run r m).sound ih.2) ih.2 (r.next m) with ⟨-, hready⟩ | ⟨ho, -, hstable⟩
      · cases (hnever (m + 1) (le_succ_of_le hm)).symm.trans (hready (hcalm m hm))
      · exact ⟨(hstable ih.1).closing ih.1, ho⟩
  exact ⟨fun m hm => (hall m hm).2, fun m hm => (hall m hm).1⟩

structure Stuck (r : Run step (new cfg)) (n : Nat) : Prop extends Unfinished r n where
  output : ∀ m ≥ n, (r.state m).item.ctx.buffer.write = (r.state n).item.ctx.buffer.write
  tries : ∀ m ≥ n, (r.state m).tries = (r.state n).tries

namespace Stuck

section

variable (h : Stuck r n)
include h

lemma later (hm : m ≥ n) : Stuck r m where
  toUnfinished := h.toUnfinished.later hm
  output k hk := (h.output k (Nat.le_trans hm hk)).trans (h.output m hm).symm
  tries k hk := (h.tries k (Nat.le_trans hm hk)).trans (h.tries m hm).symm

lemma not_tried : ¬ (r.state n).tries < (r.state (n + 1)).tries := by
  rw [h.tries (n + 1) (le_succ n)]
  exact Nat.lt_irrefl _

lemma sound : Sound (r.state n) := (inv_run r n).sound (h.isOpen n (Nat.le_refl n))

lemma stable : Stable (r.state n) (r.state (n + 1)) := h.toUnfinished.stable (Nat.le_refl n)

lemma wr_paused (hne : (r.state n).item.ctx.buffer.write ≠ []) (hm : m ≥ n) :
    (r.state m).item.ctx.flags.wr_paused = (r.state n).item.ctx.flags.wr_paused := by
  induction m, hm using le_induction with
  | base => rfl
  | succ m hm ih =>
    have hm' := h.later hm
    exact ((hm'.stable.wr_paused (hm'.tries _ (le_succ m)) (h.output m hm ▸ hne))).trans ih

section

variable (hfair : Fair r)
include hfair

lemma runs (hop : (r.state n).item.ctx.flags.wr_send_op) :
    ∃ m ≥ n, ∃ w, (r.state m).run_ops w = some (r.state (m + 1)) := by
  obtain ⟨m, hm, w, hact⟩ := hfair.iops n (h.sound.queue hop)
  have hst := r.next m
  rw [hact] at hst
  exact ⟨m, hm, w, hst⟩

lemma polls (hw : Woken (r.state n).item.ctx) :
    ∃ m ≥ n, ((r.state m).item.ctx.buffer.write ≠ [] → (r.state m).item.ctx.flags.wr_paused = false →
        (r.state m).item.flags.wr) ∧
      ((r.state m).item.ctx.buffer.write = [] → (r.state m).item.ctx.flags.wr_send_op) := by
  obtain ⟨m, hm, elapsed, w, rd, w', hact⟩ := hfair.task n hw
  have hst := r.next m
  rw [hact] at hst
  have hm' := h.later hm
  rcases poll_goes (inv_run r m).base hm'.sound (hm'.isOpen m (Nat.le_refl m)) hst with ⟨hc, -⟩ | ⟨-, htries, hready⟩
  · cases (hm'.isOpen (m + 1) (le_succ m)).symm.trans hc
  · refine ⟨m, hm, fun hne hp => ?_, hready (hm'.closing m (Nat.le_refl m))⟩
    by_contra hwr
    exact hm'.not_tried (htries hne hp (not_eq_true _ ▸ hwr))

section

variable (hne : (r.state n).item.ctx.buffer.write ≠ []) (hp : (r.state n).item.ctx.flags.wr_paused = false)
include hne hp

lemma not_interested : (r.state n).item.flags.wr ≠ true := by
  intro hwr
  have hall : ∀ m ≥ n, (r.state m).item.flags.wr := by
    intro m hm
    induction m, hm using le_induction with
    | base => exact hwr
    | succ m hm ih =>
      have hm' := h.later hm
      exact hm'.stable.wr (hm'.tries _ (le_succ m)) (h.output m hm ▸ hne) ((h.wr_paused hne hm).trans hp) ih
  obtain ⟨m, hm, ev, rd, w, hact, hev⟩ := hfair.poller n fun m hm => (h.later hm).sound.armed.trans (hall m hm)
  have hst := r.next m
  rw [hact] at hst
  exact (h.later hm).not_tried (event_tries (inv_run r m).base hst hev (h.output m hm ▸ hne))

lemma not_woken : ¬ Woken (r.state n).item.ctx := by
  intro hw
  obtain ⟨m, hm, hwr, -⟩ := h.polls hfair hw
  have hne' : (r.state m).item.ctx.buffer.write ≠ [] := h.output m hm ▸ hne
  have hp' := (h.wr_paused hne hm).trans hp
  exact (h.later hm).not_interested hfair hne' hp' (hwr hne' hp')

end

lemma no_output : (r.state n).item.ctx.buffer.write = [] := by
  by_contra hne
  cases hp : (r.state n).item.ctx.flags.wr_paused with
  | true =>
    -- a send is scheduled, and `Iops` would try
    have hop : ∀ m ≥ n, (r.state m).item.ctx.flags.wr_send_op := by
      intro m hm
      by_contra hop
      refine hne ((h.output m hm).symm.trans ((h.later hm).sound.idle ((h.wr_paused hne hm).trans hp) ?_))
      exact not_eq_true _ ▸ hop
    obtain ⟨m, hm, w, hst⟩ := h.runs hfair (hop n (Nat.le_refl n))
    have hm' := h.later hm
    obtain ⟨hoff, -⟩ := run_effect (inv_run r m).base hm'.sound (hm'.isOpen m (Nat.le_refl m)) hst
      (hm'.isOpen (m + 1) (le_succ m)) (hop m hm)
    cases hoff.symm.trans (hop (m + 1) (le_succ_of_le hm))
  | false =>
    rcases h.sound.started hp with hop | hw | hwr
    · obtain ⟨m, hm, w, hst⟩ := h.runs hfair hop
      have hm' := h.later hm
      have hne' : (r.state m).item.ctx.buffer.write ≠ [] := h.output m hm ▸ hne
      have hp' := (h.wr_paused hne hm).trans hp
      rcases hm'.sound.started hp' with hop' | hw | hwr
      · obtain ⟨-, hwoken, -⟩ := run_effect (inv_run r m).base hm'.sound (hm'.isOpen m (Nat.le_refl m)) hst
          (hm'.isOpen (m + 1) (le_succ m)) hop'
        have hnext := h.later (le_succ_of_le hm)
        refine hnext.not_woken hfair ?_ ((h.wr_paused hne (le_succ_of_le hm)).trans hp) (hwoken hp')
        rw [h.output (m + 1) (le_succ_of_le hm)]
        exact hne
      · exact hm'.not_woken hfair hne' hp' hw
      · exact hm'.not_interested hfair hne' hp' hwr
    · exact h.not_woken hfair hne hp hw
    · exact h.not_interested hfair hne hp hwr

end

lemma paused (hnil : (r.state n).item.ctx.buffer.write = []) : (r.state n).item.ctx.flags.wr_paused := by
  by_contra hp
  exact h.sound.busy (not_eq_true _ ▸ hp) hnil

lemma send_op (hfair : Fair r) : (r.state n).item.ctx.flags.wr_send_op := by
  by_contra hop
  have hnil := h.no_output hfair
  have hall : ∀ m ≥ n, (r.state m).item.ctx.flags.wr_send_op = false := by
    intro m hm
    induction m, hm using le_induction with
    | base => exact not_eq_true _ ▸ hop
    | succ m hm ih => exact (h.later hm).stable.wr_send_op ((h.output m hm).trans hnil) ih
  have hw := h.sound.closing (h.closing n (Nat.le_refl n)) (h.paused hnil) (hall n (Nat.le_refl n))
  obtain ⟨m, hm, -, hready⟩ := h.polls hfair hw
  cases (hall m hm).symm.trans (hready ((h.output m hm).trans hnil))

lemma elim (hfair : Fair r) : False := by
  obtain ⟨m, hm, w, hst⟩ := h.runs hfair (h.send_op hfair)
  have hm' := h.later hm
  obtain ⟨hoff, -⟩ := run_effect (inv_run r m).base hm'.sound (hm'.isOpen m (Nat.le_refl m)) hst
    (hm'.isOpen (m + 1) (le_succ m)) (hm'.send_op hfair)
  cases hoff.symm.trans ((h.later (le_succ_of_le hm)).send_op hfair)

end

end Stuck

lemma Unfinished.output (h : Unfinished r n) (hm : m ≥ n) :
    (r.state m).accepted ++ (r.state m).item.ctx.buffer.write = (r.state n).written := by
  have hwritten : (r.state m).written = (r.state n).written := by
    induction m, hm using le_induction with
    | base => rfl
    | succ m hm ih => exact (written_of_closing (r.next m) (h.closing m hm)).trans ih
  rw [← hwritten]
  exact (inv_run r m).bytes (or_eq_false_iff.1 (h.isOpen m hm)).2

lemma Unfinished.shrinks (h : Unfinished r n) (hm : m ≥ n) :
    (r.state (m + 1)).item.ctx.buffer.write.length ≤ (r.state m).item.ctx.buffer.write.length := by
  have hlen := congrArg length (h.output hm)
  have hm' : m + 1 ≥ n := le_succ_of_le hm
  have hlen' := congrArg length (h.output hm')
  rw [length_append] at hlen hlen'
  have hacc := (step_accounted (inv_run r m).toAccounted (inv_run r m).sound (r.next m)).accepted.length_le
  omega

lemma Unfinished.stuck (h : Unfinished r n) (hfair : Fair r) : ∃ k, Stuck r k := by
  obtain ⟨k, hk, hconst⟩ := eventually_const (f := fun m => (r.state m).item.ctx.buffer.write.length) fun m hm => h.shrinks hm
  have hk' := h.later hk
  -- what the socket has accepted is determined by how much is left
  have hparts : ∀ m ≥ k, (r.state m).accepted = (r.state k).accepted ∧
      (r.state m).item.ctx.buffer.write = (r.state k).item.ctx.buffer.write := by
    intro m hm
    exact List.append_inj' ((hk'.output hm).trans (hk'.output (Nat.le_refl k)).symm) (hconst m hm)
  have hbounded : ∃ b, ∀ m ≥ k, (r.state m).tries < b := by
    by_contra hno
    simp only [not_exists, not_forall, Nat.not_lt, exists_prop] at hno
    obtain ⟨m, hm, hne⟩ := hfair.socket k hno
    exact hne (hparts m hm).1
  obtain ⟨b, hb⟩ := hbounded
  obtain ⟨j, hj, htries⟩ := eventually_const (f := fun m => b - (r.state m).tries) fun m hm =>
    Nat.sub_le_sub_left (hk'.stable hm).tries b
  refine ⟨j, h.later (Nat.le_trans hk hj), fun m hm => ?_, fun m hm => ?_⟩
  · exact (hparts m (Nat.le_trans hj hm)).2.trans (hparts j hj).2.symm
  · have heq := htries m hm
    have hlt := hb m (Nat.le_trans hj hm)
    omega

lemma eventually_ready (hfair : Fair r) (hn : (r.state n).item.ctx.flags.io_stopping_filters ∧
    (r.state n).item.ctx.flags.is_closed = false) (hcalm : ∀ m ≥ n, Calm (r.act m)) : ∃ m ≥ n, (r.state m).ready := by
  by_contra hnever
  push Not at hnever
  have hunfinished := unfinished_of_never hn hcalm fun m hm => not_eq_true _ ▸ hnever m hm
  obtain ⟨k, hstuck⟩ := hunfinished.stuck hfair
  exact hstuck.elim hfair

end Progress

/-- When everything is found ready all that was written has been accepted. And if nothing ends the connection but the close,
everything is found ready at some time. -/
theorem close_complete (cfg : IoConfig) :
    (∀ c, Reach step (fun _ _ => True) (new cfg) c → c.ready = true → c.accepted = c.written) ∧
      ∀ r : Run step (new cfg), Fair r → ∀ n, (r.state n).item.ctx.flags.io_stopping_filters = true ∧
        (r.state n).item.ctx.flags.is_closed = false → (∀ m ≥ n, Calm (r.act m)) → ∃ m ≥ n, (r.state m).ready = true :=
  ⟨fun _ h hr => ((inv_reach h).ready hr).2.2, fun _ hfair _ hn hcalm => eventually_ready hfair hn hcalm⟩

def idle : Step := .poll false ⟨[], .pending⟩ .pending ⟨[], .pending⟩

/-- A run that ends with the io task being polled again and again, and in which `Iops` runs for the last time in step `k`. -/
lemma fair_of_loop (cfg : IoConfig) (is : List Step) (k b : Nat)
    (hsome : ∀ n < is.length, (step (Lib.trace step (new cfg) (is.getD · idle) n) (is.getD n idle)).isSome)
    (hloop : step (Lib.trace step (new cfg) (is.getD · idle) is.length) idle =
      some (Lib.trace step (new cfg) (is.getD · idle) is.length))
    (hk : is.getD k idle = .run w) (hlast : k < is.length)
    (hqueued : ∀ n ≤ is.length, k < n → (Lib.trace step (new cfg) (is.getD · idle) n).queued = false)
    (htries : ∀ n ≤ is.length, (Lib.trace step (new cfg) (is.getD · idle) n).tries < b)
    (harm : (Lib.trace step (new cfg) (is.getD · idle) is.length).item.flags.arm_wr = false) :
    Fair (Run.of_loop is idle hsome hloop) where
  iops n hq := by
    rcases Nat.lt_or_ge k n with hkn | hkn
    · rcases Nat.le_total n is.length with hn | hn
      · cases (hqueued n hn hkn).symm.trans hq
      · change (Lib.trace step (new cfg) _ n).queued = true at hq
        rw [Run.trace_loop hloop hn] at hq
        cases (hqueued _ (Nat.le_refl _) hlast).symm.trans hq
    · exact ⟨k, hkn, w, hk⟩
  task n _ := ⟨max n is.length, Nat.le_max_left _ _, _, _, _, _, List.getD_eq_default _ _ (Nat.le_max_right _ _)⟩
  poller n hn := by
    have hmax := hn (max n is.length) (Nat.le_max_left _ _)
    change (Lib.trace step (new cfg) _ _).item.flags.arm_wr = true at hmax
    rw [Run.trace_loop hloop (Nat.le_max_right _ _)] at hmax
    cases harm.symm.trans hmax
  socket n hn := by
    obtain ⟨m, -, hm⟩ := hn b
    refine absurd (Run.of_loop_all (q := fun _ (c : Closing) _ => c.tries < b) ?_ ?_ m) (Nat.not_lt_of_ge hm)
    · exact fun n hn => htries n (Nat.le_of_lt hn)
    · exact fun _ => htries _ (Nat.le_refl _)

/-- `Iops` writes the only byte after the close, and the io task finds that all is ready. -/
theorem close_complete_one_byte : ∃ r : Run step (new ⟨64, 64, 32, 0⟩), Fair r ∧ (r.state 1).written = [1] ∧
    (r.state 2).item.ctx.flags.io_stopping_filters = true ∧ (∀ m, Calm (r.act m)) ∧
    ∃ m ≥ 2, (r.state m).ready = true ∧ (r.state m).accepted = (r.state m).written := by
  obtain ⟨r, hfair, hcalm, hwritten, hclosing⟩ : ∃ r : Run step (new ⟨64, 64, 32, 0⟩), Fair r ∧ (∀ m, Calm (r.act m)) ∧
      (r.state 1).written = [1] ∧
      (r.state 2).item.ctx.flags.io_stopping_filters = true ∧ (r.state 2).item.ctx.flags.is_closed = false := by
    refine ⟨_, fair_of_loop (w := ⟨[1], .ready 1⟩) ⟨64, 64, 32, 0⟩
      [.with_write_buf [1] ⟨[], .pending⟩, .close, .run ⟨[1], .ready 1⟩, idle] 2 2
      (by decide) (by decide) rfl (by decide) (by decide) (by decide) rfl, ?_, rfl, rfl, rfl⟩
    exact Run.of_loop_all (q := fun _ _ i => Calm i) (by decide) fun _ => by decide
  obtain ⟨m, hm, hready⟩ := (close_complete _).2 r hfair 2 hclosing fun m _ => hcalm m
  exact ⟨r, hfair, hwritten, hclosing.1, hcalm, m, hm, hready, (close_complete _).1 _ (r.reach m) hready⟩

/-- The peer closes its side after a write has met a full socket: the byte is never sent, although nothing has failed. -/
theorem close_incomplete : ∃ r : Run step (new ⟨64, 64, 32, 0⟩), Fair r ∧ (r.state 4).written = [1] ∧
    (r.state 4).item.ctx.flags.io_stopping_filters = true ∧ (r.state 4).item.ctx.flags.is_closed = false ∧
    (∀ m, r.act m = .event ⟨true, false, false⟩ .eof ⟨[], .pending⟩ ∨ Calm (r.act m)) ∧
    ∀ m, (r.state m).ready = false ∧ (r.state m).accepted = [] := by
  have hfair := fair_of_loop (w := ⟨[1], .pending⟩) ⟨64, 64, 32, 0⟩
    [idle, .with_write_buf [1] ⟨[], .pending⟩, .run ⟨[1], .pending⟩, .close, .event ⟨true, false, false⟩ .eof ⟨[], .pending⟩, idle] 2 2
    (by decide) (by decide) rfl (by decide) (by decide) (by decide) rfl
  refine ⟨_, hfair, rfl, rfl, rfl, ?_, ?_⟩
  · exact Run.of_loop_all (q := fun _ _ (i : Step) => i = .event ⟨true, false, false⟩ .eof ⟨[], .pending⟩ ∨ Calm i) (by decide)
      fun _ => by decide
  · exact Run.of_loop_all (q := fun _ (c : Closing) _ => c.ready = false ∧ c.accepted = []) (by decide) fun _ => by decide

end Geario.Polling.Closing
