import Geario.Uring.Write
/-!
# The order of what is sent on the io_uring driver

A zero-copy send that was taken in part keeps the tail of its page until the
`notif`, but `wr_op` is released before, at the `more` completion. A send that is
submitted in between overtakes the tail. If nothing is sent as long as there is
such a tail, the socket gets what the application wrote, in order, and at any
time at most one operation owes a part of it.
-/
open Geario.Io
open Lib (Reach Slab of_bind of_map)
open List Option

namespace Geario.Uring

/-- The result has been reported, and a part of the page was not taken. -/
def Slot.short (e : Slot) : Bool := !e.active && e.owed ≠ []

namespace Conn

variable {lim : Limits} {cfg : IoConfig} {layers : Option Nat} {no_zc : Bool} {c c' : Conn} {i : Step} {cuts : List Nat}
  {k : Nat} {e : Slot} {key : Nat}

def owed (c : Conn) (k : Nat) : Data := (c.ops.get k).elim [] Slot.owed

def Step.sends : Step → Bool
  | .direct _ _ => true
  | .poll _ cuts _ => cuts ≠ []
  | .completed _ _ cuts _ => cuts ≠ []
  | .notif _ cuts _ => cuts ≠ []
  | .canceled _ cuts _ => cuts ≠ []
  | _ => false

/-- The operations other than the one whose `notif` is handled, which gives back its tail first. -/
def others (c : Conn) : Step → List Slot
  | .notif k _ _ => (c.ops.remove k).values
  | _ => c.ops.values

/-- Nothing is sent as long as the tail of a zero-copy send is waiting. -/
def InOrder (c : Conn) (i : Step) : Prop := i.sends = true → ∀ e ∈ c.others i, e.short = false

instance (c : Conn) (i : Step) : Decidable (InOrder c i) := by
  unfold InOrder
  infer_instance

structure Ordered (c : Conn) : Prop where
  flow : c.item.ctx.Flow
  bytes : ∃ k, c.sent ++ (c.owed k ++ c.item.ctx.buffer.output) = c.written ∧ ∀ j, j ≠ k → c.owed j = []
  active : ∀ k e, c.ops.get k = some e → e.active = true → c.item.wr_op = some k
  kept : ∀ k e, c.ops.get k = some e → e.Kept
  short : ∀ k e, c.ops.get k = some e → e.short = true → c.item.wr_op = none

lemma owed_insert {ops : Slab Slot} (hops : c'.ops = ops.insert k e) (j : Nat) :
    c'.owed j = if j = k then e.owed else (ops.get j).elim [] Slot.owed := by
  rw [owed, hops, Slab.get_insert]
  split <;> rfl

lemma owed_remove {ops : Slab Slot} (hops : c'.ops = ops.remove k) (j : Nat) :
    c'.owed j = if j = k then [] else (ops.get j).elim [] Slot.owed := by
  rw [owed, hops, Slab.get_remove]
  split <;> rfl

lemma owed_of_get (hk : c.ops.get k = some e) : c.owed k = e.owed := by
  rw [owed, hk]
  rfl

namespace Ordered

variable {k : Nat} {e : Slot}

lemma alone (h : c.Ordered) (hk : c.ops.get k = some e) (ha : e.active) (j : Nat) (hj : j ≠ k) : c.owed j = [] := by
  have hop := h.active k e hk ha
  rw [owed]
  cases hget : c.ops.get j with
  | none => rfl
  | some e' =>
    by_contra hne
    cases ha' : e'.active with
    | true => exact hj (some.inj ((h.active j e' hget ha').symm.trans hop))
    | false =>
      have hshort : e'.short := by simpa [Slot.short, ha'] using hne
      cases hop.symm.trans (h.short j e' hget hshort)

lemma none_owed (h : c.Ordered) (hop : c.item.wr_op = none) (hs : ∀ k e, c.ops.get k = some e → e.short = false)
    (j : Nat) : c.owed j = [] := by
  rw [owed]
  cases hget : c.ops.get j with
  | none => rfl
  | some e' =>
    by_contra hne
    cases ha' : e'.active with
    | true => cases hop.symm.trans (h.active j e' hget ha')
    | false =>
      have hshort : e'.short := by simpa [Slot.short, ha'] using hne
      cases hshort.symm.trans (hs j e' hget)

lemma bytes_at (h : c.Ordered) (hk : ∀ j, j ≠ k → c.owed j = []) :
    c.sent ++ (c.owed k ++ c.item.ctx.buffer.output) = c.written := by
  obtain ⟨k₀, hb, hothers⟩ := h.bytes
  by_cases heq : k₀ = k
  · rw [← heq]
    exact hb
  · rw [hothers k (Ne.symm heq), ← hk k₀ heq]
    exact hb

lemma congr (h : c.Ordered) (hk : IoState.Keeps c.item.ctx c'.item.ctx) (hop : c'.item.wr_op = c.item.wr_op)
    (hops : c'.ops = c.ops) (hw : c'.written = c.written) (hs : c'.sent = c.sent) : c'.Ordered where
  flow := hk.flow
  bytes := by
    unfold owed
    rw [hops, hw, hs, hk.output]
    exact h.bytes
  active := by
    rw [hops, hop]
    exact h.active
  kept := by
    rw [hops]
    exact h.kept
  short := by
    rw [hops, hop]
    exact h.short

lemma did {slot : Option Nat} {again : Bool} {item item' : StreamItem}
    {sub : Option Submission} {rest : Data} (h : Ordered { c with item }) (hs : Sent item again cuts key item' sub rest)
    (hshort : again → cuts ≠ [] → ∀ k e, c.ops.get k = some e → e.short = false)
    (hd : c.did slot (item', sub) = some c') : c'.Ordered := by
  obtain ⟨hflow, hout, hflags⟩ := hs.flow h.flow
  rcases hs.wr_op with ⟨rfl, hop⟩ | ⟨hcuts, hagain, hnone, hop, s, rfl, rfl⟩
  · cases hd
    exact h.congr ⟨hflow, hout.trans hs.output, fun hany => hflags ▸ hany⟩ hop rfl rfl rfl
  · have howed := h.none_owed hnone (hshort hagain hcuts)
    have hb := h.bytes_at (k := s.key) fun j _ => howed j
    obtain ⟨-, rfl⟩ := Lib.of_ite_not hd
    refine ⟨hflow, ⟨s.key, ?_, fun j hj => ?_⟩, ?_, ?_, ?_⟩
    · rw [owed_insert rfl, if_pos rfl]
      rw [hout, ← hb, howed, ← hs.output]
      rfl
    · rw [owed_insert rfl, if_neg hj]
      exact howed j
    · refine Slab.forall_insert (fun _ => hop) fun k e _ hk ha => ?_
      cases hnone.symm.trans (h.active k e hk ha)
    · exact Slab.forall_insert nofun fun k e _ => h.kept k e
    · refine Slab.forall_insert nofun fun k e _ hk hsh => ?_
      cases hsh.symm.trans (hshort hagain hcuts k e hk)

lemma requeued (h : c.Ordered) (hk : c.ops.get k = some e) (hops : c'.ops = c.ops.remove k)
    (hflow : c'.item.ctx.Flow) (hout : c'.item.ctx.buffer.output = e.owed ++ c.item.ctx.buffer.output)
    (hop : c'.item.wr_op = c.item.wr_op ∨ c'.item.wr_op = none ∧ e.active) (hw : c'.written = c.written)
    (hs : c'.sent = c.sent) : c'.Ordered := by
  have hget : ∀ j e', c'.ops.get j = some e' → j ≠ k ∧ c.ops.get j = some e' := by
    intro j e' hj
    rw [hops] at hj
    exact Slab.get_of_remove hj
  refine ⟨hflow, ?_, fun j e' hj ha => ?_, fun j e' hj => h.kept j e' (hget j e' hj).2, fun j e' hj hsh => ?_⟩
  · obtain ⟨k₀, hb, hothers⟩ := h.bytes
    refine ⟨k₀, ?_, fun j hj => ?_⟩
    · rw [owed_remove hops, hout, hw, hs, ← hb]
      split
      next heq =>
        rw [heq, owed_of_get hk]
        rfl
      next hne =>
        rw [← owed_of_get hk, hothers k (Ne.symm hne)]
        rfl
    · rw [owed_remove hops]
      split
      · rfl
      · exact hothers j hj
  · obtain ⟨hne, hj⟩ := hget j e' hj
    rcases hop with hop | ⟨-, hact⟩
    · exact hop.trans (h.active j e' hj ha)
    · exact absurd (some.inj ((h.active j e' hj ha).symm.trans (h.active k e hk hact))) hne
  · rcases hop with hop | ⟨hop, -⟩
    · exact hop.trans (h.short j e' (hget j e' hj).2 hsh)
    · exact hop

lemma no_short (h : c.Ordered) (hk : c.ops.get k = some e) (ha : e.active) (j : Nat) (e' : Slot)
    (hj : c.ops.get j = some e') : e'.short = false := by
  by_contra hsh
  rw [Bool.not_eq_false] at hsh
  cases (h.active k e hk ha).symm.trans (h.short j e' hj hsh)

end Ordered

section

variable (h : c.Ordered)
include h

section

variable (hk : c.ops.get k = some e)
include hk

variable {res : Res}

lemma ordered_taken (hq : e.kernel = .queued) (hst : c.taken k e res = some c') : c'.Ordered := by
  have hact : e.active := by rw [Slot.active, hq]
  have howed : e.owed = e.op.bytes := by rw [Slot.owed, hq]
  have hb := h.bytes_at (h.alone hk hact)
  rw [owed_of_get hk, howed] at hb
  obtain ⟨sent, rfl, hsent⟩ := taken_spec hst
  refine ⟨h.flow, ⟨k, ?_, fun j hj => ?_⟩, ?_, ?_, ?_⟩
  · rw [owed_insert rfl, if_pos rfl, ← hb, ← append_assoc, ← append_assoc c.sent, ← hsent]
    rfl
  · rw [owed_insert rfl, if_neg hj]
    exact h.alone hk hact j hj
  · exact Slab.forall_insert (fun _ => h.active k e hk hact) fun j e' _ => h.active j e'
  · exact Slab.forall_insert (by rintro _ ⟨⟩) fun j e' _ => h.kept j e'
  · exact Slab.forall_insert (by rintro ⟨⟩) fun j e' _ => h.short j e'

lemma ordered_ended {item : StreamItem}
    (hst : c.ended k e res (item.send_ended lim e.op res cuts key) = some c')
    (howed : e.owed = e.op.bytes.drop (accepted res)) (hctx : item.ctx = c.item.ctx)
    (hop : item.wr_op = c.item.wr_op ∨ item.wr_op = none ∧ e.active)
    (hshort : cuts ≠ [] → ∀ j e', j ≠ k → c.ops.get j = some e' → e'.short = false) : c'.Ordered := by
  obtain ⟨⟨item', sub⟩, hs, hd⟩ := of_bind hst
  unfold StreamItem.send_ended at hs
  obtain ⟨hflow, hout⟩ := flow_requeue h.flow e.op res
  have hk' := keeps_write_ended hflow res
  rw [hctx] at hs
  obtain ⟨rest, hsent⟩ := sent_send_if hk'.flow hs
  refine Ordered.did ?_ hsent (fun _ hcuts j e' hj => ?_) hd
  · refine h.requeued hk rfl hk'.flow ?_ hop rfl rfl
    rw [hk'.output, hout, howed]
  · obtain ⟨hne, hj⟩ := Slab.get_of_remove hj
    exact hshort hcuts j e' hne hj

lemma ordered_more {buf : Data} {result : Option Res}
    (hdone : e.kernel = .done res) (hsend : e.op = .Send buf result)
    (hst : (c.item.more_completed lim buf res cuts key).bind ({ c with ops := c.ops.insert k (e.reported buf res) }.did none) =
      some c') : c'.Ordered := by
  have hact : e.active := by rw [Slot.active, hdone]
  have hop := h.active k e hk hact
  have howed := Slot.owed_reported hdone hsend
  -- the send is noted and `wr_op` is released
  have hnoted : Ordered { c with ops := c.ops.insert k (e.reported buf res), item.wr_op := none } := by
    refine ⟨h.flow, ⟨k, ?_, fun j hj => ?_⟩, ?_, ?_, fun _ _ _ _ => rfl⟩
    · rw [owed_insert rfl, if_pos rfl, howed, ← owed_of_get hk]
      exact h.bytes_at (h.alone hk hact)
    · rw [owed_insert rfl, if_neg hj]
      exact h.alone hk hact j hj
    · refine Slab.forall_insert nofun fun j e' hne hj ha => ?_
      exact absurd (some.inj ((h.active j e' hj ha).symm.trans hop)) hne
    · exact Slab.forall_insert (e.kept_reported buf res) fun j e' _ => h.kept j e'
  obtain ⟨⟨item', sub⟩, hs, hd⟩ := of_bind hst
  obtain ⟨rest, hsent⟩ := sent_send_if (by exact h.flow) hs
  refine hnoted.did hsent (fun hall _ => Slab.forall_insert ?_ fun j e' _ => h.no_short hk hact j e') hd
  · -- the next pages follow only if the page was taken
    have hnil : e.owed = [] := by
      rw [Slot.owed, hdone, hsend]
      cases res with
      | ok n =>
        have hlen : buf.length ≤ n := of_decide_eq_true hall
        simpa [Op.bytes, Op.pages] using hlen
      | error err => cases hall
    simp [Slot.short, howed, hnil]

lemma ordered_canceled {early : Bool} (hq : e.kernel = .queued)
    (hst : (c.item.write_canceled lim e.op cuts key).bind
      ({ c with ops := c.ops.remove k, early_flush := early }.did none) = some c') : c'.Ordered := by
  have hact : e.active := by rw [Slot.active, hq]
  obtain ⟨⟨item', sub⟩, hs, hd⟩ := of_bind hst
  obtain ⟨hflow, hout⟩ := flow_prepend h.flow e.op.pages
  have hk' := hflow.update_write_status (.ok false)
  obtain ⟨rest, hsent⟩ := sent_send_if hk'.flow hs
  refine Ordered.did ?_ hsent (fun _ _ j e' hj => ?_) hd
  · refine h.requeued hk rfl hk'.flow ?_ (.inr ⟨rfl, hact⟩) rfl rfl
    rw [hk'.output, hout, Slot.owed, hq]
    rfl
  · exact h.no_short hk hact j e' (Slab.get_of_remove hj).2

end

lemma ordered_poll {elapsed : Bool} (hshort : cuts ≠ [] → ∀ k e, c.ops.get k = some e → e.short = false)
    (hst : c.poll_readiness lim elapsed cuts key = some c') : c'.Ordered := by
  obtain ⟨⟨item', sub⟩, hs, hd⟩ := of_bind hst
  have hread := h.flow.poll_read_ready elapsed
  have hk := hread.trans hread.flow.poll_write_ready
  obtain ⟨rest, hsent⟩ := sent_send_if hk.flow hs
  refine Ordered.did ?_ hsent ?_ hd
  · exact h.congr hk rfl rfl rfl rfl
  · exact fun _ => hshort

lemma ordered_direct {d : Data} {n : Nat} (hshort : ∀ k e, c.ops.get k = some e → e.short = false)
    (hst : c.try_write_vectored d n = some c') : c'.Ordered := by
  obtain ⟨hcond, hst⟩ := ite_none_left_eq_some.1 hst
  simp only [Bool.or_eq_true, not_or, Bool.not_eq_true, decide_eq_false_iff_not, ne_eq, not_not] at hcond
  obtain ⟨⟨⟨⟨⟨⟨⟨-, hsize⟩, -⟩, -⟩, hop⟩, -⟩, -⟩, -⟩ := hcond
  rw [isSome_eq_false_iff, isNone_iff_eq_none] at hop
  split at hst
  · cases hst
    have hk := h.flow.terminate none
    exact h.congr (hk.trans (hk.flow.keeps_of_buffer rfl id)) rfl rfl rfl rfl
  · cases hst
    have howed := h.none_owed hop hshort
    have hb := h.bytes_at (k := 0) fun j _ => howed j
    rw [howed, h.flow.write_buf_size_eq_zero.1 hsize, append_nil, append_nil] at hb
    refine { h with bytes := ⟨0, ?_, fun j _ => howed j⟩ }
    change _ ++ (c.owed 0 ++ c.item.ctx.buffer.output) = _
    rw [howed, h.flow.write_buf_size_eq_zero.1 hsize, ← hb, append_nil, append_nil]

lemma ordered_step (hok : InOrder c i) (hst : c.step lim i = some c') : c'.Ordered := by
  cases i with
  | write d =>
    obtain ⟨ctx, hctx, rfl⟩ := of_map hst
    obtain ⟨hflow, hout, -⟩ := h.flow.write hctx
    obtain ⟨k, hb, hothers⟩ := h.bytes
    refine ⟨hflow, ⟨k, ?_, hothers⟩, h.active, h.kept, h.short⟩
    change c.sent ++ (c.owed k ++ ctx.buffer.output) = c.written ++ d
    rw [hout, ← hb]
    simp only [append_assoc]
  | direct d n =>
    refine ordered_direct h (fun k e hk => ?_) hst
    exact hok rfl e (Slab.mem_values.2 ⟨k, hk⟩)
  | send_buf =>
    cases hst
    exact h.congr h.flow.ops_send_buf rfl rfl rfl rfl
  | flush full =>
    cases hst
    exact h.congr (h.flow.poll_flush full) rfl rfl rfl rfl
  | close =>
    cases hst
    exact h.congr h.flow.start_shutdown rfl rfl rfl rfl
  | poll elapsed cuts key =>
    refine ordered_poll h (fun hcuts k e hk => ?_) hst
    exact hok (decide_eq_true hcuts) e (Slab.mem_values.2 ⟨k, hk⟩)
  | take k res =>
    obtain ⟨e, hk, hq, hst⟩ := step_take hst
    exact ordered_taken h hk hq hst
  | completed k more cuts key =>
    cases more with
    | true =>
      obtain ⟨e, buf, result, res, hk, hdone, hsend, hst⟩ := step_more hst
      exact ordered_more h hk hdone hsend hst
    | false =>
      obtain ⟨e, res, hk, hdone, hst⟩ := step_last hst
      have hact : e.active := by rw [Slot.active, hdone]
      refine ordered_ended h hk hst (by rw [Slot.owed, hdone]) rfl (.inr ⟨rfl, hact⟩) fun _ j e' _ hj => ?_
      exact h.no_short hk hact j e' hj
  | notif k cuts key =>
    obtain ⟨e, res, hk, hnoted, hst⟩ := step_notif hst
    have hres := h.kept k e hk res hnoted
    refine ordered_ended h hk hst (by rw [Slot.owed, hnoted, hres]) rfl (.inl rfl) fun hcuts j e' hne hj => ?_
    refine hok (decide_eq_true hcuts) e' (Slab.mem_values.2 ⟨j, ?_⟩)
    rw [Slab.get_remove, if_neg hne]
    exact hj
  | canceled k cuts key =>
    obtain ⟨e, hk, hq, hst⟩ := step_canceled hst
    exact ordered_canceled h hk hq hst
  | stop err =>
    cases hst
    exact h.congr (h.flow.terminate err) rfl rfl rfl rfl

end

lemma ordered_new : (new cfg layers no_zc).Ordered where
  flow := .new cfg layers
  bytes := by
    refine ⟨0, ?_, fun _ _ => rfl⟩
    exact (Stack.passing_new layers).2
  active := nofun
  kept := nofun
  short := nofun

/-- If nothing is sent while a tail is waiting, the socket gets what was written from the start, and what is missing is in
the write buffer behind what one of the operations owes. -/
theorem sent_in_order (hr : Reach (step lim) InOrder (new cfg layers no_zc) c) :
    c.sent <+: c.written ∧
      ∃ k, c.sent ++ (c.owed k ++ c.item.ctx.buffer.output) = c.written ∧ ∀ j, j ≠ k → c.owed j = [] := by
  have h : c.Ordered := hr.inv Ordered ordered_new fun _ _ _ h hok hst => ordered_step h hok hst
  obtain ⟨k, hb, hothers⟩ := h.bytes
  exact ⟨⟨_, hb⟩, k, hb, hothers⟩

/-- Two of four bytes are taken by a zero-copy send, and the tail follows after the `notif`. -/
theorem sent_after_notif : ∃ c : Conn, c.sent = [1, 2, 3] ∧ c.sent <+: c.written := by
  have hreach : Reach (step ⟨2, 16⟩) InOrder (new ⟨64, 64, 32, 0⟩ none false) _ := .of_steps
      [.write [1, 2, 3, 4], .send_buf, .poll false [4] 1, .take 1 (.ok 2), .completed 1 true [] 0, .write [5],
        .notif 1 [2, 1] 2, .take 2 (.ok 1)] rfl
  refine ⟨_, ?_, (sent_in_order hreach).1⟩
  rfl

/-- The same send, with the io task running before the `notif`: the byte that was written later is sent before the tail. -/
theorem tail_overtaken : ∃ c : Conn, Reach (step ⟨2, 16⟩) (fun _ _ => True) (new ⟨64, 64, 32, 0⟩ none false) c ∧
    c.written = [1, 2, 3, 4, 5] ∧ c.sent = [1, 2, 5] ∧ ¬ c.sent <+: c.written := by
  have hreach : Reach (step ⟨2, 16⟩) (fun _ _ => True) (new ⟨64, 64, 32, 0⟩ none false) _ := .of_steps
      [.write [1, 2, 3, 4], .send_buf, .poll false [4] 1, .take 1 (.ok 2), .completed 1 true [] 0, .write [5],
        .poll false [1] 2, .take 2 (.ok 1)] rfl
  refine ⟨_, hreach, rfl, rfl, ?_⟩
  decide

end Conn

end Geario.Uring
