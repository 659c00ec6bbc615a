import Geario.Polling.Driver
/-!
# Errors and events reach their own connection

Errors are queued, and events come in batches, with the id of a stream. An id is
given to a new stream as soon as the one before has been removed. An error that
is applied, or an event that is handled, after that goes to the new stream.
-/
open Lib List Option

namespace Geario.Polling

namespace Driver

variable {s s' : Driver} {r : StreamId} {id n : Nat} {fails : Bool} {x : IdType} {streams streams' : Slab Entry} {conns : List Conn} {c : Conn}
  {r' : StreamId}

/-- A stream takes an id for which no error is queued and no event waits, and under which the poller has no descriptor. -/
def Fresh (s : Driver) : Step → Prop
  | .register id _ =>
    (∀ r ∈ s.changes, r.id ≠ id) ∧ (∀ r ∈ s.events, r.id ≠ id) ∧ ∀ c ∈ s.conns, c.attached = true → c.id ≠ id
  | .interest _ | .drop_ctl _ | .drop_weak _ | .write _ | .finish _ | .turn | .apply | .wait _ | .event | .handled | .tick | .pop
  | .close _ => True

instance (s : Driver) (i : Step) : Decidable (s.Fresh i) := by
  cases i <;> unfold Fresh <;> infer_instance

def Own (streams : Slab Entry) (r : StreamId) : Prop := ∀ e, streams.get r.id = some e → e.conn = r.conn

def Keeps (streams streams' : Slab Entry) : Prop :=
  ∀ id e', streams'.get id = some e' → ∃ e, streams.get id = some e ∧ e.conn = e'.conn

lemma Keeps.refl (streams : Slab Entry) : Keeps streams streams := fun _ e h => ⟨e, h, rfl⟩

lemma Own.keep (h : Own streams r) (hk : Keeps streams streams') : Own streams' r := by
  intro e he
  obtain ⟨e', he', heq⟩ := hk r.id e he
  exact heq ▸ h e' he'

lemma own_of_get {e : Entry} (h : streams.get id = some e) : Own streams ⟨id, e.conn⟩ := by
  intro e' h'
  rw [some.inj (h'.symm.trans h)]

def Detaches (conns conns' : List Conn) : Prop :=
  ∀ (n : Nat) (c' : Conn), conns'[n]? = some c' → ∃ c : Conn, conns[n]? = some c ∧ c.id = c'.id ∧ (c'.attached = true → c.attached = true)

lemma Detaches.refl (conns : List Conn) : Detaches conns conns := fun _ c h => ⟨c, h, rfl, id⟩

lemma Detaches.trans {conns' conns'' : List Conn} (h : Detaches conns conns') (h' : Detaches conns' conns'') : Detaches conns conns'' := by
  intro n c'' hc''
  obtain ⟨c', hc', hid', ha'⟩ := h' n c'' hc''
  obtain ⟨c, hc, hid, ha⟩ := h n c' hc'
  exact ⟨c, hc, hid.trans hid', fun h => ha (ha' h)⟩

lemma detaches_modify (conns : List Conn) (n : Nat) {f : Conn → Conn} (hid : ∀ c, (f c).id = c.id)
    (ha : ∀ c, (f c).attached → c.attached) : Detaches conns (conns.modify n f) := by
  intro m c' hc'
  rcases at_of_modify hc' with ⟨rfl, c, hc, rfl⟩ | ⟨-, hc⟩
  · exact ⟨c, hc, (hid c).symm, ha c⟩
  · exact ⟨c', hc, rfl, id⟩

lemma detaches_attached (conns : List Conn) (n : Nat) : Detaches conns (conns.modify n fun c => { c with attached := false }) :=
  detaches_modify conns n (fun _ => rfl) fun _ => nofun

lemma put_id (c : Conn) (p : Place) (x : IdType) : (c.put p x).id = c.id := by
  cases x <;> rfl

lemma put_attached (c : Conn) (p : Place) (x : IdType) : (c.put p x).attached = c.attached := by
  cases x <;> rfl

lemma detaches_place (s : Driver) (x : IdType) (p : Place) : Detaches s.conns (s.place x p).conns :=
  detaches_modify s.conns x.ref.conn (fun c => put_id c p x) fun c h => put_attached c p x ▸ h

structure Owned (s : Driver) : Prop where
  changes {r : StreamId} (h : r ∈ s.changes) : Own s.streams r
  events {r : StreamId} (h : r ∈ s.events) : Own s.streams r
  attached {n : Nat} {c : Conn} (h : s.conns[n]? = some c) (ha : c.attached = true) : Own s.streams ⟨c.id, n⟩
  error {r : StreamId} (h : s.taken = some (.error r)) : ∃ e, s.streams.get r.id = some e ∧ e.conn = r.conn
  event {r : StreamId} (h : s.taken = some (.event r)) : ∃ e, s.streams.get r.id = some e ∧ e.conn = r.conn

lemma owned_new : Owned new := ⟨nofun, nofun, nofun, nofun, nofun⟩

lemma Owned.step (h : Owned s) (hk : Keeps s.streams s'.streams) (hd : Detaches s.conns s'.conns)
    (hc : ∀ r ∈ s'.changes, r ∈ s.changes ∨ Own s'.streams r) (he : ∀ r ∈ s'.events, r ∈ s.events ∨ Own s'.streams r)
    (hr : ∀ r, s'.taken ≠ some (.error r)) (hv : ∀ r, s'.taken ≠ some (.event r)) : Owned s' where
  changes hmem := (hc _ hmem).elim (fun hmem => (h.changes hmem).keep hk) id
  events hmem := (he _ hmem).elim (fun hmem => (h.events hmem).keep hk) id
  attached hn ha := by
    obtain ⟨c, hc, hid, ha'⟩ := hd _ _ hn
    exact hid ▸ (h.attached hc (ha' ha)).keep hk
  error ht := absurd ht (hr _)
  event ht := absurd ht (hv _)

/-! ## Steps -/

section

variable (s : Driver) (r : StreamId) (fails : Bool)

lemma change_streams : (s.change r fails).streams = s.streams := by
  cases fails <;> rfl

lemma change_conns : (s.change r fails).conns = s.conns := by
  cases fails <;> rfl

lemma change_events : (s.change r fails).events = s.events := by
  cases fails <;> rfl

end

lemma mem_change (h : r' ∈ (s.change r fails).changes) : r' ∈ s.changes ∨ r' = r := by
  cases fails with
  | false => exact .inl h
  | true => exact (mem_append.1 h).imp_right mem_singleton.1

section

variable (s : Driver) (r : StreamId) (fails : Bool)

lemma detach_streams : (s.detach r fails).streams = s.streams := by
  cases fails <;> rfl

lemma detach_events : (s.detach r fails).events = s.events := by
  cases fails <;> rfl

lemma detaches_detach : Detaches s.conns (s.detach r fails).conns := by
  cases fails with
  | false => exact detaches_attached s.conns r.conn
  | true => exact .refl _

end

lemma mem_detach (h : r' ∈ (s.detach r fails).changes) : r' ∈ s.changes ∨ r' = r := by
  cases fails with
  | false => exact .inl h
  | true =>
    have h : r' ∈ (s.change r true).changes := h
    exact mem_change h

lemma keeps_remove (streams : Slab Entry) (id : Nat) : Keeps streams (streams.remove id) := by
  intro id' e he
  exact ⟨e, (Slab.get_of_remove he).2, rfl⟩

lemma keeps_insert {e e' : Entry} (h : streams.get id = some e) (hc : e.conn = e'.conn) : Keeps streams (streams.insert id e') :=
  Slab.forall_insert ⟨e, h, hc⟩ fun _ e _ he => ⟨e, he, rfl⟩

lemma done_spec (h : s.done fails x = some s') :
    Keeps s.streams s'.streams ∧ Detaches s.conns s'.conns ∧ s'.events = s.events ∧
      ∀ r ∈ s'.changes, r ∈ s.changes ∨ Own s.streams r := by
  cases x with
  | Stream r =>
    obtain ⟨t, ht, rfl⟩ := of_map h
    obtain ⟨item, hitem, rfl⟩ := of_map ht
    have hch : ∀ r' ∈ (s.detach ⟨r.id, item.conn⟩ fails).changes, r' ∈ s.changes ∨ Own s.streams r' := by
      intro r' hr'
      rcases mem_detach hr' with hr' | rfl
      · exact .inl hr'
      · exact .inr (own_of_get hitem)
    split
    · refine ⟨?_, ?_, detach_events s _ fails, hch⟩
      · show Keeps s.streams ((s.detach _ fails).streams.remove r.id)
        rw [detach_streams]
        exact keeps_remove _ _
      · refine (detaches_detach s ⟨r.id, item.conn⟩ fails).trans (.trans ?_ (detaches_place _ (.Stream r) .dropped))
        exact detaches_modify _ item.conn (fun _ => rfl) fun _ h => h
    · refine ⟨?_, ?_, detach_events s _ fails, hch⟩
      · show Keeps s.streams ((s.detach _ fails).streams.insert r.id _)
        rw [detach_streams]
        exact keeps_insert hitem rfl
      · exact (detaches_detach s ⟨r.id, item.conn⟩ fails).trans (detaches_modify _ _ (fun c => put_id c .dropped _) fun c h => put_attached c .dropped _ ▸ h)
  | Weak r =>
    obtain ⟨t, ht, rfl⟩ := of_map h
    obtain ⟨item, hitem, rfl⟩ := of_map ht
    split
    · refine ⟨keeps_remove _ _, .trans ?_ (detaches_place _ (.Weak r) .dropped), rfl, fun _ => .inl⟩
      exact detaches_modify _ item.conn (fun _ => rfl) fun _ h => h
    · exact ⟨keeps_insert hitem rfl, detaches_modify _ _ (fun c => put_id c .dropped _) fun c h => put_attached c .dropped _ ▸ h, rfl,
        fun _ => .inl⟩
  | Write r =>
    cases h
    exact ⟨.refl _, .refl _, rfl, fun _ => .inl⟩

section

variable (h : Owned s)
include h

lemma owned_done {t : Driver} (ht : s.done fails x = some t) {taken : Option Use} (hr : ∀ r, taken ≠ some (.error r))
    (hv : ∀ r, taken ≠ some (.event r)) : Owned { t with taken } := by
  obtain ⟨hk, hd, he, hc⟩ := done_spec ht
  refine h.step hk hd (fun r hmem => ?_) (fun r hmem => .inl (he ▸ hmem)) hr hv
  exact (hc r hmem).imp_right fun ho => ho.keep hk

lemma owned_submit (hst : s.submit c x = some s') : Owned s' := by
  rw [submit] at hst
  split at hst
  case isTrue =>
    obtain ⟨-, rfl⟩ := of_ite hst
    exact h.step (.refl _) (detaches_place s x .dropping) (fun _ => .inl) (fun _ => .inl) nofun nofun
  case isFalse hne =>
    cases hst
    refine
      { changes := h.changes
        events := h.events
        attached := fun hn ha => ?_
        error := h.error
        event := h.event }
    obtain ⟨c, hc, hid, ha'⟩ := detaches_place s x .queued _ _ hn
    exact hid ▸ h.attached hc (ha' ha)

lemma owned_finish (hst : s.step (.finish fails) = some s') : Owned s' := by
  have harm : ∀ {r : StreamId} {t : Driver},
      (s.streams.get r.id).map (fun item => { s.change ⟨r.id, item.conn⟩ fails with taken := none }) = some t → Owned t := by
    intro r t ht
    obtain ⟨item, hitem, rfl⟩ := of_map ht
    refine h.step ?_ ?_ (fun r' hr' => ?_) (fun r' hr' => ?_) nofun nofun
    · rw [change_streams]
      exact .refl _
    · rw [change_conns]
      exact .refl _
    · rw [change_streams]
      rcases mem_change hr' with hr' | rfl
      · exact .inl hr'
      · exact .inr (own_of_get hitem)
    · exact .inl (change_events s _ fails ▸ hr')
  rw [Driver.step] at hst
  split at hst
  case h_1 | h_2 => exact harm hst
  case h_3 =>
    cases hst
    exact h.step (.refl _) (.refl _) (fun _ => .inl) (fun _ => .inl) nofun nofun
  case h_4 | h_5 =>
    obtain ⟨t, ht, rfl⟩ := of_map hst
    exact owned_done h ht nofun nofun
  case h_6 | h_7 => cases hst

lemma owned_register (hok : s.Fresh (.register id fails)) (ht : s.taken = none) :
    Owned ((s.insert id !fails).change ⟨id, s.conns.length⟩ fails) := by
  obtain ⟨hc, he, ha⟩ := hok
  have hnew : Own (s.streams.insert id ⟨s.conns.length, false, false⟩) ⟨id, s.conns.length⟩ := own_of_get (Slab.get_insert_self _ _ _)
  have hkeep : ∀ {r : StreamId}, r.id ≠ id → Own s.streams r → Own (s.streams.insert id ⟨s.conns.length, false, false⟩) r := by
    intro r hne ho e he
    rw [Slab.get_insert, if_neg hne] at he
    exact ho e he
  have htaken : ((s.insert id !fails).change ⟨id, s.conns.length⟩ fails).taken = none := by
    cases fails <;> exact ht
  constructor
  · intro r hr
    rw [change_streams]
    rcases mem_change hr with hr | rfl
    · exact hkeep (hc r hr) (h.changes hr)
    · exact hnew
  · intro r hr
    rw [change_streams]
    rw [change_events] at hr
    exact hkeep (he r hr) (h.events hr)
  · intro n c hn hatt
    rw [change_streams]
    rw [change_conns] at hn
    rcases at_of_append hn with hn | ⟨rfl, rfl⟩
    · exact hkeep (ha c (mem_of_getElem? hn) hatt) (h.attached hn hatt)
    · exact hnew
  all_goals
    intro r hr
    exact nomatch htaken.symm.trans hr

lemma report_own (hr : s.report n = some r) : Own s.streams r := by
  obtain ⟨c, hc, rfl⟩ := of_map hr
  obtain ⟨hc, ha⟩ := filter_eq_some_iff.1 hc
  exact h.attached hc ha

end

lemma use_own {u : StreamId → Use} (hu : ∀ r r', u r = u r' → r = r') (h : Own s.streams r)
    (ht : (if s.streams.contains r.id then some (u r) else none) = some (u r')) :
    ∃ e, s.streams.get r'.id = some e ∧ e.conn = r'.conn := by
  obtain ⟨hc, ht⟩ := of_guard ht
  obtain rfl := hu r r' (some.inj ht)
  obtain ⟨e, he⟩ := isSome_iff_exists.1 hc
  exact ⟨e, he, h e he⟩

lemma owned_step (i : Step) (h : Owned s) (hok : s.Fresh i) (hst : s.step i = some s') : Owned s' := by
  cases i with
  | register id fails =>
    obtain ⟨hp, rfl⟩ := of_ite hst
    exact owned_register h hok hp.1
  | interest n =>
    obtain ⟨c, hc, hst⟩ := of_bind hst
    obtain ⟨-, rfl⟩ := of_ite hst
    exact h.step (.refl _) (.refl _) (fun _ => .inl) (fun _ => .inl) nofun nofun
  | drop_ctl n | drop_weak n | write n =>
    obtain ⟨c, hc, hst⟩ := of_bind hst
    obtain ⟨-, hst⟩ := of_guard hst
    exact owned_submit h hst
  | finish fails => exact owned_finish h hst
  | turn =>
    obtain ⟨-, rfl⟩ := of_ite hst
    exact { h with }
  | apply =>
    obtain ⟨-, hst⟩ := of_guard hst
    split at hst
    case h_1 r changes hch =>
      cases hst
      have hr : Own s.streams r := h.changes (hch ▸ mem_cons_self)
      refine ⟨fun hmem => h.changes (hch ▸ mem_cons_of_mem _ hmem), h.events, h.attached, ?_, ?_⟩
      · exact fun ht => use_own (u := .error) (fun _ _ heq => Use.error.inj heq) hr ht
      · intro r' ht
        split at ht <;> cases ht
    case h_2 => cases hst
  | wait ns =>
    obtain ⟨hp, rfl⟩ := of_ite hst
    refine { h with events := fun hmem => ?_ }
    obtain ⟨n, -, hr⟩ := mem_filterMap.1 hmem
    have hown : Own s.streams _ := report_own h hr
    exact hown
  | event =>
    obtain ⟨-, hst⟩ := of_guard hst
    split at hst
    case h_1 r events hev =>
      cases hst
      have hr : Own s.streams r := h.events (hev ▸ mem_cons_self)
      refine ⟨h.changes, fun hmem => h.events (hev ▸ mem_cons_of_mem _ hmem), h.attached, ?_, ?_⟩
      · intro r' ht
        split at ht <;> cases ht
      · exact fun ht => use_own (u := .event) (fun _ _ heq => Use.event.inj heq) hr ht
    case h_2 => cases hst
  | handled =>
    obtain ⟨-, rfl⟩ := of_ite hst
    exact { h with }
  | tick =>
    obtain ⟨-, hst⟩ := of_guard hst
    split at hst
    case isTrue =>
      cases hst
      exact h.step (.refl _) (.refl _) (fun _ => .inl) (fun _ => .inl) nofun nofun
    case isFalse =>
      cases hst
      exact { h with }
  | pop =>
    obtain ⟨-, hst⟩ := of_guard hst
    split at hst
    case h_1 x rest hx =>
      cases hst
      exact h.step (.refl _) (detaches_place s x .dropping) (fun _ => .inl) (fun _ => .inl) nofun nofun
    case h_2 =>
      cases hst
      exact h.step (.refl _) (.refl _) (fun _ => .inl) (fun _ => .inl) nofun nofun
  | close n =>
    obtain ⟨c, hc, hst⟩ := of_bind hst
    obtain ⟨-, rfl⟩ := of_ite_not hst
    refine { h with attached := fun hn ha => ?_ }
    obtain ⟨c', hc', hid, ha'⟩ := detaches_attached s.conns n _ _ hn
    exact hid ▸ h.attached hc' (ha' ha)

/-- An error that is applied and an event that is handled are those of the stream they are given to. -/
theorem errors_and_events_own (h : Reach step Fresh new s) :
    (∀ r, s.taken = some (.error r) → ∃ e, s.streams.get r.id = some e ∧ e.conn = r.conn) ∧
      ∀ r, s.taken = some (.event r) → ∃ e, s.streams.get r.id = some e ∧ e.conn = r.conn := by
  have ho : Owned s := h.inv Owned owned_new fun s i s' hI hok hst => owned_step i hI hok hst
  exact ⟨fun _ => ho.error, fun _ => ho.event⟩

/-- A connection is closed, and its id is used again after the error of its `delete` was applied and its descriptor closed. -/
theorem errors_and_events_own_two : ∃ s, Reach step Fresh new s ∧ s.taken = some (.event ⟨0, 1⟩) ∧
    ∃ e, s.streams.get 0 = some e ∧ e.conn = 1 := by
  have hreach : Reach step Fresh new _ := .of_steps
      [.register 0 false, .drop_weak 0, .finish false, .drop_ctl 0, .finish true, .turn, .apply,
      .close 0, .wait [], .handled, .tick, .register 0 false, .turn, .wait [1], .event] rfl
  exact ⟨_, hreach, rfl, (errors_and_events_own hreach).2 ⟨0, 1⟩ rfl⟩

/-- `delete` fails, and a new connection gets the id: before the error is applied in the first run, before the descriptor of the
old one is closed in the second. -/
theorem reused_id : (∃ s, Reach step (fun _ _ => True) new s ∧ s.taken = some (.error ⟨0, 0⟩) ∧ s.streams.get 0 = some ⟨1, false, false⟩) ∧
    ∃ s, Reach step (fun _ _ => True) new s ∧ s.taken = some (.event ⟨0, 0⟩) ∧ s.streams.get 0 = some ⟨1, false, false⟩ := by
  refine ⟨⟨_, .of_steps [.register 0 false, .drop_weak 0, .finish false, .drop_ctl 0, .finish true, .register 0 false, .turn, .apply] rfl,
    rfl, rfl⟩, ⟨_, .of_steps [.register 0 false, .drop_weak 0, .finish false, .drop_ctl 0, .finish true, .turn, .apply, .wait [], .handled,
    .tick, .register 0 false, .turn, .wait [0], .event] rfl, rfl, rfl⟩⟩

end Driver

end Geario.Polling
