import Geario.Polling.Errors
/-!
# Sockets are released

Whatever is dropped, and whenever, an entry is there until both handles have been
worked off, and then its descriptor is closed once. It takes until the end of the
turn at most if what is dropped while the slab is taken out is dropped in a turn
in which an event has been seen before, or while the queue is worked off.

Otherwise the queue keeps it: `tick` is not called for a handler without events.
-/
open Lib List Option

namespace Geario.Polling

open Slab Driver

namespace Driver

variable {s s' : Driver} {r : StreamId} {id n : Nat} {fails : Bool} {x y : IdType} {c : Conn} {p : Place} {t : Driver}
  {r : StreamId}

def draining (s : Driver) : Bool :=
  match s.taken with
  | some (.tick _) => true
  | some (.event _) | some (.error _) | some (.interest _) | some (.now _) | none => false

/-- Nothing is queued before the handler has seen an event in this turn, unless the queue is being worked off. -/
def Timely (s : Driver) : Step → Prop
  | .drop_ctl _ | .drop_weak _ | .write _ => s.taken = none ∨ s.modified = true ∨ s.draining = true
  | .register _ _ | .interest _ | .finish _ | .turn | .apply | .wait _ | .event | .handled | .tick | .pop | .close _ => True

instance (s : Driver) (i : Step) : Decidable (s.Timely i) := by
  induction i using Step.casesOn <;> unfold Timely <;> infer_instance

def current (s : Driver) : Option IdType :=
  match s.taken with
  | some (.now x) | some (.tick (some x)) => some x
  | some (.event _) | some (.error _) | some (.interest _) | some (.tick none) | none => none

def At (conns : List Conn) (r : StreamId) (c : Conn) : Prop := conns[r.conn]? = some c ∧ c.id = r.id

lemma At.eq {conns : List Conn} {r r' : StreamId} {c c' : Conn} (h : At conns r c) (h' : At conns r' c') (hr : r.conn = r'.conn) :
    r = r' ∧ c = c' := by
  obtain ⟨id, n⟩ := r
  obtain ⟨id', n'⟩ := r'
  obtain rfl : n = n' := hr
  cases h.1.symm.trans h'.1
  obtain rfl : id = id' := h.2.symm.trans h'.2
  exact ⟨rfl, rfl⟩

/-- The entry stands until both handles are dropped, and is closed then, once. -/
def Conn.Stored (streams : Slab Entry) (n : Nat) (c : Conn) : Prop :=
  (¬ (c.ctl = .dropped ∧ c.weak = .dropped) ∧ c.closes = 0 ∧
    streams.get c.id = some ⟨n, c.ctl = .dropped, c.weak = .dropped⟩) ∨
  (c.ctl = .dropped ∧ c.weak = .dropped ∧ c.closes = 1)

structure Valid (s : Driver) : Prop where
  entry {id : Nat} {e : Entry} (h : s.streams.get id = some e) : ∃ c, s.conns[e.conn]? = some c ∧ c.id = id ∧ c.closes = 0
  stored {n : Nat} {c : Conn} (h : s.conns[n]? = some c) : Conn.Stored s.streams n c
  delayed {x : IdType} (h : x ∈ s.delayed_feed) : ∃ c, At s.conns x.ref c
  now {x : IdType} (h : s.current = some x) : ∃ c, At s.conns x.ref c
  queued {x : IdType} {c : Conn} (hx : x.drops = true) (h : At s.conns x.ref c) :
    s.delayed_feed.count x = if c.place x = .queued then 1 else 0
  dropping {x : IdType} {c : Conn} (hx : x.drops = true) (h : At s.conns x.ref c) : c.place x = .dropping ↔ s.current = some x
  interest {r : StreamId} (h : s.taken = some (.interest r)) : ∃ c, At s.conns r c ∧ c.ctl = .live

lemma valid_new : Valid new := ⟨nofun, nofun, nofun, nofun, fun _ h => (nomatch h.1), fun _ h => (nomatch h.1), nofun⟩

/-! ## Places -/

section

variable (c : Conn) (p : Place)

lemma place_put (hx : x.drops) : (c.put p x).place x = p := by
  cases x with
  | Stream | Weak => rfl
  | Write => cases hx

lemma place_put_ne (hr : x.ref = y.ref) (hne : x ≠ y) : (c.put p x).place y = c.place y := by
  cases x with
  | Stream r =>
    cases y with
    | Stream r' => exact absurd (congrArg IdType.Stream hr) hne
    | Weak | Write => rfl
  | Weak r =>
    cases y with
    | Weak r' => exact absurd (congrArg IdType.Weak hr) hne
    | Stream | Write => rfl
  | Write r => rfl

lemma put_closes (x : IdType) : (c.put p x).closes = c.closes := by
  cases x <;> rfl

end

lemma Conn.Stored.put {streams : Slab Entry} (h : Conn.Stored streams n c) (hp : p ≠ .dropped) (hx : c.place x ≠ .dropped) :
    Conn.Stored streams n (c.put p x) := by
  cases x with
  | Stream r =>
    have hx : c.ctl ≠ .dropped := hx
    rcases h with ⟨-, hc, he⟩ | ⟨hd, -⟩
    · refine .inl ⟨fun hb => hp hb.1, hc, ?_⟩
      rw [decide_eq_false hx] at he
      exact he.trans (congrArg (fun b => some (Entry.mk n b _)) (decide_eq_false hp).symm)
    · exact absurd hd hx
  | Weak r =>
    have hx : c.weak ≠ .dropped := hx
    rcases h with ⟨-, hc, he⟩ | ⟨-, hd, -⟩
    · refine .inl ⟨fun hb => hp hb.2, hc, ?_⟩
      rw [decide_eq_false hx] at he
      exact he.trans (congrArg (fun b => some (Entry.mk n _ b)) (decide_eq_false hp).symm)
    · exact absurd hd hx
  | Write r => exact h

lemma at_of_place (h : At (s.place x p).conns r c) :
    (r.conn = x.ref.conn ∧ ∃ c', At s.conns r c' ∧ c = c'.put p x) ∨ (r.conn ≠ x.ref.conn ∧ At s.conns r c) := by
  obtain ⟨hc, hid⟩ := h
  rcases at_of_modify hc with ⟨hr, c', hc', rfl⟩ | ⟨hr, hc⟩
  · exact .inl ⟨hr, c', ⟨hr ▸ hc', (put_id c' p x).symm.trans hid⟩, rfl⟩
  · exact .inr ⟨hr, hc, hid⟩

lemma At.place {c' : Conn} (hx : At s.conns x.ref c) (h : At s.conns r c') :
    (r = x.ref ∧ c = c' ∧ At (s.place x p).conns r (c.put p x)) ∨ (r.conn ≠ x.ref.conn ∧ At (s.place x p).conns r c') := by
  rcases eq_or_ne r.conn x.ref.conn with hr | hr
  · obtain ⟨rfl, rfl⟩ := hx.eq h hr.symm
    exact .inl ⟨rfl, rfl, at_modify h.1, (put_id c p x).trans h.2⟩
  · exact .inr ⟨hr, (getElem?_modify_ne _ _ hr.symm).trans h.1, h.2⟩

lemma at_place {c' : Conn} (hx : At s.conns x.ref c) (h : At s.conns r c') : ∃ c', At (s.place x p).conns r c' := by
  rcases hx.place (p := p) h with ⟨-, -, h⟩ | ⟨-, h⟩
  all_goals exact ⟨_, h⟩

/-! ## Steps that leave the handles where they are -/

section

variable (h : Valid s)
include h

lemma Valid.quiet (hs : s'.streams = s.streams) (hc : s'.conns = s.conns) (hd : s'.delayed_feed = s.delayed_feed)
    (hn : s'.current = s.current) (hi : ∀ r, s'.taken = some (.interest r) → ∃ c, At s.conns r c ∧ c.ctl = .live) : Valid s' where
  entry := hs ▸ hc ▸ h.entry
  stored := hs ▸ hc ▸ h.stored
  delayed := hd ▸ hc ▸ h.delayed
  now := hn ▸ hc ▸ h.now
  queued := hd ▸ hc ▸ h.queued
  dropping := hn ▸ hc ▸ h.dropping
  interest := hc ▸ hi _

lemma Valid.move (hx : At s.conns x.ref c) (hpl : c.place x ≠ .dropped) (hp : p ≠ .dropped)
    (hs : s'.streams = s.streams) (hc : s'.conns = (s.place x p).conns)
    (hmem : ∀ y ∈ s'.delayed_feed, y = x ∨ y ∈ s.delayed_feed) (hnow : ∀ y, s'.current = some y → y = x ∨ s.current = some y)
    (hcount : x.drops → s'.delayed_feed.count x = if p = .queued then 1 else 0)
    (hdrop : x.drops → (p = .dropping ↔ s'.current = some x))
    (hcount' : ∀ y, y ≠ x → s'.delayed_feed.count y = s.delayed_feed.count y)
    (hdrop' : ∀ y, y ≠ x → (s'.current = some y ↔ s.current = some y))
    (hi : ∀ r, s'.taken = some (.interest r) → s.taken = some (.interest r) ∧ x ≠ .Stream r) : Valid s' where
  entry {id e} he := by
    rw [hs] at he
    rw [hc]
    obtain ⟨c', hc', hid, hcl⟩ := h.entry he
    rcases eq_or_ne x.ref.conn e.conn with heq | hne
    · refine ⟨c'.put p x, ?_, (put_id c' p x).trans hid, (put_closes c' p x).trans hcl⟩
      rw [← heq] at hc' ⊢
      exact at_modify hc'
    · exact ⟨c', (getElem?_modify_ne _ _ hne).trans hc', hid, hcl⟩
  stored hn := by
    rw [hs]
    rw [hc] at hn
    rcases at_of_modify hn with ⟨rfl, c', hc', rfl⟩ | ⟨-, hn⟩
    · cases hx.1.symm.trans hc'
      exact (h.stored hc').put hp hpl
    · exact h.stored hn
  delayed hy := by
    rw [hc]
    rcases hmem _ hy with rfl | hy
    · exact at_place hx hx
    · obtain ⟨c', hc'⟩ := h.delayed hy
      exact at_place hx hc'
  now hy := by
    rw [hc]
    rcases hnow _ hy with rfl | hy
    · exact at_place hx hx
    · obtain ⟨c', hc'⟩ := h.now hy
      exact at_place hx hc'
  queued {y c'} hy hat := by
    rw [hc] at hat
    rcases eq_or_ne y x with rfl | hne
    · rcases at_of_place hat with ⟨-, c'', -, rfl⟩ | ⟨hr, -⟩
      · rw [place_put c'' p hy, hcount hy]
      · exact absurd rfl hr
    · rw [hcount' y hne]
      rcases at_of_place hat with ⟨hr, c'', hc'', rfl⟩ | ⟨-, hat⟩
      · -- the other handle of the same connection
        rw [place_put_ne c'' p (hx.eq hc'' hr.symm).1 hne.symm]
        exact h.queued hy hc''
      · exact h.queued hy hat
  dropping {y c'} hy hat := by
    rw [hc] at hat
    rcases eq_or_ne y x with rfl | hne
    · rcases at_of_place hat with ⟨-, c'', -, rfl⟩ | ⟨hr, -⟩
      · rw [place_put c'' p hy]
        exact hdrop hy
      · exact absurd rfl hr
    · rw [hdrop' y hne]
      rcases at_of_place hat with ⟨hr, c'', hc'', rfl⟩ | ⟨-, hat⟩
      · rw [place_put_ne c'' p (hx.eq hc'' hr.symm).1 hne.symm]
        exact h.dropping hy hc''
      · exact h.dropping hy hat
  interest {r} ht := by
    rw [hc]
    obtain ⟨ht, hne⟩ := hi r ht
    obtain ⟨c', hat, hlive⟩ := h.interest ht
    rcases hx.place (p := p) hat with ⟨rfl, rfl, hnew⟩ | ⟨-, hnew⟩
    · refine ⟨c.put p x, hnew, ?_⟩
      cases x with
      | Stream r' => exact absurd rfl hne
      | Weak | Write => exact hlive
    · exact ⟨c', hnew, hlive⟩

lemma Valid.count_eq_zero (hx : x.drops) (hat : At s.conns x.ref c) (hp : c.place x ≠ .queued) :
    s.delayed_feed.count x = 0 := by
  rw [h.queued hx hat, if_neg hp]

lemma valid_submit (hat : At s.conns x.ref c) (hlive : c.place x = .live) (hi : s.taken ≠ some (.interest x.ref) ∨ x ≠ .Stream x.ref)
    (hst : s.submit c x = some s') : Valid s' := by
  have hpl : c.place x ≠ .dropped := by
    rw [hlive]
    rintro ⟨⟩
  rw [submit] at hst
  split at hst
  case isTrue ht =>
    have hcur : s.current = none := by rw [current, ht]
    obtain ⟨-, rfl⟩ := of_ite hst
    refine h.move (p := .dropping) hat hpl (by rintro ⟨⟩) rfl rfl (fun _ => .inr) ?_ ?_ (fun _ => iff_of_true rfl rfl) (fun _ _ => rfl) ?_ (by rintro _ ⟨⟩)
    · intro y hy
      exact .inl (some.inj hy).symm
    · intro hx
      exact h.count_eq_zero hx hat (by rw [hlive]; rintro ⟨⟩)
    · intro y hne
      rw [hcur]
      exact iff_of_false (fun heq => hne (some.inj heq).symm) (by rintro ⟨⟩)
  case isFalse =>
    cases hst
    have hcur : ({ s.place x .queued with delayed_feed := s.delayed_feed ++ [x] } : Driver).current = s.current := rfl
    refine h.move (p := .queued) hat hpl (by rintro ⟨⟩) rfl rfl ?_ ?_ ?_ ?_ ?_ ?_ ?_
    · intro y hy
      exact (mem_append.1 hy).symm.imp_left mem_singleton.1
    · exact fun _ => .inr
    · intro hx
      rw [count_append, h.count_eq_zero hx hat (by rw [hlive]; rintro ⟨⟩), count_singleton_self, if_pos rfl]
    · intro hx
      rw [hcur, ← h.dropping hx hat, hlive]
      exact iff_of_false (by rintro ⟨⟩) (by rintro ⟨⟩)
    · intro y hne
      rw [count_append, count_singleton, if_neg (by simpa using hne.symm), Nat.add_zero]
    · exact fun y _ => Iff.rfl
    · intro r ht
      refine ⟨ht, ?_⟩
      rintro rfl
      rcases hi with hi | hi
      · exact hi ht
      · exact hi rfl

variable {rest l : List IdType}

lemma valid_pop (hq : s.delayed_feed = x :: rest) (ht : s.taken = some (.tick none)) :
    Valid { s.place x .dropping with delayed_feed := rest, taken := some (.tick (some x)) } := by
  have hcur : s.current = none := by rw [current, ht]
  obtain ⟨c, hat⟩ := h.delayed (hq ▸ mem_cons_self)
  have hplace : x.drops → c.place x = .queued := by
    intro hx
    have hcount := h.queued hx hat
    rw [hq, count_cons_self] at hcount
    split at hcount
    case isTrue hp => exact hp
    case isFalse => omega
  refine h.move (p := .dropping) hat ?_ nofun rfl rfl ?_ ?_ ?_ (fun _ => iff_of_true rfl rfl) ?_ ?_ nofun
  · cases hx : x.drops with
    | true =>
      rw [hplace hx]
      nofun
    | false =>
      cases x with
      | Write r => nofun
      | Stream | Weak => cases hx
  · exact fun y hy => .inr (hq ▸ mem_cons_of_mem _ hy)
  · intro y hy
    exact .inl (some.inj hy).symm
  · intro hx
    have hcount := h.queued hx hat
    rw [hq, count_cons_self, hplace hx, if_pos rfl] at hcount
    show rest.count x = 0
    omega
  · intro y hne
    rw [hq, count_cons_of_ne hne.symm]
  · intro y hne
    rw [hcur]
    exact iff_of_false (fun heq => hne (some.inj heq).symm) nofun

end

/-! ## A handle has been dropped -/

structure Dropped (s : Driver) (x : IdType) (c : Conn) (t : Driver) : Prop where
  conn : ∃ c', At t.conns x.ref c' ∧ c'.ctl = (c.put .dropped x).ctl ∧ c'.weak = (c.put .dropped x).weak ∧
    Conn.Stored t.streams x.ref.conn c' ∧ ∀ e, t.streams.get x.ref.id = some e → e.conn = x.ref.conn ∧ c'.closes = 0
  conns {m : Nat} (h : m ≠ x.ref.conn) : t.conns[m]? = s.conns[m]?
  streams {id : Nat} (h : id ≠ x.ref.id) : t.streams.get id = s.streams.get id
  delayed_feed : t.delayed_feed = s.delayed_feed

lemma detach_at (h : s.conns[n]? = some c) (id : Nat) (fails : Bool) :
    ∃ attached, (s.detach ⟨id, n⟩ fails).conns[n]? = some { c with attached } := by
  cases fails with
  | true => exact ⟨c.attached, h⟩
  | false => exact ⟨false, at_modify h⟩

lemma detach_ne {m : Nat} (h : m ≠ r.conn) (fails : Bool) : (s.detach r fails).conns[m]? = s.conns[m]? := by
  cases fails with
  | true => rfl
  | false => exact getElem?_modify_ne _ _ h.symm

lemma detach_delayed_feed (s : Driver) (r : StreamId) (fails : Bool) : (s.detach r fails).delayed_feed = s.delayed_feed := by
  cases fails <;> rfl

lemma Valid.get (h : Valid s) (hat : At s.conns r c) (hne : ¬ (c.ctl = .dropped ∧ c.weak = .dropped)) :
    c.closes = 0 ∧ s.streams.get r.id = some ⟨r.conn, c.ctl = .dropped, c.weak = .dropped⟩ := by
  rcases h.stored hat.1 with ⟨-, hc, he⟩ | ⟨hb, hb', -⟩
  · exact ⟨hc, hat.2 ▸ he⟩
  · exact absurd ⟨hb, hb'⟩ hne

lemma Dropped.of_entry {b : Driver} {attached last : Bool} {e : Entry} (hid : c.id = x.ref.id) (hcl : c.closes = 0)
    (hb : b.conns[x.ref.conn]? = some { c with attached }) (hne : ∀ m, m ≠ x.ref.conn → b.conns[m]? = s.conns[m]?)
    (hs : b.streams = s.streams) (hq : b.delayed_feed = s.delayed_feed)
    (hl : last ↔ (c.put .dropped x).ctl = .dropped ∧ (c.put .dropped x).weak = .dropped)
    (he : e = ⟨x.ref.conn, (c.put .dropped x).ctl = .dropped, (c.put .dropped x).weak = .dropped⟩) :
    Dropped s x c ((if last then b.remove x.ref else { b with streams := b.streams.insert x.ref.id e }).place x .dropped) := by
  have hput : ∀ closes, ({ c with attached, closes } : Conn).put .dropped x = { c.put .dropped x with attached, closes } := by
    intro closes
    cases x <;> rfl
  have hid := (put_id c .dropped x).trans hid
  cases last with
  | true =>
    obtain ⟨hctl, hweak⟩ := hl.1 rfl
    have hconn : (b.remove x.ref).conns[x.ref.conn]? = some { c with attached, closes := c.closes + 1 } := at_modify hb
    refine ⟨⟨_, ⟨(at_modify hconn).trans (congrArg some (hput _)), hid⟩, rfl, rfl, .inr ⟨hctl, hweak, congrArg (· + 1) hcl⟩, fun e he => ?_⟩,
      fun hm => ?_, fun hid => ?_, hq⟩
    · exact nomatch (get_remove_self _ _).symm.trans he
    · exact (getElem?_modify_ne _ _ hm.symm).trans ((getElem?_modify_ne _ _ hm.symm).trans (hne _ hm))
    · show (b.streams.remove x.ref.id).get _ = _
      rw [hs, get_remove]
      exact if_neg hid
  | false =>
    have hself : (b.streams.insert x.ref.id e).get x.ref.id = some e := get_insert_self _ _ _
    refine ⟨⟨_, ⟨(at_modify hb).trans (congrArg some (hput _)), hid⟩, rfl, rfl, .inl ⟨fun hb => (nomatch hl.2 hb), hcl, ?_⟩, fun e' he' => ?_⟩,
      fun hm => ?_, fun hid => ?_, hq⟩
    · rw [hid]
      exact hself.trans (congrArg some he)
    · cases hself.symm.trans he'
      exact ⟨he ▸ rfl, hcl⟩
    · exact (getElem?_modify_ne _ _ hm.symm).trans (hne _ hm)
    · show (b.streams.insert x.ref.id e).get _ = _
      rw [hs, get_insert]
      exact if_neg hid

section

variable (h : Valid s)
include h

lemma done_stream (hat : At s.conns r c) (hp : c.ctl = .dropping) {t : Driver}
    (ht : s.done fails (.Stream r) = some t) : Dropped s (.Stream r) c t := by
  have hctl : c.ctl ≠ .dropped := by
    rw [hp]
    nofun
  obtain ⟨hcl, hget⟩ := h.get hat fun hb => hctl hb.1
  obtain ⟨t, hd, rfl⟩ := of_map ht
  rw [drop_stream, hget] at hd
  cases hd
  obtain ⟨attached, hdet⟩ := detach_at hat.1 r.id fails
  refine .of_entry hat.2 hcl hdet (fun m hm => detach_ne hm fails) (detach_streams s r fails) (detach_delayed_feed s r fails) ?_ rfl
  exact decide_eq_true_iff.trans (and_iff_right rfl).symm

lemma done_weak (hat : At s.conns r c) (hp : c.weak = .dropping) {t : Driver}
    (ht : s.done fails (.Weak r) = some t) : Dropped s (.Weak r) c t := by
  have hweak : c.weak ≠ .dropped := by
    rw [hp]
    nofun
  obtain ⟨hcl, hget⟩ := h.get hat fun hb => hweak hb.2
  obtain ⟨t, hd, rfl⟩ := of_map ht
  rw [drop_weak_stream, hget] at hd
  cases hd
  refine .of_entry hat.2 hcl hat.1 (fun _ _ => rfl) rfl rfl ?_ rfl
  exact decide_eq_true_iff.trans (and_iff_left rfl).symm

section

variable (hx : x.drops = true) (hat : At s.conns x.ref c) (hcur : s.current = some x)
include hx hat hcur

lemma done_dropped (ht : s.done fails x = some t) : Dropped s x c t := by
  have hp := (h.dropping hx hat).2 hcur
  cases x with
  | Stream r => exact done_stream h hat hp ht
  | Weak r => exact done_weak h hat hp ht
  | Write r => cases hx

lemma Valid.dropped
    (hd : Dropped s x c t) {taken : Option Use} (hu : taken = none ∨ taken = some (.tick none)) : Valid { t with taken } := by
  obtain ⟨c', hat', hctl, hweak, hstored, hentry⟩ := hd.conn
  have hnone : ({ t with taken } : Driver).current = none := by
    rcases hu with rfl | rfl
    all_goals rfl
  -- the places of this connection, and those of the others
  have hplace : ∀ {y : IdType} {c'' : Conn}, At t.conns y.ref c'' →
      (y.ref = x.ref ∧ c'' = c') ∨ (y.ref.conn ≠ x.ref.conn ∧ At s.conns y.ref c'') := by
    intro y c'' hy
    rcases eq_or_ne y.ref.conn x.ref.conn with hr | hr
    · exact .inl (hy.eq hat' hr)
    · exact .inr ⟨hr, hd.conns hr ▸ hy.1, hy.2⟩
  have hput : ∀ y, c'.place y = (c.put .dropped x).place y := by
    intro y
    cases y with
    | Stream r => exact hctl
    | Weak r => exact hweak
    | Write r => rfl
  constructor
  · intro id e he
    rcases eq_or_ne id x.ref.id with rfl | hne
    · obtain ⟨hec, hcl⟩ := hentry e he
      exact ⟨c', hec ▸ hat'.1, hat'.2, hcl⟩
    · obtain ⟨c'', hc'', hid, hcl⟩ := h.entry ((hd.streams hne).symm.trans he)
      refine ⟨c'', (hd.conns fun hr => hne ?_).trans hc'', hid, hcl⟩
      rw [← hid, ← hat.2]
      exact congrArg Conn.id (some.inj (hc''.symm.trans (hr ▸ hat.1)))
  · intro m c'' hm
    rcases eq_or_ne m x.ref.conn with rfl | hne
    · cases hat'.1.symm.trans hm
      exact hstored
    · have hm' := (hd.conns hne).symm.trans hm
      rcases h.stored hm' with ⟨hb, hcl, he⟩ | hb
      · refine .inl ⟨hb, hcl, (hd.streams fun hid => ?_).trans he⟩
        -- the id is that of the connection of the handle
        rw [hid] at he
        have hget := (h.get hat fun hb => ?_).2
        · exact hne (congrArg Entry.conn (some.inj (he.symm.trans hget)))
        · have hp := (h.dropping hx hat).2 hcur
          cases x with
          | Stream r => exact nomatch hp.symm.trans hb.1
          | Weak r => exact nomatch hp.symm.trans hb.2
          | Write r => cases hx
      · exact .inr hb
  · intro y hy
    obtain ⟨c'', hc''⟩ := h.delayed (hd.delayed_feed ▸ hy)
    rcases eq_or_ne y.ref.conn x.ref.conn with hr | hr
    · obtain ⟨href, -⟩ := hc''.eq hat hr
      exact ⟨c', href ▸ hat'⟩
    · exact ⟨c'', (hd.conns hr).trans hc''.1, hc''.2⟩
  · intro y hy
    exact nomatch hnone.symm.trans hy
  · intro y c'' hy hc''
    rw [hd.delayed_feed]
    rcases hplace hc'' with ⟨href, rfl⟩ | ⟨-, hc''⟩
    · rw [h.queued hy (href ▸ hat), hput]
      rcases eq_or_ne x y with rfl | hne
      · rw [place_put c .dropped hx, (h.dropping hx hat).2 hcur]
        rfl
      · rw [place_put_ne c .dropped href.symm hne]
    · exact h.queued hy hc''
  · intro y c'' hy hc''
    refine iff_of_false (fun hp => ?_) fun heq => (nomatch hnone.symm.trans heq)
    rcases hplace hc'' with ⟨href, rfl⟩ | ⟨hr, hc''⟩
    · rw [hput] at hp
      rcases eq_or_ne x y with rfl | hne
      · exact nomatch (place_put c .dropped hx).symm.trans hp
      · rw [place_put_ne c .dropped href.symm hne] at hp
        exact hne (some.inj (hcur.symm.trans ((h.dropping hy (href ▸ hat)).1 hp)))
    · exact hr (congrArg (fun z => (IdType.ref z).conn) (some.inj (((h.dropping hy hc'').1 hp).symm.trans hcur)))
  · intro r ht
    rcases hu with rfl | rfl
    all_goals cases ht

end

/-! ## All steps -/

lemma valid_done (hcur : s.current = some x) (ht : s.done fails x = some t) {taken : Option Use}
    (hu : taken = none ∨ taken = some (.tick none)) : Valid { t with taken } := by
  cases hx : x.drops with
  | true =>
    obtain ⟨c, hat⟩ := h.now hcur
    exact h.dropped hx hat hcur (done_dropped h hx hat hcur ht) hu
  | false =>
    cases x with
    | Stream | Weak => cases hx
    | Write r =>
      cases ht
      have hnone : ({ s with taken } : Driver).current = none := by
        rcases hu with rfl | rfl
        all_goals rfl
      refine
        { entry := h.entry
          stored := h.stored
          delayed := h.delayed
          now := fun hy => (nomatch hnone.symm.trans hy)
          queued := h.queued
          dropping := fun {y c} hy hat => ?_
          interest := fun {r} ht => ?_ }
      · rw [h.dropping hy hat, hcur, hnone]
        refine iff_of_false (fun heq => ?_) nofun
        cases heq
        cases hy
      · rcases hu with rfl | rfl
        all_goals cases ht

end

lemma current_change (s : Driver) (r : StreamId) (fails : Bool) : (s.change r fails).current = s.current := by
  cases fails <;> rfl

lemma valid_finish (h : Valid s) (hst : s.step (.finish fails) = some s') : Valid s' := by
  have harm : ∀ {r : StreamId} {t : Driver}, s.current = none →
      (s.streams.get r.id).map (fun item => { s.change ⟨r.id, item.conn⟩ fails with taken := none }) = some t → Valid t := by
    intro r t hcur ht
    obtain ⟨item, hitem, rfl⟩ := of_map ht
    refine h.quiet (change_streams s _ fails) (change_conns s _ fails) ?_ hcur.symm (by intros; contradiction)
    cases fails <;> rfl
  rw [step] at hst
  split at hst
  case h_1 ht => exact harm (by rw [current, ht]) hst
  case h_2 ht => exact harm (by rw [current, ht]) hst
  case h_3 ht =>
    cases hst
    have hcur : s.current = none := by rw [current, ht]
    exact h.quiet rfl rfl rfl hcur.symm (by intros; contradiction)
  case h_4 ht =>
    obtain ⟨t, hd, rfl⟩ := of_map hst
    exact valid_done h (by rw [current, ht]) hd (.inl rfl)
  case h_5 ht =>
    obtain ⟨t, hd, rfl⟩ := of_map hst
    exact valid_done h (by rw [current, ht]) hd (.inr rfl)
  case h_6 | h_7 => cases hst

lemma valid_register (h : Valid s) (ht : s.taken = none) (hid : s.streams.get id = none) :
    Valid ((s.insert id !fails).change ⟨id, s.conns.length⟩ fails) := by
  have hcur : s.current = none := by rw [current, ht]
  have hins : Valid (s.insert id !fails) := by
    have hlen : ∀ {r : StreamId} {c : Conn}, At s.conns r c → r.conn ≠ s.conns.length := by
      intro r c hat
      exact Nat.ne_of_lt (at_lt hat.1)
    have hold : ∀ {n : Nat} {c : Conn}, s.conns[n]? = some c → (s.insert id !fails).conns[n]? = some c := by
      intro n c hn
      exact at_append hn
    have hat' : ∀ {r : StreamId} {c : Conn}, At (s.insert id !fails).conns r c →
        At s.conns r c ∨ (r.conn = s.conns.length ∧ c = ⟨id, .live, .live, !fails, 0⟩) := by
      intro r c hat
      exact (at_of_append hat.1).imp_left fun hc => ⟨hc, hat.2⟩
    constructor
    · intro id' e he
      have he : (s.streams.insert id ⟨s.conns.length, false, false⟩).get id' = some e := he
      rw [get_insert] at he
      split at he
      case isTrue heq =>
        cases he
        exact ⟨_, getElem?_concat_length, heq.symm, rfl⟩
      case isFalse =>
        obtain ⟨c, hc, hid, hcl⟩ := h.entry he
        exact ⟨c, hold hc, hid, hcl⟩
    · intro n c hn
      rcases at_of_append hn with hn | ⟨rfl, rfl⟩
      · rcases h.stored hn with ⟨hb, hcl, he⟩ | hb
        · refine .inl ⟨hb, hcl, ?_⟩
          show (s.streams.insert id _).get c.id = _
          rw [get_insert, if_neg, he]
          intro heq
          rw [heq, hid] at he
          cases he
        · exact .inr hb
      · exact .inl ⟨nofun, rfl, get_insert_self _ _ _⟩
    · intro x hx
      obtain ⟨c, hat⟩ := h.delayed hx
      exact ⟨c, hold hat.1, hat.2⟩
    · intro x hx
      exact nomatch hcur.symm.trans hx
    · intro x c hx hat
      rcases hat' hat with hat | ⟨hr, rfl⟩
      · exact h.queued hx hat
      · have hplace : Conn.place ⟨id, .live, .live, !fails, 0⟩ x ≠ .queued := by cases x <;> nofun
        rw [if_neg hplace]
        refine count_eq_zero.2 fun hmem => ?_
        obtain ⟨c, hat⟩ := h.delayed hmem
        exact hlen hat hr
    · intro x c hx hat
      rcases hat' hat with hat | ⟨hr, rfl⟩
      · exact h.dropping hx hat
      · have hplace : Conn.place ⟨id, .live, .live, !fails, 0⟩ x ≠ .dropping := by cases x <;> nofun
        exact iff_of_false hplace fun hx => (nomatch hcur.symm.trans hx)
    · intro r hr
      exact nomatch ht.symm.trans hr
  refine hins.quiet (change_streams _ _ fails) (change_conns _ _ fails) ?_ (current_change _ _ fails) fun r hr => ?_
  · cases fails <;> rfl
  · have htaken : ((s.insert id !fails).change ⟨id, s.conns.length⟩ fails).taken = none := by
      cases fails <;> exact ht
    exact nomatch htaken.symm.trans hr

lemma valid_close (h : Valid s) (n : Nat) : Valid { s with conns := s.conns.modify n fun c => { c with attached := false } } := by
  have hat' : ∀ {r : StreamId} {c : Conn}, At (s.conns.modify n fun c => { c with attached := false }) r c →
      ∃ c', At s.conns r c' ∧ ∀ x, c.place x = c'.place x := by
    intro r c hat
    rcases at_of_modify hat.1 with ⟨hr, c', hc', rfl⟩ | ⟨-, hc⟩
    · refine ⟨c', ⟨hr ▸ hc', hat.2⟩, fun x => ?_⟩
      cases x <;> rfl
    · exact ⟨c, ⟨hc, hat.2⟩, fun _ => rfl⟩
  have hfwd : ∀ {m : Nat} {c : Conn}, s.conns[m]? = some c →
      ∃ attached, (s.conns.modify n fun c => { c with attached := false })[m]? = some { c with attached } := by
    intro m c hc
    rcases eq_or_ne n m with rfl | hne
    · exact ⟨false, at_modify hc⟩
    · exact ⟨c.attached, (getElem?_modify_ne _ _ hne).trans hc⟩
  constructor
  · intro id e he
    obtain ⟨c, hc, hid, hcl⟩ := h.entry he
    obtain ⟨attached, hc'⟩ := hfwd hc
    exact ⟨_, hc', hid, hcl⟩
  · intro m c hm
    rcases at_of_modify hm with ⟨rfl, c', hc', rfl⟩ | ⟨-, hc⟩
    · have hst : Conn.Stored s.streams m c' := h.stored hc'
      exact hst
    · exact h.stored hc
  · intro x hx
    obtain ⟨c, hat⟩ := h.delayed hx
    obtain ⟨attached, hc'⟩ := hfwd hat.1
    exact ⟨_, hc', hat.2⟩
  · intro x hx
    obtain ⟨c, hat⟩ := h.now hx
    obtain ⟨attached, hc'⟩ := hfwd hat.1
    exact ⟨_, hc', hat.2⟩
  · intro x c hx hat
    obtain ⟨c', hc', hp⟩ := hat' hat
    rw [hp x]
    exact h.queued hx hc'
  · intro x c hx hat
    obtain ⟨c', hc', hp⟩ := hat' hat
    rw [hp x]
    exact h.dropping hx hc'
  · intro r hr
    obtain ⟨c, hat, hlive⟩ := h.interest hr
    obtain ⟨attached, hc'⟩ := hfwd hat.1
    exact ⟨_, ⟨hc', hat.2⟩, hlive⟩

lemma valid_step (i : Step) (h : Valid s) (hst : s.step i = some s') : Valid s' := by
  have hcur : s.taken = none → s.current = none := by
    intro ht
    rw [current, ht]
  cases i with
  | register id fails =>
    obtain ⟨hp, rfl⟩ := of_ite hst
    exact valid_register h hp.1 hp.2
  | interest n =>
    obtain ⟨c, hc, hst⟩ := of_bind hst
    obtain ⟨hp, rfl⟩ := of_ite hst
    refine h.quiet rfl rfl rfl (hcur hp.2.1).symm fun r hr => ?_
    cases hr
    exact ⟨c, ⟨hc, rfl⟩, hp.1⟩
  | drop_ctl n =>
    obtain ⟨c, hc, hst⟩ := of_bind hst
    obtain ⟨hp, hst⟩ := of_guard hst
    exact valid_submit (x := .Stream ⟨c.id, n⟩) h ⟨hc, rfl⟩ hp.1 (.inl hp.2) hst
  | drop_weak n =>
    obtain ⟨c, hc, hst⟩ := of_bind hst
    obtain ⟨hp, hst⟩ := of_guard hst
    exact valid_submit (x := .Weak ⟨c.id, n⟩) h ⟨hc, rfl⟩ hp.1 (.inr nofun) hst
  | write n =>
    obtain ⟨c, hc, hst⟩ := of_bind hst
    obtain ⟨hp, hst⟩ := of_guard hst
    exact valid_submit (x := .Write ⟨c.id, n⟩) h ⟨hc, rfl⟩ rfl (.inr nofun) hst
  | finish fails => exact valid_finish h hst
  | turn =>
    obtain ⟨-, rfl⟩ := of_ite hst
    exact h.quiet rfl rfl rfl rfl fun _ => h.interest
  | apply =>
    obtain ⟨hp, hst⟩ := of_guard hst
    split at hst
    case h_1 r changes hch =>
      cases hst
      cases s.streams.contains r.id with
      | true | false => exact h.quiet rfl rfl rfl (hcur hp.2).symm nofun
    case h_2 => cases hst
  | wait ns =>
    obtain ⟨hp, rfl⟩ := of_ite hst
    exact h.quiet rfl rfl rfl rfl fun _ => h.interest
  | event =>
    obtain ⟨hp, hst⟩ := of_guard hst
    split at hst
    case h_1 r events hev =>
      cases hst
      cases s.streams.contains r.id with
      | true | false => exact h.quiet rfl rfl rfl (hcur hp.2).symm nofun
    case h_2 => cases hst
  | handled =>
    obtain ⟨-, rfl⟩ := of_ite hst
    exact h.quiet rfl rfl rfl rfl fun _ => h.interest
  | tick =>
    obtain ⟨hp, hst⟩ := of_guard hst
    split at hst
    case isTrue =>
      cases hst
      exact h.quiet rfl rfl rfl (hcur hp.2.1).symm nofun
    case isFalse =>
      cases hst
      exact h.quiet rfl rfl rfl rfl fun _ => h.interest
  | pop =>
    obtain ⟨ht, hst⟩ := of_guard hst
    split at hst
    case h_1 x rest hx =>
      cases hst
      exact valid_pop h hx ht
    case h_2 =>
      cases hst
      have hcur : s.current = none := by rw [current, ht]
      exact h.quiet rfl rfl rfl hcur.symm nofun
  | close n =>
    obtain ⟨c, hc, hst⟩ := of_bind hst
    obtain ⟨-, rfl⟩ := of_ite_not hst
    exact valid_close h n

/-! ## The queue is empty between turns -/

def Later (conns : List Conn) (r : StreamId) (l : List IdType) : Prop :=
  ∃ c, At conns r c ∧ (c.ctl = .live ∨ c.weak = .live ∨ .Stream r ∈ l ∨ .Weak r ∈ l)

structure Prompt (s : Driver) : Prop where
  empty (hm : s.modified = false) (hd : s.draining = false) : s.delayed_feed = []
  modified (h : s.modified = true) : s.phase = .Events ∨ s.phase = .Second
  draining (h : s.draining = true) : s.phase = .Second ∧ s.modified = false
  writes (l₁ l₂ : List IdType) (r : StreamId) (h : s.delayed_feed = l₁ ++ .Write r :: l₂) : Later s.conns r l₂
  write {r : StreamId} (h : s.current = some (.Write r)) : ∃ c, At s.conns r c ∧ ¬ (c.ctl = .dropped ∧ c.weak = .dropped)

lemma prompt_new : Prompt new :=
  ⟨fun _ _ => rfl, nofun, nofun, fun _ _ _ h => absurd h.symm (append_ne_nil_of_right_ne_nil _ (cons_ne_nil _ _)), nofun⟩

lemma Prompt.tasks (h : Prompt s) (hp : s.phase = .Tasks) : s.modified = false ∧ s.draining = false ∧ s.delayed_feed = [] := by
  have hm : s.modified = false := by
    cases hm : s.modified with
    | false => rfl
    | true => rcases h.modified hm with h | h <;> exact nomatch hp.symm.trans h
  have hd : s.draining = false := by
    cases hd : s.draining with
    | false => rfl
    | true => exact nomatch hp.symm.trans (h.draining hd).1
  exact ⟨hm, hd, h.empty hm hd⟩

lemma Later.mono {conns conns' : List Conn} (h : Later conns r l)
    (hc : ∀ c, At conns r c → ∃ c', At conns' r c' ∧ (c.ctl = .live → c'.ctl = .live) ∧ (c.weak = .live → c'.weak = .live)) :
    Later conns' r l := by
  obtain ⟨c, hat, hl⟩ := h
  obtain ⟨c', hat', hctl, hweak⟩ := hc c hat
  exact ⟨c', hat', hl.imp hctl (Or.imp hweak id)⟩

lemma Later.place (h : Later s.conns r l) (hx : At s.conns x.ref c) (hne : x.drops → c.place x ≠ .live)
    (p : Place) : Later (s.place x p).conns r l := by
  refine h.mono fun c' hat => ?_
  rcases hx.place (p := p) hat with ⟨rfl, rfl, hnew⟩ | ⟨-, hnew⟩
  · refine ⟨c.put p x, hnew, ?_⟩
    cases x with
    | Stream r' => exact ⟨fun hl => absurd hl (hne rfl), id⟩
    | Weak r' => exact ⟨id, fun hl => absurd hl (hne rfl)⟩
    | Write r' => exact ⟨id, id⟩
  · exact ⟨c', hnew, id, id⟩

lemma Later.queue (h : Later s.conns r l) (hx : At s.conns x.ref c) : Later (s.place x .queued).conns r (l ++ [x]) := by
  obtain ⟨c', hat, hl⟩ := h
  have hl' : c'.ctl = .live ∨ c'.weak = .live ∨ .Stream r ∈ l ++ [x] ∨ .Weak r ∈ l ++ [x] :=
    hl.imp id (Or.imp id (Or.imp (mem_append_left _) (mem_append_left _)))
  rcases hx.place (p := .queued) hat with ⟨rfl, rfl, hnew⟩ | ⟨-, hnew⟩
  · refine ⟨c.put .queued x, hnew, ?_⟩
    cases x with
    | Stream r' => exact .inr (.inr (.inl (mem_append_right _ mem_cons_self)))
    | Weak r' => exact .inr (.inr (.inr (mem_append_right _ mem_cons_self)))
    | Write r' => exact hl'
  · exact ⟨c', hnew, hl'⟩

lemma split_concat {q l₁ l₂ : List IdType} (h : q ++ [x] = l₁ ++ y :: l₂) :
    (x = y ∧ l₂ = []) ∨ ∃ l, q = l₁ ++ y :: l ∧ l₂ = l ++ [x] := by
  rcases eq_nil_or_concat l₂ with rfl | ⟨l, z, rfl⟩
  · obtain ⟨-, heq⟩ := append_inj' h rfl
    exact .inl ⟨(cons.inj heq).1, rfl⟩
  · rw [concat_eq_append, ← cons_append, ← append_assoc] at h
    obtain ⟨hq, heq⟩ := append_inj' h rfl
    exact .inr ⟨l, hq, by rw [concat_eq_append, (cons.inj heq).1]⟩

lemma prompt_submit (h : Prompt s) (hok : s.taken = none ∨ s.modified ∨ s.draining)
    (hat : At s.conns x.ref c) (hlive : c.place x = .live) (hw : x = .Write x.ref → c.weak = .live)
    (hst : s.submit c x = some s') : Prompt s' := by
  rw [submit] at hst
  split at hst
  case isTrue ht =>
    have hdr : s.draining = false := by rw [draining, ht]
    obtain ⟨hp, rfl⟩ := of_ite hst
    refine ⟨fun hm _ => h.empty hm hdr, h.modified, (by intros; contradiction), fun l₁ l₂ r hq => ?_, fun {r} hcur => ?_⟩
    · have hq : s.delayed_feed = l₁ ++ .Write r :: l₂ := hq
      rcases hp with hp | ⟨hx, hctl⟩
      · -- nothing is queued while the tasks run
        rw [(h.tasks hp).2.2] at hq
        exact absurd hq.symm (append_ne_nil_of_right_ne_nil _ (cons_ne_nil _ _))
      · obtain ⟨c', hat', hl⟩ := h.writes l₁ l₂ r hq
        rcases hat.place (p := .dropping) hat' with ⟨rfl, rfl, hnew⟩ | ⟨-, hnew⟩
        · refine ⟨c.put .dropping x, hnew, .inl ?_⟩
          rw [hx]
          exact hctl
        · exact ⟨c', hnew, hl⟩
    · cases hcur
      refine ⟨c, ⟨at_modify hat.1, hat.2⟩, fun hb => ?_⟩
      cases (hw rfl).symm.trans hb.2
  case isFalse ht =>
    cases hst
    have hok := hok.resolve_left ht
    refine ⟨fun hm hd => ?_, h.modified, h.draining, fun l₁ l₂ r hq => ?_, fun {r} hcur => ?_⟩
    · rcases hok with hm' | hd'
      · cases hm.symm.trans hm'
      · cases hd.symm.trans hd'
    · rcases split_concat hq with ⟨rfl, rfl⟩ | ⟨l, hl, rfl⟩
      · exact ⟨c, ⟨at_modify hat.1, hat.2⟩, .inr (.inl (hw rfl))⟩
      · exact (h.writes l₁ l r hl).queue hat
    · obtain ⟨c', hat', hnb⟩ := h.write hcur
      rcases hat.place (p := .queued) hat' with ⟨rfl, rfl, hnew⟩ | ⟨-, hnew⟩
      · refine ⟨c.put .queued x, hnew, ?_⟩
        cases x with
        | Stream r' => exact fun hb => by cases hb.1
        | Weak r' => exact fun hb => by cases hb.2
        | Write r' => exact hnb
      · exact ⟨c', hnew, hnb⟩

lemma Valid.place_of_mem (h : Valid s) (hx : x.drops) (hat : At s.conns x.ref c) (hmem : x ∈ s.delayed_feed) :
    c.place x = .queued := by
  have hcount := h.queued hx hat
  have hpos := count_pos_iff.2 hmem
  split at hcount
  case isTrue hp => exact hp
  case isFalse => omega

lemma prompt_pop (hv : Valid s) (h : Prompt s) (hq : s.delayed_feed = x :: rest) (ht : s.taken = some (.tick none)) :
    Prompt { s.place x .dropping with delayed_feed := rest, taken := some (.tick (some x)) } := by
  have hdr : s.draining := by rw [draining, ht]
  obtain ⟨c, hat⟩ := hv.delayed (hq ▸ mem_cons_self)
  refine ⟨fun _ => nofun, h.modified, fun _ => h.draining hdr, fun l₁ l₂ r hr => ?_, fun {r} hcur => ?_⟩
  · have hl : Later s.conns r l₂ := by
      refine h.writes (x :: l₁) l₂ r (hq.trans ?_)
      exact congrArg _ hr
    refine hl.place hat (fun hx => ?_) .dropping
    rw [hv.place_of_mem hx hat (hq ▸ mem_cons_self)]
    nofun
  · cases hcur
    obtain ⟨c', hat', hl⟩ := h.writes [] rest r hq
    obtain ⟨-, rfl⟩ := hat.eq hat' rfl
    refine ⟨c, ⟨at_modify hat.1, hat.2⟩, ?_⟩
    rintro ⟨hctl, hweak⟩
    rcases hl with hl | hl | hl | hl
    · exact nomatch hctl.symm.trans hl
    · exact nomatch hweak.symm.trans hl
    · exact nomatch hctl.symm.trans (hv.place_of_mem (x := .Stream r) rfl hat (hq ▸ mem_cons_of_mem _ hl))
    · exact nomatch hweak.symm.trans (hv.place_of_mem (x := .Weak r) rfl hat (hq ▸ mem_cons_of_mem _ hl))

lemma detach_frame (s : Driver) (r : StreamId) (fails : Bool) : (s.detach r fails).modified = s.modified ∧
    (s.detach r fails).phase = s.phase ∧ (s.detach r fails).delayed_feed = s.delayed_feed := by
  cases fails <;> exact ⟨rfl, rfl, rfl⟩

lemma done_frame (h : s.done fails x = some t) :
    t.modified = s.modified ∧ t.phase = s.phase ∧ t.delayed_feed = s.delayed_feed := by
  cases x with
  | Stream r =>
    obtain ⟨t, ht, rfl⟩ := of_map h
    obtain ⟨item, -, rfl⟩ := of_map ht
    split <;> exact detach_frame s _ fails
  | Weak r =>
    obtain ⟨t, ht, rfl⟩ := of_map h
    obtain ⟨item, -, rfl⟩ := of_map ht
    split <;> exact ⟨rfl, rfl, rfl⟩
  | Write r =>
    cases h
    exact ⟨rfl, rfl, rfl⟩

lemma done_later (hv : Valid s) (hcur : s.current = some x) (ht : s.done fails x = some t) {l : List IdType}
    (h : Later s.conns r l) : Later t.conns r l := by
  cases hx : x.drops with
  | true =>
    obtain ⟨c, hat⟩ := hv.now hcur
    have hd := done_dropped hv hx hat hcur ht
    have hp := (hv.dropping hx hat).2 hcur
    refine h.mono fun c' hat' => ?_
    rcases eq_or_ne r.conn x.ref.conn with hr | hr
    · obtain ⟨href, rfl⟩ := hat.eq hat' hr.symm
      obtain ⟨c'', hat'', hctl, hweak, -⟩ := hd.conn
      refine ⟨c'', href ▸ hat'', ?_⟩
      rw [hctl, hweak]
      cases x with
      | Stream r' => exact ⟨fun hl => (nomatch hp.symm.trans hl), id⟩
      | Weak r' => exact ⟨id, fun hl => (nomatch hp.symm.trans hl)⟩
      | Write r' => cases hx
    · exact ⟨c', ⟨(hd.conns hr).trans hat'.1, hat'.2⟩, id, id⟩
  | false =>
    cases x with
    | Stream | Weak => cases hx
    | Write r' =>
      cases ht
      exact h

lemma Prompt.quiet (h : Prompt s) (hd : s.draining = false) (hd' : s'.draining = false) (hq : s'.delayed_feed = s.delayed_feed)
    (hm : s'.modified = s.modified) (hp : s'.modified → s'.phase = .Events ∨ s'.phase = .Second) (hn : s'.current = none)
    (hl : ∀ r l, Later s.conns r l → Later s'.conns r l) : Prompt s' where
  empty hm' _ := hq.trans (h.empty (hm ▸ hm') hd)
  modified := hp
  draining hdr := nomatch hd'.symm.trans hdr
  writes l₁ l₂ r hr := hl r l₂ (h.writes l₁ l₂ r (hq ▸ hr))
  write hcur := nomatch hn.symm.trans hcur

lemma prompt_finish (hv : Valid s) (h : Prompt s) (hst : s.step (.finish fails) = some s') : Prompt s' := by
  have harm : ∀ {r : StreamId} {t : Driver}, s.draining = false →
      (s.streams.get r.id).map (fun item => { s.change ⟨r.id, item.conn⟩ fails with taken := none }) = some t → Prompt t := by
    intro r t hdr ht
    obtain ⟨item, -, rfl⟩ := of_map ht
    cases fails <;> exact h.quiet hdr rfl rfl rfl h.modified rfl fun _ _ => id
  rw [step] at hst
  split at hst
  case h_1 ht => exact harm (by rw [draining, ht]) hst
  case h_2 ht => exact harm (by rw [draining, ht]) hst
  case h_3 ht =>
    cases hst
    exact h.quiet (by rw [draining, ht]) rfl rfl rfl h.modified rfl fun _ _ => id
  case h_4 ht =>
    obtain ⟨t, hd, rfl⟩ := of_map hst
    obtain ⟨hm, hp, hq⟩ := done_frame hd
    refine h.quiet (by rw [draining, ht]) rfl hq hm (fun hm' => ?_) rfl fun _ _ => done_later hv (by rw [current, ht]) hd
    rw [hp]
    exact h.modified (hm.symm.trans hm')
  case h_5 ht =>
    obtain ⟨t, hd, rfl⟩ := of_map hst
    have hdr := h.draining (by rw [draining, ht])
    obtain ⟨hm, hp, hq⟩ := done_frame hd
    refine ⟨fun _ => (by intros; contradiction), fun hm' => ?_, fun _ => ⟨hp.trans hdr.1, hm.trans hdr.2⟩, fun l₁ l₂ r hr => ?_, (by intros; contradiction)⟩
    · cases (hm.trans hdr.2).symm.trans hm'
    · exact done_later hv (by rw [current, ht]) hd (h.writes l₁ l₂ r (hq.symm.trans hr))
  case h_6 | h_7 => cases hst

lemma later_insert (id : Nat) (attached : Bool) (h : Later s.conns r l) : Later (s.insert id attached).conns r l := by
  refine h.mono fun c hat => ⟨c, ⟨?_, hat.2⟩, fun h => h, fun h => h⟩
  exact at_append hat.1

lemma later_close (n : Nat) (h : Later s.conns r l) :
    Later (s.conns.modify n fun c => { c with attached := false }) r l := by
  refine h.mono fun c hat => ?_
  rcases eq_or_ne n r.conn with rfl | hne
  · exact ⟨_, ⟨at_modify hat.1, hat.2⟩, id, id⟩
  · exact ⟨c, ⟨(getElem?_modify_ne _ _ hne).trans hat.1, hat.2⟩, id, id⟩

lemma prompt_step (i : Step) (hv : Valid s) (h : Prompt s) (hok : s.Timely i) (hst : s.step i = some s') : Prompt s' := by
  have hidle : s.taken = none → s.draining = false := by
    intro ht
    rw [draining, ht]
  have hcur : s.taken = none → s.current = none := by
    intro ht
    rw [current, ht]
  cases i with
  | register id fails =>
    obtain ⟨hp, rfl⟩ := of_ite hst
    cases fails
    · exact h.quiet (hidle hp.1) (hidle hp.1) rfl rfl h.modified (hcur hp.1) fun _ _ => later_insert id true
    · exact h.quiet (hidle hp.1) (hidle hp.1) rfl rfl h.modified (hcur hp.1) fun _ _ => later_insert id false
  | interest n =>
    obtain ⟨c, hc, hst⟩ := of_bind hst
    obtain ⟨hp, rfl⟩ := of_ite hst
    exact h.quiet (hidle hp.2.1) rfl rfl rfl h.modified rfl fun _ _ => id
  | drop_ctl n =>
    obtain ⟨c, hc, hst⟩ := of_bind hst
    obtain ⟨hp, hst⟩ := of_guard hst
    exact prompt_submit (x := .Stream ⟨c.id, n⟩) h hok ⟨hc, rfl⟩ hp.1 nofun hst
  | drop_weak n =>
    obtain ⟨c, hc, hst⟩ := of_bind hst
    obtain ⟨hp, hst⟩ := of_guard hst
    exact prompt_submit (x := .Weak ⟨c.id, n⟩) h hok ⟨hc, rfl⟩ hp.1 nofun hst
  | write n =>
    obtain ⟨c, hc, hst⟩ := of_bind hst
    obtain ⟨hp, hst⟩ := of_guard hst
    exact prompt_submit (x := .Write ⟨c.id, n⟩) h hok ⟨hc, rfl⟩ rfl (fun _ => hp) hst
  | finish fails => exact prompt_finish hv h hst
  | turn =>
    obtain ⟨hp, rfl⟩ := of_ite hst
    refine h.quiet (hidle hp.2) (hidle hp.2) rfl rfl (fun hm => ?_) (hcur hp.2) fun _ _ => id
    exact nomatch (h.tasks hp.1).1.symm.trans hm
  | apply =>
    obtain ⟨hp, hst⟩ := of_guard hst
    split at hst
    case h_1 r changes hch =>
      cases hst
      cases s.streams.contains r.id with
      | true | false => exact h.quiet (hidle hp.2) rfl rfl rfl h.modified rfl fun _ _ => id
    case h_2 => cases hst
  | wait ns =>
    obtain ⟨hp, rfl⟩ := of_ite hst
    exact h.quiet (hidle hp.2.1) (hidle hp.2.1) rfl rfl (fun _ => .inl rfl) (hcur hp.2.1) fun _ _ => id
  | event =>
    obtain ⟨hp, hst⟩ := of_guard hst
    split at hst
    case h_1 r events hev =>
      cases hst
      cases s.streams.contains r.id with
      | true | false => exact ⟨nofun, fun _ => .inl hp.1, nofun, h.writes, nofun⟩
    case h_2 => cases hst
  | handled =>
    obtain ⟨hp, rfl⟩ := of_ite hst
    exact h.quiet (hidle hp.2.1) (hidle hp.2.1) rfl rfl (fun _ => .inr rfl) (hcur hp.2.1) fun _ _ => id
  | tick =>
    obtain ⟨hp, hst⟩ := of_guard hst
    split at hst
    case isTrue =>
      cases hst
      exact ⟨fun _ => nofun, nofun, fun _ => ⟨hp.1, rfl⟩, h.writes, nofun⟩
    case isFalse hm =>
      cases hst
      have hq : s.delayed_feed = [] := by
        cases hmod : s.modified with
        | false => exact h.empty hmod (hidle hp.2.1)
        | true => exact Decidable.not_not.1 fun hne => hm ⟨hmod, hne⟩
      exact ⟨fun _ _ => hq, nofun, fun hd => (nomatch (hidle hp.2.1).symm.trans hd), h.writes, fun hc => (nomatch (hcur hp.2.1).symm.trans hc)⟩
  | pop =>
    obtain ⟨ht, hst⟩ := of_guard hst
    split at hst
    case h_1 x rest hx =>
      cases hst
      exact prompt_pop hv h hx ht
    case h_2 hx =>
      cases hst
      have hdr := h.draining (by rw [draining, ht])
      exact ⟨fun _ _ => hx, fun hm => (nomatch hdr.2.symm.trans hm), nofun, h.writes, nofun⟩
  | close n =>
    obtain ⟨c, hc, hst⟩ := of_bind hst
    obtain ⟨-, rfl⟩ := of_ite_not hst
    refine { h with writes := fun l₁ l₂ r hr => later_close n (h.writes l₁ l₂ r hr), write := fun {r} hcur => ?_ }
    obtain ⟨c', hat, hnb⟩ := h.write hcur
    rcases eq_or_ne n r.conn with rfl | hne
    · exact ⟨_, ⟨at_modify hat.1, hat.2⟩, hnb⟩
    · exact ⟨c', ⟨(getElem?_modify_ne _ _ hne).trans hat.1, hat.2⟩, hnb⟩

/-! ## The result -/

def uses (s : Driver) : Option StreamId :=
  match s.taken with
  | some (.interest r) => some r
  | some (.now x) | some (.tick (some x)) => some x.ref
  | some (.event _) | some (.error _) | some (.tick none) | none => none

lemma uses_get (hv : Valid s) (h : Prompt s) (hu : s.uses = some r) : ∃ e, s.streams.get r.id = some e ∧ e.conn = r.conn := by
  have hstored : ∀ {c : Conn}, At s.conns r c → ¬ (c.ctl = .dropped ∧ c.weak = .dropped) →
      ∃ e, s.streams.get r.id = some e ∧ e.conn = r.conn := by
    intro c hat hnb
    exact ⟨_, (hv.get hat hnb).2, rfl⟩
  have hcurrent : ∀ {x : IdType}, s.current = some x → x.ref = r → ∃ e, s.streams.get r.id = some e ∧ e.conn = r.conn := by
    intro x hcur href
    subst href
    cases x with
    | Write r => exact (h.write hcur).elim fun c hc => hstored hc.1 hc.2
    | Stream r =>
      obtain ⟨c, hat⟩ := hv.now hcur
      have hp := (hv.dropping rfl hat).2 hcur
      exact hstored hat fun hb => (nomatch hp.symm.trans hb.1)
    | Weak r =>
      obtain ⟨c, hat⟩ := hv.now hcur
      have hp := (hv.dropping rfl hat).2 hcur
      exact hstored hat fun hb => (nomatch hp.symm.trans hb.2)
  rw [uses] at hu
  split at hu
  case h_1 ht =>
    cases hu
    obtain ⟨c, hat, hlive⟩ := hv.interest ht
    exact hstored hat fun hb => (nomatch hlive.symm.trans hb.1)
  case h_2 ht => exact hcurrent (by rw [current, ht]) (some.inj hu)
  case h_3 ht => exact hcurrent (by rw [current, ht]) (some.inj hu)
  all_goals cases hu

lemma dropped_of_tasks (hv : Valid s) (h : Prompt s) (hp : s.phase = .Tasks) (ht : s.taken = none) (hx : x.drops)
    (hat : At s.conns x.ref c) (hne : c.place x ≠ .live) : c.place x = .dropped := by
  have hq := hv.queued hx hat
  rw [(h.tasks hp).2.2] at hq
  have hd := hv.dropping hx hat
  have hcur : s.current = none := by rw [current, ht]
  rw [hcur] at hd
  cases hpl : c.place x with
  | live => exact absurd hpl hne
  | queued =>
    rw [hpl] at hq
    cases hq
  | dropping => exact nomatch hd.1 hpl
  | dropped => rfl

/-- A descriptor is closed once, after both handles were dropped and by the end of the turn; and the slab is looked at with
ids of entries that are there, for their own connection. -/
theorem sockets_released (h : Reach step Timely new s) :
    (∀ (n : Nat) (c : Conn), s.conns[n]? = some c → c.closes ≤ 1 ∧ (c.closes = 1 → c.ctl ≠ .live ∧ c.weak ≠ .live) ∧
      (c.closes = 1 ↔ ∀ e, s.streams.get c.id = some e → e.conn ≠ n)) ∧
    (s.phase = .Tasks → s.taken = none → ∀ (n : Nat) (c : Conn), s.conns[n]? = some c → c.ctl ≠ .live → c.weak ≠ .live → c.closes = 1) ∧
    ∀ r, s.uses = some r → ∃ e, s.streams.get r.id = some e ∧ e.conn = r.conn := by
  obtain ⟨hv, hp⟩ : Valid s ∧ Prompt s := by
    refine h.inv (fun s => Valid s ∧ Prompt s) ⟨valid_new, prompt_new⟩ fun s i s' hI hok hst => ?_
    exact ⟨valid_step i hI.1 hst, prompt_step i hI.1 hI.2 hok hst⟩
  refine ⟨fun n c hc => ?_, fun hph ht n c hc hctl hweak => ?_, fun r hu => uses_get hv hp hu⟩
  · rcases hv.stored hc with ⟨-, hcl, he⟩ | ⟨hctl, hweak, hcl⟩
    · refine ⟨by omega, fun h => by omega, fun h => by omega, fun hne => ?_⟩
      exact absurd rfl (hne _ he)
    · refine ⟨by omega, fun _ => ?_, fun _ e he hne => ?_, fun _ => hcl⟩
      · rw [hctl, hweak]
        exact ⟨nofun, nofun⟩
      · obtain ⟨c', hc', -, hcl'⟩ := hv.entry he
        cases hc.symm.trans (hne ▸ hc')
        omega
  · have hctl' : c.ctl = .dropped := dropped_of_tasks (x := .Stream ⟨c.id, n⟩) hv hp hph ht rfl ⟨hc, rfl⟩ hctl
    have hweak' : c.weak = .dropped := dropped_of_tasks (x := .Weak ⟨c.id, n⟩) hv hp hph ht rfl ⟨hc, rfl⟩ hweak
    rcases hv.stored hc with ⟨hnb, -, -⟩ | ⟨-, -, hcl⟩
    · exact absurd ⟨hctl', hweak'⟩ hnb
    · exact hcl

/-- Both handles are dropped while an event is handled. -/
theorem sockets_released_two : ∃ s : Driver, Reach step Timely new s ∧ s.conns = [⟨0, .dropped, .dropped, false, 1⟩] ∧
    ∀ (n : Nat) (c : Conn), s.conns[n]? = some c → c.ctl ≠ .live → c.weak ≠ .live → c.closes = 1 := by
  have hreach : Reach step Timely new _ := .of_steps
      [.register 0 false, .turn, .wait [0], .event, .write 0, .drop_weak 0, .drop_ctl 0,
      .finish false, .handled, .tick, .pop, .finish false, .pop, .finish false, .pop, .finish false, .pop] rfl
  exact ⟨_, hreach, rfl, (sockets_released hreach).2.1 rfl rfl⟩

/-- A read by `interest` finds the end and stops the connection, which drops the weak handle; the task drops the control.
The entry stays as long as there is no event. -/
theorem socket_kept : ∃ s : Driver, Reach step (fun _ _ => True) new s ∧ s.phase = .Tasks ∧ s.taken = none ∧
    s.conns = [⟨0, .dropped, .queued, false, 0⟩] ∧ s.streams.get 0 = some ⟨0, true, false⟩ ∧
    Lib.run step (fun _ _ => True) s [.turn, .wait [], .handled, .tick] = some s := by
  have hreach : Reach step (fun _ _ => True) new _ := .of_steps
      [.register 0 false, .interest 0, .drop_weak 0, .finish false, .drop_ctl 0,
      .finish false, .turn, .wait [], .handled, .tick] rfl
  exact ⟨_, hreach, rfl, rfl, rfl, rfl, rfl⟩

end Driver

end Geario.Polling
