import Geario.Server.Manager
/-!
# Connections on their way to a worker

The accept loop offers a connection to the server (`Server::process`), which
refuses it while `paused` is set; then the connection waits in the loop's own
backlog. What the server takes is a command for the manager's task, and that
task sends it to a worker or puts it into its backlog when there is none.

Here a send can fail at any time: whether the `n`-th try of a command finds the
worker's channel open is an input of the step, so the loops of `process` and of
`update_workers` are followed here send by send (`route`, `drain`).
-/
open Lib List

namespace Geario.Server

open HandleCmdState

namespace HandleCmdState

variable {τ : Type}

/-- The loop of `process` with `n` workers left to try. -/
def route_loop (takes : Nat → Worker → Bool) (item : τ) : Nat → HandleCmdState τ → HandleCmdState τ × Option Worker
  | 0, s => ({ s with backlog := s.backlog ++ [item], paused := true }, none)
  | n + 1, s =>
    let next := if s.workers.length ≤ s.next then s.workers.length - 1 else s.next
    match s.workers[next]? with
    | none => (s, none)
    | some worker =>
      if takes n worker then ({ s with next := (next + 1) % s.workers.length }, some worker)
      else route_loop takes item n { s with next, workers := s.workers.eraseIdx next }

def route (takes : Nat → Worker → Bool) (s : HandleCmdState τ) (item : τ) : HandleCmdState τ × Option Worker :=
  route_loop takes item s.workers.length s

/-- The backlog goes to one worker until a send fails; the item that failed goes to the back of what is left. -/
def send_all (takes : Nat → Bool) : List τ → List τ × Option (List τ)
  | [] => ([], none)
  | item :: items =>
    if takes items.length then
      let r := send_all takes items
      (item :: r.1, r.2)
    else ([], some (items ++ [item]))

def drain (takes : Nat → Worker → Bool) (s : HandleCmdState τ) : HandleCmdState τ × List (Worker × τ) :=
  match s.workers with
  | [] => (s, [])
  | worker :: rest =>
    match send_all (takes · worker) s.backlog with
    | (sent, none) => ({ s with backlog := [] }, sent.map (worker, ·))
    | (sent, some backlog) =>
      ({ s with backlog, workers := rest, paused := s.paused || rest.isEmpty }, sent.map (worker, ·))

/-! ## What they do -/

variable {takes : Nat → Worker → Bool} {s : HandleCmdState τ} {item : τ}

/-- An item goes to a worker, or into the backlog when there is no worker left. -/
inductive Routed (takes : Nat → Worker → Bool) (s : HandleCmdState τ) (item : τ) : HandleCmdState τ × Option Worker → Prop
  | sent {s' : HandleCmdState τ} {worker : Worker} (backlog : s'.backlog = s.backlog) (workers : s'.workers ≠ [])
      (mem : worker ∈ s.workers) (open_ : ∃ n, takes n worker = true) (paused : s'.paused = s.paused) :
      Routed takes s item (s', some worker)
  | kept {s' : HandleCmdState τ} (backlog : s'.backlog = s.backlog ++ [item]) (workers : s'.workers = [])
      (paused : s'.paused = true) : Routed takes s item (s', none)

lemma routed (takes : Nat → Worker → Bool) (s : HandleCmdState τ) (item : τ) :
    Routed takes s item (s.route takes item) := by
  have hloop : ∀ n (s : HandleCmdState τ), n = s.workers.length → Routed takes s item (s.route_loop takes item n) := by
    intro n
    induction n with
    | zero => exact fun s hn => .kept rfl (length_eq_zero_iff.1 hn.symm) rfl
    | succ n ih =>
      intro s hn
      unfold route_loop
      extract_lets next
      have hlt : next < s.workers.length := by
        show (if s.workers.length ≤ s.next then s.workers.length - 1 else s.next) < s.workers.length
        split <;> omega
      rw [getElem?_eq_getElem hlt]
      have hne : s.workers ≠ [] := ne_nil_of_length_pos (lt_of_le_of_lt (Nat.zero_le _) hlt)
      dsimp only
      split
      case isTrue htakes => exact .sent rfl hne (getElem_mem hlt) ⟨n, htakes⟩ rfl
      case isFalse =>
        have hlen : n = (s.workers.eraseIdx next).length := by
          rw [length_eraseIdx, if_pos hlt]
          omega
        have hrest := ih { s with next, workers := s.workers.eraseIdx next } hlen
        generalize route_loop takes item n { s with next, workers := s.workers.eraseIdx next } = r at hrest ⊢
        cases hrest with
        | sent hb hw hm ho hp => exact .sent hb hw (mem_of_mem_eraseIdx hm) ho hp
        | kept hb hw hp => exact .kept hb hw hp
  exact hloop _ s rfl

lemma send_all_perm (takes : Nat → Bool) (items : List τ) :
    ((send_all takes items).1 ++ (send_all takes items).2.getD []).Perm items := by
  induction items with
  | nil => exact .nil
  | cons item items ih =>
    unfold send_all
    split
    · exact ih.cons item
    · exact perm_append_singleton item items

lemma send_all_open {takes : Nat → Bool} {items : List τ} {item : τ} (h : item ∈ (send_all takes items).1) : ∃ n, takes n := by
  cases items with
  | nil => cases h
  | cons first items =>
    unfold send_all at h
    split at h
    · exact ⟨_, ‹_›⟩
    · cases h

structure Drained (takes : Nat → Worker → Bool) (s : HandleCmdState τ) (r : HandleCmdState τ × List (Worker × τ)) : Prop where
  open_ : ∀ p ∈ r.2, ∃ n, takes n p.1
  items : (r.2.map Prod.snd ++ r.1.backlog).Perm s.backlog
  workers : r.1.workers = s.workers ∧ r.1.paused = s.paused ∧ (s.workers ≠ [] → r.1.backlog = []) ∨
    r.1.workers = s.workers.tail ∧ r.1.paused = (s.paused || s.workers.tail.isEmpty)
  idle : s.backlog = [] → r = (s, [])

lemma drained (takes : Nat → Worker → Bool) (s : HandleCmdState τ) : Drained takes s (s.drain takes) := by
  obtain ⟨next, backlog, workers, paused⟩ := s
  cases workers with
  | nil => exact ⟨nofun, .refl _, .inl ⟨rfl, rfl, fun hne => absurd rfl hne⟩, fun _ => rfl⟩
  | cons worker rest =>
    have hperm := send_all_perm (takes · worker) backlog
    have hidle : backlog = [] → send_all (takes · worker) backlog = ([], none) := by
      rintro rfl
      rfl
    have hopen : ∀ item ∈ (send_all (takes · worker) backlog).1, ∃ n, takes n worker := fun _ => send_all_open
    unfold drain
    dsimp only
    generalize send_all (takes · worker) backlog = r at hperm hidle hopen ⊢
    obtain ⟨sent, left⟩ := r
    have hto : ∀ p ∈ sent.map (worker, ·), ∃ n, takes n p.1 := fun p hp => by
      obtain ⟨item, hitem, rfl⟩ := mem_map.1 hp
      exact hopen item hitem
    have hsent : (sent.map (worker, ·)).map Prod.snd = sent := by
      rw [map_map]
      exact map_id sent
    cases left with
    | none =>
      refine ⟨hto, ?_, .inl ⟨rfl, rfl, fun _ => rfl⟩, fun hnil => ?_⟩
      · dsimp only
        rw [hsent]
        exact hperm
      · obtain rfl := hnil
        obtain ⟨rfl, -⟩ := Prod.mk.inj (hidle rfl)
        rfl
    | some left =>
      refine ⟨hto, ?_, .inr ⟨rfl, rfl⟩, fun hnil => ?_⟩
      · rw [hsent]
        exact hperm
      · cases (Prod.mk.inj (hidle hnil)).2

def Matched (s : HandleCmdState τ) : Prop := s.paused = s.workers.isEmpty

lemma Matched.route (h : s.Matched) : (s.route takes item).1.Matched := by
  have hrouted := routed takes s item
  generalize s.route takes item = r at hrouted ⊢
  cases hrouted with
  | sent _ hw hm _ hp =>
    refine (hp.trans h).trans ?_
    rw [isEmpty_eq_false_iff.2 hw, isEmpty_eq_false_iff.2 (ne_nil_of_mem hm)]
  | kept _ hw hp => exact hp.trans (isEmpty_iff.2 hw).symm

lemma Matched.drain (h : s.Matched) : (s.drain takes).1.Matched := by
  rcases (drained takes s).workers with ⟨hw, hp, -⟩ | ⟨hw, hp⟩
  · rw [Matched, hw, hp]
    exact h
  · rw [Matched, hw, hp, h]
    cases s.workers with
    | nil | cons => rfl

lemma Matched.add_worker (h : s.Matched) (worker : Worker) : (s.add_worker worker).Matched := by
  have hlen : ((s.workers ++ [worker]).insertionSort fun a b => a.name ≤ b.name).length = s.workers.length + 1 := by
    rw [length_insertionSort, length_append, length_singleton]
  have hne : ((s.workers ++ [worker]).insertionSort fun a b => a.name ≤ b.name).isEmpty = false :=
    isEmpty_eq_false_iff.2 (ne_nil_of_length_pos (hlen ▸ Nat.succ_pos _))
  refine Eq.trans ?_ hne.symm
  dsimp only [HandleCmdState.add_worker]
  split
  case isTrue => rfl
  case isFalse hmore =>
    refine h.trans (isEmpty_eq_false_iff.2 fun hnil => hmore ?_)
    rw [hlen, hnil]
    rfl

lemma Matched.remove_worker (h : s.Matched) (worker : Worker) : (s.remove_worker worker).Matched := by
  change (s.paused || (s.remove_worker worker).workers.isEmpty) = (s.remove_worker worker).workers.isEmpty
  rw [h]
  cases hw : s.workers with
  | nil =>
    rw [HandleCmdState.remove_worker, hw]
    rfl
  | cons => rfl

end HandleCmdState

inductive Command
  | Item (conn : Nat)
  | Pause
  | Resume
  | Available (worker : Worker)
  | Unavailable (worker : Worker)
  deriving DecidableEq

def Command.conn : Command → Option Nat
  | .Item conn => some conn
  | _ => none

/-- The accept loop, the manager and the channels of the workers. Connections are numbered as they come. -/
structure Items where
  accepted : Nat
  parked : List Nat
  queue : List Command
  state : HandleCmdState Nat
  closed : List Worker
  delivered : List (Worker × Nat)
  /-- the last of the commands `Pause` and `Resume` that was handled is `Pause` -/
  pausing : Bool
  since : List (Worker × Nat)
  deriving DecidableEq

namespace Items

inductive Step
  /-- `accept` returns a connection; whether the server takes it -/
  | accept (processed : Bool)
  /-- one round of the loop over the backlog when the accept loop resumes -/
  | resume_one (processed : Bool)
  | pause
  | resume
  | update (available : Bool) (worker : Worker)
  | close (worker : Worker)
  /-- `ok n`: the channel of the worker that is tried is open -/
  | handle_cmd (ok : Nat → Bool)

def new : Items :=
  { accepted := 0, parked := [], queue := [], state := .new, closed := [], delivered := [], pausing := false, since := [] }

def takes (s : Items) (ok : Nat → Bool) (n : Nat) (worker : Worker) : Bool := ok n && !decide (worker ∈ s.closed)

def deliver (s : Items) (state : HandleCmdState Nat) (sent : List (Worker × Nat)) : Items :=
  { s with state, delivered := s.delivered ++ sent, since := s.since ++ sent }

def process (s : Items) (ok : Nat → Bool) (conn : Nat) : Items :=
  let r := s.state.route (s.takes ok) conn
  s.deliver r.1 (r.2.toList.map (·, conn))

def update_workers (s : Items) (ok : Nat → Bool) (state : HandleCmdState Nat) : Items :=
  let r := state.drain (s.takes ok)
  s.deliver r.1 r.2

def handle (s : Items) (ok : Nat → Bool) : Command → Items
  | .Item conn => s.process ok conn
  | .Pause => { s with state.paused := true, pausing := true, since := [] }
  | .Resume => { s with state.paused := false, pausing := false }
  | .Available worker => s.update_workers ok (s.state.add_worker worker)
  | .Unavailable worker => s.update_workers ok (s.state.remove_worker worker)

def step (s : Items) : Step → Option Items
  | .accept processed =>
    -- `Server::process`, and the backlog when it fails
    some (if processed then { s with accepted := s.accepted + 1, queue := s.queue ++ [.Item s.accepted] }
      else { s with accepted := s.accepted + 1, parked := s.parked ++ [s.accepted] })
  | .resume_one processed =>
    match s.parked with
    | conn :: parked => some (if processed then { s with parked, queue := s.queue ++ [.Item conn] } else s)
    | [] => none
  | .pause => some { s with queue := s.queue ++ [.Pause] }
  | .resume => some { s with queue := s.queue ++ [.Resume] }
  | .update available worker =>
    some { s with queue := s.queue ++ [if available then .Available worker else .Unavailable worker] }
  | .close worker => some { s with closed := worker :: s.closed }
  | .handle_cmd ok =>
    match s.queue with
    | cmd :: queue => some ({ s with queue }.handle ok cmd)
    | [] => none

def places (s : Items) : List Nat :=
  s.parked ++ (s.queue.filterMap Command.conn ++ (s.state.backlog ++ s.delivered.map Prod.snd))

/-- Every connection is in one place, and the manager has a backlog only when it has no worker. -/
structure Placed (s : Items) : Prop where
  places : s.places.Perm (List.range s.accepted)
  backlog : s.state.backlog ≠ [] → s.state.workers = []

variable {s s' : Items} {i : Step} {ok : Nat → Bool} {queue : List Command} {cmd : Command} {state : HandleCmdState Nat}

/-! ## Every connection is in one place -/

lemma Placed.push (h : Placed s) (hc : cmd.conn = none) : Placed { s with queue := s.queue ++ [cmd] } := by
  refine ⟨?_, h.backlog⟩
  have hq : (s.queue ++ [cmd]).filterMap Command.conn = s.queue.filterMap Command.conn := by
    rw [filterMap_append, filterMap_cons_none hc, filterMap_nil, append_nil]
  rw [Items.places]
  rw [hq]
  exact h.places

lemma Placed.drop (h : Placed s) (hq : s.queue = cmd :: queue) (hc : cmd.conn = none) : Placed { s with queue } := by
  refine ⟨?_, h.backlog⟩
  have hplaces := h.places
  rw [Items.places, hq, filterMap_cons_none hc] at hplaces
  exact hplaces

lemma Placed.deliver {sent : List (Worker × Nat)} {conns : List Nat}
    (h : (s.parked ++ (s.queue.filterMap Command.conn ++ (conns ++ s.delivered.map Prod.snd))).Perm (range s.accepted))
    (hs : (sent.map Prod.snd ++ state.backlog).Perm conns) (hb : state.backlog ≠ [] → state.workers = []) :
    Placed (s.deliver state sent) := by
  refine ⟨.trans ?_ h, hb⟩
  rw [Items.places, Items.deliver]
  rw [map_append]
  refine .append_left _ (.append_left _ ?_)
  have hswap : (state.backlog ++ (s.delivered.map Prod.snd ++ sent.map Prod.snd)).Perm
      ((sent.map Prod.snd ++ state.backlog) ++ s.delivered.map Prod.snd) := by
    rw [← append_assoc]
    exact perm_append_comm.trans (by rw [append_assoc])
  exact hswap.trans (.append_right _ hs)

variable {conn n : Nat}

lemma process_placed (h : Placed s) (hq : s.queue = .Item conn :: queue) : Placed ({ s with queue }.process ok conn) := by
  have hmoved : (s.parked ++ (queue.filterMap Command.conn ++ ((conn :: s.state.backlog) ++ s.delivered.map Prod.snd))).Perm
      (range s.accepted) := by
    refine .trans ?_ h.places
    rw [Items.places, hq, filterMap_cons_some (f := Command.conn) rfl]
    exact .append_left _ perm_middle
  have hrouted := routed ({ s with queue }.takes ok) s.state conn
  unfold Items.process
  generalize s.state.route ({ s with queue }.takes ok) conn = r at hrouted ⊢
  cases hrouted with
  | sent hb hw hm ho hp =>
    refine Placed.deliver hmoved ?_ fun hne => absurd (h.backlog (hb ▸ hne)) (ne_nil_of_mem hm)
    rw [hb]
    exact .refl _
  | kept hb hw hp =>
    refine Placed.deliver hmoved ?_ fun _ => hw
    rw [hb]
    exact perm_append_singleton conn _

lemma update_workers_placed (h : Placed s)
    (hb : state.backlog = s.state.backlog) (hw : s.state.workers = [] → state.workers.length ≤ 1) :
    Placed (s.update_workers ok state) := by
  have hdrained := drained (s.takes ok) state
  unfold Items.update_workers
  generalize state.drain (s.takes ok) = r at hdrained ⊢
  refine Placed.deliver h.places (hb ▸ hdrained.items) fun hne => ?_
  have hbacklog : s.state.backlog ≠ [] := fun hnil => by
    rw [hdrained.idle (hb.trans hnil)] at hne
    exact hne (hb.trans hnil)
  have hlen := hw (h.backlog hbacklog)
  rcases hdrained.workers with ⟨hsame, -, hempty⟩ | ⟨htail, -⟩
  · by_contra hsome
    exact hne (hempty fun hnil => hsome (hsame.trans hnil))
  · rw [htail]
    refine eq_nil_of_length_eq_zero ?_
    rw [length_tail]
    omega

lemma push_item_placed {parked : List Nat}
    (h : (conn :: (parked ++ (s.queue.filterMap Command.conn ++ (s.state.backlog ++ s.delivered.map Prod.snd)))).Perm
      (range n)) (hb : s.state.backlog ≠ [] → s.state.workers = []) :
    Placed { s with accepted := n, parked, queue := s.queue ++ [.Item conn] } := by
  refine ⟨.trans ?_ h, hb⟩
  rw [Items.places]
  rw [filterMap_append, filterMap_cons_some (f := Command.conn) rfl, filterMap_nil, append_assoc,
    singleton_append, ← append_assoc, ← append_assoc]
  exact perm_middle

lemma park_placed (h : (conn :: s.places).Perm (range n))
    (hb : s.state.backlog ≠ [] → s.state.workers = []) :
    Placed { s with accepted := n, parked := s.parked ++ [conn] } := by
  refine ⟨.trans ?_ h, hb⟩
  rw [Items.places, Items.places]
  rw [append_assoc, singleton_append]
  exact perm_middle

lemma handle_placed (h : Placed s) (hq : s.queue = cmd :: queue) : Placed ({ s with queue }.handle ok cmd) := by
  cases cmd with
  | Item conn => exact process_placed h hq
  | Pause | Resume => exact ⟨(h.drop hq rfl).places, h.backlog⟩
  | Available worker =>
    refine update_workers_placed (h.drop hq rfl) rfl fun hnil => ?_
    change ((s.state.workers ++ [worker]).insertionSort _).length ≤ 1
    rw [length_insertionSort, length_append]
    exact le_of_eq (congrArg (length · + 1) hnil)
  | Unavailable worker =>
    refine update_workers_placed (h.drop hq rfl) rfl fun hnil => ?_
    rw [remove_worker, hnil]
    exact Nat.zero_le 1

lemma placed_step (h : Placed s) (hst : s.step i = some s') : Placed s' := by
  cases i with
  | accept processed =>
    cases hst
    have hrange : (s.accepted :: s.places).Perm (range (s.accepted + 1)) := by
      rw [range_succ]
      exact (h.places.cons _).trans (perm_append_singleton _ _).symm
    cases processed with
    | true => exact push_item_placed hrange h.backlog
    | false => exact park_placed hrange h.backlog
  | resume_one processed =>
    simp only [step] at hst
    split at hst
    case h_2 => cases hst
    case h_1 conn parked hp =>
      cases hst
      cases processed with
      | true =>
        refine push_item_placed ?_ h.backlog
        have hplaces := h.places
        rw [Items.places, hp] at hplaces
        exact hplaces
      | false => exact h
  | pause | resume =>
    cases hst
    exact h.push rfl
  | update available worker =>
    cases hst
    cases available with
    | true | false => exact h.push rfl
  | close worker =>
    cases hst
    exact ⟨h.places, h.backlog⟩
  | handle_cmd ok =>
    simp only [step] at hst
    split at hst
    case h_2 => cases hst
    case h_1 cmd queue hq =>
      cases hst
      exact handle_placed h hq

lemma placed_new : Placed new := ⟨.refl _, fun hne => absurd rfl hne⟩

lemma placed_of_reach {ok : Items → Step → Prop} (hr : Lib.Reach step ok new s) : Placed s :=
  hr.inv Placed placed_new fun _ _ _ h _ hst => placed_step h hst

lemma takes_open {worker : Worker} (h : ∃ n, s.takes ok n worker) : worker ∉ s.closed := by
  obtain ⟨n, hn⟩ := h
  simpa using (Bool.and_eq_true_iff.1 hn).2

/-- What a command adds to the deliveries went to channels that were open. -/
lemma handle_open (cmd : Command) :
    ∃ sent, (s.handle ok cmd).delivered = s.delivered ++ sent ∧ ∀ p ∈ sent, p.1 ∉ s.closed := by
  cases cmd with
  | Item conn =>
    refine ⟨_, rfl, fun p hp => ?_⟩
    have hrouted := routed (s.takes ok) s.state conn
    generalize s.state.route (s.takes ok) conn = r at hrouted hp
    cases hrouted with
    | sent _ _ _ ho _ =>
      cases mem_singleton.1 hp
      exact takes_open ho
    | kept => cases hp
  | Pause | Resume => exact ⟨[], (append_nil _).symm, nofun⟩
  | Available | Unavailable => exact ⟨_, rfl, fun p hp => takes_open ((drained _ _).open_ p hp)⟩

lemma step_open (hst : s.step i = some s') : ∃ sent, s'.delivered = s.delivered ++ sent ∧ ∀ p ∈ sent, p.1 ∉ s.closed := by
  have hsame : ∃ sent, s.delivered = s.delivered ++ sent ∧ ∀ p ∈ sent, p.1 ∉ s.closed := ⟨[], (append_nil _).symm, nofun⟩
  cases i with
  | handle_cmd ok =>
    simp only [step] at hst
    split at hst <;> cases hst
    exact handle_open (s := { s with queue := _ }) _
  | resume_one processed =>
    simp only [step] at hst
    split at hst <;> cases hst
    split <;> exact hsame
  | accept processed =>
    cases hst
    split <;> exact hsame
  | _ =>
    cases hst
    exact hsame

/-- Every connection that was accepted is in one place, and every step by which connections are delivered has sent them to
workers whose channels were open. The manager has a backlog only when it has no worker. -/
theorem exactly_one_place (hr : Lib.Reach step (fun _ _ => True) new s) :
    (∀ conn < s.accepted,
      s.parked.count conn + (s.queue.filterMap Command.conn).count conn + s.state.backlog.count conn +
        (s.delivered.map Prod.snd).count conn = 1) ∧
    (s.state.backlog ≠ [] → s.state.workers = []) ∧
    ∀ i s', s.step i = some s' → ∃ sent, s'.delivered = s.delivered ++ sent ∧ ∀ p ∈ sent, p.1 ∉ s.closed := by
  have h := placed_of_reach hr
  refine ⟨fun conn hlt => ?_, h.backlog, fun _ _ => step_open⟩
  have hone : s.places.count conn = 1 := by
    rw [h.places.count_eq]
    exact count_eq_one_of_mem nodup_range (mem_range.2 hlt)
  rw [Items.places, count_append, count_append, count_append] at hone
  omega

/-- The channel of the first worker is closed, so that the connection goes to the second; another is still parked. -/
theorem exactly_one_place_two :
    ∃ s s', Lib.Reach step (fun _ _ => True) new s ∧ s.step (.handle_cmd fun _ => true) = some s' ∧ s.closed = [⟨0, 0⟩] ∧
      s'.delivered = [(⟨1, 0⟩, 0)] ∧
      (∀ conn < s.accepted,
        s.parked.count conn + (s.queue.filterMap Command.conn).count conn + s.state.backlog.count conn +
          (s.delivered.map Prod.snd).count conn = 1) ∧
      ∃ sent, s'.delivered = s.delivered ++ sent ∧ ∀ p ∈ sent, p.1 ∉ s.closed := by
  have hreach : Lib.Reach step (fun _ _ => True) new _ := .of_steps
      [.update true ⟨0, 0⟩, .update true ⟨1, 0⟩, .handle_cmd fun _ => true, .handle_cmd fun _ => true, .close ⟨0, 0⟩,
        .accept true, .accept false] rfl
  exact ⟨_, _, hreach, rfl, rfl, rfl, (exactly_one_place hreach).1, (exactly_one_place hreach).2.2 (.handle_cmd fun _ => true) _ rfl⟩

/-! ## What a pause is worth -/

/-- A step that leaves a pause alone: no worker comes to an empty list, and an item finds no open channel. -/
def Standing (s : Items) : Step → Prop
  | .handle_cmd _ =>
    s.pausing = true →
      match s.queue with
      | .Item _ :: _ => ∀ worker ∈ s.state.workers, worker ∈ s.closed
      | .Available _ :: _ => s.state.workers ≠ []
      | _ => True
  | _ => True

instance : Decidable (Standing s i) := by
  unfold Standing
  split
  · split <;> infer_instance
  · infer_instance

/-- Neither `pause` nor `resume`, which the user calls. -/
def Automatic (_ : Items) : Step → Prop
  | .pause | .resume => False
  | _ => True

instance : Decidable (Automatic s i) := by
  unfold Automatic
  split <;> infer_instance

structure Paused (s : Items) : Prop where
  paused : s.state.paused = true
  since : s.since = []

lemma process_paused (h : Paused s) (hclosed : ∀ worker ∈ s.state.workers, worker ∈ s.closed) :
    Paused (s.process ok conn) := by
  have hrouted := routed (s.takes ok) s.state conn
  unfold process
  generalize s.state.route (s.takes ok) conn = r at hrouted ⊢
  cases hrouted with
  | @sent _ worker _ _ hm ho _ =>
    obtain ⟨n, hn⟩ := ho
    rw [takes, decide_eq_true (hclosed worker hm), Bool.not_true, Bool.and_false] at hn
    cases hn
  | kept _ _ hp => exact ⟨hp, (append_nil _).trans h.since⟩

lemma update_workers_paused (h : Paused s) (hp : state.paused)
    (hb : state.workers ≠ [] → state.backlog = []) : Paused (s.update_workers ok state) := by
  have hdrained := drained (s.takes ok) state
  by_cases hw : state.workers = []
  · have hnone : state.drain (s.takes ok) = (state, []) := by rw [drain, hw]
    rw [update_workers, hnone]
    exact ⟨hp, (append_nil _).trans h.since⟩
  · rw [update_workers, hdrained.idle (hb hw)]
    exact ⟨hp, (append_nil _).trans h.since⟩

lemma handle_paused (hplaced : Placed s)
    (h : s.pausing → Paused s) (hq : s.queue = cmd :: queue) (hok : Standing s (.handle_cmd ok)) :
    ({ s with queue }.handle ok cmd).pausing → Paused ({ s with queue }.handle ok cmd) := by
  intro hp
  simp only [Standing, hq] at hok
  cases cmd with
  | Item conn => exact process_paused ⟨(h hp).paused, (h hp).since⟩ (hok hp)
  | Pause => exact ⟨rfl, rfl⟩
  | Resume => cases hp
  | Available worker =>
    have hlen : ((s.state.workers ++ [worker]).insertionSort fun a b => a.name ≤ b.name).length ≠ 1 := by
      rw [length_insertionSort, length_append, length_singleton]
      have hpos := length_pos_iff.2 (hok hp)
      omega
    refine update_workers_paused ⟨(h hp).paused, (h hp).since⟩ ((if_neg hlen).trans (h hp).paused) fun _ => ?_
    by_contra hne
    exact hok hp (hplaced.backlog hne)
  | Unavailable worker =>
    refine update_workers_paused ⟨(h hp).paused, (h hp).since⟩ (Bool.or_eq_true_iff.2 (.inl (h hp).paused)) fun hw => ?_
    by_contra hne
    refine hw ?_
    rw [remove_worker, hplaced.backlog hne]
    rfl

lemma pausing_step (hplaced : Placed s) (h : s.pausing → Paused s) (hok : Standing s i)
    (hst : s.step i = some s') : s'.pausing → Paused s' := by
  cases i with
  | accept processed => 
    cases hst
    split <;> exact fun hp => ⟨(h hp).paused, (h hp).since⟩
  | resume_one processed =>
    simp only [step] at hst
    split at hst
    case h_2 => cases hst
    case h_1 =>
      cases hst
      split
      · exact fun hp => ⟨(h hp).paused, (h hp).since⟩
      · exact h
  | handle_cmd ok =>
    simp only [step] at hst
    split at hst
    case h_2 => cases hst
    case h_1 cmd queue hq =>
      cases hst
      exact handle_paused hplaced h hq hok
  | pause | resume | update available worker | close worker =>
    cases hst
    exact fun hp => ⟨(h hp).paused, (h hp).since⟩

/-- `paused` follows the routing list, and nobody has asked for anything else. -/
structure Followed (s : Items) : Prop where
  matched : s.state.Matched
  queue : ∀ cmd ∈ s.queue, cmd ≠ .Pause ∧ cmd ≠ .Resume

lemma Followed.push (h : Followed s) (hp : cmd ≠ .Pause) (hr : cmd ≠ .Resume) :
    ∀ c ∈ s.queue ++ [cmd], c ≠ .Pause ∧ c ≠ .Resume := by
  intro c hc
  rcases mem_append.1 hc with hc | hc
  · exact h.queue c hc
  · rw [mem_singleton.1 hc]
    exact ⟨hp, hr⟩

lemma followed_step (h : Followed s) (hok : Automatic s i) (hst : s.step i = some s') : Followed s' := by
  cases i with
  | accept processed =>
    cases hst
    split
    · exact ⟨h.matched, h.push nofun nofun⟩
    · exact ⟨h.matched, h.queue⟩
  | resume_one processed =>
    simp only [step] at hst
    split at hst
    case h_2 => cases hst
    case h_1 =>
      cases hst
      split
      · exact ⟨h.matched, h.push nofun nofun⟩
      · exact h
  | pause | resume => exact hok.elim
  | update available worker =>
    cases hst
    cases available with
    | true | false => exact ⟨h.matched, h.push nofun nofun⟩
  | close worker =>
    cases hst
    exact ⟨h.matched, h.queue⟩
  | handle_cmd ok =>
    simp only [step] at hst
    split at hst
    case h_2 => cases hst
    case h_1 cmd queue hq =>
      cases hst
      have hqueue := h.queue
      rw [hq] at hqueue
      have hrest := (forall_mem_cons.1 hqueue).2
      cases cmd with
      | Item conn => exact ⟨h.matched.route, hrest⟩
      | Pause => exact absurd rfl (hqueue _ mem_cons_self).1
      | Resume => exact absurd rfl (hqueue _ mem_cons_self).2
      | Available worker => exact ⟨(h.matched.add_worker worker).drain, hrest⟩
      | Unavailable worker => exact ⟨(h.matched.remove_worker worker).drain, hrest⟩

/-- A pause stands until a step ends it; without `pause` and `resume` the server is paused just when it has no worker. -/
theorem pause_stands (s : Items) :
    (Lib.Reach step Standing new s → s.pausing = true → s.state.paused = true ∧ s.since = []) ∧
    (Lib.Reach step Automatic new s → (s.state.paused = true ↔ s.state.workers = [])) := by
  refine ⟨fun hr hp => ?_, fun hr => ?_⟩
  · have h := hr.inv (fun s => Placed s ∧ (s.pausing = true → Paused s))
      ⟨placed_new, fun hp => nomatch show false = true from hp⟩
      fun _ _ _ h hok hst => ⟨placed_step h.1 hst, pausing_step h.1 h.2 hok hst⟩
    exact ⟨(h.2 hp).paused, (h.2 hp).since⟩
  · have h0 : Followed new := ⟨rfl, fun _ hc => nomatch show _ ∈ [] from hc⟩
    have h := hr.inv Followed h0 fun _ _ _ h hok hst => followed_step h hok hst
    rw [h.matched, List.isEmpty_iff]

/-- A pause with a worker that stays, and one that goes and comes. -/
theorem pause_stands_two :
    (∃ s, Lib.Reach step Standing new s ∧ s.pausing = true ∧ s.state.workers = [⟨0, 0⟩, ⟨1, 0⟩] ∧
      s.state.paused = true ∧ s.since = []) ∧
    (∃ s, Lib.Reach step Automatic new s ∧ s.state.workers = [⟨0, 0⟩] ∧ (s.state.paused = true ↔ s.state.workers = [])) := by
  have hreach : Lib.Reach step Standing new _ := .of_steps
      ([.update true ⟨0, 0⟩, .update true ⟨1, 0⟩, .pause, .update false ⟨1, 0⟩, .update true ⟨1, 0⟩] ++
        List.replicate 5 (.handle_cmd fun _ => true)) rfl
  have hauto : Lib.Reach step Automatic new _ := .of_steps [.update true ⟨0, 0⟩, .handle_cmd fun _ => true] rfl
  exact ⟨⟨_, hreach, rfl, rfl, (pause_stands _).1 hreach rfl⟩, ⟨_, hauto, rfl, (pause_stands _).2 hauto⟩⟩

/-- A worker that comes back ends the pause, and what was sent before the pause is routed during it. -/
theorem pause_falls :
    (∃ s, Lib.Reach step (fun _ _ => True) new s ∧ s.pausing = true ∧ s.state.paused = false) ∧
    (∃ s, Lib.Reach step (fun _ _ => True) new s ∧ s.pausing = true ∧ s.state.paused = true ∧ s.since = [(⟨0, 0⟩, 0)]) := by
  refine ⟨⟨_, .of_steps ([.update true ⟨0, 0⟩, .pause, .update false ⟨0, 0⟩, .update true ⟨0, 0⟩] ++
      List.replicate 4 (.handle_cmd fun _ => true)) rfl, rfl, rfl⟩, ?_⟩
  exact ⟨_, .of_steps [.update true ⟨0, 0⟩, .handle_cmd fun _ => true, .pause, .accept true,
    .handle_cmd fun _ => true, .handle_cmd fun _ => true] rfl, rfl, rfl, rfl⟩

end Items

end Geario.Server
