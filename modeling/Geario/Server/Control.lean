import Geario.Lib.Fair
/-!
# The futures of a server handle

`Server::stop`, `pause` and `resume` and the first poll of a `Server` each make a
oneshot channel and put its sender into a command. The future is ready when the
sender is used or dropped. Commands wait in a channel that `handle_cmd` receives
from. `HandleCmdState::stop` is awaited inside the handler of one command, and
after it `handle_cmd` returns and drops the receiver. From then on sending
fails, but what is in the channel stays there as long as there is a sender.

With `stop_on_panic`, the task of a worker that has failed calls `stop` too, and
`handle_cmd` knows nothing of it.

How long a `stop` takes is open here: it begins and it finishes. `Server.Stop`
has what is in between.
-/
open Lib (Run)
open List

namespace Geario.Server

inductive Signal
  | Int | Term | Quit | Panic | Hup
  deriving DecidableEq

/-- Commands, with the sender in them. -/
inductive Cmd
  | Item
  | Worker
  | Pause (tx : Nat)
  | Resume (tx : Nat)
  | Stop (completion : Option Nat)
  | NotifyStopped (tx : Nat)
  | Signal (sig : Signal)
  deriving DecidableEq

def Cmd.tx : Cmd → Option Nat
  | .Pause tx | .Resume tx | .NotifyStopped tx => some tx
  | .Stop completion => completion
  | _ => none

inductive Handler
  | running
  | stopping (completion : Option Nat)
  /-- `stop` has finished, the receiver is there -/
  | stopped
  | returned
  deriving DecidableEq

/-- Oneshot channels are numbered as they are made. -/
structure Control where
  queue : List Cmd
  task : Handler
  stop_notify : List Nat
  /-- calls of `stop` in tasks of workers -/
  panics : Nat
  finished : Bool
  made : Nat
  ready : List Nat
  senders : Bool
  deriving DecidableEq

namespace Control

inductive Request
  | pause
  | resume
  | stop
  | poll
  deriving DecidableEq

def Request.cmd (tx : Nat) : Request → Cmd
  | .pause => .Pause tx
  | .resume => .Resume tx
  | .stop => .Stop (some tx)
  | .poll => .NotifyStopped tx

inductive Step
  | call (req : Request)
  | process
  | update
  | signal (sig : Signal)
  | poll
  | handle_cmd
  | finish
  | drop_rx
  | panic
  | panic_finish
  | drop_tx
  deriving DecidableEq

def new : Control :=
  { queue := [], task := .running, stop_notify := [], panics := 0, finished := false, made := 0, ready := [], senders := true }

def try_send (s : Control) (cmd : Cmd) : Control :=
  if s.task = .returned then { s with ready := cmd.tx.toList ++ s.ready } else { s with queue := s.queue ++ [cmd] }

def handle (s : Control) : Cmd → Control
  | .Item | .Worker => s
  | .Pause tx | .Resume tx => { s with ready := tx :: s.ready }
  | .NotifyStopped tx => { s with stop_notify := s.stop_notify ++ [tx] }
  | .Stop completion => { s with task := .stopping completion }
  | .Signal sig => if sig = .Hup then s else { s with task := .stopping none }

def notify (s : Control) (completion : Option Nat) : Control :=
  { s with stop_notify := [], ready := s.stop_notify ++ (completion.toList ++ s.ready), finished := true }

def step (s : Control) : Step → Option Control
  | .call req => if s.senders then some { s.try_send (req.cmd s.made) with made := s.made + 1 } else none
  | .process => if s.senders then some (s.try_send .Item) else none
  | .update => if s.senders then some (s.try_send .Worker) else none
  | .signal sig => if s.senders then some (s.try_send (.Signal sig)) else none
  | .poll => some s
  | .handle_cmd =>
    match s.task, s.queue with
    | .running, cmd :: queue => some ({ s with queue }.handle cmd)
    | _, _ => none
  | .finish =>
    match s.task with
    | .stopping completion => some { s.notify completion with task := .stopped }
    | _ => none
  | .drop_rx => if s.task = .stopped then some { s with task := .returned } else none
  | .panic => some { s with panics := s.panics + 1 }
  | .panic_finish => if 0 < s.panics then some { s.notify none with panics := s.panics - 1 } else none
  | .drop_tx =>
    -- the manager has a sender, and it lives as long as a task of it
    if s.task = .returned ∧ s.panics = 0 ∧ s.senders then
      some { s with queue := [], stop_notify := [], senders := false, ready := s.stop_notify ++ (s.queue.filterMap Cmd.tx ++ s.ready) }
    else none

variable {s s' : Control} {i : Step} {tx : Nat} {cmd : Cmd}

/-! ## What a step does -/

inductive Did (s : Control) : Step → Control → Prop
  | call (req : Request) : Did s (.call req) { s.try_send (req.cmd s.made) with made := s.made + 1 }
  | process : Did s .process (s.try_send .Item)
  | update : Did s .update (s.try_send .Worker)
  | signal (sig : Signal) : Did s (.signal sig) (s.try_send (.Signal sig))
  | poll : Did s .poll s
  | handle_cmd {cmd : Cmd} {queue : List Cmd} (running : s.task = .running) (queue_eq : s.queue = cmd :: queue) :
      Did s .handle_cmd ({ s with queue }.handle cmd)
  | finish {completion : Option Nat} (stopping : s.task = .stopping completion) :
      Did s .finish { s.notify completion with task := .stopped }
  | drop_rx (stopped : s.task = .stopped) : Did s .drop_rx { s with task := .returned }
  | panic : Did s .panic { s with panics := s.panics + 1 }
  | panic_finish (pos : 0 < s.panics) : Did s .panic_finish { s.notify none with panics := s.panics - 1 }
  | drop_tx (returned : s.task = .returned) (idle : s.panics = 0) :
      Did s .drop_tx { s with
        queue := [], stop_notify := [], senders := false, ready := s.stop_notify ++ (s.queue.filterMap Cmd.tx ++ s.ready) }

lemma did_of_step (h : s.step i = some s') : Did s i s' := by
  cases i <;> simp only [step] at h
  case call req =>
    obtain ⟨-, rfl⟩ := Lib.of_ite h
    exact .call req
  case process | update | signal =>
    obtain ⟨-, rfl⟩ := Lib.of_ite h
    constructor
  case poll =>
    cases h
    exact .poll
  case handle_cmd =>
    split at h
    case h_1 hr hq =>
      cases h
      exact .handle_cmd hr hq
    case h_2 => cases h
  case finish =>
    split at h
    case h_1 hs =>
      cases h
      exact .finish hs
    case h_2 => cases h
  case drop_rx =>
    obtain ⟨hs, rfl⟩ := Lib.of_ite h
    exact .drop_rx hs
  case panic =>
    cases h
    exact .panic
  case panic_finish =>
    obtain ⟨hp, rfl⟩ := Lib.of_ite h
    exact .panic_finish hp
  case drop_tx =>
    obtain ⟨hd, rfl⟩ := Lib.of_ite h
    exact .drop_tx hd.1 hd.2.1

lemma try_send_of_returned (h : s.task = .returned) (cmd : Cmd) :
    s.try_send cmd = { s with ready := cmd.tx.toList ++ s.ready } := if_pos h

lemma try_send_of_open (h : s.task ≠ .returned) (cmd : Cmd) : s.try_send cmd = { s with queue := s.queue ++ [cmd] } := if_neg h

section

variable (cmd : Cmd)

@[simp] lemma try_send_task : (s.try_send cmd).task = s.task := by
  unfold try_send
  split <;> rfl

@[simp] lemma try_send_stop_notify : (s.try_send cmd).stop_notify = s.stop_notify := by
  unfold try_send
  split <;> rfl

@[simp] lemma try_send_panics : (s.try_send cmd).panics = s.panics := by
  unfold try_send
  split <;> rfl

@[simp] lemma try_send_finished : (s.try_send cmd).finished = s.finished := by
  unfold try_send
  split <;> rfl

@[simp] lemma try_send_made : (s.try_send cmd).made = s.made := by
  unfold try_send
  split <;> rfl

lemma try_send_ready (h : tx ∈ s.ready) : tx ∈ (s.try_send cmd).ready := by
  unfold try_send
  split
  · exact mem_append_right _ h
  · exact h

lemma try_send_queue {c : Cmd} (h : c ∈ s.queue) : c ∈ (s.try_send cmd).queue := by
  unfold try_send
  split
  · exact h
  · exact mem_append_left _ h

end

/-! ## Where a sender is -/

/-- The future is ready, or its sender is in a place that `handle_cmd` or `stop` looks at. -/
inductive Waiting (tx : Nat) (s : Control) : Prop
  | ready (h : tx ∈ s.ready)
  | queue (cmd : Cmd) (mem : cmd ∈ s.queue) (h : cmd.tx = some tx)
  | completion (h : s.task = .stopping (some tx))
  | notify (h : tx ∈ s.stop_notify)

lemma Waiting.mono (h : Waiting tx s) (hr : tx ∈ s.ready → tx ∈ s'.ready) (hq : s.queue ⊆ s'.queue)
    (hc : s.task = .stopping (some tx) → Waiting tx s') (hn : tx ∈ s.stop_notify → Waiting tx s') : Waiting tx s' := by
  cases h with
  | ready h => exact .ready (hr h)
  | queue cmd hm h => exact .queue cmd (hq hm) h
  | completion h => exact hc h
  | notify h => exact hn h

lemma Waiting.try_send (h : Waiting tx s) (cmd : Cmd) : Waiting tx (s.try_send cmd) := by
  exact h.mono (try_send_ready cmd) (fun _ => try_send_queue cmd) (fun h => .completion (by simpa using h))
    fun h => .notify (by simpa using h)

lemma waiting_sent (s : Control) (h : cmd.tx = some tx) : Waiting tx (s.try_send cmd) := by
  by_cases hr : s.task = .returned
  · rw [try_send_of_returned hr, h]
    exact .ready mem_cons_self
  · rw [try_send_of_open hr]
    exact .queue cmd (mem_append_right _ (mem_singleton.2 rfl)) h

lemma handled (s : Control) (h : cmd.tx = some tx) :
    tx ∈ (s.handle cmd).ready ∨ tx ∈ (s.handle cmd).stop_notify ∨ (s.handle cmd).task = .stopping (some tx) := by
  cases cmd with
  | Item | Worker | Signal => cases h
  | Pause | Resume =>
    cases h
    exact .inl mem_cons_self
  | NotifyStopped =>
    cases h
    exact .inr (.inl (mem_append_right _ (mem_singleton.2 rfl)))
  | Stop completion => exact .inr (.inr (congrArg Handler.stopping h))

lemma handle_frame (s : Control) (cmd : Cmd) :
    (s.handle cmd).queue = s.queue ∧ (s.handle cmd).made = s.made ∧ (s.handle cmd).panics = s.panics ∧
      (s.handle cmd).finished = s.finished ∧ s.stop_notify ⊆ (s.handle cmd).stop_notify := by
  cases cmd with
  | Item | Worker | Pause | Resume | Stop => exact ⟨rfl, rfl, rfl, rfl, List.Subset.refl _⟩
  | NotifyStopped => exact ⟨rfl, rfl, rfl, rfl, subset_append_left _ _⟩
  | Signal sig =>
    rw [handle]
    split <;> exact ⟨rfl, rfl, rfl, rfl, List.Subset.refl _⟩

lemma Waiting.handle (h : Waiting tx s) (hr : s.task = .running) (cmd : Cmd) : Waiting tx (s.handle cmd) := by
  have hnot : s.task = .stopping (some tx) → Waiting tx (s.handle cmd) := fun h => nomatch hr.symm.trans h
  cases cmd with
  | Item | Worker => exact h
  | Pause | Resume => exact h.mono (mem_cons_of_mem _) (List.Subset.refl _) hnot fun h => .notify h
  | NotifyStopped => exact h.mono id (List.Subset.refl _) hnot fun h => .notify (mem_append_left _ h)
  | Stop => exact h.mono id (List.Subset.refl _) hnot fun h => .notify h
  | Signal sig =>
    rw [Control.handle] at hnot ⊢
    split at hnot
    case isTrue hh =>
      rw [if_pos hh]
      exact h
    case isFalse hh =>
      rw [if_neg hh]
      exact h.mono id (List.Subset.refl _) hnot fun h => .notify h

lemma Did.waiting (hd : Did s i s') (h : Waiting tx s) : Waiting tx s' := by
  cases hd with
  | call req =>
    exact (h.try_send _).mono id (List.Subset.refl _) (fun h => .completion h) fun h => .notify h
  | process | update | signal => exact h.try_send _
  | poll => exact h
  | @handle_cmd cmd queue hr hq =>
    have hrest : (∀ c ∈ s.queue, c.tx = some tx → c ∈ queue) → Waiting tx ({ s with queue }.handle cmd) := by
      intro hin
      refine Waiting.handle (s := { s with queue }) ?_ hr cmd
      cases h with
      | ready h => exact .ready h
      | queue c hm h => exact .queue c (hin c hm h) h
      | completion h => exact .completion h
      | notify h => exact .notify h
    by_cases hc : cmd.tx = some tx
    · rcases handled { s with queue } hc with h | h | h
      · exact .ready h
      · exact .notify h
      · exact .completion h
    · refine hrest fun c hm hctx => ?_
      rcases mem_cons.1 (hq ▸ hm) with rfl | hm
      · exact absurd hctx hc
      · exact hm
  | @finish completion hs =>
    refine h.mono (fun h => mem_append_right _ (mem_append_right _ h)) (List.Subset.refl _) (fun h => ?_)
      fun h => .ready (mem_append_left _ h)
    cases hs.symm.trans h
    exact .ready (mem_append_right _ mem_cons_self)
  | drop_rx hs => exact h.mono id (List.Subset.refl _) (fun h => nomatch hs.symm.trans h) fun h => .notify h
  | panic => exact h.mono id (List.Subset.refl _) (fun h => .completion h) fun h => .notify h
  | panic_finish =>
    exact h.mono (mem_append_right _) (List.Subset.refl _) (fun h => .completion h) fun h => .ready (mem_append_left _ h)
  | drop_tx hr =>
    cases h with
    | ready h => exact .ready (mem_append_right _ (mem_append_right _ h))
    | queue c hm h =>
      exact .ready (mem_append_right _ (mem_append_left _ (mem_filterMap.2 ⟨c, hm, h⟩)))
    | completion h => cases hr.symm.trans h
    | notify h => exact .ready (mem_append_left _ h)

lemma Did.all_waiting (hd : Did s i s') (h : ∀ tx < s.made, Waiting tx s) : ∀ tx < s'.made, Waiting tx s' := by
  intro tx hlt
  by_cases hold : tx < s.made
  · exact hd.waiting (h tx hold)
  · cases hd with
    | call req =>
      obtain rfl : tx = s.made := Nat.eq_of_lt_succ_of_not_lt hlt hold
      have hsent : Waiting s.made (s.try_send (req.cmd s.made)) := by
        refine waiting_sent s ?_
        cases req with
        | pause | resume | stop | poll => rfl
      exact hsent.mono id (List.Subset.refl _) (fun h => .completion h) fun h => .notify h
    | process | update | signal => exact absurd (by simpa using hlt) hold
    | @handle_cmd cmd queue hr hq =>
      have hmade := (handle_frame { s with queue } cmd).2.1
      exact absurd (hmade ▸ hlt) hold
    | poll | finish | drop_rx | panic | panic_finish | drop_tx => exact absurd hlt hold

/-! ## Steps that leave nobody behind -/

/-- The receiver is dropped when no sender is in the channel, and `NotifyStopped` is handled when a `stop` is still to finish. -/
def Answered (s : Control) : Step → Prop
  | .drop_rx => ∀ cmd ∈ s.queue, cmd.tx = none
  | .handle_cmd =>
    match s.queue with
    | .NotifyStopped _ :: _ => s.finished = true → 0 < s.panics
    | _ => True
  | _ => True

instance : Decidable (Answered s i) := by
  unfold Answered
  split
  · infer_instance
  · split <;> infer_instance
  · infer_instance

structure Cared (s : Control) : Prop where
  notify : s.finished = true → s.stop_notify ≠ [] → 0 < s.panics ∨ ∃ completion, s.task = .stopping completion
  queue : s.task = .returned → ∀ cmd ∈ s.queue, cmd.tx = none

lemma Cared.try_send (h : Cared s) (cmd : Cmd) : Cared (s.try_send cmd) := by
  refine ⟨by simpa using h.notify, fun hr => ?_⟩
  rw [try_send_task] at hr
  rw [try_send_of_returned hr]
  exact h.queue hr

lemma handle_cared {queue : List Cmd} (h : Cared s) (hr : s.task = .running) (hq : s.queue = cmd :: queue)
    (hok : Answered s .handle_cmd) : Cared ({ s with queue }.handle cmd) := by
  have hsame : Cared { s with queue } := ⟨h.notify, fun hret => nomatch hr.symm.trans hret⟩
  have hstop : ∀ completion, Cared { s with queue, task := .stopping completion } :=
    fun completion => ⟨fun _ _ => .inr ⟨completion, rfl⟩, nofun⟩
  cases cmd with
  | Item | Worker => exact hsame
  | Pause | Resume => exact ⟨hsame.notify, hsame.queue⟩
  | NotifyStopped tx =>
    simp only [Answered, hq] at hok
    exact ⟨fun hf _ => .inl (hok hf), hsame.queue⟩
  | Stop completion => exact hstop completion
  | Signal sig =>
    rw [handle]
    split
    · exact hsame
    · exact hstop none

lemma Did.cared (hd : Did s i s') (h : Cared s) (hok : Answered s i) : Cared s' := by
  have hnone : ∀ {p : Prop}, ([] : List Nat) ≠ [] → p := fun hne => absurd rfl hne
  cases hd with
  | call req => exact ⟨(h.try_send _).notify, (h.try_send _).queue⟩
  | process | update | signal => exact h.try_send _
  | poll => exact h
  | handle_cmd hr hq => exact handle_cared h hr hq hok
  | finish hs => exact ⟨fun _ => hnone, nofun⟩
  | drop_rx hs =>
    refine ⟨fun hf hne => ?_, fun _ => hok⟩
    rcases h.notify hf hne with hp | ⟨completion, hc⟩
    · exact .inl hp
    · cases hs.symm.trans hc
  | panic => exact ⟨fun _ _ => .inl (Nat.succ_pos _), h.queue⟩
  | panic_finish => exact ⟨fun _ => hnone, h.queue⟩
  | drop_tx => exact ⟨fun _ => hnone, fun _ => nofun⟩

/-! ## Every future becomes ready -/

/-- What has begun goes on at some time. -/
structure Fair (r : Run step new) : Prop where
  handle_cmd : r.WeaklyFair (fun s => s.task = .running ∧ s.queue ≠ []) (· = .handle_cmd)
  finish : r.WeaklyFair (fun s => ∃ completion, s.task = .stopping completion) (· = .finish)
  drop_rx : r.WeaklyFair (fun s => s.task = .stopped) (· = .drop_rx)
  panic_finish : r.WeaklyFair (fun s => 0 < s.panics) (· = .panic_finish)

variable {r : Run step new} {n : Nat} {completion : Option Nat} {k : Nat}

lemma did (r : Run step new) (n : Nat) : Did (r.state n) (r.act n) (r.state (n + 1)) := did_of_step (r.next n)

section

variable (hd : Did s i s')
include hd

lemma Did.finished (h : s.finished) : s'.finished := by
  cases hd with
  | call | process | update | signal => exact (try_send_finished _).trans h
  | handle_cmd => exact (handle_frame _ _).2.2.2.1.trans h
  | finish | panic_finish => rfl
  | poll | drop_rx | panic | drop_tx => exact h

lemma Did.stopping (h : s.task = .stopping completion) :
    (s'.task = .stopping completion ∧ i ≠ .finish ∧ s.queue ⊆ s'.queue) ∨
      (s'.task = .stopped ∧ s'.queue = s.queue ∧ s'.ready = s.stop_notify ++ (completion.toList ++ s.ready)) := by
  cases hd with
  | call | process | update | signal =>
    exact .inl ⟨(try_send_task _).trans h, nofun, fun _ => try_send_queue _⟩
  | handle_cmd hr => cases hr.symm.trans h
  | finish hs =>
    cases hs.symm.trans h
    exact .inr ⟨rfl, rfl, rfl⟩
  | drop_rx hs => cases hs.symm.trans h
  | poll | panic | panic_finish => exact .inl ⟨h, nofun, List.Subset.refl _⟩
  | drop_tx hr => cases hr.symm.trans h

lemma Did.stopped (h : s.task = .stopped) : (s'.task = .stopped ∧ s.queue ⊆ s'.queue) ∨ i = .drop_rx := by
  cases hd with
  | call | process | update | signal => exact .inl ⟨(try_send_task _).trans h, fun _ => try_send_queue _⟩
  | handle_cmd hr => cases hr.symm.trans h
  | finish hs => cases hs.symm.trans h
  | drop_rx => exact .inr rfl
  | poll | panic | panic_finish => exact .inl ⟨h, List.Subset.refl _⟩
  | drop_tx hr => cases hr.symm.trans h

lemma Did.stop_notify (h : tx ∈ s.stop_notify) :
    tx ∈ s'.ready ∨ (tx ∈ s'.stop_notify ∧ i ≠ .panic_finish ∧ s.panics ≤ s'.panics) := by
  cases hd with
  | call | process | update | signal =>
    exact .inr ⟨by simpa using h, nofun, Nat.le_of_eq (try_send_panics _).symm⟩
  | @handle_cmd cmd queue hr hq =>
    obtain ⟨-, -, hp, -, hsub⟩ := handle_frame { s with queue } cmd
    exact .inr ⟨hsub h, nofun, Nat.le_of_eq hp.symm⟩
  | finish | panic_finish | drop_tx => exact .inl (mem_append_left _ h)
  | poll | drop_rx => exact .inr ⟨h, nofun, Nat.le_refl _⟩
  | panic => exact .inr ⟨h, nofun, Nat.le_succ _⟩

end

/-- What is assumed of a run, and what follows for each of its states. -/
structure Course (r : Run step new) : Prop where
  fair : Fair r
  answered : ∀ n, Answered (r.state n) (r.act n)

lemma Course.cared (h : Course r) (n : Nat) : Cared (r.state n) := by
  have h0 : Cared new := ⟨fun hf => (nomatch show false = true from hf), fun hr => (nomatch show Handler.running = _ from hr)⟩
  exact (r.reach_of h.answered n).inv Cared h0 fun _ _ _ hc hok hst => (did_of_step hst).cared hc hok

lemma finished_later {m : Nat} (hm : m ≥ n) (h : (r.state n).finished) : (r.state m).finished := by
  induction m, hm using Nat.le_induction with
  | base => exact h
  | succ m hm ih => exact (did r m).finished ih

lemma ready_of_stopping (h : Fair r) (hs : (r.state n).task = .stopping completion)
    (hin : tx ∈ completion ∨ tx ∈ (r.state n).stop_notify) : ∃ m ≥ n, tx ∈ (r.state m).ready := by
  have hend : ∀ s : Control, tx ∈ completion ∨ tx ∈ s.stop_notify → tx ∈ s.stop_notify ++ (completion.toList ++ s.ready) := by
    rintro s (hc | hn)
    · exact mem_append_right _ (mem_append_left _ (Option.mem_toList.2 hc))
    · exact mem_append_left _ hn
  refine Run.ensures (P := fun s => s.task = .stopping completion ∧ (tx ∈ completion ∨ tx ∈ s.stop_notify))
    (Q := fun s => tx ∈ s.ready) h.finish (fun _ hP => ⟨completion, hP.1⟩) ⟨hs, hin⟩ (fun m _ hP => ?_) fun m _ hP ha => ?_
  · rcases (did r m).stopping hP.1 with ⟨ht, -, -⟩ | ⟨-, -, hr⟩
    · rcases hP.2 with hc | hn
      · exact .inl ⟨ht, .inl hc⟩
      · rcases (did r m).stop_notify hn with hr | ⟨hn, -⟩
        · exact .inr hr
        · exact .inl ⟨ht, .inr hn⟩
    · exact .inr (hr ▸ hend _ hP.2)
  · rcases (did r m).stopping hP.1 with ⟨-, hne, -⟩ | ⟨-, -, hr⟩
    · exact absurd ha hne
    · exact hr ▸ hend _ hP.2

lemma ready_of_stop_notify (h : Course r) (hf : (r.state n).finished) (hn : tx ∈ (r.state n).stop_notify) :
    ∃ m ≥ n, tx ∈ (r.state m).ready := by
  rcases (h.cared n).notify hf (ne_nil_of_mem hn) with hp | ⟨completion, hs⟩
  · refine Run.ensures (P := fun s => 0 < s.panics ∧ tx ∈ s.stop_notify) (Q := fun s => tx ∈ s.ready) h.fair.panic_finish
      (fun _ => And.left) ⟨hp, hn⟩ (fun m _ hP => ?_) fun m _ hP ha => ?_
    · rcases (did r m).stop_notify hP.2 with hr | ⟨hn, -, hle⟩
      · exact .inr hr
      · exact .inl ⟨Nat.lt_of_lt_of_le hP.1 hle, hn⟩
    · rcases (did r m).stop_notify hP.2 with hr | ⟨-, hne, -⟩
      · exact hr
      · exact absurd ha hne
  · exact ready_of_stopping h.fair hs (.inr hn)

lemma tx_of_stopped (h : Course r) (hs : (r.state n).task = .stopped) (hm : cmd ∈ (r.state n).queue) : cmd.tx = none := by
  have hdrop : ∀ m, cmd ∈ (r.state m).queue → r.act m = .drop_rx → cmd.tx = none := by
    intro m hm ha
    have hok := h.answered m
    rw [ha] at hok
    exact hok cmd hm
  have hlead : ∃ m ≥ n, cmd.tx = none := by
    refine Run.ensures (P := fun s => s.task = .stopped ∧ cmd ∈ s.queue) (Q := fun _ => cmd.tx = none) h.fair.drop_rx
      (fun _ => And.left) ⟨hs, hm⟩ (fun m _ hP => ?_) fun m _ hP ha => hdrop m hP.2 ha
    rcases (did r m).stopped hP.1 with ⟨ht, hq⟩ | ha
    · exact .inl ⟨ht, hq hP.2⟩
    · exact .inr (hdrop m hP.2 ha)
  obtain ⟨_, -, htx⟩ := hlead
  exact htx

lemma tx_of_stopping (h : Course r) (hs : (r.state n).task = .stopping completion)
    (hm : cmd ∈ (r.state n).queue) : cmd.tx = none := by
  have hlead : ∃ m ≥ n, (r.state m).task = .stopped ∧ cmd ∈ (r.state m).queue := by
    refine Run.ensures (P := fun s => s.task = .stopping completion ∧ cmd ∈ s.queue)
      (Q := fun s => s.task = .stopped ∧ cmd ∈ s.queue) h.fair.finish (fun _ hP => ⟨completion, hP.1⟩) ⟨hs, hm⟩
      (fun m _ hP => ?_) fun m _ hP ha => ?_
    · rcases (did r m).stopping hP.1 with ⟨ht, -, hq⟩ | ⟨ht, hq, -⟩
      · exact .inl ⟨ht, hq hP.2⟩
      · exact .inr ⟨ht, hq ▸ hP.2⟩
    · rcases (did r m).stopping hP.1 with ⟨-, hne, -⟩ | ⟨ht, hq, -⟩
      · exact absurd ha hne
      · exact ⟨ht, hq ▸ hP.2⟩
  obtain ⟨m, -, hst, hm⟩ := hlead
  exact tx_of_stopped h hst hm

lemma ready_of_not_running (h : Course r) (hf : (r.state n).finished) (hr : (r.state n).task ≠ .running)
    (hw : Waiting tx (r.state n)) : ∃ m ≥ n, tx ∈ (r.state m).ready := by
  cases hw with
  | ready hw => exact ⟨n, Nat.le_refl n, hw⟩
  | queue cmd hm htx =>
    have hnone : cmd.tx = none := by
      cases ht : (r.state n).task with
      | running => exact absurd ht hr
      | stopping completion => exact tx_of_stopping h ht hm
      | stopped => exact tx_of_stopped h ht hm
      | returned => exact (h.cared n).queue ht cmd hm
    cases hnone.symm.trans htx
  | completion hw => exact ready_of_stopping h.fair hw (.inl rfl)
  | notify hw => exact ready_of_stop_notify h hf hw

def Behind (tx k : Nat) (s : Control) : Prop :=
  ∃ front cmd back, s.queue = front ++ cmd :: back ∧ cmd.tx = some tx ∧ front.length = k

lemma Behind.ne_nil (h : Behind tx k s) : s.queue ≠ [] := by
  obtain ⟨front, cmd, back, hq, -⟩ := h
  rw [hq]
  exact append_ne_nil_of_right_ne_nil _ (cons_ne_nil _ _)

lemma Behind.try_send (hr : s.task = .running) (h : Behind tx k s) (cmd : Cmd) : Behind tx k (s.try_send cmd) := by
  obtain ⟨front, c, back, hq, htx, hk⟩ := h
  have hopen : s.task ≠ .returned := fun h => nomatch hr.symm.trans h
  refine ⟨front, c, back ++ [cmd], ?_, htx, hk⟩
  rw [try_send_of_open hopen, hq]
  exact append_assoc _ _ _

lemma Did.behind (hd : Did s i s') (hr : s.task = .running) (h : Behind tx k s) :
    (s'.task = .running ∧ Behind tx k s' ∧ i ≠ .handle_cmd) ∨ tx ∈ s'.ready ∨ tx ∈ s'.stop_notify ∨ s'.task ≠ .running ∨
      ∃ j < k, Behind tx j s' := by
  cases hd with
  | call | process | update | signal => exact .inl ⟨(try_send_task _).trans hr, h.try_send hr _, nofun⟩
  | poll | panic | panic_finish => exact .inl ⟨hr, h, nofun⟩
  | @handle_cmd cmd queue _ hq =>
    obtain ⟨front, c, back, hq', htx, hk⟩ := h
    cases front with
    | nil =>
      obtain ⟨rfl, rfl⟩ := cons.inj (hq.symm.trans hq')
      rcases handled { s with queue } htx with h | h | h
      · exact .inr (.inl h)
      · exact .inr (.inr (.inl h))
      · exact .inr (.inr (.inr (.inl fun hrun => nomatch h.symm.trans hrun)))
    | cons a front =>
      obtain ⟨rfl, rfl⟩ := cons.inj (hq.symm.trans hq')
      refine .inr (.inr (.inr (.inr ⟨front.length, ?_, front, c, back, (handle_frame _ _).1, htx, rfl⟩)))
      rw [← hk]
      exact Nat.lt_succ_self _
  | finish hs => cases hr.symm.trans hs
  | drop_rx hs => cases hr.symm.trans hs
  | drop_tx hs => cases hr.symm.trans hs

lemma ready_of_behind (h : Course r) (hf : (r.state n).finished) (hr : (r.state n).task = .running)
    (hw : Waiting tx (r.state n)) (hk : Behind tx k (r.state n)) : ∃ m ≥ n, tx ∈ (r.state m).ready := by
  induction k using Nat.strongRecOn generalizing n with
  | ind k ih =>
    have hlead : ∃ m ≥ n, Waiting tx (r.state m) ∧ (tx ∈ (r.state m).ready ∨ tx ∈ (r.state m).stop_notify ∨
        (r.state m).task ≠ .running ∨ ∃ j < k, Behind tx j (r.state m)) := by
      refine Run.ensures (P := fun s => Waiting tx s ∧ s.task = .running ∧ Behind tx k s)
        (Q := fun s => Waiting tx s ∧ (tx ∈ s.ready ∨ tx ∈ s.stop_notify ∨ s.task ≠ .running ∨ ∃ j < k, Behind tx j s))
        h.fair.handle_cmd (fun _ hP => ⟨hP.2.1, hP.2.2.ne_nil⟩) ⟨hw, hr, hk⟩ (fun m _ hP => ?_) fun m _ hP ha => ?_
      · have hwm := (did r m).waiting hP.1
        rcases (did r m).behind hP.2.1 hP.2.2 with ⟨hrm, hbm, -⟩ | hQ
        · exact .inl ⟨hwm, hrm, hbm⟩
        · exact .inr ⟨hwm, hQ⟩
      · rcases (did r m).behind hP.2.1 hP.2.2 with ⟨-, -, hne⟩ | hQ
        · exact absurd ha hne
        · exact ⟨(did r m).waiting hP.1, hQ⟩
    obtain ⟨m, hm, hwm, hQ⟩ := hlead
    have hfm := finished_later hm hf
    suffices hlater : ∃ j ≥ m, tx ∈ (r.state j).ready by
      obtain ⟨j, hj, hready⟩ := hlater
      exact ⟨j, Nat.le_trans hm hj, hready⟩
    rcases hQ with hready | hnotify | hnot | ⟨j, hj, hjb⟩
    · exact ⟨m, Nat.le_refl m, hready⟩
    · exact ready_of_stop_notify h hfm hnotify
    · exact ready_of_not_running h hfm hnot hwm
    · by_cases hrm : (r.state m).task = .running
      · exact ih j hj hfm hrm hwm hjb
      · exact ready_of_not_running h hfm hrm hwm

/-- When the server has finished, every call that was made gets its answer. -/
theorem all_ready (r : Run step new) (hfair : Fair r) (hok : ∀ n, Answered (r.state n) (r.act n)) {n tx : Nat}
    (hf : (r.state n).finished = true) (htx : tx < (r.state n).made) : ∃ m ≥ n, tx ∈ (r.state m).ready := by
  have h : Course r := ⟨hfair, hok⟩
  have hw : Waiting tx (r.state n) := by
    refine (r.reach n).inv (fun s => ∀ tx < s.made, Waiting tx s) ?_ (fun _ _ _ h _ hst => (did_of_step hst).all_waiting h) tx htx
    exact fun _ hlt => absurd hlt (Nat.not_lt_zero _)
  by_cases hr : (r.state n).task = .running
  · cases hw with
    | ready hw => exact ⟨n, Nat.le_refl n, hw⟩
    | queue cmd hm hcmd =>
      obtain ⟨front, back, hq⟩ := append_of_mem hm
      exact ready_of_behind h hf hr (.queue cmd hm hcmd) ⟨front, cmd, back, hq, hcmd, rfl⟩
    | completion hw => exact ready_of_stopping hfair hw (.inl rfl)
    | notify hw => exact ready_of_stop_notify h hf hw
  · exact ready_of_not_running h hf hr hw

lemma fair_of_rest (is : List Step)
    (hsome : ∀ n < is.length, (step (Lib.trace step new (is.getD · .poll) n) (is.getD n .poll)).isSome)
    (hrest : (Lib.trace step new (is.getD · .poll) is.length).panics = 0 ∧
      ((Lib.trace step new (is.getD · .poll) is.length).task = .returned ∨
        ((Lib.trace step new (is.getD · .poll) is.length).task = .running ∧
          (Lib.trace step new (is.getD · .poll) is.length).queue = []))) : Fair (Run.of_loop is .poll hsome rfl) := by
  obtain ⟨hp, htask⟩ := hrest
  constructor
  · refine Run.weaklyFair_of_loop fun ⟨hr, hq⟩ => ?_
    rcases htask with ht | ⟨-, hnil⟩
    · cases hr.symm.trans ht
    · exact hq hnil
  · refine Run.weaklyFair_of_loop fun ⟨completion, hs⟩ => ?_
    rcases htask with ht | ⟨ht, -⟩
    all_goals cases hs.symm.trans ht
  · refine Run.weaklyFair_of_loop fun hs => ?_
    rcases htask with ht | ⟨ht, -⟩
    all_goals cases hs.symm.trans ht
  · exact Run.weaklyFair_of_loop fun hpos => Nat.lt_irrefl 0 (hp ▸ hpos)

/-- A `Server` that was polled, a pause, a stop, and a resume after it. -/
theorem all_ready_four : ∃ r : Run step new, Fair r ∧ (r.state 9).finished = true ∧ (r.state 9).made = 4 ∧
    ∀ tx < 4, ∃ m ≥ 9, tx ∈ (r.state m).ready := by
  have hfair := fair_of_rest [.call .poll, .call .pause, .call .stop, .handle_cmd, .handle_cmd, .handle_cmd, .finish, .drop_rx,
    .call .resume] (by decide) (by decide)
  exact ⟨_, hfair, rfl, rfl, fun _ htx =>
    all_ready _ hfair (Run.of_loop_all (q := fun _ s i => Answered s i) (by decide) fun _ => trivial) rfl htx⟩

/-- A second `stop` while the first is awaited stays in the channel. A `Server` that is polled after a worker's task has
stopped the server waits for a `stop` that nobody calls. -/
theorem not_all_ready :
    (∃ r : Run step new, Fair r ∧ (r.state 5).finished = true ∧ 1 < (r.state 5).made ∧ ∀ m, 1 ∉ (r.state m).ready) ∧
    ∃ r : Run step new, Fair r ∧ (r.state 4).finished = true ∧ 0 < (r.state 4).made ∧ ∀ m, 0 ∉ (r.state m).ready := by
  have hfair := fair_of_rest [.call .stop, .handle_cmd, .call .stop, .finish, .drop_rx] (by decide) (by decide)
  have hfair' := fair_of_rest [.panic, .panic_finish, .call .poll, .handle_cmd] (by decide) (by decide)
  exact ⟨⟨_, hfair, rfl, by decide, Run.of_loop_all (q := fun _ (s : Control) _ => 1 ∉ s.ready) (by decide) fun _ => by decide⟩,
    ⟨_, hfair', rfl, by decide, Run.of_loop_all (q := fun _ (s : Control) _ => 0 ∉ s.ready) (by decide) fun _ => by decide⟩⟩

end Control

end Geario.Server
