import Geario.Lib.Parties
import Geario.Lib.Run
/-!
# The pool for blocking operations

`ThreadPool::execute` offers its closure to a thread that waits for work. When
there is none it reads the counter: below the limit it spawns a thread and sends
the closure through the rendezvous channel, else it puts the closure into the
queue for urgent work. A thread counts itself when it has started and takes
itself off the counter when its guard is dropped.

The model goes from one shared access to the next, so that any number of calls
and threads can be interleaved. A closure is named by the call that brings it.
-/
open Lib Option

namespace Geario.Rt

inductive Worker
  | spawned
  /-- `select` tries the queue for urgent work -/
  | urgent
  /-- that was empty, and it tries the rendezvous channel -/
  | rendezvous
  /-- it is parked, known to both channels -/
  | waiting
  | received (f : Nat)
  | running (f : Nat)
  | leaving
  | gone
  deriving DecidableEq

inductive Execute
  | try_send
  | load
  | push
  | spawn
  | send
  | blocked
  | returned
  deriving DecidableEq

structure ThreadPool where
  thread_limit : Nat
  counter : Nat
  workers : List Worker
  calls : List Execute
  high_prio : List Nat
  dropped : List Nat
  executed : List Nat
  deriving DecidableEq

namespace ThreadPool

inductive Step
  | execute
  | try_send (i : Nat) (w : Option Nat)
  | load (i : Nat)
  | push (i : Nat)
  | spawn (i : Nat)
  | send (i : Nat) (w : Option Nat)
  | drop (i : Nat)
  | start (w : Nat)
  | urgent (w : Nat)
  /-- the closure of a call that waits in the rendezvous channel -/
  | receive (w i : Nat)
  | park (w : Nat)
  | give_up (w : Nat)
  | wake (w : Nat)
  | run (w : Nat)
  | finish (w : Nat)
  | exit (w : Nat)
  | idle
  deriving DecidableEq

def new (thread_limit : Nat) : ThreadPool :=
  { thread_limit, counter := 0, workers := [], calls := [], high_prio := [], dropped := [], executed := [] }

def worker (p : ThreadPool) (w : Nat) (x : Worker) : ThreadPool := { p with workers := p.workers.set w x }

def call (p : ThreadPool) (i : Nat) (x : Execute) : ThreadPool := { p with calls := p.calls.set i x }

/-- The rendezvous channel has a receiver only while a thread waits. -/
def offer (p : ThreadPool) (i : Nat) (w : Option Nat) (full : Execute) : Option ThreadPool :=
  match w with
  | some w => if p.workers[w]? = some .waiting then some ((p.worker w (.received i)).call i .returned) else none
  | none => if .waiting ∈ p.workers then none else some (p.call i full)

def try_urgent (p : ThreadPool) (w : Nat) : ThreadPool :=
  match p.high_prio with
  | f :: rest => { p.worker w (.received f) with high_prio := rest }
  | [] => p.worker w .rendezvous

def run (p : ThreadPool) (w : Nat) : Option ThreadPool :=
  match p.workers[w]? with
  | some (.received f) =>
    some (if f ∈ p.dropped then p.worker w .urgent else { p.worker w (.running f) with executed := f :: p.executed })
  | _ => none

def finish (p : ThreadPool) (w : Nat) : Option ThreadPool :=
  match p.workers[w]? with
  | some (.running _) => some (p.worker w .urgent)
  | _ => none

def step (p : ThreadPool) : Step → Option ThreadPool
  | .execute => some { p with calls := p.calls ++ [.try_send] }
  | .try_send i w => if p.calls[i]? = some .try_send then p.offer i w .load else none
  | .load i =>
    if p.calls[i]? = some .load then some (p.call i (if p.thread_limit ≤ p.counter then .push else .spawn)) else none
  | .push i =>
    if p.calls[i]? = some .push then some { p.call i .returned with high_prio := p.high_prio ++ [i] } else none
  | .spawn i =>
    if p.calls[i]? = some .spawn then some { p.call i .send with workers := p.workers ++ [.spawned] } else none
  | .send i w => if p.calls[i]? = some .send then p.offer i w .blocked else none
  | .drop i => some { p with dropped := i :: p.dropped }
  | .start w =>
    if p.workers[w]? = some .spawned then some { p.worker w .urgent with counter := p.counter + 1 } else none
  | .urgent w => if p.workers[w]? = some .urgent then some (p.try_urgent w) else none
  | .receive w i =>
    if p.workers[w]? = some .rendezvous ∧ p.calls[i]? = some .blocked then some ((p.worker w (.received i)).call i .returned)
    else none
  | .park w =>
    -- a channel that is ready when the thread registers with it is tried again
    if p.workers[w]? = some .rendezvous ∧ .blocked ∉ p.calls then
      some (p.worker w (if p.high_prio = [] then .waiting else .urgent))
    else none
  | .give_up w =>
    if p.workers[w]? = some .rendezvous ∧ .blocked ∉ p.calls then some (p.worker w .leaving) else none
  | .wake w => if p.workers[w]? = some .waiting then some (p.worker w .urgent) else none
  | .run w => p.run w
  | .finish w => p.finish w
  | .exit w =>
    if p.workers[w]? = some .leaving then some { p.worker w .gone with counter := p.counter - 1 } else none
  | .idle => some p

def live (p : ThreadPool) : Nat := p.workers.countP (· ≠ .gone)

variable {p p' : ThreadPool} {i : Step}

/-! ## What a step can do -/

inductive Did (p : ThreadPool) : Step → ThreadPool → Prop
  | execute : Did p .execute { p with calls := p.calls ++ [.try_send] }
  | tried_send {j w : Nat} (hi : p.calls[j]? = some .try_send) (hw : p.workers[w]? = some .waiting) :
      Did p (.try_send j (some w)) ((p.worker w (.received j)).call j .returned)
  | full {j : Nat} (hi : p.calls[j]? = some .try_send) (hw : .waiting ∉ p.workers) : Did p (.try_send j none) (p.call j .load)
  | at_limit {j : Nat} (hi : p.calls[j]? = some .load) (hc : p.thread_limit ≤ p.counter) : Did p (.load j) (p.call j .push)
  | below_limit {j : Nat} (hi : p.calls[j]? = some .load) (hc : p.counter < p.thread_limit) : Did p (.load j) (p.call j .spawn)
  | push {j : Nat} (hi : p.calls[j]? = some .push) : Did p (.push j) { p.call j .returned with high_prio := p.high_prio ++ [j] }
  | spawn {j : Nat} (hi : p.calls[j]? = some .spawn) : Did p (.spawn j) { p.call j .send with workers := p.workers ++ [.spawned] }
  | sent {j w : Nat} (hi : p.calls[j]? = some .send) (hw : p.workers[w]? = some .waiting) :
      Did p (.send j (some w)) ((p.worker w (.received j)).call j .returned)
  | blocks {j : Nat} (hi : p.calls[j]? = some .send) (hw : .waiting ∉ p.workers) : Did p (.send j none) (p.call j .blocked)
  | drop {j : Nat} : Did p (.drop j) { p with dropped := j :: p.dropped }
  | start {w : Nat} (hw : p.workers[w]? = some .spawned) : Did p (.start w) { p.worker w .urgent with counter := p.counter + 1 }
  | pops {w f : Nat} {rest : List Nat} (hw : p.workers[w]? = some .urgent) (hf : p.high_prio = f :: rest) :
      Did p (.urgent w) { p.worker w (.received f) with high_prio := rest }
  | empty {w : Nat} (hw : p.workers[w]? = some .urgent) (hf : p.high_prio = []) : Did p (.urgent w) (p.worker w .rendezvous)
  | receive {w j : Nat} (hw : p.workers[w]? = some .rendezvous) (hi : p.calls[j]? = some .blocked) :
      Did p (.receive w j) ((p.worker w (.received j)).call j .returned)
  | park {w : Nat} (hw : p.workers[w]? = some .rendezvous) (hb : .blocked ∉ p.calls) (hh : p.high_prio = []) :
      Did p (.park w) (p.worker w .waiting)
  | again {w : Nat} (hw : p.workers[w]? = some .rendezvous) (hb : .blocked ∉ p.calls) (hh : p.high_prio ≠ []) :
      Did p (.park w) (p.worker w .urgent)
  | give_up {w : Nat} (hw : p.workers[w]? = some .rendezvous) (hb : .blocked ∉ p.calls) : Did p (.give_up w) (p.worker w .leaving)
  | wake {w : Nat} (hw : p.workers[w]? = some .waiting) : Did p (.wake w) (p.worker w .urgent)
  | cancelled {w f : Nat} (hw : p.workers[w]? = some (.received f)) (hf : f ∈ p.dropped) : Did p (.run w) (p.worker w .urgent)
  | run {w f : Nat} (hw : p.workers[w]? = some (.received f)) (hf : f ∉ p.dropped) :
      Did p (.run w) { p.worker w (.running f) with executed := f :: p.executed }
  | finish {w f : Nat} (hw : p.workers[w]? = some (.running f)) : Did p (.finish w) (p.worker w .urgent)
  | exit {w : Nat} (hw : p.workers[w]? = some .leaving) : Did p (.exit w) { p.worker w .gone with counter := p.counter - 1 }
  | idle : Did p .idle p

lemma did_of_step (h : p.step i = some p') : Did p i p' := by
  cases i with
  | execute =>
    cases h
    exact .execute
  | drop i =>
    cases h
    exact .drop
  | try_send i w =>
    obtain ⟨hi, h⟩ := of_guard h
    cases w with
    | some w =>
      obtain ⟨hw, rfl⟩ := of_ite h
      exact .tried_send hi hw
    | none =>
      obtain ⟨hw, rfl⟩ := of_ite_not h
      exact .full hi hw
  | send i w =>
    obtain ⟨hi, h⟩ := of_guard h
    cases w with
    | some w =>
      obtain ⟨hw, rfl⟩ := of_ite h
      exact .sent hi hw
    | none =>
      obtain ⟨hw, rfl⟩ := of_ite_not h
      exact .blocks hi hw
  | load i =>
    obtain ⟨hi, rfl⟩ := of_ite h
    split
    · exact .at_limit hi ‹_›
    · exact .below_limit hi (Nat.lt_of_not_le ‹_›)
  | push i =>
    obtain ⟨hi, rfl⟩ := of_ite h
    exact .push hi
  | spawn i =>
    obtain ⟨hi, rfl⟩ := of_ite h
    exact .spawn hi
  | start w =>
    obtain ⟨hw, rfl⟩ := of_ite h
    exact .start hw
  | urgent w =>
    obtain ⟨hw, rfl⟩ := of_ite h
    unfold try_urgent
    split
    · exact .pops hw ‹_›
    · exact .empty hw ‹_›
  | receive w i =>
    obtain ⟨⟨hw, hi⟩, h⟩ := of_guard h
    cases h
    exact .receive hw hi
  | park w =>
    obtain ⟨⟨hw, hb⟩, h⟩ := of_guard h
    cases h
    split
    · exact .park hw hb ‹_›
    · exact .again hw hb ‹_›
  | give_up w =>
    obtain ⟨⟨hw, hb⟩, h⟩ := of_guard h
    cases h
    exact .give_up hw hb
  | wake w =>
    obtain ⟨hw, rfl⟩ := of_ite h
    exact .wake hw
  | run w =>
    change p.run w = some p' at h
    unfold run at h
    split at h
    next f hw =>
      cases h
      split
      · exact .cancelled hw ‹_›
      · exact .run hw ‹_›
    · cases h
  | finish w =>
    change p.finish w = some p' at h
    unfold finish at h
    split at h
    next f hw =>
      cases h
      exact .finish hw
    · cases h
  | exit w =>
    obtain ⟨hw, rfl⟩ := of_ite h
    exact .exit hw
  | idle =>
    cases h
    exact .idle

/-! ## The limit -/

/-- When a call finds the counter below the limit, every thread that was spawned has started, and no other call is between its
look at the counter and its spawn. -/
def Counted (p : ThreadPool) : Step → Prop
  | .load _ => p.counter < p.thread_limit → .spawned ∉ p.workers ∧ .spawn ∉ p.calls
  | _ => True

instance (p : ThreadPool) (i : Step) : Decidable (p.Counted i) := by
  unfold Counted
  split <;> infer_instance

/-- The threads that have counted themselves and have their guard. -/
def counted (p : ThreadPool) : Nat := p.workers.countP fun x => x ≠ .spawned ∧ x ≠ .gone

lemma counted_set {w : Nat} {x : Worker} (hw : p.workers[w]? = some x) (y : Worker) :
    (p.worker w y).counted + (if x ≠ .spawned ∧ x ≠ .gone then 1 else 0) =
      p.counted + if y ≠ .spawned ∧ y ≠ .gone then 1 else 0 := by
  have hset := countP_set (p := fun x => decide (x ≠ Worker.spawned ∧ x ≠ .gone)) hw y
  simp only [decide_eq_true_eq] at hset
  exact hset

/-- The counter is the number of threads that are counted, whatever the schedule. -/
lemma counter_step (h : p.counter = p.counted) (hd : Did p i p') : p'.counter = p'.counted := by
  cases hd with
  | execute | full | at_limit | below_limit | push | blocks | drop | idle => exact h
  | spawn => exact h.trans (by simp [counted])
  | start hw | exit hw | tried_send _ hw | sent _ hw | receive hw | pops hw | empty hw | park hw | again hw | give_up hw
  | wake hw | cancelled hw | run hw | finish hw =>
    have hset := counted_set hw
    grind [counted, ThreadPool.worker, ThreadPool.call]

/-- When all have started, the threads that are counted are those that live. -/
lemma live_eq_counted (h : .spawned ∉ p.workers) : p.live = p.counted :=
  List.countP_congr fun x hx => by
    have hne : x ≠ .spawned := fun heq => h (heq ▸ hx)
    simp [hne]

structure Within (limit : Nat) (p : ThreadPool) : Prop where
  thread_limit : p.thread_limit = limit
  live : p.live + p.calls.countP (· = .spawn) ≤ limit

section Limit

variable {limit : Nat}

section

variable (h : Within limit p)
include h

lemma Within.same (hl : p'.thread_limit = p.thread_limit) (hw : p'.workers = p.workers)
    (hc : p'.calls = p.calls) : Within limit p' := by
  refine ⟨hl.trans h.thread_limit, ?_⟩
  rw [ThreadPool.live, hw, hc]
  exact h.live

lemma Within.worker {w : Nat} {x : Worker} (hw : p.workers[w]? = some x) (hx : x ≠ .gone) (y : Worker) :
    Within limit (p.worker w y) := by
  refine ⟨h.thread_limit, Nat.le_trans (Nat.add_le_add_right ?_ _) h.live⟩
  have hset := countP_set (p := fun x => decide (x ≠ Worker.gone)) hw y
  rw [decide_eq_true hx, if_pos rfl] at hset
  have hy : (if decide (y ≠ Worker.gone) then 1 else 0) ≤ 1 := by split <;> omega
  dsimp only [ThreadPool.live, ThreadPool.worker]
  omega

lemma Within.call {j : Nat} {x y : Execute} (hj : p.calls[j]? = some x) (hy : y ≠ .spawn) : Within limit (p.call j y) := by
  refine ⟨h.thread_limit, Nat.le_trans (Nat.add_le_add_left ?_ _) h.live⟩
  have hset := countP_set (p := fun x => decide (x = Execute.spawn)) hj y
  rw [decide_eq_false hy, if_neg Bool.false_ne_true] at hset
  dsimp only [ThreadPool.call]
  omega

lemma Within.spawn {j : Nat} (hj : p.calls[j]? = some .load)
    (hroom : p.live + p.calls.countP (· = .spawn) < p.thread_limit) : Within limit (p.call j .spawn) := by
  refine ⟨h.thread_limit, ?_⟩
  have hset := countP_set (p := fun x => decide (x = Execute.spawn)) hj .spawn
  have hlive : (p.call j .spawn).live = p.live := rfl
  rw [h.thread_limit] at hroom
  rw [hlive]
  dsimp only [ThreadPool.call]
  simp only [reduceCtorEq, decide_false, decide_true, Bool.false_eq_true, if_false, if_true] at hset
  omega

lemma Within.spawned {j : Nat} (hj : p.calls[j]? = some .spawn) :
    Within limit { p.call j .send with workers := p.workers ++ [.spawned] } := by
  refine ⟨h.thread_limit, ?_⟩
  have hset := countP_set (p := fun x => decide (x = Execute.spawn)) hj .send
  simp only [reduceCtorEq, decide_false, decide_true, Bool.false_eq_true, if_false, if_true] at hset
  have hlive : ({ p.call j .send with workers := p.workers ++ [.spawned] } : ThreadPool).live = p.live + 1 := by
    simp [ThreadPool.live, List.countP_append]
  have hle := h.live
  rw [hlive]
  dsimp only [ThreadPool.call]
  omega

lemma within_step (hcount : p.counter = p.counted) (hok : p.Counted i) (hd : Did p i p') : Within limit p' := by
  cases hd with
  | execute =>
    refine ⟨h.thread_limit, ?_⟩
    rw [List.countP_append]
    exact h.live
  | tried_send hj hw | sent hj hw | receive hw hj => exact (h.worker hw nofun _).call hj nofun
  | full hj | blocks hj | at_limit hj => exact h.call hj nofun
  | below_limit hj hc =>
    obtain ⟨hstarted, halone⟩ := hok hc
    refine h.spawn hj ?_
    have hnone : p.calls.countP (· = .spawn) = 0 := List.countP_eq_zero.2 fun x hx heq => halone (of_decide_eq_true heq ▸ hx)
    rw [hnone, live_eq_counted hstarted, ← hcount]
    exact hc
  | push hj => exact (h.call (y := .returned) hj nofun).same rfl rfl rfl
  | spawn hj => exact h.spawned hj
  | drop | idle => exact h.same rfl rfl rfl
  | empty hw | park hw | again hw | give_up hw | wake hw | cancelled hw | finish hw => exact h.worker hw nofun _
  | start hw => exact (h.worker hw nofun .urgent).same rfl rfl rfl
  | pops hw => exact (h.worker hw nofun (.received _)).same rfl rfl rfl
  | run hw => exact (h.worker hw nofun (.running _)).same rfl rfl rfl
  | exit hw => exact (h.worker hw nofun .gone).same rfl rfl rfl

end

/-- The threads of a pool never exceed its limit in runs in which no call looks at the counter while a thread is on its way to
be counted. -/
theorem live_le_thread_limit (h : Reach step Counted (new limit) p) : p.live ≤ limit := by
  have hw : p.counter = p.counted ∧ Within limit p := by
    refine h.inv (fun p => p.counter = p.counted ∧ Within limit p) ⟨rfl, rfl, Nat.zero_le _⟩ fun _ _ _ hi hok hst => ?_
    exact ⟨counter_step hi.1 (did_of_step hst), within_step hi.2 hi.1 hok (did_of_step hst)⟩
  exact Nat.le_trans (Nat.le_add_right _ _) hw.2.live

/-- Two calls, each with a thread of its own. -/
theorem live_le_thread_limit_two : ∃ p, Reach step Counted (new 2) p ∧ p.executed = [1, 0] ∧ p.live ≤ 2 := by
  have hreach : Reach step Counted (new 2) _ := .of_steps
      [.execute, .try_send 0 none, .load 0, .spawn 0, .start 0, .urgent 0, .park 0, .send 0 (some 0), .run 0,
        .execute, .try_send 1 none, .load 1, .spawn 1, .send 1 none, .start 1, .urgent 1, .receive 1 1, .run 1] rfl
  exact ⟨_, hreach, rfl, live_le_thread_limit hreach⟩

/-- The second closure is taken by the first thread before the second has counted itself, so that the third call finds room
for a third thread. -/
theorem live_gt_thread_limit : ∃ p, Reach step (fun _ _ => True) (new 2) p ∧ 2 < p.live := by
  have hreach : Reach step (fun _ _ => True) (new 2) _ := .of_steps
      [.execute, .try_send 0 none, .load 0, .spawn 0, .start 0, .urgent 0, .park 0, .send 0 (some 0), .run 0,
        .execute, .try_send 1 none, .load 1, .spawn 1, .finish 0, .urgent 0, .park 0, .send 1 (some 0), .run 0,
        .execute, .try_send 2 none, .load 2, .spawn 2] rfl
  refine ⟨_, hreach, ?_⟩
  decide

end Limit

end ThreadPool

end Geario.Rt
