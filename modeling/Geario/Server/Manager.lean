import Geario.Lib.Run
/-!
# The server manager and its workers

A worker runs on a thread of its own and says through three atomic flags whether
it is available. For every worker the manager has a task that looks at the flags
(`start_worker`) and sends an update when they have changed, and one task handles
the updates and the items for the workers (`handle_cmd`): it keeps the list of
workers that items are sent to.

A step of a thread or task is one access to a flag, so that the others may do
anything between two of them. `set` and the drop of `WorkerAvailabilityTx` take
several steps; which one is next is the state of the thread. Names of workers
are numbers, and a worker that is started again under its name is of the next
generation.
-/
open Lib

namespace Geario.Server

/-- A handle of a worker. Handles are compared by name. -/
structure Worker where
  name : Nat
  gen : Nat
  deriving DecidableEq

inductive Thread
  | idle
  | set_updated
  | set_wake
  /-- `WorkerAvailabilityTx` is dropped, or the arbiter stops -/
  | drop_failed
  | drop_updated
  | drop_available
  | drop_wake
  | dead
  deriving DecidableEq

inductive Task
  /-- the two accesses of `Worker::status` -/
  | status
  | status_available
  /-- the check and the poll of `wait_for_status` -/
  | wait_for_status
  | poll_update
  | parked
  /-- the worker is started again after `RESTART_DELAY` -/
  | restart
  | done
  deriving DecidableEq

structure Slot where
  gen : Nat
  available : Bool
  updated : Bool
  failed : Bool
  thread : Thread
  task : Task
  /-- the last update the task sent is `Available` -/
  reported : Bool
  deriving DecidableEq

inductive WorkerStatus
  | Available | Unavailable | Failed
  deriving DecidableEq

namespace Slot

def start (gen : Nat) (task : Task) : Slot :=
  { gen, available := false, updated := false, failed := false, thread := .idle, task, reported := false }

def status (s : Slot) : WorkerStatus :=
  if s.failed then .Failed else if s.available then .Available else .Unavailable

def wake (s : Slot) : Slot := if s.task = .parked then { s with task := .poll_update } else s

def set (s : Slot) (val : Bool) : Slot :=
  { s with available := val, thread := if s.available = val then .idle else .set_updated }

def run_thread (s : Slot) : Option Slot :=
  match s.thread with
  | .idle | .dead => none
  | .set_updated => some { s with updated := true, thread := .set_wake }
  | .set_wake => some { s.wake with thread := .idle }
  | .drop_failed => some { s with failed := true, thread := .drop_updated }
  | .drop_updated => some { s with updated := true, thread := .drop_available }
  | .drop_available => some { s with available := false, thread := .drop_wake }
  | .drop_wake => some { s.wake with thread := .dead }

end Slot

inductive ServerCommand (τ : Type)
  | Item (item : τ)
  | Available (worker : Worker)
  | Unavailable (worker : Worker)

structure HandleCmdState (τ : Type) where
  next : Nat
  backlog : List τ
  workers : List Worker
  /-- `ServerManager::pause` was called after `resume` -/
  paused : Bool
  deriving DecidableEq

namespace HandleCmdState

variable {τ : Type}

def new : HandleCmdState τ := { next := 0, backlog := [], workers := [], paused := true }

/-- The loop of `process`, for as many rounds as there are workers. `gone`: the worker's channel is closed. -/
def process_loop (gone : Worker → Bool) (stopping : Bool) (item : τ) : Nat → HandleCmdState τ → HandleCmdState τ
  | 0, s => if stopping then s else { s with backlog := s.backlog ++ [item], paused := true }
  | n + 1, s =>
    let next := if s.workers.length ≤ s.next then s.workers.length - 1 else s.next
    match s.workers[next]? with
    | none => s
    | some worker =>
      if gone worker then process_loop gone stopping item n { s with next, workers := s.workers.eraseIdx next }
      else { s with next := (next + 1) % s.workers.length }

def process (gone : Worker → Bool) (stopping : Bool) (s : HandleCmdState τ) (item : τ) : HandleCmdState τ :=
  process_loop gone stopping item s.workers.length s

def send_backlog (gone : Worker → Bool) (s : HandleCmdState τ) : HandleCmdState τ :=
  match s.workers, s.backlog with
  | [], _ | _, [] => s
  | worker :: rest, item :: items =>
    if gone worker then { s with backlog := items ++ [item], workers := rest, paused := s.paused || rest.isEmpty }
    else { s with backlog := [] }

def add_worker (s : HandleCmdState τ) (worker : Worker) : HandleCmdState τ :=
  let workers := (s.workers ++ [worker]).insertionSort fun a b => a.name ≤ b.name
  { s with workers, paused := if workers.length = 1 then false else s.paused }

/-- `add_worker` keeps the list sorted by name, and on a sorted list the binary search of the standard library ends at the
last of several handles with one name: that one is removed. -/
def remove_worker (s : HandleCmdState τ) (worker : Worker) : HandleCmdState τ :=
  let workers := (s.workers.reverse.eraseP (·.name = worker.name)).reverse
  { s with workers, paused := s.paused || workers.isEmpty }

end HandleCmdState

structure Manager (τ : Type) where
  num : Nat
  slots : Nat → Slot
  closed : List Worker
  queue : List (ServerCommand τ)
  state : HandleCmdState τ
  stopping : Bool
  /-- the handles of the `Available` updates that were the last of their worker to be handled -/
  seen : Nat → Option Nat

namespace Manager

variable {τ : Type}

def new (num : Nat) : Manager τ :=
  { num, slots := fun _ => .start 0 .status, closed := [], queue := [], state := .new, stopping := false,
    seen := fun _ => none }

def set_slot (s : Manager τ) (name : Nat) (slot : Slot) : Manager τ :=
  { s with slots := fun k => if k = name then slot else s.slots k }

def worker (s : Manager τ) (name : Nat) : Worker := { name, gen := (s.slots name).gen }

def gone (s : Manager τ) (worker : Worker) : Bool := worker ∈ s.closed

def report (s : Manager τ) (name : Nat) (slot : Slot) (available : Bool) : Manager τ :=
  let worker := { name, gen := slot.gen }
  { s.set_slot name { slot with reported := available } with
    queue := s.queue ++ [if available then .Available worker else .Unavailable worker] }

def run_task (s : Manager τ) (name : Nat) : Option (Manager τ) :=
  let slot := s.slots name
  match slot.task with
  | .status =>
    if slot.failed then some (s.report name { slot with task := .restart } false)
    else some (s.set_slot name { slot with task := .status_available })
  | .status_available => some (s.report name { slot with task := .wait_for_status } slot.available)
  | .wait_for_status => some (s.set_slot name { slot with task := if slot.failed then .status else .poll_update })
  | .poll_update =>
    some (s.set_slot name (if slot.updated then { slot with updated := false, task := .status } else { slot with task := .parked }))
  | .restart =>
    some (s.set_slot name (if s.stopping then { slot with task := .done } else .start (slot.gen + 1) .wait_for_status))
  | .parked | .done => none

def update_workers (s : Manager τ) (worker : Worker) (available : Bool) : Manager τ :=
  let state := if available then s.state.add_worker worker else s.state.remove_worker worker
  { s with
    state := state.send_backlog s.gone
    seen := fun k => if k = worker.name then (if available then some worker.gen else none) else s.seen k }

def handle_cmd (s : Manager τ) : Option (Manager τ) :=
  match s.queue with
  | [] => none
  | .Item item :: queue => some { s with queue, state := s.state.process s.gone s.stopping item }
  | .Available worker :: queue => some ({ s with queue }.update_workers worker true)
  | .Unavailable worker :: queue => some ({ s with queue }.update_workers worker false)

end Manager

inductive Step (τ : Type)
  | set (name : Nat) (val : Bool)
  | close (name : Nat)
  | on_stop (name : Nat)
  | close_old (worker : Worker)
  | thread (name : Nat)
  | task (name : Nat)
  /-- a parked task is polled for some other reason -/
  | spurious (name : Nat)
  | send (item : τ)
  | handle_cmd

variable {τ : Type}

def step (s : Manager τ) : Step τ → Option (Manager τ)
  | .set name val =>
    if name < s.num ∧ (s.slots name).thread = .idle then some (s.set_slot name ((s.slots name).set val)) else none
  | .close name =>
    if name < s.num ∧ ((s.slots name).thread = .idle ∨ (s.slots name).thread = .dead) then
      some { s.set_slot name { s.slots name with thread := .drop_failed } with closed := s.worker name :: s.closed }
    else none
  | .on_stop name =>
    if name < s.num ∧ ((s.slots name).thread = .idle ∨ (s.slots name).thread = .dead) then
      some (s.set_slot name { s.slots name with thread := .drop_failed })
    else none
  | .close_old worker =>
    if worker.gen < (s.slots worker.name).gen then some { s with closed := worker :: s.closed } else none
  | .thread name => if name < s.num then (s.slots name).run_thread.map (s.set_slot name) else none
  | .task name => if name < s.num then s.run_task name else none
  | .spurious name => if name < s.num then some (s.set_slot name (s.slots name).wake) else none
  | .send item => some { s with queue := s.queue ++ [.Item item] }
  | .handle_cmd => s.handle_cmd

end Geario.Server
