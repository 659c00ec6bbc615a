import Geario.Lib.Run
/-!
# The runtime's task queues

A runtime thread owns `local_queue`; other threads put tasks into
`sync_fixed_queue`, or into `sync_queue` when that is full. Each turn of the
driver loop calls `RunnableQueue::run` and then waits for events: without a
timeout when `run` returned false, else with a timeout of zero. A wait ends at
once when `notify` was called since the previous one ended, and uses up all
notifications.

The model goes task by task, so that a call of `schedule` on another thread can
fall between any two of them. Tasks are opaque: what a task does to the queues
is the list of tasks it schedules on the runtime thread.
-/
open Lib

namespace Geario.Rt

structure RunnableQueue (τ : Type) where
  idle : Bool
  event_interval : Nat
  local_queue : List τ
  /-- A buffer of 128 entries. -/
  sync_fixed_queue : List τ
  sync_queue : List τ
  deriving DecidableEq

/-- How far the runtime thread has come. `more` collects the flags that make `run` return true. -/
inductive Point (τ : Type)
  | driver
  | locals (left : Nat)
  | fixed (more : Bool) (buf : List τ)
  | shared (more : Bool) (idx : Nat)
  | returned (more : Bool)
  deriving DecidableEq

def Point.foreign {τ : Type} : Point τ → Option Bool
  | .fixed more _ | .shared more _ => some more
  | _ => none

structure Runtime (τ : Type) where
  queue : RunnableQueue τ
  /-- `notify` was called after the last wait returned. -/
  notified : Bool
  point : Point τ
  deriving DecidableEq

inductive Event (τ : Type)
  | wake (t : τ)
  | remote (t : τ)
  | poll
  | task (spawned : List τ)
  /-- there is no next task in this loop; `busy`: the fixed queue is being written to -/
  | next (busy : Bool)
  | wait

variable {τ : Type}

namespace Runtime

def new (event_interval : Nat) : Runtime τ :=
  { queue := { idle := true, event_interval, local_queue := [], sync_fixed_queue := [], sync_queue := [] },
    notified := false, point := .driver }

def schedule (s : Runtime τ) (t : τ) : Runtime τ :=
  let local_queue := s.queue.local_queue ++ [t]
  if s.queue.idle then { s with queue := { s.queue with local_queue, idle := false }, notified := true }
  else { s with queue.local_queue := local_queue }

def schedule_remote (s : Runtime τ) (t : τ) : Runtime τ :=
  if s.queue.sync_fixed_queue.length < 128 then
    { s with queue.sync_fixed_queue := s.queue.sync_fixed_queue ++ [t], notified := true }
  else { s with queue.sync_queue := s.queue.sync_queue ++ [t], notified := true }

def finish (s : Runtime τ) (more : Bool) : Runtime τ :=
  { s with queue := if more then s.queue else { s.queue with idle := true }, point := .returned more }

def run_task (s : Runtime τ) (queue : RunnableQueue τ) (point : Point τ) (spawned : List τ) : Runtime τ :=
  spawned.foldl schedule { s with queue, point }

def step (s : Runtime τ) : Event τ → Option (Runtime τ)
  | .remote t => some (s.schedule_remote t)
  | .wake t =>
    match s.point with
    -- after `run` too: the driver hands out registration errors before it waits
    | .driver | .returned _ => some (s.schedule t)
    | _ => none
  | .poll =>
    match s.point with
    | .driver => some { s with point := .locals s.queue.event_interval }
    | _ => none
  | .task spawned =>
    match s.point, s.queue.local_queue, s.queue.sync_queue with
    | .locals (left + 1), _ :: rest, _ => some (s.run_task { s.queue with local_queue := rest } (.locals left) spawned)
    | .fixed more (_ :: buf), _, _ => some (s.run_task s.queue (.fixed more buf) spawned)
    | .shared more (idx + 2), _, _ :: rest =>
      some (s.run_task { s.queue with sync_queue := rest } (.shared more (idx + 1)) spawned)
    | _, _, _ => none
  | .next busy =>
    match s.point, s.queue.local_queue, s.queue.sync_queue with
    | .locals (_ + 1), _ :: _, _ => none
    | .locals _, q, _ =>
      if busy then some { s with point := .shared true s.queue.event_interval }
      else some { s with queue.sync_fixed_queue := [], point := .fixed (!q.isEmpty) s.queue.sync_fixed_queue }
    | .fixed more [], _, _ => some { s with point := .shared more s.queue.event_interval }
    -- `idx -= 1` reaches zero
    | .shared _ 1, _, _ => some (s.finish true)
    | .shared more (_ + 2), _, [] => some (s.finish more)
    | _, _, _ => none
  | .wait =>
    match s.point with
    | .returned _ => some { s with point := .driver, notified := false }
    | _ => none

/-- No task is queued. -/
def Empty (s : Runtime τ) : Prop :=
  s.queue.local_queue = [] ∧ s.queue.sync_fixed_queue = [] ∧ s.queue.sync_queue = []

/-- A task of another thread schedules tasks here only when that is noticed: the runtime is idle, has been notified
already, or `run` is going to return true. -/
def Noticed (s : Runtime τ) : Event τ → Prop
  | .task spawned => ∀ more ∈ s.point.foreign, spawned = [] ∨ s.queue.idle = true ∨ s.notified = true ∨ more = true
  | _ => True

instance (s : Runtime τ) : (e : Event τ) → Decidable (s.Noticed e)
  | .task spawned =>
    inferInstanceAs (Decidable (∀ more ∈ s.point.foreign, spawned = [] ∨ s.queue.idle = true ∨ s.notified = true ∨ more = true))
  | .wake _ | .remote _ | .poll | .next _ | .wait => .isTrue trivial

/-- Once the queues have been looked at, what is left in them has been announced. -/
structure Announced (s : Runtime τ) : Prop where
  foreign : ∀ more ∈ s.point.foreign,
    more = true ∨ s.notified = true ∨ s.queue.local_queue = [] ∧ s.queue.sync_fixed_queue = []
  returned : s.point = .returned false → s.notified = true ∨ s.Empty ∧ s.queue.idle = true

variable {s s' : Runtime τ} {e : Event τ}

/-! ## Scheduling -/

lemma schedule_keeps (t : τ) :
    (s.schedule t).point = s.point ∧ (s.schedule t).queue.sync_fixed_queue = s.queue.sync_fixed_queue ∧
      (s.schedule t).queue.sync_queue = s.queue.sync_queue ∧ (s.notified → (s.schedule t).notified) := by
  unfold schedule
  split
  · exact ⟨rfl, rfl, rfl, fun _ => rfl⟩
  · exact ⟨rfl, rfl, rfl, id⟩

lemma schedule_idle {t : τ} (hi : s.queue.idle) : (s.schedule t).notified := by
  rw [schedule, if_pos hi]

lemma foldl_schedule_keeps (l : List τ) (s : Runtime τ) :
    (l.foldl schedule s).point = s.point ∧ (l.foldl schedule s).queue.sync_fixed_queue = s.queue.sync_fixed_queue ∧
      (l.foldl schedule s).queue.sync_queue = s.queue.sync_queue ∧
      (s.notified → (l.foldl schedule s).notified) := by
  induction l generalizing s with
  | nil => exact ⟨rfl, rfl, rfl, id⟩
  | cons t l ih =>
    obtain ⟨hp, hf, hq, hn⟩ := schedule_keeps (s := s) t
    obtain ⟨hp', hf', hq', hn'⟩ := ih (s.schedule t)
    exact ⟨hp'.trans hp, hf'.trans hf, hq'.trans hq, fun h => hn' (hn h)⟩

lemma foldl_schedule_idle {l : List τ} (hl : l ≠ []) (hi : s.queue.idle) : (l.foldl schedule s).notified := by
  cases l with
  | nil => exact absurd rfl hl
  | cons t l => exact (foldl_schedule_keeps l (s.schedule t)).2.2.2 (schedule_idle hi)

lemma announced_of_notified (hn : s.notified) : s.Announced := ⟨fun _ _ => .inr (.inl hn), fun _ => .inl hn⟩

lemma announced_elsewhere (hf : s.point.foreign = none) (hr : s.point ≠ .returned false) : s.Announced :=
  ⟨fun more hm => absurd (hf ▸ hm : more ∈ none) (Option.not_mem_none more), fun hp => absurd hp hr⟩

/-! ## Steps -/

lemma announced_remote (t : τ) : (s.schedule_remote t).Announced := by
  refine announced_of_notified ?_
  unfold schedule_remote
  split <;> rfl

lemma announced_wake (h : s.Announced) (t : τ) (hf : s.point.foreign = none) : (s.schedule t).Announced := by
  obtain ⟨hpoint, -, -, hmono⟩ := schedule_keeps (s := s) t
  by_cases hp : s.point = .returned false
  · rcases h.returned hp with hn | ⟨-, hi⟩
    · exact announced_of_notified (hmono hn)
    · exact announced_of_notified (schedule_idle hi)
  · exact announced_elsewhere (hpoint ▸ hf) (hpoint ▸ hp)

lemma announced_task {q : RunnableQueue τ} {point : Point τ} {spawned : List τ} (hr : point ≠ .returned false)
    (h : ∀ more ∈ point.foreign, more ∨ s.notified ∨ q.local_queue = [] ∧ q.sync_fixed_queue = [])
    (hc : ∀ more ∈ point.foreign, spawned = [] ∨ q.idle ∨ s.notified ∨ more) :
    (s.run_task q point spawned).Announced := by
  obtain ⟨hpoint, -, -, hmono⟩ := foldl_schedule_keeps spawned { s with queue := q, point }
  refine ⟨fun more hm => ?_, fun hp => absurd (hpoint.symm.trans hp) hr⟩
  have hm : more ∈ point.foreign := by
    rw [run_task, hpoint] at hm
    exact hm
  by_cases hnil : spawned = []
  · subst hnil
    exact h more hm
  · rcases (hc more hm).resolve_left hnil with hi | hn | hm
    · exact .inr (.inl (foldl_schedule_idle hnil hi))
    · exact .inr (.inl (hmono hn))
    · exact .inl hm

lemma announced_step (h : s.Announced) (hc : s.Noticed e) (hst : s.step e = some s') : s'.Announced := by
  cases e with
  | remote t =>
    cases hst
    exact announced_remote t
  | wake t =>
    rw [step] at hst
    split at hst
    next hp =>
      cases hst
      exact announced_wake h t (congrArg Point.foreign hp)
    next hp =>
      cases hst
      exact announced_wake h t (congrArg Point.foreign hp)
    · cases hst
  | poll =>
    rw [step] at hst
    split at hst
    · cases hst
      exact announced_elsewhere rfl nofun
    · cases hst
  | task spawned =>
    rw [step] at hst
    split at hst
    · cases hst
      exact announced_task nofun nofun nofun
    next hp =>
      cases hst
      have hf := congrArg Point.foreign hp
      exact announced_task nofun (hf ▸ h.foreign) (hf ▸ hc)
    next hp hq =>
      cases hst
      have hf := congrArg Point.foreign hp
      exact announced_task nofun (hf ▸ h.foreign) (hf ▸ hc)
    · cases hst
  | next busy =>
    rw [step] at hst
    split at hst
    · cases hst
    · split at hst
      · cases hst
        refine ⟨fun more hm => .inl (Option.some.inj hm).symm, nofun⟩
      · cases hst
        refine ⟨fun more hm => ?_, nofun⟩
        cases hm
        -- `more` is what is seen of the local queue now, and the fixed queue has just been emptied
        cases s.queue.local_queue with
        | nil => exact .inr (.inr ⟨rfl, rfl⟩)
        | cons t l => exact .inl rfl
    next hp =>
      cases hst
      have hf := congrArg Point.foreign hp
      exact ⟨hf ▸ h.foreign, nofun⟩
    · cases hst
      exact announced_elsewhere rfl nofun
    next more _ hp hq =>
      cases hst
      refine ⟨nofun, fun hr => ?_⟩
      obtain rfl : more = false := Point.returned.inj hr
      rcases h.foreign false (by rw [hp]; rfl) with hm | hn | ⟨hl, hf⟩
      · cases hm
      · exact .inl hn
      · exact .inr ⟨⟨hl, hf, hq⟩, rfl⟩
    · cases hst
  | wait =>
    rw [step] at hst
    split at hst
    · cases hst
      exact announced_elsewhere rfl nofun
    · cases hst

/-! ## Runs -/

lemma announced_new {event_interval : Nat} : (new event_interval : Runtime τ).Announced :=
  announced_elsewhere rfl (by rw [new]; nofun)

/-- When `run` returns false, either there is nothing to run or the wait that follows returns at once. -/
theorem never_sleeps_with_work {event_interval : Nat} (hr : Reach step Noticed (.new event_interval) s)
    (hp : s.point = .returned false) : s.Empty ∨ s.notified = true := by
  have h : s.Announced := hr.inv Announced announced_new fun _ _ _ h hc hst => announced_step h hc hst
  rcases h.returned hp with hn | ⟨he, -⟩
  · exact .inr hn
  · exact .inl he

theorem never_sleeps_after_one_task : ∃ s : Runtime Nat, s.point = .returned false ∧ (s.Empty ∨ s.notified = true) := by
  have hreach : Reach step Noticed (.new 2) _ := .of_steps
      [.wake 0, .poll, .task [], .remote 1, .next false, .task [], .next false, .next false] rfl
  refine ⟨_, ?_, never_sleeps_with_work hreach rfl⟩
  rfl

/-- Three tasks are woken and the interval is two. The turn after that begins with `idle` unset, and what the task of
another thread schedules in it is not announced. -/
theorem sleeps_with_local_task : ∃ s : Runtime Nat, Reach step (fun _ _ => True) (.new 2) s ∧
    s.point = .returned false ∧ s.queue.local_queue = [4] ∧ s.notified = false := by
  have hreach : Reach step (fun _ _ => True) (.new 2) _ := .of_steps
      [.wake 0, .wake 1, .wake 2, .poll, .task [], .task [], .next false, .remote 3, .next false, .next false, .wait,
        .poll, .task [], .next false, .task [4], .next false, .next false] rfl
  exact ⟨_, hreach, rfl, rfl, rfl⟩

end Runtime

end Geario.Rt
