import Geario.Server.Routing
/-!
# Stopping the server

`HandleCmdState::stop` sends a `Shutdown` to the workers of its list, waits until
they have finished or a timeout has elapsed, and then tells those who wait for
the server to stop. It is called when a `Stop` command or a signal is handled,
with the routing list. A worker that is busy is not on that list and gets no
`Shutdown`. When a worker fails and `stop_on_panic` is set, `stop` is called on
a new `HandleCmdState`, whose list is empty.

`WorkerStop` is resolved when the worker has answered the `Shutdown` or has
dropped it, which is when the worker counts as finished here.
-/
open Lib List

namespace Geario.Server

inductive Phase
  | factory
  | joining
  | delay
  | signalled
  deriving DecidableEq

structure StopCall where
  graceful : Bool
  timeout : Nat
  workers : List Worker
  running : List Worker
  phase : Phase
  /-- the workers a `Shutdown` was sent to, and its timeout -/
  sent : List (Worker × Nat)
  deadline : Nat
  deriving DecidableEq

structure ServerConfig where
  shutdown_timeout : Nat
  graceful_shutdown : Bool
  stop_on_panic : Bool
  deriving DecidableEq

structure StopState (τ : Type) where
  cfg : ServerConfig
  mgr : Manager τ
  now : Nat
  stops : List StopCall
  /-- `handle_cmd` has not returned and is not stopping the server -/
  handling : Bool
  finished : List Worker

namespace StopCall

def new (graceful : Bool) (timeout : Nat) (workers running : List Worker) : StopCall :=
  { graceful, timeout, workers, running, phase := .factory, sent := [], deadline := 0 }

def stop_workers (c : StopCall) (now : Nat) : StopCall :=
  if c.graceful ∧ c.timeout ≠ 0 then
    { c with
      sent := c.workers.map fun worker => (worker, c.timeout)
      deadline := now + c.timeout
      phase := if c.workers = [] then .delay else .joining }
  else { c with sent := c.workers.map fun worker => (worker, 0), phase := .delay }

end StopCall

namespace StopState

variable {τ : Type}

def new (cfg : ServerConfig) (num : Nat) : StopState τ :=
  { cfg, mgr := .new num, now := 0, stops := [], handling := true, finished := [] }

def running (s : StopState τ) : List Worker :=
  ((List.range s.mgr.num).filter fun name => (s.mgr.slots name).thread.running).map s.mgr.worker

def call_stop (s : StopState τ) (graceful : Bool) (workers : List Worker) : StopState τ :=
  { s with
    mgr.stopping := true
    stops := s.stops ++ [.new graceful s.cfg.shutdown_timeout workers s.running] }

def panics (s : StopState τ) (name : Nat) : Bool :=
  s.cfg.stop_on_panic && (s.mgr.slots name).task = .status && (s.mgr.slots name).failed

end StopState

inductive StopStep (τ : Type)
  | mgr (i : Step τ)
  | stop (graceful : Bool)
  | panic (name : Nat)
  | stop_workers (idx : Nat)
  | joined (idx : Nat)
  | signal (idx : Nat)
  | finish (worker : Worker)
  | tick (ms : Nat)

variable {τ : Type}

namespace StopState

def set_stop (s : StopState τ) (idx : Nat) (c : StopCall) : StopState τ := { s with stops := s.stops.set idx c }

def enabled (s : StopState τ) : Step τ → Bool
  | .handle_cmd => s.handling
  | .task name => !s.panics name
  | _ => true

def step (s : StopState τ) : StopStep τ → Option (StopState τ)
  | .mgr i => if s.enabled i then (Server.step s.mgr i).map fun mgr => { s with mgr } else none
  | .stop graceful =>
    if s.handling then some { s.call_stop graceful s.mgr.state.workers with handling := false } else none
  | .panic name =>
    if name < s.mgr.num ∧ s.panics name then
      let stopped := s.call_stop s.cfg.graceful_shutdown []
      some { stopped with mgr := stopped.mgr.set_slot name { s.mgr.slots name with task := .done } }
    else none
  | .stop_workers idx =>
    match s.stops[idx]? with
    | some c => if c.phase = .factory then some (s.set_stop idx (c.stop_workers s.now)) else none
    | none => none
  | .joined idx =>
    match s.stops[idx]? with
    | some c =>
      if c.phase = .joining ∧ ((∀ worker ∈ c.workers, worker ∈ s.finished) ∨ c.deadline ≤ s.now) then
        some (s.set_stop idx { c with phase := .delay })
      else none
    | none => none
  | .signal idx =>
    match s.stops[idx]? with
    | some c => if c.phase = .delay then some (s.set_stop idx { c with phase := .signalled }) else none
    | none => none
  | .finish worker => some { s with finished := worker :: s.finished }
  | .tick ms => some { s with now := s.now + ms }

/-- Until the server is stopped, no task finds its worker available twice in a row. A graceful stop is the first, and the
last update of each running worker that `handle_cmd` got to is `Available`; when `stop_on_panic` stops the server, no
worker is running. -/
def Covered (s : StopState τ) : StopStep τ → Prop
  | .mgr i => s.mgr.stopping = false → s.mgr.Fresh i
  | .stop graceful =>
    graceful → s.mgr.stopping = false ∧ ∀ worker ∈ s.running, s.mgr.seen worker.name = some worker.gen
  | .panic _ => s.cfg.graceful_shutdown → s.running = []
  | _ => True

instance (s : StopState τ) (i : StopStep τ) : Decidable (s.Covered i) := by
  unfold Covered
  split <;> infer_instance

/-- A graceful stop so far: each worker that was running has got one `Shutdown` with the timeout, and those who wait for
the server are told after the workers have finished or the timeout has elapsed. -/
structure Reached (s : StopState τ) (c : StopCall) : Prop where
  sent : c.phase ≠ .factory → ∀ worker ∈ c.running, c.sent.filter (·.1 = worker) = [(worker, c.timeout)]
  signalled : c.phase = .signalled → (∀ worker ∈ c.running, worker ∈ s.finished) ∨ c.deadline ≤ s.now

structure Stopping (s : StopState τ) (c : StopCall) : Prop where
  covered : ∀ worker ∈ c.running, c.workers.count worker = 1
  sent : c.phase ≠ .factory → c.sent = c.workers.map fun worker => (worker, c.timeout)
  joined : c.phase = .delay ∨ c.phase = .signalled → (∀ worker ∈ c.running, worker ∈ s.finished) ∨ c.deadline ≤ s.now

variable {s s' : StopState τ} {c : StopCall}

lemma Stopping.reached (h : Stopping s c) : Reached s c := by
  refine ⟨fun hp worker hw => ?_, fun hp => h.joined (.inr hp)⟩
  have hone : c.workers.filter (fun w => decide (w = worker)) = [worker] := by
    rw [filter_eq, h.covered worker hw]
    rfl
  rw [h.sent hp, filter_map]
  exact congrArg (map fun w => (w, c.timeout)) hone

lemma Stopping.mono (h : Stopping s c) (hnow : s.now ≤ s'.now) (hfin : ∀ w ∈ s.finished, w ∈ s'.finished) :
    Stopping s' c := by
  refine ⟨h.covered, h.sent, fun hp => ?_⟩
  rcases h.joined hp with hall | hd
  · exact .inl fun w hw => hfin w (hall w hw)
  · exact .inr (hd.trans hnow)

lemma stopping_new {timeout : Nat} {workers running : List Worker} (h : ∀ worker ∈ running, workers.count worker = 1) :
    Stopping s (.new true timeout workers running) :=
  ⟨h, fun hp => absurd rfl hp, nofun⟩

lemma Stopping.stop_workers (h : Stopping s c) (hg : c.graceful) (ht : c.timeout ≠ 0) :
    Stopping s (c.stop_workers s.now) := by
  rw [StopCall.stop_workers, if_pos ⟨hg, ht⟩]
  refine ⟨h.covered, fun _ => rfl, fun hp => .inl fun worker hw => ?_⟩
  -- there was nothing to wait for
  have hnil : c.workers = [] := by
    by_contra hne
    simp [hne] at hp
  have := h.covered worker hw
  rw [hnil] at this
  cases this

lemma Stopping.join (h : Stopping s c) (hdone : (∀ worker ∈ c.workers, worker ∈ s.finished) ∨ c.deadline ≤ s.now)
    (phase : Phase) (hp : c.phase ≠ .factory) : Stopping s { c with phase } := by
  refine ⟨h.covered, fun _ => h.sent hp, fun _ => hdone.imp_left fun hall worker hw => ?_⟩
  refine hall worker (count_pos_iff.1 ?_)
  rw [h.covered worker hw]
  exact one_pos

/-! ## The list holds the workers that are to be stopped -/

lemma step_stopping {s s' : Manager τ} {i : Step τ} (hs : Server.step s i = some s') : s'.stopping = s.stopping := by
  cases i with
  | thread name =>
    obtain ⟨-, hs⟩ := of_guard hs
    obtain ⟨slot, -, rfl⟩ := of_map hs
    rfl
  | task name =>
    obtain ⟨-, hs⟩ := of_guard hs
    simp only [Manager.run_task] at hs
    split at hs
    case h_1 => split at hs <;> cases hs <;> rfl
    all_goals cases hs
    all_goals rfl
  | handle_cmd =>
    simp only [Server.step, Manager.handle_cmd] at hs
    split at hs <;> cases hs <;> rfl
  | send item =>
    cases hs
    rfl
  | _ =>
    obtain ⟨-, hs⟩ := of_guard hs
    cases hs
    rfl

/-- A worker that runs has not closed its channel, so that no send to it has failed: it is on the list once if its last
update was `Available`. -/
lemma count_running (h : s.mgr.Tracked) {worker : Worker} (hw : worker ∈ s.running)
    (hseen : s.mgr.seen worker.name = some worker.gen) : s.mgr.state.workers.count worker = 1 := by
  obtain ⟨name, hname, rfl⟩ := mem_map.1 hw
  have hrun := (mem_filter.1 hname).2
  have hopen : s.mgr.worker name ∉ s.mgr.closed := by
    intro hc
    rw [h.closed name hc] at hrun
    cases hrun
  refine count_eq_one_of_mem (Nodup.of_map _ h.lists.nodup) (h.lists.kept _ _ hseen ?_)
  exact decide_eq_false hopen

/-! ## Runs -/

def AllStopping (s : StopState τ) : Prop := ∀ c ∈ s.stops, c.graceful → c.timeout ≠ 0 → Stopping s c

lemma AllStopping.mono (h : s.AllStopping) (hstops : s'.stops = s.stops) (hnow : s.now ≤ s'.now)
    (hfin : ∀ w ∈ s.finished, w ∈ s'.finished) : s'.AllStopping := by
  intro c hc hg ht
  rw [hstops] at hc
  exact (h c hc hg ht).mono hnow hfin

lemma AllStopping.call_stop (h : s.AllStopping) {graceful : Bool} {workers : List Worker}
    (hcov : graceful → ∀ worker ∈ s.running, workers.count worker = 1) : (s.call_stop graceful workers).AllStopping := by
  intro c hc hg ht
  rcases mem_append.1 hc with hc | hc
  · exact (h c hc hg ht).mono (le_refl _) fun _ hw => hw
  · obtain rfl := mem_singleton.1 hc
    cases graceful with
    | false => cases hg
    | true => exact stopping_new (hcov rfl)

lemma AllStopping.set_stop (h : s.AllStopping) {idx : Nat} {c' : StopCall}
    (hc' : c'.graceful → c'.timeout ≠ 0 → Stopping s c') : (s.set_stop idx c').AllStopping := by
  intro c hc hg ht
  rcases mem_or_eq_of_mem_set hc with hc | rfl
  · exact (h c hc hg ht).mono (le_refl _) fun _ hw => hw
  · exact (hc' hg ht).mono (le_refl _) fun _ hw => hw

lemma stop_workers_frame (c : StopCall) (now : Nat) :
    (c.stop_workers now).graceful = c.graceful ∧ (c.stop_workers now).timeout = c.timeout := by
  unfold StopCall.stop_workers
  split <;> exact ⟨rfl, rfl⟩

/-- The list is kept in step with the workers until the server is stopped. -/
lemma tracked_step {i : StopStep τ} (h : s.mgr.stopping = false → s.mgr.Tracked) (hok : s.Covered i)
    (hs : s.step i = some s') : s'.mgr.stopping = false → s'.mgr.Tracked := by
  cases i with
  | mgr i =>
    obtain ⟨-, hs⟩ := of_guard hs
    obtain ⟨mgr, hmgr, rfl⟩ := of_map hs
    intro hstop
    have hstop : s.mgr.stopping = false := (step_stopping hmgr).symm.trans hstop
    exact (h hstop).step (hok hstop) hmgr
  | stop graceful =>
    obtain ⟨-, hs⟩ := of_guard hs
    cases hs
    nofun
  | panic name =>
    obtain ⟨-, hs⟩ := of_guard hs
    cases hs
    nofun
  | finish worker | tick ms =>
    cases hs
    exact h
  | _ =>
    simp only [StopState.step] at hs
    split at hs
    · obtain ⟨-, hs⟩ := of_guard hs
      cases hs
      exact h
    · cases hs

lemma AllStopping.step {i : StopStep τ} (h : s.AllStopping) (hmgr : s.mgr.stopping = false → s.mgr.Tracked)
    (hok : s.Covered i) (hs : s.step i = some s') : s'.AllStopping := by
  cases i with
  | mgr i =>
    obtain ⟨-, hs⟩ := of_guard hs
    obtain ⟨mgr, -, rfl⟩ := of_map hs
    exact h.mono rfl (le_refl _) fun _ hw => hw
  | stop graceful =>
    simp only [StopState.step] at hs
    split at hs <;> cases hs
    have hcall : (s.call_stop graceful s.mgr.state.workers).AllStopping := by
      refine h.call_stop fun hg worker hw => ?_
      obtain ⟨hfirst, hseen⟩ := hok hg
      exact count_running (hmgr hfirst) hw (hseen worker hw)
    exact hcall.mono rfl (le_refl _) fun _ hw => hw
  | panic name =>
    simp only [StopState.step] at hs
    split at hs <;> cases hs
    have hcall : (s.call_stop s.cfg.graceful_shutdown []).AllStopping := by
      refine h.call_stop fun hg worker hw => ?_
      rw [hok hg] at hw
      cases hw
    exact hcall.mono rfl (le_refl _) fun _ hw => hw
  | stop_workers idx =>
    simp only [StopState.step] at hs
    split at hs
    next c hc =>
      split at hs <;> cases hs
      obtain ⟨hgr, hto⟩ := stop_workers_frame c s.now
      refine h.set_stop fun hg ht => ?_
      rw [hgr] at hg
      rw [hto] at ht
      exact (h c (mem_of_getElem? hc) hg ht).stop_workers hg ht
    · cases hs
  | joined idx =>
    simp only [StopState.step] at hs
    split at hs
    next c hc =>
      split at hs <;> cases hs
      rename_i hdone
      exact h.set_stop fun hg ht => (h c (mem_of_getElem? hc) hg ht).join hdone.2 .delay (by rw [hdone.1]; nofun)
    · cases hs
  | signal idx =>
    simp only [StopState.step] at hs
    split at hs
    next c hc =>
      split at hs <;> cases hs
      rename_i hp
      refine h.set_stop fun hg ht => ?_
      have hst := h c (mem_of_getElem? hc) hg ht
      exact ⟨hst.covered, fun _ => hst.sent (by rw [hp]; nofun), fun _ => hst.joined (.inl hp)⟩
    · cases hs
  | finish worker =>
    cases hs
    exact h.mono rfl (le_refl _) fun _ hw => mem_cons_of_mem _ hw
  | tick ms =>
    cases hs
    exact h.mono rfl (Nat.le_add_right _ _) fun _ hw => hw

/-- Every graceful stop reaches the workers that were running, in runs in which the last update of each of them that was
handled is `Available`. -/
theorem stop_reaches {cfg : ServerConfig} {num : Nat} (h : Reach StopState.step Covered (new cfg num) s) :
    ∀ c ∈ s.stops, c.graceful → c.timeout ≠ 0 → Reached s c := by
  have hall := h.inv (fun s => s.AllStopping ∧ (s.mgr.stopping = false → s.mgr.Tracked))
    ⟨fun _ hc => (not_mem_nil hc).elim, fun _ => Manager.tracked_new num⟩
    fun _ _ _ hall hok hs => ⟨hall.1.step hall.2 hok hs, tracked_step hall.2 hok hs⟩
  exact fun c hc hg ht => (hall.1 c hc hg ht).reached

def graceful_cfg : ServerConfig := { shutdown_timeout := 30000, graceful_shutdown := true, stop_on_panic := false }

/-- The worker of a server is available when the server is stopped, and finishes. -/
theorem stop_reaches_available :
    ∃ s : StopState Nat, Reach StopState.step Covered (new graceful_cfg 1) s ∧
      s.stops = [⟨true, 30000, [⟨0, 0⟩], [⟨0, 0⟩], .signalled, [(⟨0, 0⟩, 30000)], 30000⟩] ∧
      ∀ c ∈ s.stops, c.graceful → c.timeout ≠ 0 → Reached s c := by
  have hrun : (run StopState.step Covered (new graceful_cfg 1 : StopState Nat)
      [.mgr (.task 0), .mgr (.task 0), .mgr (.task 0), .mgr (.task 0), .mgr (.set 0 true), .mgr (.thread 0), .mgr (.thread 0),
        .mgr (.task 0), .mgr (.task 0), .mgr (.task 0), .mgr .handle_cmd, .mgr .handle_cmd, .stop true, .stop_workers 0,
        .finish ⟨0, 0⟩, .joined 0, .signal 0]).map (·.stops) =
      some [⟨true, 30000, [⟨0, 0⟩], [⟨0, 0⟩], .signalled, [(⟨0, 0⟩, 30000)], 30000⟩] := by
    decide +kernel
  obtain ⟨s, hr, hstops⟩ := Reach.of_run_map _ hrun
  exact ⟨s, hr, hstops, stop_reaches hr⟩

/-- The worker is busy when the server is stopped: it gets no `Shutdown` and nobody waits for it. -/
theorem stop_misses_unavailable :
    ∃ s : StopState Nat, Reach StopState.step (fun _ _ => True) (new graceful_cfg 1) s ∧ s.finished = [] ∧ s.now = 0 ∧
      s.stops = [⟨true, 30000, [], [⟨0, 0⟩], .signalled, [], 30000⟩] ∧ ∃ c ∈ s.stops, ¬ Reached s c := by
  have hrun : (run StopState.step (fun _ _ => True) (new graceful_cfg 1 : StopState Nat)
      [.mgr (.task 0), .mgr (.task 0), .mgr (.task 0), .mgr (.task 0), .mgr (.set 0 true), .mgr (.thread 0), .mgr (.thread 0),
        .mgr (.task 0), .mgr (.task 0), .mgr (.task 0), .mgr (.task 0), .mgr (.task 0), .mgr .handle_cmd, .mgr .handle_cmd,
        .mgr (.set 0 false), .mgr (.thread 0), .mgr (.thread 0), .mgr (.task 0), .mgr (.task 0), .mgr (.task 0),
        .mgr .handle_cmd, .stop true, .stop_workers 0, .signal 0]).map (fun s => (s.finished, s.now, s.stops)) =
      some ([], 0, [⟨true, 30000, [], [⟨0, 0⟩], .signalled, [], 30000⟩]) := by
    decide +kernel
  obtain ⟨s, hr, hv⟩ := Reach.of_run_map _ hrun
  simp only [Prod.mk.injEq] at hv
  obtain ⟨hfin, hnow, hstops⟩ := hv
  refine ⟨s, hr, hfin, hnow, hstops, _, hstops ▸ mem_cons_self, fun h => ?_⟩
  have := h.sent nofun ⟨0, 0⟩ mem_cons_self
  cases this

end StopState

end Geario.Server
