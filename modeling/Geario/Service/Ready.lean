import Geario.Lib.Fair
import Geario.Lib.Parties
import Geario.Service.Waiters
/-!
# Waiting for readiness

The readiness futures of one pipeline. `PipelineBinding::ready` and the calls make
a `ReadyCall` with the index of their handle (a call has a handle of its own),
and so does `PipelineState::ready`, with index 0. `Pipeline::ready` and
`poll_ready` poll a check that is stored in the pipeline (`CheckReadiness`, index
0): a future that does so (`stored`) can be dropped, the check stays.

A poll is one step, with the waker of the task, what the service does with its
`Ctx` and what it answers. A future that is refused because another index has
the check waits with that waker, and it is said whether the waker has been
called since. A future that waits for the service is woken by the waker that the
service has: a `ReadyCall` has a future of the service for itself, but all callers
of the stored check share one, which has the waker of the last poll (`task`).
-/
open Lib List Option

namespace Geario.Service

inductive Progress
  | new
  | waiting (waker : Nat) (called : Bool)
  | checking (waker : Nat)
  | done
  | dropped
  deriving DecidableEq

namespace Progress

def live : Progress → Bool
  | done | dropped => false
  | _ => true

def lost : Progress → Bool
  | waiting _ called => !called
  | _ => false

def isChecking : Progress → Bool
  | checking _ => true
  | _ => false

/-- The future is new, its waker was called, or it waits for the service. -/
def urged : Progress → Bool
  | new | checking _ => true
  | waiting _ called => called
  | _ => false

def mark (called : List Nat) : Progress → Progress
  | waiting waker c => waiting waker (c || decide (waker ∈ called))
  | p => p

end Progress

structure Fut where
  idx : Nat
  stored : Bool
  progress : Progress
  deriving DecidableEq

inductive RuntimeState
  | New
  /-- whether the check has a future of the service -/
  | Readiness (fut : Bool)
  | Shutdown
  deriving DecidableEq

structure Pipeline where
  waiters : WaitersRef
  runtime : RuntimeState
  futs : List Fut
  /-- `Pipeline` or `PipelineState` is not dropped -/
  alive : Bool
  /-- the waker that the service has from the stored check -/
  task : Option Nat

namespace Pipeline

inductive Step
  | idle
  | bind (key : Nat)
  | unbind (idx : Nat)
  | drop_pipeline
  | ready (idx : Nat)
  | poll_ready
  | poll (j waker : Nat) (body : List Body) (ready : Bool)
  | drop (j : Nat)
  /-- a `PipelineCall` is dropped: its handle and then its future -/
  | drop_call (j : Nat)
  | shutdown
  deriving DecidableEq

def Step.polls (j : Nat) : Step → Bool
  | .poll k _ _ _ => decide (k = j)
  | _ => false

def new : Pipeline := { waiters := .new, runtime := .New, futs := [], alive := true, task := none }

def unused (s : Pipeline) (idx : Nat) : Bool := s.futs.all fun f => !(f.progress.live && decide (f.idx = idx))

def call (s : Pipeline) (r : WaitersRef × List Nat) : Pipeline :=
  { s with waiters := r.1, futs := s.futs.map fun f => { f with progress := f.progress.mark r.2 } }

def set_progress (s : Pipeline) (j : Nat) (f : Fut) (progress : Progress) : Pipeline :=
  { s with futs := s.futs.set j { f with progress } }

def answer (waker : Nat) : Option Bool → Progress
  | none => .waiting waker false
  | some true => .done
  | some false => .checking waker

def run (s : Pipeline) (j : Nat) (f : Fut) (waker : Nat) (body : List Body) (ready : Bool) : Pipeline :=
  let p := s.waiters.run f.idx waker body ready
  let s := (s.call (p.waiters, p.called)).set_progress j f (answer waker p.result)
  if f.stored then
    -- the closure makes the future when there is none, and drops it when it is ready
    let fut := match p.result with
      | none => decide (s.runtime = .Readiness true)
      | some ready => !ready
    { s with
      runtime := .Readiness fut
      task := match p.result with
        | none => s.task
        | some ready => if ready then none else some waker }
  else s

def step (s : Pipeline) : Step → Option Pipeline
  | .idle => some s
  | .bind key => if s.waiters.indexes key = none then some { s with waiters := s.waiters.insert key } else none
  | .unbind idx =>
    if s.unused idx ∧ (s.alive → idx ≠ 0) ∧ s.waiters.indexes idx ≠ none then some (s.call (s.waiters.remove idx)) else none
  | .drop_pipeline => if s.alive ∧ s.unused 0 then some { s.call (s.waiters.remove 0) with alive := false } else none
  | .ready idx =>
    if s.waiters.indexes idx = none then none else some { s with futs := s.futs ++ [⟨idx, false, .new⟩] }
  | .poll_ready => if s.alive then some { s with futs := s.futs ++ [⟨0, true, .new⟩] } else none
  | .poll j waker body ready =>
    match s.futs[j]? with
    | some f =>
      if f.progress.live then
        if f.stored ∧ s.runtime = .Shutdown then some (s.set_progress j f .done) else some (s.run j f waker body ready)
      else none
    | none => none
  | .drop j =>
    match s.futs[j]? with
    | some f =>
      if f.progress.live then
        some ((if f.stored then s else s.call (s.waiters.release f.idx)).set_progress j f .dropped)
      else none
    | none => none
  | .drop_call j =>
    match s.futs[j]? with
    | some f =>
      if f.progress.live ∧ !f.stored ∧ (s.set_progress j f .dropped).unused f.idx ∧ (s.alive → f.idx ≠ 0) then
        let removed := s.call (s.waiters.remove f.idx)
        some ((removed.call (removed.waiters.release f.idx)).set_progress j f .dropped)
      else none
    | none => none
  | .shutdown =>
    match s.alive, s.runtime with
    | true, .Readiness true => some { s.call s.waiters.notify with runtime := .Shutdown, task := none }
    | true, _ => some { s with runtime := .Shutdown }
    | false, _ => none

variable {s s' : Pipeline} {i : Step} {j k : Nat} {f g : Fut} {p : Progress} {r : WaitersRef × List Nat} {waker : Nat}
  {w : WaitersRef}

/-! ## What a step does -/

inductive Did (s : Pipeline) : Step → Pipeline → Prop
  | idle : Did s .idle s
  | bind {key : Nat} (vacant : s.waiters.indexes key = none) : Did s (.bind key) { s with waiters := s.waiters.insert key }
  | unbind {idx : Nat} (unused : s.unused idx = true) : Did s (.unbind idx) (s.call (s.waiters.remove idx))
  | drop_pipeline (unused : s.unused 0 = true) : Did s .drop_pipeline { s.call (s.waiters.remove 0) with alive := false }
  | ready {idx : Nat} : Did s (.ready idx) { s with futs := s.futs ++ [⟨idx, false, .new⟩] }
  | poll_ready : Did s .poll_ready { s with futs := s.futs ++ [⟨0, true, .new⟩] }
  | closed {j waker : Nat} {body : List Body} {ready : Bool} {f : Fut} (fut : s.futs[j]? = some f) (live : f.progress.live = true)
      (shut : f.stored = true ∧ s.runtime = .Shutdown) : Did s (.poll j waker body ready) (s.set_progress j f .done)
  | poll {j waker : Nat} {body : List Body} {ready : Bool} {f : Fut} (fut : s.futs[j]? = some f) (live : f.progress.live = true)
      (served : ¬ (f.stored = true ∧ s.runtime = .Shutdown)) : Did s (.poll j waker body ready) (s.run j f waker body ready)
  | abandon {j : Nat} {f : Fut} (fut : s.futs[j]? = some f) (live : f.progress.live = true) (stored : f.stored = true) :
      Did s (.drop j) (s.set_progress j f .dropped)
  | drop {j : Nat} {f : Fut} (fut : s.futs[j]? = some f) (live : f.progress.live = true) (own : f.stored = false) :
      Did s (.drop j) ((s.call (s.waiters.release f.idx)).set_progress j f .dropped)
  | drop_call {j : Nat} {f : Fut} (fut : s.futs[j]? = some f) (live : f.progress.live = true)
      (unused : (s.set_progress j f .dropped).unused f.idx = true) :
      Did s (.drop_call j) ((s.call (s.waiters.remove f.idx)).set_progress j f .dropped)
  | shutdown_check (check : s.runtime = .Readiness true) : Did s .shutdown { s.call s.waiters.notify with runtime := .Shutdown, task := none }
  | shutdown (none : s.runtime ≠ .Readiness true) : Did s .shutdown { s with runtime := .Shutdown }

lemma mark_nil (p : Progress) : p.mark [] = p := by
  cases p with
  | waiting waker called => exact congrArg (Progress.waiting waker) (Bool.or_false called)
  | new | checking | done | dropped => rfl

lemma call_nil (s : Pipeline) : s.call (s.waiters, []) = s := by
  have hfuts : (s.futs.map fun f => { f with progress := f.progress.mark [] }) = s.futs :=
    (map_congr_left fun f _ => congrArg (fun p => { f with progress := p }) (mark_nil f.progress)).trans (map_id _)
  exact congrArg (fun futs => { s with futs }) hfuts

lemma did_of_step (h : s.step i = some s') : Did s i s' := by
  cases i <;> simp only [step] at h
  case idle =>
    cases h
    exact .idle
  case bind key =>
    obtain ⟨hv, rfl⟩ := of_ite h
    exact .bind hv
  case unbind idx =>
    obtain ⟨hu, rfl⟩ := of_ite h
    exact .unbind hu.1
  case drop_pipeline =>
    obtain ⟨hu, rfl⟩ := of_ite h
    exact .drop_pipeline hu.2
  case ready idx =>
    obtain ⟨-, rfl⟩ := of_ite_not h
    exact .ready
  case poll_ready =>
    obtain ⟨-, rfl⟩ := of_ite h
    exact .poll_ready
  case poll j waker body ready =>
    split at h
    case h_2 => cases h
    case h_1 f hf =>
      obtain ⟨hl, h⟩ := of_guard h
      split at h
      case isTrue hs =>
        cases h
        exact .closed hf hl hs
      case isFalse hs =>
        cases h
        exact .poll hf hl hs
  case drop j =>
    split at h
    case h_2 => cases h
    case h_1 f hf =>
      obtain ⟨hl, rfl⟩ := of_ite h
      cases hs : f.stored with
      | true => exact .abandon hf hl hs
      | false => exact .drop hf hl hs
  case drop_call j =>
    split at h
    case h_2 => cases h
    case h_1 f hf =>
      obtain ⟨hl, h⟩ := of_guard h
      rw [show (s.call (s.waiters.remove f.idx)).waiters = (s.waiters.remove f.idx).1 from rfl, WaitersRef.release_remove,
        show (s.waiters.remove f.idx).1 = (s.call (s.waiters.remove f.idx)).waiters from rfl, call_nil] at h
      cases h
      exact .drop_call hf hl.1 hl.2.2.1
  case shutdown =>
    split at h
    case h_1 hr =>
      cases h
      exact .shutdown_check hr
    case h_2 hr =>
      cases h
      exact .shutdown hr
    case h_3 => cases h

/-! ## Who waits is registered -/

/-- A poll does not take the place of another future of the index, one caller at a time waits for the stored check, and the
stored check is neither abandoned nor shut down while it does. -/
def Alone (s : Pipeline) : Step → Prop
  | .poll j waker _ _ =>
    ∀ f ∈ s.futs[j]?, ∀ k < s.futs.length, k ≠ j → ∀ g ∈ s.futs[k]?,
      (g.idx = f.idx → g.progress.lost = true → g.progress = .waiting waker false) ∧
      (f.stored = true → g.stored = true → g.progress.isChecking = false)
  | .drop j => ∀ f ∈ s.futs[j]?, f.stored = true → f.progress.isChecking = true → s.waiters.cur ≠ some f.idx
  | .shutdown => ∀ f ∈ s.futs, f.stored = true → f.progress.isChecking = false
  | _ => True

instance : Decidable (Alone s i) := by
  unfold Alone
  split <;> infer_instance

lemma lost_waiting (h : p.lost) : ∃ waker, p = .waiting waker false := by
  cases p with
  | waiting waker called =>
    cases called with
    | true => cases h
    | false => exact ⟨waker, rfl⟩
  | new | checking | done | dropped => cases h

def Sound (s : Pipeline) : Prop :=
  ∀ (j : Nat) (f : Fut), s.futs[j]? = some f → ∀ waker, f.progress = .waiting waker false → s.waiters.Registered f.idx waker

lemma getElem?_call (s : Pipeline) (r : WaitersRef × List Nat) (j : Nat) :
    (s.call r).futs[j]? = s.futs[j]?.map fun f => { f with progress := f.progress.mark r.2 } := getElem?_map

lemma mark_eq_waiting {called : List Nat} (h : p.mark called = .waiting waker false) :
    p = .waiting waker false ∧ waker ∉ called := by
  cases p with
  | waiting w c =>
    obtain ⟨rfl, hc⟩ := Progress.waiting.inj h
    obtain ⟨rfl, hw⟩ := Bool.or_eq_false_iff.1 hc
    exact ⟨rfl, of_decide_eq_false hw⟩
  | new | checking | done | dropped => cases h

lemma registered_call (h : Sound s) {k : Nat} {g : Fut}
    (hk : ∀ f, s.futs[k]? = some f → f.progress.live → s.waiters.Keeps f.idx r)
    (hg : (s.call r).futs[k]? = some g) (hw : g.progress = .waiting waker false) : r.1.Registered g.idx waker := by
  rw [getElem?_call] at hg
  obtain ⟨f, hf, rfl⟩ := of_map hg
  obtain ⟨hfw, hnot⟩ := mark_eq_waiting hw
  refine (hk f hf ?_ waker (h k f hf waker hfw)).resolve_right hnot
  rw [hfw]
  rfl

lemma Sound.call (h : Sound s)
    (hk : ∀ (j : Nat) (f : Fut), s.futs[j]? = some f → f.progress.live → s.waiters.Keeps f.idx r) : Sound (s.call r) :=
  fun k _ hg _ hw => registered_call h (hk k) hg hw

lemma Sound.set_progress (h : Sound s) (hp : p.lost = false) : Sound (s.set_progress j f p) := by
  intro k g hg waker hw
  rcases at_of_set hg with ⟨rfl, rfl⟩ | ⟨-, hg⟩
  · obtain rfl : p = .waiting waker false := hw
    cases hp
  · exact h k g hg waker hw

lemma Sound.append (h : Sound s) (hp : f.progress.lost = false) : Sound { s with futs := s.futs ++ [f] } := by
  intro k g hg waker hw
  rcases at_of_append hg with hg | ⟨-, rfl⟩
  · exact h k g hg waker hw
  · rw [hw] at hp
    cases hp

variable {idx c : Nat}

lemma ne_of_unused (hu : s.unused idx) (hf : s.futs[j]? = some f) (hl : f.progress.live) : f.idx ≠ idx := by
  intro heq
  have hall := all_eq_true.1 hu f (mem_of_getElem? hf)
  rw [hl, decide_eq_true heq] at hall
  cases hall

lemma Sound.run {body : List Body} {ready : Bool} (h : Sound s) (hf : s.futs[j]? = some f)
    (hok : Alone s (.poll j waker body ready)) : Sound (s.run j f waker body ready) := by
  -- the runtime state is not looked at
  suffices hset : Sound ((s.call ((s.waiters.run f.idx waker body ready).waiters, (s.waiters.run f.idx waker body ready).called)).set_progress
      j f (answer waker (s.waiters.run f.idx waker body ready).result)) by
    unfold Pipeline.run
    split <;> exact hset
  have hran := s.waiters.ran f.idx waker body ready
  intro k g hg w hw
  rcases at_of_set hg with ⟨rfl, rfl⟩ | ⟨hne, hg⟩
  · cases hran with
    | refused hr _ _ _ hreg =>
      rw [hr] at hw
      obtain ⟨rfl, -⟩ := Progress.waiting.inj hw
      exact hreg
    | ready hr | pending hr =>
      rw [hr] at hw
      cases hw
  · rw [getElem?_call] at hg
    obtain ⟨x, hx, rfl⟩ := of_map hg
    obtain ⟨hxw, hnot⟩ := mark_eq_waiting hw
    have hreg := h k x hx w hxw
    by_cases hidx : x.idx = f.idx
    · -- another future of the index waits with the same waker
      have hlost : x.progress.lost := by rw [hxw]; rfl
      have hsame := (hok f hf k (at_lt hx) hne x hx).1 hidx hlost
      obtain ⟨rfl, -⟩ := Progress.waiting.inj (hxw.symm.trans hsame)
      rw [hidx] at hreg ⊢
      exact WaitersRef.registered_run body ready hreg
    · exact (s.waiters.keeps_run hidx waker body ready w hreg).resolve_right hnot

lemma Did.sound (hd : Did s i s') (h : Sound s) (hok : Alone s i) : Sound s' := by
  cases hd with
  | idle => exact h
  | @bind key hv =>
    intro k g hg waker hw
    have hreg := h k g hg waker hw
    refine hreg.set (fun heq => ?_) (some none)
    rw [heq] at hreg
    cases hv.symm.trans hreg.waker
  | @unbind idx hu => exact h.call fun k g hg hl => s.waiters.keeps_remove (ne_of_unused hu hg hl)
  | drop_pipeline hu =>
    exact h.call (r := s.waiters.remove 0) fun k g hg hl => s.waiters.keeps_remove (ne_of_unused hu hg hl)
  | ready | poll_ready => exact h.append rfl
  | closed => exact h.set_progress rfl
  | poll hf => exact h.run hf hok
  | abandon => exact h.set_progress rfl
  | drop => exact (h.call fun _ _ _ _ => s.waiters.keeps_release _ _).set_progress rfl
  | @drop_call j f hf hl hu =>
    intro k g hg waker hw
    rcases at_of_set hg with ⟨rfl, rfl⟩ | ⟨hne, hg⟩
    · cases hw
    · refine registered_call h (fun x hx hlx => s.waiters.keeps_remove (ne_of_unused (j := k) hu ?_ hlx)) hg hw
      exact (getElem?_set_ne (Ne.symm hne)).trans hx
  | shutdown_check => exact h.call fun _ _ _ _ waker hreg => .inr (WaitersRef.mem_notify hreg)
  | shutdown => exact h

/-- The check is over, or is given up: its future completes or is dropped, or its handle is removed. -/
def Released (s : Pipeline) : Step → Prop
  | .poll j _ _ ready =>
    ready = true ∧ ∃ f ∈ s.futs[j]?, ¬ (f.stored = true ∧ s.runtime = .Shutdown) ∧
      (s.waiters.cur = none ∨ s.waiters.cur = some f.idx)
  | .drop j => ∃ f ∈ s.futs[j]?, f.stored = false ∧ s.waiters.cur = some f.idx
  | .drop_call j => ∃ f ∈ s.futs[j]?, s.waiters.cur = some f.idx
  | .unbind idx => s.waiters.cur = some idx
  | .drop_pipeline => s.waiters.cur = some 0
  | .shutdown => s.runtime = .Readiness true
  | _ => False

instance : Decidable (Released s i) := by
  unfold Released
  split <;> infer_instance

lemma cur_release (h : w.cur = some idx) : (w.release idx).1.cur = none := by
  rw [WaitersRef.release, if_pos h]
  rfl

section

variable (s : Pipeline) (j : Nat) (f : Fut) (waker : Nat) (body : List Body) (ready : Bool)

lemma waiters_run : (s.run j f waker body ready).waiters = (s.waiters.run f.idx waker body ready).waiters := by
  unfold run
  split <;> rfl

lemma futs_run :
    (s.run j f waker body ready).futs = (s.futs.map fun g =>
      { g with progress := g.progress.mark (s.waiters.run f.idx waker body ready).called }).set j
        { f with progress := answer waker (s.waiters.run f.idx waker body ready).result } := by
  unfold run
  split <;> rfl

end

lemma Did.released (hd : Did s i s') (h : Released s i) : s'.waiters.cur = none := by
  cases hd with
  | idle | bind | ready | poll_ready => exact h.elim
  | unbind | drop_pipeline => exact cur_release h
  | closed hf _ hshut =>
    obtain ⟨-, f, hf', hnot, -⟩ := h
    cases hf.symm.trans hf'
    exact absurd hshut hnot
  | @poll j waker body ready f hf =>
    obtain ⟨rfl, f, hf', -, howner⟩ := h
    cases hf.symm.trans hf'
    rw [waiters_run]
    have hran := s.waiters.ran f.idx waker body true
    generalize s.waiters.run f.idx waker body true = p at hran
    cases hran with
    | refused _ _ _ hother =>
      obtain ⟨c, hc, hne⟩ := hother
      rw [hc] at howner
      rcases howner with h | h
      · cases h
      · exact absurd (some.inj h) hne
    | ready _ _ hcur => exact hcur
  | abandon hf _ hs =>
    obtain ⟨f, hf', hs', -⟩ := h
    cases hf.symm.trans hf'
    cases hs.symm.trans hs'
  | drop hf =>
    obtain ⟨f, hf', -, hc⟩ := h
    cases hf.symm.trans hf'
    exact cur_release hc
  | drop_call hf =>
    obtain ⟨f, hf', hc⟩ := h
    cases hf.symm.trans hf'
    exact cur_release hc
  | shutdown_check => rfl
  | shutdown hnone => exact absurd h hnone

lemma Sound.called {called : Bool} (h : Sound s) (hc : s.waiters.cur = none) (hf : f ∈ s.futs)
    (hw : f.progress = .waiting waker called) : called := by
  cases called with
  | true => rfl
  | false =>
    obtain ⟨j, hj⟩ := mem_iff_getElem?.1 hf
    obtain ⟨c, hcur, -⟩ := (h j f hj waker hw).cur
    cases hc.symm.trans hcur

lemma sound_new : Sound new := fun _ _ hf => nomatch hf

/-! ## Somebody has the check -/

structure Holds (s : Pipeline) (c k : Nat) (f : Fut) : Prop where
  fut : s.futs[k]? = some f
  idx : f.idx = c
  checking : f.progress.isChecking = true
  stored : f.stored = true → s.runtime = .Readiness true

/-- The index that has the check is that of a future that waits for the service. -/
def Held (s : Pipeline) : Prop := ∀ c, s.waiters.cur = some c → ∃ k f, Holds s c k f

lemma isChecking_mark (called : List Nat) (h : p.isChecking) : p.mark called = p := by
  cases p with
  | checking => rfl
  | new | waiting | done | dropped => cases h

lemma at_call (hf : s.futs[j]? = some f) (r : WaitersRef × List Nat) :
    (s.call r).futs[j]? = some { f with progress := f.progress.mark r.2 } := by
  rw [getElem?_call, hf]
  rfl

lemma Holds.call (h : Holds s c k f) (r : WaitersRef × List Nat) : Holds (s.call r) c k f := by
  refine { h with fut := ?_ }
  rw [at_call h.fut, isChecking_mark _ h.checking]

lemma Held.call (h : Held s) (hc : ∀ c, r.1.cur = some c → s.waiters.cur = some c) : Held (s.call r) := by
  intro c hcur
  obtain ⟨k, f, hk⟩ := h c (hc c hcur)
  exact ⟨k, f, hk.call r⟩

lemma Held.set_progress (h : Held s) (hk : ∀ c, s.waiters.cur = some c → ∀ g, ¬ Holds s c j g) :
    Held (s.set_progress j f p) := by
  intro c hcur
  obtain ⟨k, g, hg⟩ := h c hcur
  have hne : j ≠ k := fun heq => hk c hcur g (heq ▸ hg)
  exact ⟨k, g, (getElem?_set_ne hne).trans hg.fut, hg.idx, hg.checking, hg.stored⟩

lemma cur_of_release (h : (w.release idx).1.cur = some c) : w.cur = some c ∧ c ≠ idx := by
  unfold WaitersRef.release at h
  split at h
  case isTrue => cases h
  case isFalse hne => exact ⟨h, fun heq => hne (heq ▸ h)⟩

lemma Held.release (h : Held s) (hf : s.futs[j]? = some f) (hw : w.cur = s.waiters.cur) :
    Held ((s.call (w.release f.idx)).set_progress j f .dropped) := by
  refine (h.call fun c hc => hw ▸ (cur_of_release hc).1).set_progress fun c hc g hg => ?_
  cases (at_call hf _).symm.trans hg.fut
  exact (cur_of_release hc).2 hg.idx.symm

lemma Held.congr (h : Held s) (hc : ∀ c, s'.waiters.cur = some c → s.waiters.cur = some c) (hf : s'.futs = s.futs)
    (hr : s'.runtime = s.runtime) : Held s' := by
  intro c hcur
  obtain ⟨k, f, hk⟩ := h c (hc c hcur)
  exact ⟨k, f, hf ▸ hk.fut, hk.idx, hk.checking, fun hs => hr.trans (hk.stored hs)⟩

lemma runtime_run (s : Pipeline) (j : Nat) (f : Fut) (waker : Nat) (body : List Body) (ready : Bool) :
    ((s.waiters.run f.idx waker body ready).result = none → s.runtime = .Readiness true →
      (s.run j f waker body ready).runtime = .Readiness true) ∧
    ((s.waiters.run f.idx waker body ready).result = some false → f.stored →
      (s.run j f waker body ready).runtime = .Readiness true) := by
  unfold Pipeline.run
  dsimp only
  refine ⟨fun hr hs => ?_, fun hr hs => ?_⟩
  · split
    · rw [hr]
      exact congrArg RuntimeState.Readiness (decide_eq_true hs)
    · exact hs
  · rw [if_pos hs, hr]
    rfl

lemma Held.run {body : List Body} {ready : Bool} (h : Held s) (hf : s.futs[j]? = some f) :
    Held (s.run j f waker body ready) := by
  intro c hcur
  rw [waiters_run] at hcur
  have hran := s.waiters.ran f.idx waker body ready
  have hruntime := runtime_run s j f waker body ready
  have hfuts := futs_run s j f waker body ready
  have hat := at_call hf ((s.waiters.run f.idx waker body ready).waiters, (s.waiters.run f.idx waker body ready).called)
  generalize s.waiters.run f.idx waker body ready = p at hran hruntime hfuts hat hcur
  cases hran with
  | refused hr _ hsame hother =>
    obtain ⟨d, hd, hne⟩ := hother
    rw [hsame] at hcur
    obtain rfl := some.inj (hd.symm.trans hcur)
    obtain ⟨k, g, hk⟩ := h d hd
    have hkj : j ≠ k := by
      rintro rfl
      cases hf.symm.trans hk.fut
      exact hne hk.idx.symm
    refine ⟨k, g, ?_, hk.idx, hk.checking, fun hs => hruntime.1 hr (hk.stored hs)⟩
    rw [hfuts, getElem?_set_ne hkj]
    exact (hk.call (p.waiters, p.called)).fut
  | ready _ _ hnone => cases hnone.symm.trans hcur
  | pending hr _ hp =>
    obtain rfl : f.idx = c := by
      rcases hp with hp | hp
      · cases hp.symm.trans hcur
      · exact some.inj (hp.symm.trans hcur)
    refine ⟨j, { f with progress := .checking waker }, ?_, rfl, rfl, fun hs => hruntime.2 hr hs⟩
    rw [hfuts, hr]
    exact at_set hat _

lemma Did.held (hd : Did s i s') (h : Held s) (hok : Alone s i) : Held s' := by
  cases hd with
  | idle => exact h
  | bind => exact h.congr (fun _ hc => hc) rfl rfl
  | unbind => exact h.call fun c hc => (cur_of_release hc).1
  | drop_pipeline =>
    have hcall : Held (s.call (s.waiters.remove 0)) := h.call fun c hc => (cur_of_release hc).1
    exact hcall.congr (fun _ hc => hc) rfl rfl
  | ready | poll_ready =>
    intro c hc
    obtain ⟨k, f, hk⟩ := h c hc
    exact ⟨k, f, at_append hk.fut, hk.idx, hk.checking, hk.stored⟩
  | closed hf _ hshut =>
    refine h.set_progress fun c _ g hg => ?_
    cases hf.symm.trans hg.fut
    cases hshut.2.symm.trans (hg.stored hshut.1)
  | poll hf => exact h.run hf
  | abandon hf _ hs =>
    refine h.set_progress fun c hc g hg => ?_
    cases hf.symm.trans hg.fut
    exact hok _ hf hs hg.checking (hg.idx ▸ hc)
  | drop hf => exact h.release hf rfl
  | drop_call hf => exact h.release hf rfl
  | shutdown_check => exact fun c hc => nomatch hc
  | shutdown hnone =>
    intro c hc
    obtain ⟨k, f, hk⟩ := h c hc
    exact ⟨k, f, hk.fut, hk.idx, hk.checking, fun hs => absurd (hk.stored hs) hnone⟩

/-! ## The waker of the stored check -/

/-- The caller of the stored check that waits for the service is the one whose waker the service has. -/
def Tasked (s : Pipeline) : Prop :=
  ∀ (j : Nat) (f : Fut), s.futs[j]? = some f → f.stored = true → ∀ waker, f.progress = .checking waker → s.task = some waker

lemma mark_eq_checking {called : List Nat} (h : p.mark called = .checking waker) : p = .checking waker := by
  cases p with
  | waiting => cases h
  | new | checking | done | dropped => exact h

lemma Tasked.call (h : Tasked s) (r : WaitersRef × List Nat) : Tasked (s.call r) := by
  intro j f hf hs waker hw
  rw [getElem?_call] at hf
  obtain ⟨x, hx, rfl⟩ := of_map hf
  exact h j x hx hs waker (mark_eq_checking hw)

lemma Tasked.set_progress (h : Tasked s) (hp : p.isChecking = false) : Tasked (s.set_progress j f p) := by
  intro k g hg hs waker hw
  rcases at_of_set hg with ⟨rfl, rfl⟩ | ⟨-, hg⟩
  · cases hw
    cases hp
  · exact h k g hg hs waker hw

lemma Tasked.append (h : Tasked s) (hp : f.progress.isChecking = false) : Tasked { s with futs := s.futs ++ [f] } := by
  intro k g hg hs waker hw
  rcases at_of_append hg with hg | ⟨-, rfl⟩
  · exact h k g hg hs waker hw
  · rw [hw] at hp
    cases hp

lemma task_run (s : Pipeline) (j : Nat) (f : Fut) (waker : Nat) (body : List Body) (ready : Bool) :
    (f.stored = false → (s.run j f waker body ready).task = s.task) ∧
    (f.stored = true → (s.waiters.run f.idx waker body ready).result = some false →
      (s.run j f waker body ready).task = some waker) := by
  unfold Pipeline.run
  dsimp only
  refine ⟨fun hs => ?_, fun hs hr => ?_⟩
  · rw [hs]
    rfl
  · rw [if_pos hs, hr]
    rfl

lemma Tasked.run {body : List Body} {ready : Bool} (h : Tasked s) (hf : s.futs[j]? = some f)
    (hok : Alone s (.poll j waker body ready)) : Tasked (s.run j f waker body ready) := by
  obtain ⟨hown, hstored⟩ := task_run s j f waker body ready
  intro k g hg hs w hw
  rw [futs_run] at hg
  rcases at_of_set hg with ⟨rfl, rfl⟩ | ⟨hne, hg⟩
  · -- the future that is polled waits only when the service has its waker
    cases hr : (s.waiters.run f.idx waker body ready).result with
    | none =>
      rw [hr] at hw
      cases hw
    | some b =>
      rw [hr] at hw
      cases b with
      | true => cases hw
      | false =>
        cases hw
        exact hstored hs hr
  · rw [getElem?_map] at hg
    obtain ⟨x, hx, rfl⟩ := of_map hg
    have hx' := mark_eq_checking hw
    cases hfs : f.stored with
    | false => exact (hown hfs).trans (h k x hx hs w hx')
    | true =>
      have hnone := (hok f hf k (at_lt hx) hne x hx).2 hfs hs
      rw [hx'] at hnone
      cases hnone

lemma Did.tasked (hd : Did s i s') (h : Tasked s) (hok : Alone s i) : Tasked s' := by
  cases hd with
  | idle | bind | shutdown => exact h
  | unbind => exact h.call _
  | drop_pipeline => exact h.call (s.waiters.remove 0)
  | ready | poll_ready => exact h.append rfl
  | closed | abandon => exact h.set_progress rfl
  | poll hf => exact h.run hf hok
  | drop | drop_call => exact (h.call _).set_progress rfl
  | shutdown_check =>
    intro j f hf hs waker hw
    have hf : (s.call s.waiters.notify).futs[j]? = some f := hf
    rw [getElem?_call] at hf
    obtain ⟨x, hx, rfl⟩ := of_map hf
    have hnone := hok x (mem_of_getElem? hx) hs
    rw [mark_eq_checking hw] at hnone
    cases hnone

/-- The task has a reason to poll: the future is new, or its waker was called, or the service will call it. -/
def urged (s : Pipeline) (f : Fut) : Bool :=
  match f.progress with
  | .checking waker => !f.stored || s.task = some waker
  | p => p.urged

lemma Tasked.urged (h : Tasked s) (hf : s.futs[j]? = some f) (hu : f.progress.urged) : s.urged f := by
  unfold Pipeline.urged
  split
  next waker hw =>
    cases hs : f.stored with
    | false => rfl
    | true => exact decide_eq_true (h j f hf hs waker hw)
  · exact hu

/-! ## Every future completes -/

inductive Moved (s : Pipeline) (j : Nat) (f : Fut) (i : Step) : Progress → Prop
  | marked (called : List Nat) (other : i.polls j = false) : Moved s j f i (f.progress.mark called)
  | ended {p : Progress} (gone : p.live = false) : Moved s j f i p
  | polled {waker : Nat} {body : List Body} {ready : Bool} (act : i = .poll j waker body ready) :
      Moved s j f i (answer waker (s.waiters.run f.idx waker body ready).result)

lemma Moved.same (h : i.polls j = false) : Moved s j f i f.progress := by
  have hm := Moved.marked (s := s) (f := f) [] h
  rw [mark_nil] at hm
  exact hm

lemma Did.moved (hd : Did s i s') (hf : s.futs[j]? = some f) :
    ∃ g, s'.futs[j]? = some g ∧ g.idx = f.idx ∧ Moved s j f i g.progress := by
  -- a future that ends while wakers are called for the others
  have hend : ∀ {k : Nat} {x : Fut} {p : Progress} (r : WaitersRef × List Nat), s.futs[k]? = some x → p.live = false →
      (k ≠ j → i.polls j = false) →
      ∃ g, ((s.call r).set_progress k x p).futs[j]? = some g ∧ g.idx = f.idx ∧ Moved s j f i g.progress := by
    intro k x p r hx hp hi
    have hat := at_call hf r
    by_cases hkj : k = j
    · subst hkj
      cases hf.symm.trans hx
      exact ⟨_, at_set hat _, rfl, .ended hp⟩
    · exact ⟨_, (getElem?_set_ne hkj).trans hat, rfl, .marked _ (hi hkj)⟩
  cases hd with
  | idle | bind | shutdown => exact ⟨f, hf, rfl, .same rfl⟩
  | unbind => exact ⟨_, at_call hf _, rfl, .marked _ rfl⟩
  | drop_pipeline => exact ⟨_, at_call hf (s.waiters.remove 0), rfl, .marked _ rfl⟩
  | ready | poll_ready =>
    exact ⟨f, at_append hf, rfl, .same rfl⟩
  | closed hx =>
    have hclosed := hend (p := .done) (s.waiters, []) hx rfl decide_eq_false
    rw [call_nil] at hclosed
    exact hclosed
  | @poll k waker body ready x hx =>
    rw [futs_run]
    have hat := at_call hf ((s.waiters.run x.idx waker body ready).waiters, (s.waiters.run x.idx waker body ready).called)
    by_cases hkj : k = j
    · subst hkj
      cases hf.symm.trans hx
      exact ⟨_, at_set hat _, rfl, .polled rfl⟩
    · exact ⟨_, (getElem?_set_ne hkj).trans hat, rfl, .marked _ (decide_eq_false hkj)⟩
  | abandon hx =>
    have habandon := hend (p := .dropped) (s.waiters, []) hx rfl fun _ => rfl
    rw [call_nil] at habandon
    exact habandon
  | drop hx => exact hend _ hx rfl fun _ => rfl
  | drop_call hx => exact hend _ hx rfl fun _ => rfl
  | shutdown_check => exact ⟨_, at_call hf s.waiters.notify, rfl, .marked _ rfl⟩

def checkings (s : Pipeline) : Nat := s.futs.countP fun f => f.progress.isChecking

def Checks (s : Pipeline) (k : Nat) : Prop := ∃ f, s.futs[k]? = some f ∧ f.progress.isChecking = true

/-- No future begins to wait for the service, and when one does not wait any more there are fewer. -/
structure Fewer (s s' : Pipeline) : Prop where
  le : s'.checkings ≤ s.checkings
  lt : ∀ k, Checks s k → Checks s' k ∨ s'.checkings < s.checkings

lemma Fewer.trans {t : Pipeline} (h : Fewer s t) (h' : Fewer t s') : Fewer s s' := by
  refine ⟨Nat.le_trans h'.le h.le, fun k hk => ?_⟩
  rcases h.lt k hk with hk | hlt
  · rcases h'.lt k hk with hk | hlt
    · exact .inl hk
    · exact .inr (Nat.lt_of_lt_of_le hlt h.le)
  · exact .inr (Nat.lt_of_le_of_lt h'.le hlt)

lemma Fewer.of_futs (h : s'.futs = s.futs) : Fewer s s' := by
  refine ⟨Nat.le_of_eq ?_, fun k ⟨f, hf, hc⟩ => .inl ⟨f, ?_, hc⟩⟩
  · rw [checkings, h]
    rfl
  · rw [h]
    exact hf

lemma fewer_call (s : Pipeline) (r : WaitersRef × List Nat) : Fewer s (s.call r) := by
  refine ⟨Nat.le_of_eq ?_, fun k ⟨f, hf, hc⟩ => .inl ⟨f, ?_, hc⟩⟩
  · refine countP_map.trans (countP_congr fun f _ => ?_)
    change (f.progress.mark r.2).isChecking = true ↔ f.progress.isChecking = true
    cases f.progress with
    | new | waiting | checking | done | dropped => exact Iff.rfl
  · rw [at_call hf, isChecking_mark _ hc]

lemma fewer_set_progress (hf : s.futs[j]? = some f) (hp : p.isChecking = false) : Fewer s (s.set_progress j f p) := by
  have hcount := countP_set (p := fun f : Fut => f.progress.isChecking) hf { f with progress := p }
  simp only [hp, Bool.false_eq_true, if_false, add_zero] at hcount
  refine ⟨?_, fun k ⟨g, hg, hc⟩ => ?_⟩
  · change (s.futs.set j { f with progress := p }).countP _ ≤ s.futs.countP _
    omega
  · by_cases hjk : j = k
    · subst hjk
      cases hf.symm.trans hg
      rw [if_pos hc] at hcount
      right
      change (s.futs.set j { f with progress := p }).countP _ < s.futs.countP _
      omega
    · exact .inl ⟨g, (getElem?_set_ne hjk).trans hg, hc⟩

lemma fewer_call_set (hf : s.futs[j]? = some f) (r : WaitersRef × List Nat) (hp : p.isChecking = false) :
    Fewer s ((s.call r).set_progress j f p) := by
  have hset := fewer_set_progress (at_call hf r) hp
  exact (fewer_call s r).trans hset

lemma fewer_append (hp : f.progress.isChecking = false) : Fewer s { s with futs := s.futs ++ [f] } := by
  refine ⟨Nat.le_of_eq ?_, fun k ⟨g, hg, hc⟩ => .inl ⟨g, ?_, hc⟩⟩
  · change (s.futs ++ [f]).countP _ = s.futs.countP _
    rw [countP_append, countP_singleton, hp]
    rfl
  · exact at_append hg

lemma answer_ready (w : WaitersRef) (idx waker : Nat) (body : List Body) :
    answer waker (w.run idx waker body true).result = .done ∨
      answer waker (w.run idx waker body true).result = .waiting waker false := by
  have hran := w.ran idx waker body true
  generalize w.run idx waker body true = p at hran
  cases hran with
  | refused hr =>
    rw [hr]
    exact .inr rfl
  | ready hr =>
    rw [hr]
    exact .inl rfl

def Ready : Step → Prop
  | .poll _ _ _ ready => ready = true
  | _ => True

instance : Decidable (Ready i) := by
  unfold Ready
  split <;> infer_instance

lemma Did.fewer (hd : Did s i s') (hr : Ready i) : Fewer s s' := by
  cases hd with
  | idle | bind | shutdown => exact .of_futs rfl
  | unbind => exact fewer_call s _
  | drop_pipeline => exact (fewer_call s (s.waiters.remove 0)).trans (.of_futs rfl)
  | ready | poll_ready => exact fewer_append rfl
  | closed hf => exact fewer_set_progress hf rfl
  | @poll j waker body ready f hf =>
    obtain rfl : ready = true := hr
    have hp : (answer waker (s.waiters.run f.idx waker body true).result).isChecking = false := by
      rcases answer_ready s.waiters f.idx waker body with h | h
      all_goals
        rw [h]
        rfl
    have hset := fewer_call_set hf ((s.waiters.run f.idx waker body true).waiters, (s.waiters.run f.idx waker body true).called) hp
    exact hset.trans (.of_futs (futs_run s j f waker body true))
  | abandon hf => exact fewer_set_progress hf rfl
  | drop hf => exact fewer_call_set hf _ rfl
  | drop_call hf => exact fewer_call_set hf _ rfl
  | shutdown_check => exact (fewer_call s s.waiters.notify).trans (.of_futs rfl)

/-- From `n` on the service is ready, and tasks whose wakers are called poll. -/
structure Served (r : Run step new) (n : Nat) : Prop where
  ready : ∀ m ≥ n, Ready (r.act m)
  polled : ∀ j, r.WeaklyFair (fun s => ∃ f, s.futs[j]? = some f ∧ s.urged f = true) fun i => i.polls j = true

/-- The same for every future that waits for the service. -/
structure Attended (r : Run step new) (n : Nat) : Prop where
  ready : ∀ m ≥ n, Ready (r.act m)
  polled : ∀ j, r.WeaklyFair (fun s => ∃ f, s.futs[j]? = some f ∧ f.progress.urged = true) fun i => i.polls j = true

lemma Served.attended {r : Run step new} {n : Nat} (h : Served r n) (ht : ∀ m, Tasked (r.state m)) : Attended r n := by
  refine ⟨h.ready, fun j k => ?_⟩
  obtain ⟨m, hm, hpolled⟩ := h.polled j k
  exact ⟨m, hm, fun ⟨f, hf, hu⟩ => hpolled ⟨f, hf, (ht m).urged hf hu⟩⟩

variable {r : Run step new} {n : Nat} {m : Nat}

lemma did (r : Run step new) (n : Nat) : Did (r.state n) (r.act n) (r.state (n + 1)) := did_of_step (r.next n)

lemma urged_mark (called : List Nat) (h : p.urged) : (p.mark called).urged := by
  cases p with
  | waiting waker c => exact Bool.or_eq_true_iff.2 (.inl h)
  | new | checking => rfl
  | done | dropped => cases h

section

variable (h : Attended r n) (hm : m ≥ n) (hf : (r.state m).futs[j]? = some f)
include h hm hf

lemma moved_ready :
    ∃ g, (r.state (m + 1)).futs[j]? = some g ∧
      ((∃ called, g.progress = f.progress.mark called ∧ (r.act m).polls j = false) ∨
        g.progress.live = false ∨ g.progress.lost) := by
  obtain ⟨g, hg, -, hmv⟩ := (did r m).moved hf
  have hready := h.ready m hm
  refine ⟨g, hg, ?_⟩
  generalize g.progress = p at hmv ⊢
  cases hmv with
  | marked called hother => exact .inl ⟨called, rfl, hother⟩
  | ended hover => exact .inr (.inl hover)
  | @polled waker body ready hact =>
    rw [hact] at hready
    obtain rfl : ready = true := hready
    rcases answer_ready (r.state m).waiters f.idx waker body with h | h
    · exact .inr (.inl (h ▸ rfl))
    · exact .inr (.inr (h ▸ rfl))

lemma over_or_lost : ∃ k ≥ m, ∃ g, (r.state k).futs[j]? = some g ∧ (g.progress.live = false ∨ g.progress.lost) := by
  by_cases hu : f.progress.urged = true
  · refine Run.ensures (P := fun s => ∃ f, s.futs[j]? = some f ∧ f.progress.urged = true)
      (Q := fun s => ∃ g, s.futs[j]? = some g ∧ (g.progress.live = false ∨ g.progress.lost = true)) (h.polled j) (fun _ hP => hP)
      ⟨f, hf, hu⟩ (fun k hk ⟨f, hf, hu⟩ => ?_) fun k hk ⟨f, hf, hu⟩ hact => ?_
    · obtain ⟨g, hg, ⟨called, hp, -⟩ | hover⟩ := moved_ready h (Nat.le_trans hm hk) hf
      · exact .inl ⟨g, hg, hp ▸ urged_mark called hu⟩
      · exact .inr ⟨g, hg, hover⟩
    · obtain ⟨g, hg, ⟨_, _, hother⟩ | hover⟩ := moved_ready h (Nat.le_trans hm hk) hf
      · cases hother.symm.trans hact
      · exact ⟨g, hg, hover⟩
  · refine ⟨m, Nat.le_refl m, f, hf, ?_⟩
    cases hp : f.progress with
    | new | checking => exact absurd (hp ▸ rfl) hu
    | waiting waker called =>
      cases called with
      | true => exact absurd (hp ▸ rfl) hu
      | false => exact .inr rfl
    | done | dropped => exact .inl rfl

end

lemma fewer_later (h : Attended r n) (hm : m ≥ n) (hk : Checks (r.state m) k) :
    ∃ l ≥ m, (r.state l).checkings < (r.state m).checkings := by
  refine Run.ensures (P := fun s => Checks s k ∧ s.checkings ≤ (r.state m).checkings)
    (Q := fun s => s.checkings < (r.state m).checkings) (h.polled k) (fun s hP => ?_) ⟨hk, Nat.le_refl _⟩ (fun l hl hP => ?_)
    fun l hl hP hact => ?_
  · obtain ⟨f, hf, hc⟩ := hP.1
    refine ⟨f, hf, ?_⟩
    cases hp : f.progress with
    | checking => rfl
    | new | waiting | done | dropped =>
      rw [hp] at hc
      cases hc
  · have hfewer := (did r l).fewer (h.ready l (Nat.le_trans hm hl))
    rcases hfewer.lt k hP.1 with hk | hlt
    · exact .inl ⟨hk, Nat.le_trans hfewer.le hP.2⟩
    · exact .inr (Nat.lt_of_lt_of_le hlt hP.2)
  · have hfewer := (did r l).fewer (h.ready l (Nat.le_trans hm hl))
    refine Nat.lt_of_lt_of_le ((hfewer.lt k hP.1).resolve_left fun ⟨g, hg, hgc⟩ => ?_) hP.2
    obtain ⟨f, hf, -⟩ := hP.1
    obtain ⟨x, hx, ⟨_, _, hother⟩ | hover⟩ := moved_ready h (Nat.le_trans hm hl) hf
    · cases hother.symm.trans hact
    · cases hg.symm.trans hx
      cases hp : g.progress with
      | checking =>
        rw [hp] at hover
        rcases hover with h | h
        all_goals cases h
      | new | waiting | done | dropped =>
        rw [hp] at hgc
        cases hgc

lemma checkings_later (h : Attended r n) {m l : Nat} (hm : m ≥ n) (hl : l ≥ m) : (r.state l).checkings ≤ (r.state m).checkings := by
  induction l, hl using Nat.le_induction with
  | base => exact Nat.le_refl _
  | succ l hl ih => exact Nat.le_trans ((did r l).fewer (h.ready l (Nat.le_trans hm hl))).le ih

lemma exists_later (hm : m ≥ n) (hf : (r.state n).futs[j]? = some f) : ∃ g, (r.state m).futs[j]? = some g := by
  induction m, hm using Nat.le_induction with
  | base => exact ⟨f, hf⟩
  | succ m hm ih =>
    obtain ⟨g, hg⟩ := ih
    obtain ⟨x, hx, -⟩ := (did r m).moved hg
    exact ⟨x, hx⟩

lemma ends_at_last (hsound : ∀ m, Sound (r.state m)) (hheld : ∀ m, Held (r.state m)) (h : Attended r n) (hm : m ≥ n)
    (hf : (r.state m).futs[j]? = some f) : ∃ k ≥ m, ∃ g, (r.state k).futs[j]? = some g ∧ g.progress.live = false := by
  induction hc : (r.state m).checkings using Nat.strongRecOn generalizing m f with
  | ind c ih =>
    obtain ⟨k, hk, g, hg, hover | hlost⟩ := over_or_lost h hm hf
    · exact ⟨k, hk, g, hg, hover⟩
    · have hkn := Nat.le_trans hm hk
      obtain ⟨waker, hw⟩ := lost_waiting hlost
      obtain ⟨idx, hcur, -⟩ := (hsound k j g hg waker hw).cur
      obtain ⟨o, x, hx⟩ := hheld k idx hcur
      obtain ⟨l, hl, hlt⟩ := fewer_later h hkn ⟨x, hx.fut, hx.checking⟩
      have hle := checkings_later h hm hk
      obtain ⟨y, hy⟩ := exists_later hl hg
      obtain ⟨q, hq, hover⟩ := ih _ (hc ▸ Nat.lt_of_lt_of_le hlt hle) (Nat.le_trans hkn hl) hy rfl
      exact ⟨q, Nat.le_trans hk (Nat.le_trans hl hq), hover⟩

lemma held_new : Held new := fun _ hc => nomatch hc

lemma tasked_new : Tasked new := by
  intro j f hf
  cases hf

lemma served_of_rest (is : List Step) (n : Nat)
    (hsome : ∀ m < is.length, (step (trace step new (is.getD · .idle) m) (is.getD m .idle)).isSome)
    (hready : ∀ m < is.length, m ≥ n → Ready (is.getD m .idle))
    (hrest : ∀ f ∈ (trace step new (is.getD · .idle) is.length).futs, (trace step new (is.getD · .idle) is.length).urged f = false) :
    Served (Run.of_loop is .idle hsome rfl) n := by
  refine ⟨fun m hm => ?_, fun j => Run.weaklyFair_of_loop fun ⟨f, hf, hu⟩ => ?_⟩
  · exact Run.of_loop_all (q := fun m _ i => m ≥ n → Ready i) hready (fun _ _ => trivial) m hm
  · cases (hrest f (mem_of_getElem? hf)).symm.trans hu

end Pipeline

end Geario.Service
