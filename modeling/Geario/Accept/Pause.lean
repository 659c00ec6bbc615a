import Geario.Accept.Loop
/-!
# No connections are accepted during back-pressure

After `Pause` and until `Resume`, `accept` should not be called and the poller
should report no listener. The loop does not look at `backpressure` when it
calls `accept`, though: a listener stays registered when its interest is set to
none, so any wake-up in between calls `accept` on it, and sets the interest
again when there is nothing to accept. That includes the wake-up for `Resume`
itself. `Pause` also leaves listeners alone that have an error timeout, and
does nothing at all when there is back-pressure already, as there is when the
loop starts.
-/
open Lib

namespace Geario.Acceptor

open ServerSocketInfo

namespace Accept

/-- The loop is not woken with a registered listener while it is paused; and at a `Pause`, listeners that are armed have
no timeout, there is no back-pressure yet and the poller takes their interest back. -/
def Calm (s : Accept) : Step → Prop
  | .wake _ => s.paused → s.Each fun _ info => info.registered = false
  | .cmd .Pause ok => s.Each fun key info => info.armed → s.backpressure = false ∧ info.timeout = none ∧ ok key
  | _ => True

instance (s : Accept) (i : Step) : Decidable (s.Calm i) := by
  unfold Calm
  split <;> infer_instance

structure Quiet (s : Accept) : Prop where
  called : s.called_paused = false
  registered : s.Each fun _ info => info.armed → info.registered
  backpressure : s.paused → s.backpressure
  armed : s.paused → s.Each fun _ info => info.armed = false
  start : s.paused → s.point ≠ .start
  accepting : s.paused → ∀ idx, s.point = .accepting idx → s.Each fun _ info => info.registered = false

variable {s s' : Accept}

lemma quiet_new (tokens : List Nat) : (new tokens).Quiet :=
  ⟨rfl, .new tokens fun _ _ => nofun, nofun, nofun, nofun, nofun⟩

lemma Quiet.unpaused (hp : s.paused = false) (hc : s.called_paused = false)
    (hr : s.Each fun _ info => info.armed → info.registered) : s.Quiet := by
  refine ⟨hc, hr, ?_, ?_, ?_, ?_⟩ <;> simp [hp]

/-! ## A listener that is armed is registered -/

def Registers (u : ServerSocketInfo → Update) : Prop :=
  ∀ info : ServerSocketInfo, (info.armed → info.registered) → (u info).1.armed → (u info).1.registered

lemma registers_add_source (ok : Bool) (now : Nat) : Registers fun info => info.add_source ok now := by
  intro info h
  cases ok with
  | true => exact fun _ => rfl
  | false => exact h

lemma registers_pause (ok : Nat → Bool) (key : Nat) : Registers (pause_source ok key) := by
  intro info h
  unfold pause_source remove_source
  split
  · split
    · nofun
    · exact h
  · exact h

lemma registers_resume (ok : Nat → Bool) (now key : Nat) : Registers (resume_source ok now key) := by
  intro info h
  unfold resume_source
  split
  · exact registers_add_source _ _ info h
  · exact h

lemma registers_timer (s : Accept) (ok : Nat → Bool) (key : Nat) : Registers (s.timer_source ok key) := by
  intro info h
  unfold timer_source
  split
  · split
    · exact registers_add_source _ _ { info with timeout := none } h
    · exact h
  · exact h

section

variable (h : s.Each fun _ info => info.armed → info.registered)
include h

lemma registered_update (idx : Nat)
    {u : ServerSocketInfo → Update} (hu : Registers u) : (s.update idx u).Each fun _ info => info.armed → info.registered := by
  refine h.for_each fun key info hi => ?_
  by_cases hk : key = idx
  · rw [if_pos hk]
    exact hu info hi
  · rw [if_neg hk]
    exact hi

/-! ## One step -/

lemma registered_backpressure_on (ok : Nat → Bool) :
    (s.backpressure_on ok).Each fun _ info => info.armed → info.registered := by
  unfold backpressure_on
  dsimp only
  split
  · exact h
  · refine Each.for_each (P := fun _ info => info.armed → info.registered) ?_ fun key => registers_pause ok key
    exact h

end

lemma backpressure_on_spec (s : Accept) (ok : Nat → Bool) :
    (s.backpressure_on ok).backpressure ∧ (s.backpressure_on ok).paused = s.paused ∧
      (s.backpressure_on ok).called_paused = s.called_paused ∧ (s.backpressure_on ok).point = s.point := by
  unfold backpressure_on
  dsimp only
  split
  · exact ⟨by assumption, rfl, rfl, rfl⟩
  · exact ⟨rfl, rfl, rfl, rfl⟩

lemma Quiet.accept (h : s.Quiet) (hp : s.paused = false) (idx : Nat) (res : Accepted) (ok : Nat → Bool) :
    (s.accept idx res ok).Quiet := by
  have hc : (s.called_paused || s.paused) = false := by
    rw [h.called, hp]
    rfl
  unfold Accept.accept
  split
  · exact .unpaused hp hc h.registered
  · exact .unpaused hp hc h.registered
  · obtain ⟨-, hp', hc', -⟩ := backpressure_on_spec { s with
      called_paused := s.called_paused || s.paused
      backlog := s.backlog ++ (s.sockets[idx]?.map token).toList
      point := .accepting (idx + 1) } ok
    refine .unpaused (hp'.trans hp) (hc'.trans hc) (registered_backpressure_on ?_ ok)
    exact h.registered
  · refine .unpaused hp hc (registered_update ?_ idx (registers_add_source _ _))
    exact h.registered
  · refine .unpaused hp hc (registered_update ?_ idx fun info hi => hi)
    exact h.registered

lemma pause_spec (s : Accept) (ok : Nat → Bool) :
    (s.pause ok).backpressure ∧ (s.pause ok).paused = s.paused ∧ (s.pause ok).called_paused = s.called_paused ∧
      (s.pause ok).point = s.point := by
  unfold pause
  split
  · exact ⟨by assumption, rfl, rfl, rfl⟩
  · exact backpressure_on_spec s ok

lemma Quiet.disarmed (h : s.Quiet) {ok : Nat → Bool} (hok : s.Calm (.cmd .Pause ok)) :
    (s.pause ok).Each fun _ info => info.armed = false := by
  unfold pause
  split
  next hb =>
    intro key info hk
    cases ha : info.armed with
    | false => rfl
    | true =>
      have := (hok key info hk ha).1
      rw [hb] at this
      cases this
  next hb =>
    rw [backpressure_on, if_neg hb]
    have hall : s.Each fun key info => info.armed → info.registered ∧ info.timeout = none ∧ ok key :=
      fun key info hk ha => ⟨h.registered key info hk ha, (hok key info hk ha).2⟩
    refine Each.for_each (P := fun key info => info.armed → info.registered ∧ info.timeout = none ∧ ok key) hall ?_
    intro key info hi
    cases ha : info.armed with
    | false =>
      unfold pause_source remove_source
      split
      · split
        · rfl
        · exact ha
      · exact ha
    | true =>
      obtain ⟨hr, ht, hk⟩ := hi ha
      simp [pause_source, remove_source, hr, ht, hk]

lemma timer_source_backpressure (hb : s.backpressure) (ok : Nat → Bool) (key : Nat) (info : ServerSocketInfo) :
    s.timer_source ok key info = (info, []) := by
  unfold timer_source
  split
  · rw [if_neg (by simp [hb])]
  · rfl

lemma Quiet.process_cmd (h : s.Quiet) (hp : s.point = .commands) {cmd : AcceptorCommand} {ok : Nat → Bool}
    (hok : s.Calm (.cmd cmd ok)) (hs : s.process_cmd cmd ok = some s') : s'.Quiet := by
  obtain ⟨hb, hpaused, hc, hpoint⟩ := pause_spec s ok
  cases cmd with
  | Stop =>
    cases hs
    exact ⟨hc.trans h.called, nofun, fun _ => hb, nofun, nofun, nofun⟩
  | Terminate =>
    cases hs
    obtain ⟨hb, -, hc, -⟩ := backpressure_on_spec s ok
    exact ⟨hc.trans h.called, nofun, fun _ => hb, nofun, nofun, nofun⟩
  | Pause =>
    cases hs
    have hd := h.disarmed hok
    refine ⟨hc.trans h.called, ?_, fun _ => hb, fun _ => hd, ?_, ?_⟩
    · exact hd.mono fun key info hi ha => by rw [hi] at ha; cases ha
    · intro _ (hst : (s.pause ok).point = .start)
      rw [hpoint, hp] at hst
      cases hst
    · intro _ idx (hst : (s.pause ok).point = .accepting idx)
      rw [hpoint, hp] at hst
      cases hst
  | Resume served =>
    cases hs
    cases hb : s.backpressure with
    | false => exact .unpaused rfl h.called h.registered
    | true =>
      rw [if_pos rfl, backpressure_off]
      split
      · exact .unpaused rfl h.called h.registered
      · refine .unpaused rfl h.called ?_
        refine Each.for_each (P := fun _ info => info.armed → info.registered) ?_ fun key => registers_resume ok _ key
        exact h.registered
  | Timer due =>
    simp only [Accept.process_cmd] at hs
    split at hs <;> cases hs
    refine ⟨h.called, ?_, h.backpressure, ?_, h.start, ?_⟩
    · refine Each.for_each (P := fun _ info => info.armed → info.registered) ?_ fun key => registers_timer _ ok key
      exact h.registered
    · intro hq
      refine Each.for_each (P := fun _ info => info.armed = false) (h.armed hq) fun key info hi => ?_
      have hb : { s with timers := s.timers.erase due }.backpressure := h.backpressure hq
      rw [timer_source_backpressure hb]
      exact hi
    · intro _ idx (hst : s.point = .accepting idx)
      rw [hp] at hst
      cases hst

lemma Quiet.step {i : Step} (h : s.Quiet) (hok : s.Calm i) (hs : step s i = some s') : s'.Quiet := by
  cases i with
  | start ok =>
    simp only [Acceptor.step] at hs
    split at hs <;> cases hs
    rename_i hp
    have hpaused : s.paused = false := by
      cases hq : s.paused
      · rfl
      · exact absurd hp (h.start hq)
    refine .unpaused hpaused h.called ?_
    refine Each.for_each (P := fun _ info => info.armed → info.registered) ?_ fun key => registers_add_source _ _
    exact h.registered
  | skip =>
    simp only [Acceptor.step] at hs
    split at hs
    next idx hp =>
      split at hs
      · split at hs <;> cases hs
        exact { h with start := fun _ => nofun, accepting := fun hq _ _ => h.accepting hq idx hp }
      · cases hs
    · cases hs
  | accept res ok =>
    simp only [Acceptor.step] at hs
    split at hs
    next idx hp =>
      split at hs
      next info hinfo =>
        split at hs <;> cases hs
        rename_i hr
        refine h.accept ?_ idx res ok
        -- a registered listener is only come to when the loop is not paused
        cases hq : s.paused
        · rfl
        · have : info.registered = false := h.accepting hq idx hp idx info hinfo
          rw [hr] at this
          cases this
      · cases hs
    · cases hs
  | accepted =>
    simp only [Acceptor.step] at hs
    split at hs
    · split at hs <;> cases hs
      exact { h with start := fun _ => nofun, accepting := fun _ _ => nofun }
    · cases hs
  | cmd cmd ok =>
    simp only [Acceptor.step] at hs
    split at hs
    next hp => exact h.process_cmd hp hok hs
    · cases hs
  | wait =>
    simp only [Acceptor.step] at hs
    split at hs <;> cases hs
    exact { h with start := fun _ => nofun, accepting := fun _ _ => nofun }
  | wake events =>
    simp only [Acceptor.step] at hs
    split at hs <;> cases hs
    refine ⟨h.called, ?_, h.backpressure, fun hq => ?_, fun _ => nofun, fun hq idx _ => ?_⟩
    · refine Each.for_each (P := fun _ info => info.armed → info.registered) h.registered fun key info hi => ?_
      split
      · nofun
      · exact hi
    · refine Each.for_each (P := fun _ info => info.armed = false) (h.armed hq) fun key info hi => ?_
      split
      · rfl
      · exact hi
    · refine Each.for_each (P := fun _ info => info.registered = false) (hok hq) fun key info hi => ?_
      split <;> exact hi
  | tick ms =>
    cases hs
    exact { h with }

/-- From a `Pause` to the next `Resume` nothing is accepted and no listener is armed, if all steps are `Calm`. -/
theorem paused_quiet {tokens : List Nat} (h : Reach Acceptor.step Calm (new tokens) s) :
    s.called_paused = false ∧ (s.paused → ∀ info ∈ s.sockets, info.armed = false) := by
  have hq := h.inv Quiet (quiet_new tokens) fun _ _ _ hq hok hs => hq.step hok hs
  exact ⟨hq.called, fun hp => (hq.armed hp).mem⟩

/-- A connection is accepted, then the loop is paused. -/
theorem paused_quiet_listener :
    ∃ s, Reach Acceptor.step Calm (new [0]) s ∧ s.paused ∧ s.sockets.length = 1 ∧
      (s.called_paused = false ∧ (s.paused → ∀ info ∈ s.sockets, info.armed = false)) := by
  have hreach : Reach Acceptor.step Calm (new [0]) _ := .of_steps
      [.start fun _ => true, .accept .none fun _ => true, .accepted, .cmd (.Resume 0) fun _ => true, .wait,
        .wake fun _ => true, .accept (.conn true) fun _ => true, .accept .none fun _ => true, .accepted,
        .cmd .Pause fun _ => true, .wait] rfl
  refine ⟨_, hreach, ?_, ?_, paused_quiet hreach⟩
  · rfl
  · rfl

/-- The loop is woken while it is paused: it calls `accept` and waits for connections again. -/
theorem paused_accepts :
    ∃ s, Reach Acceptor.step (fun _ _ => True) (new [0]) s ∧ s.paused ∧ s.called_paused ∧ ∃ info ∈ s.sockets, info.armed := by
  have hreach : Reach Acceptor.step (fun _ _ => True) (new [0]) _ := .of_steps
      [.start fun _ => true, .accept .none fun _ => true, .accepted, .cmd (.Resume 0) fun _ => true, .wait,
        .wake fun _ => true, .accept (.conn true) fun _ => true, .accept .none fun _ => true, .accepted,
        .cmd .Pause fun _ => true, .wait, .wake fun _ => false, .accept (.conn true) fun _ => true,
        .accept .none fun _ => true] rfl
  refine ⟨_, hreach, ?_, ?_, _, List.mem_cons_self, ?_⟩ <;> rfl

end Accept

end Geario.Acceptor
