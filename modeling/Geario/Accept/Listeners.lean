import Geario.Accept.Loop
/-!
# No listener is lost

When there is no back-pressure and the loop waits, each listener is armed or has
a timeout and a `Timer` command to come that ends it. `Resume` leaves a listener
with a timeout to its `Timer` command, and that does nothing during
back-pressure, so a listener is lost when the command comes before `Resume`.
The loop starts with back-pressure, which makes this possible for a listener
that could not be registered at the start.
-/
open Lib

namespace Geario.Acceptor

namespace Accept

/-- No listener has a timeout when a `Timer` command is processed during back-pressure. -/
def Timely (s : Accept) : Step → Prop
  | .cmd (.Timer _) _ => s.backpressure → s.Each fun _ info => info.timeout = none
  | _ => True

instance (s : Accept) (i : Step) : Decidable (s.Timely i) := by
  unfold Timely
  split <;> infer_instance

def Timed (timers : List Nat) (info : ServerSocketInfo) : Prop :=
  ∀ inst ∈ info.timeout, ∃ due ∈ timers, inst < due

def Point.past : Point → Nat → Prop
  | .start, _ => False
  | .accepting idx, key => key < idx
  | .commands, _ | .waiting, _ | .stopped, _ => True

structure Kept (s : Accept) : Prop where
  timed : s.Each fun _ info => Timed s.timers info
  registered : s.backpressure = false → s.Each fun _ info => info.timeout = none → info.registered
  armed : s.backpressure = false → s.Each fun key info => Point.past s.point key → info.timeout = none → info.armed

variable {s s' : Accept} {f : Nat → ServerSocketInfo → Update} {info : ServerSocketInfo} {timers : List Nat}

lemma kept_new (tokens : List Nat) : (new tokens).Kept :=
  ⟨.new tokens fun _ _ => nofun, nofun, nofun⟩

/-! ## Timeouts -/

lemma Timed.mono {timers timers' : List Nat} (h : Timed timers info)
    (hsub : ∀ due ∈ timers, due ∈ timers') : Timed timers' info := by
  intro inst hi
  obtain ⟨due, hd, hlt⟩ := h inst hi
  exact ⟨due, hsub due hd, hlt⟩

lemma Timed.none (h : info.timeout = none) : Timed timers info := by
  intro inst hi
  rw [h] at hi
  cases hi

lemma timed_sleep (timers : List Nat) (info : ServerSocketInfo) (now : Nat) :
    Timed (timers ++ (info.sleep now).2) (info.sleep now).1 := by
  intro inst hi
  cases hi
  refine ⟨now + ERR_SLEEP_TIMEOUT, by simp [ServerSocketInfo.sleep], ?_⟩
  simp [ERR_TIMEOUT, ERR_SLEEP_TIMEOUT]

lemma timed_add_source (h : Timed timers info) (ok : Bool) (now : Nat) :
    Timed (timers ++ (info.add_source ok now).2) (info.add_source ok now).1 := by
  cases ok with
  | true => exact h.mono fun _ => List.mem_append_left _
  | false => exact timed_sleep timers info now

lemma timed_for_each (h : s.Each fun key info => Timed (s.timers ++ (f key info).2) (f key info).1) :
    (s.for_each f).Each fun _ info => Timed (s.for_each f).timers info := by
  have hall : s.Each fun key info => Timed (s.for_each f).timers (f key info).1 := by
    intro key info hk
    refine (h key info hk).mono fun due hd => mem_timers_for_each.2 ?_
    rcases List.mem_append.1 hd with hd | hd
    · exact .inl hd
    · exact .inr ⟨key, info, hk, hd⟩
  exact hall.for_each fun key info hi => hi

lemma add_source_spec (info : ServerSocketInfo) (ok : Bool) (now : Nat) (h : (info.add_source ok now).1.timeout = none) :
    (info.add_source ok now).1.registered ∧ (info.add_source ok now).1.armed := by
  cases ok with
  | true => exact ⟨rfl, rfl⟩
  | false => cases h

/-! ## One step -/

lemma Kept.backpressured (hb : s.backpressure) (ht : s.Each fun _ info => Timed s.timers info) : s.Kept := by
  refine ⟨ht, ?_, ?_⟩ <;> simp [hb]

lemma kept_stopped (h : s.sockets = []) : s.Kept := by
  have hall : ∀ P, s.Each P := by
    intro P key info hk
    rw [h] at hk
    cases hk
  exact ⟨hall _, fun _ => hall _, fun _ => hall _⟩

lemma kept_backpressure_on (ht : s.Each fun _ info => Timed s.timers info) (ok : Nat → Bool) :
    (s.backpressure_on ok).Kept := by
  unfold Accept.backpressure_on
  dsimp only
  split
  · refine .backpressured ?_ ?_
    · assumption
    · exact ht
  · refine .backpressured rfl (timed_for_each ?_)
    intro key info hk
    unfold pause_source ServerSocketInfo.remove_source
    split
    · exact .none (by dsimp only; split <;> assumption)
    · exact .none rfl

lemma kept_pause (h : s.Kept) (ok : Nat → Bool) : (s.pause ok).Kept := by
  unfold pause
  split
  · exact h
  · exact kept_backpressure_on h.timed ok

/-- What an update leaves a listener with: it is registered and armed, or it has a timeout that ends. -/
structure Settles (timers : List Nat) (u : Update) : Prop where
  timed : Timed (timers ++ u.2) u.1
  ready : u.1.timeout = none → u.1.registered ∧ u.1.armed

lemma settles_sleep (timers : List Nat) (info : ServerSocketInfo) (now : Nat) : Settles timers (info.sleep now) :=
  ⟨timed_sleep timers info now, nofun⟩

lemma settles_add_source (h : Timed timers info) (ok : Bool) (now : Nat) :
    Settles timers (info.add_source ok now) :=
  ⟨timed_add_source h ok now, add_source_spec info ok now⟩

variable {idx due : Nat}

lemma kept_update (hp : s.point = .accepting (idx + 1)) (ht : s.Each fun _ info => Timed s.timers info)
    (hr : s.backpressure = false → s.Each fun _ info => info.timeout = none → info.registered)
    (hpast : s.backpressure = false → s.Each fun key info => key < idx → info.timeout = none → info.armed)
    {u : ServerSocketInfo → Update} (hu : ∀ info, Timed s.timers info → Settles s.timers (u info)) :
    (s.update idx u).Kept := by
  refine ⟨timed_for_each ?_, fun hb => ?_, fun hb => ?_⟩
  · intro key info hk
    by_cases hkey : key = idx
    · rw [if_pos hkey]
      exact (hu info (ht key info hk)).timed
    · rw [if_neg hkey]
      exact (ht key info hk).mono fun _ => List.mem_append_left _
  · have hall : s.Each fun _ info => Timed s.timers info ∧ (info.timeout = none → info.registered) :=
      fun key info hk => ⟨ht key info hk, hr hb key info hk⟩
    refine hall.for_each fun key info hi => ?_
    by_cases hkey : key = idx
    · rw [if_pos hkey]
      exact fun hn => ((hu info hi.1).ready hn).1
    · rw [if_neg hkey]
      exact hi.2
  · have hall : s.Each fun key info => Timed s.timers info ∧ (key < idx → info.timeout = none → info.armed) :=
      fun key info hk => ⟨ht key info hk, hpast hb key info hk⟩
    refine hall.for_each fun key info hi hpast => ?_
    have hlt : Point.past s.point key := hpast
    rw [hp] at hlt
    have hlt : key < idx + 1 := hlt
    by_cases hkey : key = idx
    · rw [if_pos hkey]
      exact fun hn => ((hu info hi.1).ready hn).2
    · rw [if_neg hkey]
      exact hi.2 (by omega)

lemma Kept.accept (h : s.Kept) (hp : s.point = .accepting idx) (res : Accepted) (ok : Nat → Bool) :
    (s.accept idx res ok).Kept := by
  have hpast : s.backpressure = false → s.Each fun key info => key < idx → info.timeout = none → info.armed := by
    intro hb
    have := h.armed hb
    rw [hp] at this
    exact this
  unfold Accept.accept
  split
  · exact { h with }
  · exact { h with }
  · refine kept_backpressure_on ?_ ok
    exact h.timed
  · refine kept_update rfl ?_ ?_ ?_ fun info hi => settles_add_source hi _ _
    · exact h.timed
    · exact h.registered
    · exact hpast
  · refine kept_update rfl ?_ ?_ ?_ fun info _ => settles_sleep _ info _
    · exact h.timed
    · exact h.registered
    · exact hpast

lemma kept_for_each (hf : s.Each fun key info => Settles s.timers (f key info)) : (s.for_each f).Kept := by
  refine ⟨timed_for_each (hf.mono fun _ _ hi => hi.timed), fun _ => ?_, fun _ => ?_⟩
  · exact hf.for_each fun key info hi hn => (hi.ready hn).1
  · exact hf.for_each fun key info hi _ hn => (hi.ready hn).2

lemma Kept.resume (h : s.Kept) (hb : s.backpressure) (ok : Nat → Bool) (served : Nat) :
    (s.backpressure_off ok served).Kept := by
  unfold backpressure_off
  dsimp only
  split
  · exact .backpressured hb h.timed
  · refine kept_for_each ?_
    intro key info hk
    have ht : Timed s.timers info := h.timed key info hk
    unfold resume_source
    split
    · exact settles_add_source ht _ _
    next hn => exact ⟨ht.mono fun _ => List.mem_append_left _, fun h => absurd h hn⟩

lemma Kept.timer (h : s.Kept) (hp : s.point = .commands) (hb : s.backpressure = false) (hdue : due ≤ s.now)
    (ok : Nat → Bool) : ({ s with timers := s.timers.erase due }.process_timer ok).Kept := by
  refine kept_for_each ?_
  intro key info hk
  have ht : Timed s.timers info := h.timed key info hk
  unfold timer_source
  split
  next inst hi =>
    split
    · exact settles_add_source (.none rfl) _ _
    next hlate =>
      refine ⟨?_, fun hn => by rw [hi] at hn; cases hn⟩
      intro inst' hi'
      obtain ⟨due', hd, hlt⟩ := ht inst' hi'
      cases hi.symm.trans hi'
      have hlate : ¬ inst < s.now := fun hlt => hlate ⟨hlt, hb⟩
      refine ⟨due', List.mem_append_left _ ((List.mem_erase_of_ne ?_).2 hd), hlt⟩
      omega
  next hn =>
    refine ⟨.none hn, fun _ => ⟨h.registered hb key info hk hn, h.armed hb key info hk ?_ hn⟩⟩
    rw [hp]
    trivial

lemma Kept.process_cmd (h : s.Kept) (hp : s.point = .commands) {cmd : AcceptorCommand} {ok : Nat → Bool}
    (hok : s.Timely (.cmd cmd ok)) (hs : s.process_cmd cmd ok = some s') : s'.Kept := by
  cases cmd with
  | Stop | Terminate =>
    cases hs
    exact kept_stopped rfl
  | Pause =>
    cases hs
    have hk := kept_pause h ok
    exact { hk with }
  | Resume served =>
    cases hs
    cases hb : s.backpressure with
    | false => exact { h with }
    | true =>
      have hk := h.resume hb ok served
      exact { hk with }
  | Timer due =>
    simp only [Accept.process_cmd] at hs
    split at hs <;> cases hs
    rename_i hdue
    by_cases hb : s.backpressure
    · refine .backpressured hb (timed_for_each ?_)
      intro key info hk
      have hn : info.timeout = none := hok hb key info hk
      unfold timer_source
      split
      next inst hi =>
        rw [hn] at hi
        cases hi
      · exact .none hn
    · exact h.timer hp (by simpa using hb) hdue.2 ok

lemma Kept.step {i : Step} (h : s.Kept) (hok : s.Timely i) (hs : step s i = some s') : s'.Kept := by
  cases i with
  | start ok =>
    simp only [Acceptor.step] at hs
    split at hs <;> cases hs
    refine kept_for_each ?_
    exact fun key info hk => settles_add_source (h.timed key info hk) _ _
  | skip =>
    simp only [Acceptor.step] at hs
    split at hs
    next idx hp =>
      split at hs
      next info hinfo =>
        split at hs <;> cases hs
        rename_i hr
        refine { h with armed := fun hb key info' hk hpast hn => ?_ }
        have hpast : key < idx + 1 := hpast
        by_cases hkey : key = idx
        · -- a listener without a timeout is registered
          subst hkey
          cases hinfo.symm.trans hk
          exact absurd (h.registered hb key info hinfo hn) hr
        · refine h.armed hb key info' hk ?_ hn
          rw [hp]
          show key < idx
          omega
      · cases hs
    · cases hs
  | accept res ok =>
    simp only [Acceptor.step] at hs
    split at hs
    next idx hp =>
      split at hs
      · split at hs <;> cases hs
        exact h.accept hp res ok
      · cases hs
    · cases hs
  | accepted =>
    simp only [Acceptor.step] at hs
    split at hs
    next idx hp =>
      split at hs <;> cases hs
      rename_i hlen
      refine { h with armed := fun hb key info hk _ hn => h.armed hb key info hk ?_ hn }
      rw [hp]
      have := (List.getElem?_eq_some_iff.1 hk).1
      exact Nat.lt_of_lt_of_le this hlen
    · cases hs
  | cmd cmd ok =>
    simp only [Acceptor.step] at hs
    split at hs
    next hp => exact h.process_cmd hp hok hs
    · cases hs
  | wait =>
    simp only [Acceptor.step] at hs
    split at hs <;> cases hs
    rename_i hp
    refine { h with armed := fun hb key info hk _ hn => h.armed hb key info hk ?_ hn }
    rw [hp]
    trivial
  | wake events =>
    simp only [Acceptor.step] at hs
    split at hs <;> cases hs
    refine ⟨timed_for_each ?_, fun hb => ?_, fun hb key info hk hpast => absurd hpast (Nat.not_lt_zero key)⟩
    · intro key info hk
      have ht : Timed s.timers info := h.timed key info hk
      split <;> exact ht.mono fun _ => List.mem_append_left _
    · refine Each.for_each (P := fun _ info => info.timeout = none → info.registered) (h.registered hb) ?_
      intro key info hi
      split <;> exact hi
  | tick ms =>
    cases hs
    exact { h with }

/-- Without back-pressure, and if the poller agrees, the `Timer` command arms a listener with this timeout. -/
def Rearms (key inst due : Nat) : Prop :=
  ∀ (s s' : Accept) (info : ServerSocketInfo) (ok : Nat → Bool), s.sockets[key]? = some info → info.timeout = some inst →
    s.backpressure = false → ok key → s.process_cmd (.Timer due) ok = some s' →
    s'.sockets[key]? = some { info with registered := true, timeout := none, armed := true }

lemma rearms_of_lt {key inst : Nat} (hlt : inst < due) : Rearms key inst due := by
  intro s s' info ok hk hi hb hok hs
  simp only [Accept.process_cmd] at hs
  split at hs <;> cases hs
  rename_i hdue
  have hnow : inst < s.now := Nat.lt_of_lt_of_le hlt hdue.2
  simp [process_timer, for_each, timer_source, hk, hi, hnow, hb, hok, ServerSocketInfo.add_source]

/-- When the loop waits without back-pressure, each listener is armed, or has a timeout and a `Timer` command to come that
will arm it. -/
theorem no_listener_lost {tokens : List Nat} (h : Reach Acceptor.step Timely (new tokens) s) (hp : s.point = .waiting)
    (hb : s.backpressure = false) :
    s.Each fun key info =>
      info.armed ∨ ∃ inst due, info.timeout = some inst ∧ due ∈ s.timers ∧ Rearms key inst due := by
  have hk := h.inv Kept (kept_new tokens) fun _ _ _ hk hok hs => hk.step hok hs
  intro key info hinfo
  cases hi : info.timeout with
  | none =>
    refine .inl (hk.armed hb key info hinfo ?_ hi)
    rw [hp]
    trivial
  | some inst =>
    obtain ⟨due, hd, hlt⟩ := hk.timed key info hinfo inst hi
    exact .inr ⟨inst, due, rfl, hd, rearms_of_lt hlt⟩

/-- The first registration fails, and its `Timer` command is still to come when the loop is resumed. -/
theorem no_listener_lost_resumed :
    ∃ s, Reach Acceptor.step Timely (new [0]) s ∧ s.sockets = [⟨0, false, some 500, false⟩] ∧ s.timers = [525] ∧
      s.Each fun key info =>
        info.armed ∨ ∃ inst due, info.timeout = some inst ∧ due ∈ s.timers ∧ Rearms key inst due := by
  have hreach : Reach Acceptor.step Timely (new [0]) _ := .of_steps
      [.start fun _ => false, .skip, .accepted, .tick 100, .cmd (.Resume 0) fun _ => true, .wait] rfl
  refine ⟨_, hreach, ?_, ?_, no_listener_lost hreach ?_ ?_⟩ <;> rfl

/-- The first registration fails, and its `Timer` command is processed before the loop is resumed: nothing will register the
listener. -/
theorem listener_lost :
    ∃ s, Reach Acceptor.step (fun _ _ => True) (new [0]) s ∧ s.point = .waiting ∧ s.backpressure = false ∧
      s.sockets = [⟨0, false, some 500, false⟩] ∧ s.timers = [] := by
  have hreach : Reach Acceptor.step (fun _ _ => True) (new [0]) _ := .of_steps
      [.start fun _ => false, .skip, .accepted, .wait, .tick 525, .wake fun _ => false, .skip, .accepted,
        .cmd (.Timer 525) fun _ => true, .wait, .tick 100, .wake fun _ => false, .skip, .accepted,
        .cmd (.Resume 0) fun _ => true, .wait] rfl
  refine ⟨_, hreach, ?_⟩
  exact ⟨rfl, rfl, rfl, rfl⟩

end Accept

end Geario.Acceptor
