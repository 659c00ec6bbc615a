import Geario.Service.Waiters
import Geario.Service.Counter
/-!
# The connections of a worker

`ServiceRunner` is the loop of a worker. It polls the readiness of its pipeline,
takes a connection, and awaits the call of the pipeline, which checks the
readiness again. `StreamService::ready` awaits a free slot and then the bound
services, one after the other; `StreamService::call` takes a slot and gives it,
with the stream, to a service, which keeps it until the connection is over. A
service whose readiness fails is shut down in a task of its own, and a new one is
made; all of them have clones of the counter of the thread.

The bound services answer as they like. The worker is one task, with one waker.
-/
open Lib (Reach)
open List

namespace Geario.Server

open Service (Counter WaitersRef)

def TASK : Nat := 0

structure Connection where
  token : Nat
  deriving DecidableEq

structure StreamService where
  conns : Nat
  services : Nat
  tokens : List (Nat × Nat)
  deriving DecidableEq

inductive Checking
  | start
  | full
  | service (idx : Nat)
  deriving DecidableEq

namespace StreamService

def ready_services (answers : Nat → Option Bool) : Nat → Nat → Checking × Option Bool
  | 0, idx => (.service idx, some true)
  | left + 1, idx =>
    match answers idx with
    | some true => ready_services answers left (idx + 1)
    | answer => (.service idx, answer)

def ready (svc : StreamService) (counter : Counter) (answers : Nat → Option Bool) : Checking → Counter × Checking × Option Bool
  | .service idx => (counter, ready_services answers (svc.services - idx) idx)
  | .start | .full =>
    let r := counter.poll_available svc.conns TASK
    if r.2 then (r.1, ready_services answers svc.services 0) else (r.1, .full, none)

lemma ready_services_service (answers : Nat → Option Bool) (left idx : Nat) : ∃ k, (ready_services answers left idx).1 = .service k := by
  induction left generalizing idx with
  | zero => exact ⟨idx, rfl⟩
  | succ left ih =>
    unfold ready_services
    split
    · exact ih (idx + 1)
    · exact ⟨idx, rfl⟩

inductive Readied (svc : StreamService) (counter : Counter) (fut : Checking) (r : Counter × Checking × Option Bool) : Prop
  | waits (full : ¬ counter.count < counter.capacity) (eq : r = ((counter.poll_available svc.conns TASK).1, .full, none))
  | goes (free : (∃ k, fut = .service k) ∨ counter.count < counter.capacity) (same : r.1 = counter) (fut : ∃ k, r.2.1 = .service k)

lemma readied (svc : StreamService) (counter : Counter) (answers : Nat → Option Bool) (fut : Checking) :
    svc.Readied counter fut (svc.ready counter answers fut) := by
  have hfirst : svc.Readied counter fut
      (if (counter.poll_available svc.conns TASK).2 then
        ((counter.poll_available svc.conns TASK).1, ready_services answers svc.services 0)
      else ((counter.poll_available svc.conns TASK).1, .full, none)) := by
    by_cases hc : counter.count < counter.capacity
    · have hp : counter.poll_available svc.conns TASK = (counter, true) := if_pos hc
      rw [hp]
      exact .goes (.inr hc) rfl (ready_services_service answers svc.services 0)
    · have hp : (counter.poll_available svc.conns TASK).2 = false := by rw [Counter.poll_available, if_neg hc]
      rw [hp]
      exact .waits hc rfl
  cases fut with
  | service idx => exact .goes (.inl ⟨idx, rfl⟩) rfl (ready_services_service answers _ idx)
  | start | full => exact hfirst

def call (svc : StreamService) (con : Connection) (converted : Bool) : Option Nat :=
  match svc.tokens.lookup con.token with
  | some idx => if converted then some idx else none
  | none => none

end StreamService

structure Svc where
  service : StreamService
  waiters : WaitersRef
  stored : Checking

inductive RunPhase
  | waiting
  | calling (con : Connection) (idx : Nat) (fut : Checking)
  | creating (first : Bool)
  | sleeping
  | stopping
  | stopped
  deriving DecidableEq

structure ServiceRunner where
  counter : Counter
  svc : Option Svc
  old : List Nat
  guards : List Connection
  phase : RunPhase
  availability : Bool
  woken : Bool

namespace ServiceRunner

inductive Recv
  | pending
  /-- `idx` is what the slab of the pipeline chooses for the handle of the call -/
  | item (con : Connection) (idx : Nat)
  | gone
  deriving DecidableEq

inductive Step
  | poll_ready (answers : Nat → Option Bool) (recv : Recv) (stop : Bool)
  | poll_call (answers : Nat → Option Bool) (converted : Bool)
  | create (service : StreamService)
  | create_failed
  | create_stopped
  | slept
  | shutdown
  | drop_old (conns : Nat)
  | drop_guard (j : Nat)

def new (max : Nat) : ServiceRunner :=
  { counter := .new max, svc := none, old := [], guards := [], phase := .creating true, availability := false, woken := false }

/-- What comes of a poll of a check; `result` is `none` for `Pending`. -/
structure Polled where
  counter : Counter
  waiters : WaitersRef
  fut : Checking
  result : Option Bool
  called : List Nat

def poll_check (counter : Counter) (svc : Svc) (idx : Nat) (answers : Nat → Option Bool) (fut : Checking) : Polled :=
  let r := svc.service.ready counter answers fut
  let p := svc.waiters.run idx TASK [] r.2.2.isSome
  match p.result with
  | none => { counter, waiters := p.waiters, fut, result := none, called := p.called }
  | some _ => { counter := r.1, waiters := p.waiters, fut := r.2.1, result := r.2.2, called := p.called }

/-- The `select` of the loop. -/
def poll_ready (s : ServiceRunner) (svc : Svc) (answers : Nat → Option Bool) (recv : Recv) (stop : Bool) : Option ServiceRunner :=
  let p := poll_check s.counter svc 0 answers svc.stored
  let s := { s with counter := p.counter, woken := decide (TASK ∈ p.called) }
  let phase := if stop then .stopping else .waiting
  match p.result with
  | none => some { s with svc := some { svc with waiters := p.waiters, stored := p.fut }, phase, availability := false }
  | some false => some { s with svc := none, old := svc.service.conns :: s.old, phase := .creating false, availability := false }
  | some true =>
    -- the stored check is made anew the next time
    let svc := { svc with waiters := p.waiters, stored := .start }
    match recv with
    | .pending => some { s with svc := some svc, phase, availability := !stop }
    | .gone => some { s with svc := some svc, phase := .stopping, availability := false }
    | .item con idx =>
      if svc.waiters.indexes idx = none ∧ idx ≠ 0 then
        some { s with
          svc := some { svc with waiters := svc.waiters.insert idx }, phase := .calling con idx .start, availability := true }
      else none

def poll_call (s : ServiceRunner) (svc : Svc) (con : Connection) (idx : Nat) (fut : Checking) (answers : Nat → Option Bool)
    (converted : Bool) : ServiceRunner :=
  let p := poll_check s.counter svc idx answers fut
  let s := { s with counter := p.counter, woken := decide (TASK ∈ p.called) }
  match p.result with
  | none => { s with svc := some { svc with waiters := p.waiters }, phase := .calling con idx p.fut }
  | some ok =>
    -- the call is over, and its handle goes
    let s := { s with svc := some { svc with waiters := (p.waiters.remove idx).1 }, phase := .waiting }
    match ok, svc.service.call con converted with
    | true, some _ => { s with counter := s.counter.get, guards := s.guards ++ [con] }
    | _, _ => s

def step (s : ServiceRunner) : Step → Option ServiceRunner
  | .poll_ready answers recv stop =>
    match s.phase, s.svc with
    | .waiting, some svc => s.poll_ready svc answers recv stop
    | _, _ => none
  | .poll_call answers converted =>
    match s.phase, s.svc with
    | .calling con idx fut, some svc => some (s.poll_call svc con idx fut answers converted)
    | _, _ => none
  | .create service =>
    match s.phase with
    | .creating first =>
      if service.conns ∈ s.counter.tasks.map Prod.fst then none
      else some { s with
        counter := s.counter.clone service.conns, svc := some { service, waiters := .new, stored := .start }, phase := .waiting
        availability := first || s.availability }
    | _ => none
  | .create_failed =>
    match s.phase with
    | .creating first => some { s with phase := if first then .stopped else .sleeping }
    | _ => none
  | .create_stopped =>
    match s.phase with
    | .creating _ => some { s with phase := .stopped }
    | _ => none
  | .slept =>
    match s.phase with
    | .sleeping => some { s with phase := .creating false }
    | _ => none
  | .shutdown =>
    match s.phase, s.svc with
    | .stopping, some svc => some { s with counter := s.counter.drop svc.service.conns, svc := none, phase := .stopped }
    | _, _ => none
  | .drop_old conns =>
    if conns ∈ s.old then some { s with counter := s.counter.drop conns, old := s.old.erase conns } else none
  | .drop_guard j =>
    if j < s.guards.length then
      let r := s.counter.dec
      some { s with counter := r.1, guards := s.guards.eraseIdx j, woken := s.woken || decide (TASK ∈ r.2) }
    else none

def waits (s : ServiceRunner) : Bool :=
  match s.phase, s.svc with
  | .waiting, some svc => decide (svc.stored = .full)
  | .calling _ _ fut, some _ => decide (fut = .full)
  | _, _ => false

variable {s s' : ServiceRunner} {i : Step} {svc : Svc} {idx : Nat} {answers : Nat → Option Bool} {fut : Checking} {max : Nat}

/-! ## A poll of a check -/

def Free (w : WaitersRef) (idx : Nat) : Prop := w.cur = none ∨ w.cur = some idx

def Registered (counter : Counter) (conns : Nat) : Prop := counter.Registered conns TASK ∧ counter.count = counter.capacity

inductive Checked (counter : Counter) (svc : Svc) (idx : Nat) (fut : Checking) (p : Polled) : Prop
  | waits (result : p.result = none) (after : p.fut = .full) (cur : Free p.waiters idx) (full : ¬ counter.count < counter.capacity)
      (polled : p.counter = (counter.poll_available svc.service.conns TASK).1)
  | pending (result : p.result = none) (after : ∃ k, p.fut = .service k) (cur : Free p.waiters idx) (same : p.counter = counter)
      (free : (∃ k, fut = .service k) ∨ counter.count < counter.capacity)
  | finished (ok : Bool) (result : p.result = some ok) (cur : p.waiters.cur = none) (same : p.counter = counter)
      (free : (∃ k, fut = .service k) ∨ counter.count < counter.capacity)

lemma checked (counter : Counter) (answers : Nat → Option Bool) (fut : Checking) (hcur : Free svc.waiters idx) :
    Checked counter svc idx fut (poll_check counter svc idx answers fut) := by
  have hready := svc.service.readied counter answers fut
  unfold poll_check
  dsimp only
  generalize svc.service.ready counter answers fut = r at hready ⊢
  have hran := svc.waiters.ran idx TASK [] r.2.2.isSome
  generalize svc.waiters.run idx TASK [] r.2.2.isSome = p at hran ⊢
  generalize hr : r.2.2.isSome = ready at hran
  cases hran with
  | refused _ _ _ hother =>
    obtain ⟨c, hc, hne⟩ := hother
    rcases hcur with h | h
    · cases h.symm.trans hc
    · exact absurd (Option.some.inj (hc.symm.trans h)) hne
  | ready hres _ hnone =>
    rw [hres]
    obtain ⟨ok, hok⟩ := Option.isSome_iff_exists.1 hr
    cases hready with
    | waits _ heq =>
      rw [heq] at hok
      cases hok
    | goes hfree hsame => exact .finished ok hok hnone hsame hfree
  | pending hres _ hcur' =>
    rw [hres]
    have hnone := Option.not_isSome_iff_eq_none.1 (Bool.eq_false_iff.1 hr)
    cases hready with
    | waits hfull heq =>
      rw [heq]
      exact .waits rfl rfl hcur' hfull rfl
    | goes hfree hsame hk => exact .pending hnone hk hcur' hsame hfree

/-! ## Runs -/

structure Inv (max : Nat) (s : ServiceRunner) : Prop where
  held : s.counter.count = s.guards.length
  capacity : s.counter.capacity = max
  room : s.counter.count ≤ s.counter.capacity
  clones : s.old.Nodup ∧ ∀ conns ∈ s.old, conns ∈ s.counter.tasks.map Prod.fst
  clone : ∀ svc ∈ s.svc, svc.service.conns ∈ s.counter.tasks.map Prod.fst ∧ svc.service.conns ∉ s.old
  waiting : s.phase = .waiting → ∀ svc ∈ s.svc, Free svc.waiters 0 ∧
    (svc.stored = .full → s.woken = false → Registered s.counter svc.service.conns)
  /-- a call that has got past the test finds a slot -/
  calling : ∀ con idx fut, s.phase = .calling con idx fut → ∀ svc ∈ s.svc, Free svc.waiters idx ∧ svc.stored = .start ∧
    (fut = .full → s.woken = false → Registered s.counter svc.service.conns) ∧
    ((∃ k, fut = .service k) → s.counter.count < s.counter.capacity)

variable {p : Polled} {conns conns' : Nat}

lemma Checked.counter {counter : Counter} (h : Checked counter svc idx fut p) :
    p.counter.count = counter.count ∧ p.counter.capacity = counter.capacity ∧
      p.counter.tasks.map Prod.fst = counter.tasks.map Prod.fst := by
  cases h with
  | waits _ _ _ _ hp =>
    rw [hp]
    exact ⟨Counter.count_poll_available, Counter.capacity_poll_available, Counter.keys_poll_available⟩
  | pending _ _ _ hp | finished _ _ _ hp =>
    rw [hp]
    exact ⟨rfl, rfl, rfl⟩

lemma Checked.kept (h : Checked s.counter svc idx fut p) (hi : Inv max s) (hsvc : s.svc = some svc) :
    p.counter.count = s.guards.length ∧ p.counter.capacity = max ∧ p.counter.count ≤ p.counter.capacity ∧
      (s.old.Nodup ∧ ∀ conns ∈ s.old, conns ∈ p.counter.tasks.map Prod.fst) ∧
      svc.service.conns ∈ p.counter.tasks.map Prod.fst ∧ svc.service.conns ∉ s.old := by
  obtain ⟨hcount, hcap, hkeys⟩ := h.counter
  rw [hcount, hcap, hkeys]
  exact ⟨hi.held, hi.capacity, hi.room, hi.clones, hi.clone svc hsvc⟩

lemma Checked.pending_spec (h : Checked s.counter svc idx fut p) (hi : Inv max s) (hclone : svc.service.conns ∈ s.counter.tasks.map Prod.fst)
    (hr : p.result = none) :
    Free p.waiters idx ∧ (p.fut = .full → Registered p.counter svc.service.conns) ∧
      ((∃ k, p.fut = .service k) → (∃ k, fut = .service k) ∨ p.counter.count < p.counter.capacity) := by
  cases h with
  | waits _ hfut hcur hfull hp =>
    have hroom := hi.room
    refine ⟨hcur, fun _ => ⟨?_, ?_⟩, fun ⟨k, hk⟩ => nomatch hfut.symm.trans hk⟩
    · rw [hp]
      exact Counter.registered_poll_available hfull hclone
    · rw [hp, Counter.count_poll_available, Counter.capacity_poll_available]
      omega
  | pending _ hk hcur hp hfree =>
    obtain ⟨k, hk⟩ := hk
    refine ⟨hcur, fun hf => (nomatch hk.symm.trans hf), fun _ => ?_⟩
    rw [hp]
    exact hfree
  | finished ok hok => cases hok.symm.trans hr

lemma inv_poll_ready (h : Inv max s) (hphase : s.phase = .waiting) (hsvc : s.svc = some svc) {recv : Recv} {stop : Bool}
    (hst : s.poll_ready svc answers recv stop = some s') : Inv max s' := by
  obtain ⟨hcur, -⟩ := h.waiting hphase svc hsvc
  obtain ⟨hclone, hold⟩ := h.clone svc hsvc
  have hch := checked s.counter answers svc.stored hcur
  have hspec := fun hr => hch.pending_spec h hclone hr
  obtain ⟨hheld, hcapacity, hroom, hclones, hown⟩ := hch.kept h hsvc
  unfold ServiceRunner.poll_ready at hst
  dsimp only at hst
  generalize poll_check s.counter svc 0 answers svc.stored = p at *
  cases hr : p.result with
  | none =>
    rw [hr] at hst
    cases hst
    obtain ⟨hfree, hreg, -⟩ := hspec hr
    refine ⟨hheld, hcapacity, hroom, hclones, ?_, ?_, ?_⟩
    · rintro _ ⟨⟩
      exact hown
    · rintro - _ ⟨⟩
      exact ⟨hfree, fun hf _ => hreg hf⟩
    · intro con idx fut hp
      cases stop with
      | true | false => cases hp
  | some ok =>
    have hnone : p.waiters.cur = none := by
      cases hch with
      | waits hres | pending hres => cases hres.symm.trans hr
      | finished _ _ hnone => exact hnone
    rw [hr] at hst
    cases ok with
    | false =>
      cases hst
      refine ⟨hheld, hcapacity, hroom, ⟨nodup_cons.2 ⟨hold, hclones.1⟩, fun conns hmem => ?_⟩, nofun, nofun, nofun⟩
      rcases mem_cons.1 hmem with rfl | hmem
      · exact hown.1
      · exact hclones.2 conns hmem
    | true =>
      cases recv with
      | pending =>
        cases hst
        refine ⟨hheld, hcapacity, hroom, hclones, ?_, ?_, ?_⟩
        · rintro _ ⟨⟩
          exact hown
        · rintro - _ ⟨⟩
          exact ⟨.inl hnone, nofun⟩
        · intro con idx fut hp
          cases stop with
          | true | false => cases hp
      | gone =>
        cases hst
        refine ⟨hheld, hcapacity, hroom, hclones, ?_, nofun, nofun⟩
        rintro _ ⟨⟩
        exact hown
      | item con idx =>
        obtain ⟨-, rfl⟩ := Lib.of_ite hst
        refine ⟨hheld, hcapacity, hroom, hclones, ?_, nofun, ?_⟩
        · rintro _ ⟨⟩
          exact hown
        · rintro _ _ _ ⟨⟩ _ ⟨⟩
          exact ⟨.inl hnone, rfl, nofun, fun ⟨k, hk⟩ => nomatch hk⟩

lemma cur_remove {w : WaitersRef} (h : w.cur = none) (idx : Nat) : (w.remove idx).1.cur = none := by
  unfold WaitersRef.remove WaitersRef.release
  split
  · rfl
  · exact h

lemma inv_poll_call (h : Inv max s) {con : Connection} (hphase : s.phase = .calling con idx fut) (hsvc : s.svc = some svc)
    (converted : Bool) : Inv max (s.poll_call svc con idx fut answers converted) := by
  obtain ⟨hcur, hstored, -, hspare⟩ := h.calling con idx fut hphase svc hsvc
  obtain ⟨hclone, hold⟩ := h.clone svc hsvc
  have hch := checked s.counter answers fut hcur
  have hspec := fun hr => hch.pending_spec h hclone hr
  obtain ⟨hcount, hcap, -⟩ := hch.counter
  obtain ⟨hheld, hcapacity, hroom, hclones, hown⟩ := hch.kept h hsvc
  unfold ServiceRunner.poll_call
  dsimp only
  generalize poll_check s.counter svc idx answers fut = p at *
  have hspare : (∃ k, fut = .service k) → p.counter.count < p.counter.capacity := by
    rw [hcount, hcap]
    exact hspare
  cases hr : p.result with
  | none =>
    obtain ⟨hfree, hreg, hseen⟩ := hspec hr
    refine ⟨hheld, hcapacity, hroom, hclones, ?_, nofun, ?_⟩
    · rintro _ ⟨⟩
      exact hown
    · rintro _ _ _ ⟨⟩ _ ⟨⟩
      exact ⟨hfree, hstored, fun hf _ => hreg hf, fun hk => (hseen hk).elim hspare id⟩
  | some ok =>
    cases hch with
    | waits hres | pending hres => cases hres.symm.trans hr
    | finished _ _ hnone hsame hfree =>
      have hfree : p.counter.count < p.counter.capacity := hfree.elim hspare (hsame ▸ id)
      have hcur : Free (p.waiters.remove idx).1 0 := .inl (cur_remove hnone idx)
      -- the handle goes, and the stored check is as it was
      have hback : ∀ t : ServiceRunner, t.counter.count = t.guards.length → t.counter.capacity = max → t.counter.count ≤ t.counter.capacity →
          t.counter.tasks = p.counter.tasks → t.old = s.old → t.svc = some { svc with waiters := (p.waiters.remove idx).1 } →
          t.phase = .waiting → Inv max t := by
        intro t hheld hcapacity hroom htasks hold hsvc hphase
        refine ⟨hheld, hcapacity, hroom, ?_, ?_, fun _ => ?_, fun _ _ _ hp => nomatch hphase.symm.trans hp⟩
        · rw [hold, htasks]
          exact hclones
        · rw [hsvc, hold, htasks]
          rintro _ ⟨⟩
          exact hown
        · rw [hsvc]
          rintro _ ⟨⟩
          exact ⟨hcur, fun hf => nomatch hstored.symm.trans hf⟩
      dsimp only
      split
      · refine hback _ ?_ hcapacity hfree rfl rfl rfl rfl
        change p.counter.count + 1 = (s.guards ++ [con]).length
        rw [hheld, length_append]
        rfl
      · exact hback _ hheld hcapacity hroom rfl rfl rfl rfl

lemma Registered.drop {counter : Counter} (h : Registered counter conns) (hne : conns ≠ conns') :
    Registered (counter.drop conns') conns := ⟨mem_filter.2 ⟨h.1, decide_eq_true hne⟩, h.2⟩

lemma mem_keys_drop {counter : Counter} (h : conns ∈ counter.tasks.map Prod.fst) (hne : conns ≠ conns') :
    conns ∈ (counter.drop conns').tasks.map Prod.fst := by
  obtain ⟨t, ht, rfl⟩ := mem_map.1 h
  exact mem_map_of_mem (mem_filter.2 ⟨ht, decide_eq_true hne⟩)

lemma inv_drop_guard (h : Inv max s) {j : Nat} (hj : j < s.guards.length) :
    Inv max { s with
      counter := s.counter.dec.1, guards := s.guards.eraseIdx j, woken := s.woken || decide (TASK ∈ s.counter.dec.2) } := by
  have hheld := h.held
  have hroom := h.room
  -- a task that is registered has been called
  have hwoken : ∀ conns, (s.woken = false → Registered s.counter conns) → (s.woken || decide (TASK ∈ s.counter.dec.2)) = false →
      Registered s.counter.dec.1 conns := by
    intro conns hreg hn
    obtain ⟨hn, hnot⟩ := Bool.or_eq_false_iff.1 hn
    obtain ⟨hreg, hfull⟩ := hreg hn
    exact absurd (Counter.mem_dec hreg hfull) (of_decide_eq_false hnot)
  refine ⟨?_, ?_, ?_, ?_, ?_, fun hp svc hsvc => ?_, fun con idx fut hp svc hsvc => ?_⟩
  · rw [Counter.count_dec, length_eraseIdx_of_lt hj, hheld]
  · exact Counter.capacity_dec.trans h.capacity
  · rw [Counter.count_dec, Counter.capacity_dec]
    omega
  · rw [Counter.keys_dec]
    exact h.clones
  · rw [Counter.keys_dec]
    exact h.clone
  · obtain ⟨hcur, hreg⟩ := h.waiting hp svc hsvc
    exact ⟨hcur, fun hf => hwoken _ (hreg hf)⟩
  · obtain ⟨hcur, hstored, hreg, hspare⟩ := h.calling con idx fut hp svc hsvc
    refine ⟨hcur, hstored, fun hf => hwoken _ (hreg hf), fun hk => ?_⟩
    rw [Counter.count_dec, Counter.capacity_dec]
    omega

lemma Inv.phase (h : Inv max s) {phase : RunPhase} (hw : phase ≠ .waiting) (hc : ∀ con idx fut, phase ≠ .calling con idx fut) :
    Inv max { s with phase } :=
  { h with
    waiting := fun hp => absurd hp hw
    calling := fun con idx fut hp => absurd hp (hc con idx fut) }

lemma inv_step (h : Inv max s) (hst : step s i = some s') : Inv max s' := by
  cases i with
  | poll_ready answers recv stop =>
    rw [step] at hst
    split at hst
    case h_1 svc hphase hsvc => exact inv_poll_ready h hphase hsvc hst
    case h_2 => cases hst
  | poll_call answers converted =>
    rw [step] at hst
    split at hst
    case h_1 con idx fut svc hphase hsvc =>
      cases hst
      exact inv_poll_call h hphase hsvc converted
    case h_2 => cases hst
  | create service =>
    rw [step] at hst
    split at hst
    case h_1 first hphase =>
      obtain ⟨hnew, rfl⟩ := Lib.of_ite_not hst
      refine ⟨h.held, h.capacity, h.room, ⟨h.clones.1, fun conns hc => mem_cons_of_mem _ (h.clones.2 conns hc)⟩, ?_, fun _ => ?_, nofun⟩
      · rintro _ ⟨⟩
        exact ⟨mem_cons_self, fun hold => hnew (h.clones.2 _ hold)⟩
      · rintro _ ⟨⟩
        exact ⟨.inl rfl, nofun⟩
    case h_2 => cases hst
  | create_failed =>
    rw [step] at hst
    split at hst
    case h_1 first hphase =>
      cases hst
      cases first with
      | true | false => exact h.phase nofun nofun
    case h_2 => cases hst
  | create_stopped | slept =>
    rw [step] at hst
    split at hst
    case h_1 =>
      cases hst
      exact h.phase nofun nofun
    case h_2 => cases hst
  | shutdown =>
    rw [step] at hst
    split at hst
    case h_1 svc hphase hsvc =>
      cases hst
      refine ⟨h.held, h.capacity, h.room, ⟨h.clones.1, fun conns hc => mem_keys_drop (h.clones.2 conns hc) ?_⟩, nofun, nofun, nofun⟩
      rintro rfl
      exact (h.clone svc hsvc).2 hc
    case h_2 => cases hst
  | drop_old conns =>
    obtain ⟨hold, rfl⟩ := Lib.of_ite hst
    have hne : ∀ svc ∈ s.svc, svc.service.conns ≠ conns := by
      rintro svc hsvc rfl
      exact (h.clone svc hsvc).2 hold
    refine ⟨h.held, h.capacity, h.room, ⟨h.clones.1.erase conns, fun c hc => ?_⟩, fun svc hsvc => ?_, fun hp svc hsvc => ?_,
      fun con idx fut hp svc hsvc => ?_⟩
    · obtain ⟨hne, hc⟩ := h.clones.1.mem_erase_iff.1 hc
      exact mem_keys_drop (h.clones.2 c hc) hne
    · obtain ⟨hclone, hnot⟩ := h.clone svc hsvc
      exact ⟨mem_keys_drop hclone (hne svc hsvc), fun hm => hnot (mem_of_mem_erase hm)⟩
    · obtain ⟨hcur, hreg⟩ := h.waiting hp svc hsvc
      exact ⟨hcur, fun hf hn => (hreg hf hn).drop (hne svc hsvc)⟩
    · obtain ⟨hcur, hstored, hreg, hspare⟩ := h.calling con idx fut hp svc hsvc
      exact ⟨hcur, hstored, fun hf hn => (hreg hf hn).drop (hne svc hsvc), hspare⟩
  | drop_guard j =>
    obtain ⟨hj, rfl⟩ := Lib.of_ite hst
    exact inv_drop_guard h hj

lemma inv_new (max : Nat) : Inv max (new max) where
  held := rfl
  capacity := rfl
  room := Nat.zero_le _
  clones := ⟨nodup_nil, nofun⟩
  clone := nofun
  waiting := nofun
  calling := nofun

lemma inv_of_reach (h : Reach step (fun _ _ => True) (new max) s) : Inv max s :=
  h.inv (Inv max) (inv_new max) fun _ _ _ hi _ hst => inv_step hi hst

lemma registered_of_waits (h : Inv max s) (hw : s.waits) (hn : s.woken = false) :
    ∃ conns, Registered s.counter conns := by
  unfold waits at hw
  split at hw
  case h_1 svc hphase hsvc => exact ⟨_, (h.waiting hphase svc hsvc).2 (of_decide_eq_true hw) hn⟩
  case h_2 con idx fut svc hphase hsvc => exact ⟨_, (h.calling con idx fut hphase svc hsvc).2.2.1 (of_decide_eq_true hw) hn⟩
  case h_3 => cases hw

/-- A worker has at most `max` connections. When one of them ends while the worker waits for a free slot, its task has been
called. -/
theorem conns_le_max (h : Reach step (fun _ _ => True) (new max) s) :
    s.guards.length ≤ max ∧
    ∀ j s', step s (.drop_guard j) = some s' → s.waits = true → s'.woken = true := by
  have hinv := inv_of_reach h
  refine ⟨?_, fun j s' hst hw => ?_⟩
  · have hroom := hinv.room
    rw [hinv.held, hinv.capacity] at hroom
    exact hroom
  · obtain ⟨-, rfl⟩ := Lib.of_ite hst
    refine Bool.or_eq_true_iff.2 ?_
    cases hn : s.woken with
    | true => exact .inl rfl
    | false =>
      obtain ⟨conns, hreg, hfull⟩ := registered_of_waits hinv hw hn
      exact .inr (decide_eq_true (Counter.mem_dec hreg hfull))

theorem conns_le_max_one : ∃ s s' : ServiceRunner, Reach step (fun _ _ => True) (new 1) s ∧ s.guards = [⟨5⟩] ∧
    s.guards.length ≤ 1 ∧ s.waits = true ∧ step s (.drop_guard 0) = some s' ∧ s'.woken = true := by
  have hreach : Reach step (fun _ _ => True) (new 1) _ := .of_steps
      [.create ⟨1, 2, [(5, 0), (6, 1)]⟩,
      .poll_ready (fun _ => some true) (.item ⟨5⟩ 1) false, .poll_call (fun k => if k = 0 then some true else none) true,
      .poll_call (fun _ => some true) true, .poll_ready (fun _ => some true) .pending false] rfl
  have hboth := conns_le_max hreach
  exact ⟨_, _, hreach, rfl, hboth.1, rfl, rfl, hboth.2 0 _ rfl rfl⟩

end ServiceRunner

end Geario.Server
