import Geario.Lib.Fair
import Geario.Rt.Pool
/-!
# Closures that are run

A thread that has given up is in the counter until its guard is dropped. So a
call can put its closure into the queue, or wait in the rendezvous channel, when
no thread is going to look there any more. As long as that does not happen a
thread stays (`Served`), and every closure is called: the calls and the queue
have less and less to do (`work`), and while that stays the same some thread
comes nearer to taking the next closure (`progress`).
-/
open Lib List Option

namespace Geario.Rt

open ThreadPool

def Worker.looks : Worker → Bool
  | .spawned | .urgent | .waiting | .received _ | .running _ => true
  | .rendezvous | .leaving | .gone => false

def Worker.stays : Worker → Bool
  | .leaving | .gone => false
  | _ => true

def Execute.rank : Execute → Nat
  | .returned => 0
  | .push | .blocked => 1
  | .send => 2
  | .spawn => 3
  | .load => 4
  | .try_send => 5

def Worker.rank : Worker → Nat
  | .leaving | .gone => 0
  | .rendezvous => 1
  | .urgent => 2
  | .spawned | .waiting | .running _ => 3
  | .received _ => 4

namespace ThreadPool

def Step.worker : Step → Option Nat
  | .start w | .urgent w | .receive w _ | .park w | .give_up w | .wake w | .run w | .finish w | .exit w => some w
  | _ => none

def Step.call : Step → Option Nat
  | .try_send i _ | .load i | .push i | .spawn i | .send i _ => some i
  | _ => none

/-- Work is left only to a thread that is going to find it. -/
def Attended (p : ThreadPool) : Step → Prop
  | .push _ => ∃ x ∈ p.workers, x.looks = true
  | .send _ none => ∃ x ∈ p.workers, x.stays = true
  | _ => True

instance (p : ThreadPool) (i : Step) : Decidable (p.Attended i) := by
  unfold Attended
  split <;> infer_instance

structure Served (p : ThreadPool) : Prop where
  high_prio : p.high_prio ≠ [] → ∃ x ∈ p.workers, x.looks = true
  blocked : .blocked ∈ p.calls → ∃ x ∈ p.workers, x.stays = true

variable {p p' : ThreadPool} {i : Step} {limit : Nat} {x y : Worker} {w : Nat}

/-! ## Threads stay -/

lemma Served.worker (h : Served p) (hw : p.workers[w]? = some x)
    (hl : x.looks → y.looks) (hs : x.stays → y.stays) : Served (p.worker w y) where
  high_prio hne := exists_mem_set hw hl (h.high_prio hne)
  blocked hb := exists_mem_set hw hs (h.blocked hb)

lemma Served.call {x : Execute} (h : Served p) (hx : x ≠ .blocked) (j : Nat) : Served (p.call j x) where
  high_prio := h.high_prio
  blocked hb := h.blocked ((mem_or_eq_of_mem_set hb).resolve_right hx.symm)

lemma served_step (h : Served p) (hok : p.Attended i) (hd : Did p i p') : Served p' := by
  cases hd with
  | execute =>
    refine ⟨h.high_prio, fun hb => h.blocked ?_⟩
    rcases mem_append.1 hb with hb | hb
    · exact hb
    · cases mem_singleton.1 hb
  | tried_send _ hw | sent _ hw | receive hw =>
    refine Served.call (h.worker hw ?_ ?_) ?_ _
    · exact fun _ => rfl
    · exact fun _ => rfl
    · rintro ⟨⟩
  | full | at_limit | below_limit =>
    refine h.call ?_ _
    rintro ⟨⟩
  | push =>
    refine ⟨fun _ => hok, (h.call ?_ _).blocked⟩
    rintro ⟨⟩
  | spawn =>
    have hmore : ∀ {q : Worker → Prop}, (∃ x ∈ p.workers, q x) → ∃ x ∈ p.workers ++ [.spawned], q x := by
      rintro q ⟨x, hx, hq⟩
      exact ⟨x, mem_append_left _ hx, hq⟩
    refine ⟨fun hne => hmore (h.high_prio hne), fun hb => hmore ((h.call ?_ _).blocked hb)⟩
    rintro ⟨⟩
  | blocks => exact ⟨h.high_prio, fun _ => hok⟩
  | drop | idle => exact ⟨h.high_prio, h.blocked⟩
  | start hw =>
    have hworker : Served (p.worker _ .urgent) := h.worker hw (fun _ => rfl) fun _ => rfl
    exact ⟨hworker.high_prio, hworker.blocked⟩
  | @pops w f rest hw hf =>
    have hworker : Served (p.worker w (.received f)) := h.worker hw (fun _ => rfl) fun _ => rfl
    refine ⟨fun _ => hworker.high_prio ?_, hworker.blocked⟩
    rw [worker, hf]
    exact cons_ne_nil _ _
  | empty hw hf => exact ⟨fun hne => absurd hf hne, (h.blocked · |> exists_mem_set hw fun _ => rfl)⟩
  | give_up hw hb => exact ⟨fun hne => exists_mem_set hw (by rintro ⟨⟩) (h.high_prio hne), fun hb' => absurd hb' hb⟩
  | park hw | again hw | wake hw | cancelled hw | finish hw => exact h.worker hw (fun _ => rfl) fun _ => rfl
  | @run w f hw _ =>
    have hworker : Served (p.worker w (.running f)) := h.worker hw (fun _ => rfl) fun _ => rfl
    exact ⟨hworker.high_prio, hworker.blocked⟩
  | exit hw =>
    have hworker : Served (p.worker _ .gone) := h.worker hw (by rintro ⟨⟩) (by rintro ⟨⟩)
    exact ⟨hworker.high_prio, hworker.blocked⟩

lemma served_reach (h : Reach step Attended (new limit) p) : Served p :=
  h.inv Served ⟨fun hne => absurd rfl hne, fun hb => absurd hb not_mem_nil⟩ fun _ _ _ hi hok hst => served_step hi hok (did_of_step hst)

/-! ## Where a closure is -/

def Placed (p : ThreadPool) (f : Nat) : Prop :=
  f ∈ p.high_prio ∨ .received f ∈ p.workers ∨ f ∈ p.executed ∨ f ∈ p.dropped

def AllPlaced (p : ThreadPool) : Prop := ∀ f, p.calls[f]? = some .returned → Placed p f

variable {f j v m : Nat}

lemma Placed.worker {w : Nat} (h : Placed p f) (hw : p.workers[w]? = some x) (hx : x ≠ .received f) :
    Placed (p.worker w y) f := by
  refine h.imp_right (Or.imp_left fun hmem => ?_)
  obtain ⟨v, hv⟩ := mem_iff_getElem?.1 hmem
  refine mem_of_getElem? ((getElem?_set_ne (i := w) (j := v) ?_).trans hv)
  rintro rfl
  exact hx (some.inj (hw.symm.trans hv))

lemma AllPlaced.call {x : Execute} (h : AllPlaced p) (hx : x = .returned → Placed p j) : AllPlaced (p.call j x) := by
  intro f hf
  rcases eq_or_ne j f with rfl | hne
  · obtain ⟨hlt, hset⟩ := List.getElem?_eq_some_iff.1 hf
    exact hx ((getElem_set_self _).symm.trans hset)
  · exact h f ((getElem?_set_ne hne).symm.trans hf)

lemma AllPlaced.worker (h : AllPlaced p) (hw : p.workers[w]? = some x)
    (hx : ∀ f, x ≠ .received f) : AllPlaced (p.worker w y) :=
  fun f hf => (h f hf).worker hw (hx f)

lemma placed_step (h : AllPlaced p) (hd : Did p i p') : AllPlaced p' := by
  cases hd with
  | execute =>
    intro f hf
    rcases Nat.lt_or_ge f p.calls.length with hlt | hge
    · exact h f ((getElem?_append_left hlt).symm.trans hf)
    · rw [getElem?_append_right hge, getElem?_singleton] at hf
      split at hf <;> cases hf
  | tried_send _ hw | sent _ hw | receive hw =>
    refine AllPlaced.call (h.worker hw (by rintro _ ⟨⟩)) fun _ => .inr (.inl ?_)
    exact mem_of_getElem? (at_set hw _)
  | full | at_limit | below_limit | blocks => exact h.call (by rintro ⟨⟩)
  | @push j hj =>
    have hmore : AllPlaced { p with high_prio := p.high_prio ++ [j] } := fun f hf =>
      (h f hf).imp_left (mem_append_left _)
    exact hmore.call fun _ => .inl (mem_append_right _ (mem_singleton_self _))
  | spawn =>
    have hmore : AllPlaced { p with workers := p.workers ++ [.spawned] } := fun f hf =>
      (h f hf).imp_right (Or.imp_left (mem_append_left _))
    exact hmore.call (by rintro ⟨⟩)
  | drop => exact fun f hf => (h f hf).imp_right (Or.imp_right (Or.imp_right (mem_cons_of_mem _)))
  | pops hw hf =>
    intro f hret
    rcases h.worker hw (by rintro _ ⟨⟩) f hret with hmem | hrest
    · rw [worker, hf] at hmem
      rcases mem_cons.1 hmem with rfl | hmem
      · exact .inr (.inl (mem_of_getElem? (at_set hw _)))
      · exact .inl hmem
    · exact .inr hrest
  | @cancelled w g hw hf =>
    intro f hret
    rcases eq_or_ne f g with rfl | hne
    · exact .inr (.inr (.inr hf))
    · exact (h f hret).worker hw fun heq => hne (Worker.received.inj heq).symm
  | @run w g hw hf =>
    intro f hret
    rcases eq_or_ne f g with rfl | hne
    · exact .inr (.inr (.inl (mem_cons_self ..)))
    · have hplaced := (h f hret).worker (y := .running g) hw fun heq => hne (Worker.received.inj heq).symm
      exact hplaced.imp_right (Or.imp_right (Or.imp_left (mem_cons_of_mem _)))
  | start hw | exit hw | empty hw | park hw | again hw | give_up hw | wake hw | finish hw => exact h.worker hw (by rintro _ ⟨⟩)
  | idle => exact h

lemma placed_reach {ok : ThreadPool → Step → Prop} (h : Reach step ok (new limit) p) : AllPlaced p :=
  h.inv AllPlaced (fun _ hf => by cases hf) fun _ _ _ hi _ hst => placed_step hi (did_of_step hst)

/-! ## At most once -/

/-- How often a closure is in the queue, with a thread that has received it, or executed. -/
def copies (p : ThreadPool) (f : Nat) : Nat := p.high_prio.count f + p.workers.countP (· = .received f) + p.executed.count f

/-- The closure of a call is nowhere before the call returns, and at one place then. -/
def Once (p : ThreadPool) : Prop := ∀ f, p.copies f ≤ if p.calls[f]? = some .returned then 1 else 0

lemma received_set (hw : p.workers[w]? = some x) (y : Worker) (f : Nat) :
    (p.workers.set w y).countP (· = .received f) + (if x = .received f then 1 else 0) =
      p.workers.countP (· = .received f) + if y = .received f then 1 else 0 := by
  have hset := countP_set (p := fun x => decide (x = Worker.received f)) hw y
  simpa only [decide_eq_true_eq] using hset

lemma once_step (h : Once p) (hd : Did p i p') : Once p' := by
  intro f
  have hf := h f
  unfold copies at hf ⊢
  cases hd with
  | drop | idle => exact hf
  | execute => grind
  | full | at_limit | below_limit | blocks => grind [ThreadPool.call]
  | push | spawn => grind [ThreadPool.call]
  | @tried_send j w hj hw | @sent j w hj hw | @receive w j hw hj =>
    have hset := received_set hw (.received j) f
    grind [ThreadPool.call, ThreadPool.worker]
  | @pops w g rest hw =>
    have hset := received_set hw (.received g) f
    grind [ThreadPool.worker]
  | @run w g hw =>
    have hset := received_set hw (.running g) f
    grind [ThreadPool.worker]
  | start hw | exit hw | empty hw | park hw | again hw | give_up hw | wake hw | cancelled hw | finish hw =>
    have hset := fun y => received_set hw y f
    grind [ThreadPool.worker]

/-- Whatever the threads do, a closure is executed at most once, and then it is not waiting anywhere. -/
theorem executed_once {ok : ThreadPool → Step → Prop} (h : Reach step ok (new limit) p) :
    p.executed.Nodup ∧ ∀ f, p.copies f ≤ 1 := by
  have honce := h.inv Once (fun _ => Nat.zero_le _) fun _ _ _ hi _ hst => once_step hi (did_of_step hst)
  have hle : ∀ f, p.copies f ≤ 1 := fun f => (honce f).trans (by split <;> omega)
  exact ⟨nodup_iff_count_le_one.2 fun f => (Nat.le_add_left _ _).trans (hle f), hle⟩

theorem executed_once_queued : ∃ p : ThreadPool, p.executed = [1, 0] ∧ p.executed.Nodup := by
  have hreach : Reach step (fun _ _ => True) (new 1) _ := .of_steps
      [.execute, .try_send 0 none, .load 0, .spawn 0, .start 0, .urgent 0, .park 0, .send 0 (some 0), .run 0, .execute,
        .try_send 1 none, .load 1, .push 1, .finish 0, .urgent 0, .run 0] rfl
  exact ⟨_, rfl, (executed_once hreach).1⟩

/-! ## Progress -/

def work (p : ThreadPool) : Nat := 2 * (p.calls.map Execute.rank).sum + p.high_prio.length

def Urged (p : ThreadPool) (x : Worker) : Prop :=
  p.high_prio ≠ [] ∧ x.looks = true ∨ .blocked ∈ p.calls ∧ x.stays = true

lemma work_call {x y : Execute} (hj : p.calls[j]? = some x) (hlt : y.rank < x.rank) : (p.call j y).work + 1 < p.work := by
  have hset := sum_set (f := Execute.rank) hj y
  dsimp only [work, call]
  omega

/-- The work is the same, and an urged thread is nearer to it if the step was its own. -/
structure Nearer (p : ThreadPool) (i : Step) (p' : ThreadPool) : Prop where
  work : p'.work = p.work
  call : i.call = none
  worker : ∀ {w x}, p.workers[w]? = some x → Urged p x →
    ∃ y, p'.workers[w]? = some y ∧ Urged p' y ∧ y.rank ≤ x.rank ∧ (i.worker = some w → y.rank < x.rank)

lemma nearer_worker {a : Worker} (b : Worker) (hv : p.workers[v]? = some a)
    (hi : i.worker = some v ∧ i.call = none) (hcalls : p'.calls = p.calls) (hhigh : p'.high_prio = p.high_prio)
    (hworkers : p'.workers = p.workers.set v b) (hown : Urged p a → Urged p b ∧ b.rank < a.rank) : Nearer p i p' := by
  have hsame : ∀ {y}, Urged p y → Urged p' y := fun hy => by
    unfold Urged
    rw [hcalls, hhigh]
    exact hy
  refine ⟨?_, hi.2, fun {w x} hw hu => ?_⟩
  · rw [work, work, hcalls, hhigh]
  rw [hworkers, hi.1]
  rcases eq_or_ne v w with rfl | hne
  · cases hv.symm.trans hw
    obtain ⟨hb, hlt⟩ := hown hu
    exact ⟨b, at_set hv b, hsame hb, Nat.le_of_lt hlt, fun _ => hlt⟩
  · refine ⟨x, (getElem?_set_ne hne).trans hw, hsame hu, Nat.le_refl _, fun heq => ?_⟩
    exact absurd (some.inj heq) hne

lemma Urged.keep {a b : Worker} (hu : Urged p a) (hl : b.looks) (hs : b.stays) : Urged p b :=
  hu.imp (fun h => ⟨h.1, hl⟩) fun h => ⟨h.1, hs⟩

lemma not_urged_rendezvous (hb : .blocked ∉ p.calls) : ¬ Urged p .rendezvous := by
  rintro (⟨-, hl⟩ | ⟨hb', -⟩)
  · cases hl
  · exact hb hb'

lemma progress (hd : Did p i p') (hi : i ≠ .execute) : p'.work < p.work ∨ Nearer p i p' := by
  cases hd with
  | execute => exact absurd rfl hi
  | @tried_send j v hj hv | @sent j v hj hv | @receive v j hv hj =>
    have hlt := work_call (p := p.worker v (.received j)) hj (y := .returned) (by decide)
    exact .inl (Nat.lt_of_succ_lt hlt)
  | full hj | at_limit hj | below_limit hj | blocks hj =>
    left
    refine Nat.lt_of_succ_lt (work_call hj ?_)
    decide
  | @push j hj =>
    have hlt := work_call hj (y := .returned) (by decide)
    left
    dsimp only [work, call] at hlt ⊢
    rw [length_append, length_singleton]
    omega
  | spawn hj => exact .inl (Nat.lt_of_succ_lt (work_call hj (y := .send) (by decide)))
  | drop | idle => exact .inr ⟨rfl, rfl, fun {_ x} hw hu => ⟨x, hw, hu, Nat.le_refl _, nofun⟩⟩
  | @pops v f rest hv hf =>
    left
    dsimp only [work, worker]
    rw [hf, length_cons]
    omega
  | start hv => exact .inr (nearer_worker .urgent hv ⟨rfl, rfl⟩ rfl rfl rfl fun hu => ⟨hu.keep rfl rfl, by decide⟩)
  | empty hv hf =>
    refine .inr (nearer_worker .rendezvous hv ⟨rfl, rfl⟩ rfl rfl rfl fun hu => ⟨?_, by decide⟩)
    exact .inr ⟨(hu.resolve_left fun h => h.1 hf).1, rfl⟩
  | @park v hv hb _ =>
    exact .inr (nearer_worker .waiting hv ⟨rfl, rfl⟩ rfl rfl rfl fun hu => absurd hu (not_urged_rendezvous hb))
  | @again v hv hb _ =>
    exact .inr (nearer_worker .urgent hv ⟨rfl, rfl⟩ rfl rfl rfl fun hu => absurd hu (not_urged_rendezvous hb))
  | give_up hv hb =>
    exact .inr (nearer_worker .leaving hv ⟨rfl, rfl⟩ rfl rfl rfl fun hu => absurd hu (not_urged_rendezvous hb))
  | wake hv | cancelled hv | finish hv =>
    exact .inr (nearer_worker .urgent hv ⟨rfl, rfl⟩ rfl rfl rfl fun hu => ⟨hu.keep rfl rfl, by simp [Worker.rank]⟩)
  | @run v f hv _ =>
    exact .inr (nearer_worker (.running f) hv ⟨rfl, rfl⟩ rfl rfl rfl fun hu => ⟨hu.keep rfl rfl, by simp [Worker.rank]⟩)
  | exit hv =>
    refine .inr (nearer_worker .gone hv ⟨rfl, rfl⟩ rfl rfl rfl fun hu => ?_)
    rcases hu with ⟨-, hl⟩ | ⟨-, hs⟩
    · cases hl
    · cases hs

lemma at_worker {w : Nat} {x a : Worker} (hw : p.workers[w]? = some x) (hv : p.workers[v]? = some a) (hne : a ≠ x)
    (b : Worker) : (p.worker v b).workers[w]? = some x ∧ some v ≠ some w := by
  have hvw : v ≠ w := by
    rintro rfl
    exact hne (some.inj (hv.symm.trans hw))
  exact ⟨(getElem?_set_ne hvw).trans hw, fun heq => hvw (some.inj heq)⟩

lemma received_step (hd : Did p i p') {w : Nat} (hw : p.workers[w]? = some (.received f)) (hf : f ∉ p.dropped) :
    (p'.workers[w]? = some (.received f) ∧ i.worker ≠ some w) ∨ f ∈ p'.executed := by
  cases hd with
  | execute | full | at_limit | below_limit | push | blocks | drop | idle => exact .inl ⟨hw, nofun⟩
  | @spawn j hj => exact .inl ⟨at_append hw, nofun⟩
  | tried_send _ hv | sent _ hv => exact .inl ⟨(at_worker hw hv nofun _).1, nofun⟩
  | start hv | pops hv | empty hv | receive hv | park hv | again hv | give_up hv | wake hv | finish hv | exit hv =>
    exact .inl (at_worker hw hv nofun _)
  | @cancelled v g hv hg =>
    refine .inl (at_worker hw hv ?_ _)
    rintro heq
    obtain rfl := Worker.received.inj heq
    exact hf hg
  | @run v g hv hg =>
    rcases eq_or_ne g f with rfl | hne
    · exact .inr (mem_cons_self ..)
    · exact .inl (at_worker hw hv (fun heq => hne (Worker.received.inj heq)) _)

/-- What is asked of the threads and of those who call `execute`. A thread that waits is woken by its timeout at the latest. -/
structure Fair (r : Run step (new limit)) : Prop where
  worker : ∀ n w, w < (r.state n).workers.length → ∃ m ≥ n, (r.state m).workers[w]? = some .gone ∨ (r.act m).worker = some w
  call : ∀ n j, j < (r.state n).calls.length →
    ∃ m ≥ n, (r.state m).calls[j]? = some .returned ∨ (r.state m).calls[j]? = some .blocked ∨ (r.act m).call = some j

section Runs

variable {r : Run step (new limit)} {n : Nat}

lemma did (r : Run step (new limit)) (n : Nat) : Did (r.state n) (r.act n) (r.state (n + 1)) := did_of_step (r.next n)

structure Stuck (r : Run step (new limit)) (n : Nat) : Prop where
  served : ∀ m ≥ n, Served (r.state m)
  quiet : ∀ m ≥ n, r.act m ≠ .execute
  work : ∀ m ≥ n, (r.state m).work = (r.state n).work

namespace Stuck

section

variable (h : Stuck r n)
include h

lemma later (hm : m ≥ n) : Stuck r m where
  served k hk := h.served k (Nat.le_trans hm hk)
  quiet k hk := h.quiet k (Nat.le_trans hm hk)
  work k hk := (h.work k (Nat.le_trans hm hk)).trans (h.work m hm).symm

lemma nearer : Nearer (r.state n) (r.act n) (r.state (n + 1)) := by
  refine (progress (did r n) (h.quiet n (Nat.le_refl n))).resolve_left ?_
  rw [h.work (n + 1) (Nat.le_succ n)]
  exact Nat.lt_irrefl _

lemma urged {x : Worker} (hw : (r.state n).workers[w]? = some x) (hu : Urged (r.state n) x)
 (hm : m ≥ n) : ∃ y, (r.state m).workers[w]? = some y ∧ Urged (r.state m) y := by
  induction m, hm using Nat.le_induction with
  | base => exact ⟨x, hw, hu⟩
  | succ m hm ih =>
    obtain ⟨y, hy, huy⟩ := ih
    obtain ⟨z, hz, huz, -⟩ := (h.later hm).nearer.worker hy huy
    exact ⟨z, hz, huz⟩

lemma not_urged (hfair : Fair r) {x : Worker} (hw : (r.state n).workers[w]? = some x) : ¬ Urged (r.state n) x := by
  intro hu
  have hall : ∀ m ≥ n, ∃ y, (r.state m).workers[w]? = some y ∧ Urged (r.state m) y := fun m hm => h.urged hw hu hm
  have hrank : ∀ m, ∀ y, (r.state m).workers[w]? = some y → ((r.state m).workers.getD w .gone).rank = y.rank := by
    intro m y hy
    rw [getD_eq_getElem?_getD, hy, getD_some]
  have hle : ∀ m ≥ n, ((r.state (m + 1)).workers.getD w .gone).rank ≤ ((r.state m).workers.getD w .gone).rank := by
    intro m hm
    obtain ⟨y, hy, huy⟩ := hall m hm
    obtain ⟨z, hz, -, hle, -⟩ := (h.later hm).nearer.worker hy huy
    rw [hrank m y hy, hrank (m + 1) z hz]
    exact hle
  obtain ⟨k, hk, hconst⟩ := eventually_const (f := fun m => ((r.state m).workers.getD w .gone).rank) hle
  obtain ⟨y, hy, -⟩ := hall k hk
  obtain ⟨m, hm, hact⟩ := hfair.worker k w (at_lt hy)
  have hmn := Nat.le_trans hk hm
  obtain ⟨y, hy, huy⟩ := hall m hmn
  rcases hact with hgone | hact
  · cases hgone.symm.trans hy
    rcases huy with ⟨-, hl⟩ | ⟨-, hs⟩
    · cases hl
    · cases hs
  · obtain ⟨z, hz, -, -, hlt⟩ := (h.later hmn).nearer.worker hy huy
    have heq := (hconst (m + 1) (Nat.le_succ_of_le hm)).trans (hconst m hm).symm
    rw [hrank m y hy, hrank (m + 1) z hz] at heq
    exact absurd heq (Nat.ne_of_lt (hlt hact))

lemma high_prio (hfair : Fair r) : (r.state n).high_prio = [] := by
  by_contra hne
  obtain ⟨x, hx, hl⟩ := (h.served n (Nat.le_refl n)).high_prio hne
  obtain ⟨w, hw⟩ := mem_iff_getElem?.1 hx
  exact h.not_urged hfair hw (.inl ⟨hne, hl⟩)

lemma not_blocked (hfair : Fair r) : .blocked ∉ (r.state n).calls := by
  intro hb
  obtain ⟨x, hx, hs⟩ := (h.served n (Nat.le_refl n)).blocked hb
  obtain ⟨w, hw⟩ := mem_iff_getElem?.1 hx
  exact h.not_urged hfair hw (.inr ⟨hb, hs⟩)

lemma returned (hfair : Fair r) (hj : j < (r.state n).calls.length) : ∃ m ≥ n, (r.state m).calls[j]? = some .returned := by
  obtain ⟨m, hm, hret | hb | hact⟩ := hfair.call n j hj
  · exact ⟨m, hm, hret⟩
  · exact absurd (mem_of_getElem? hb) ((h.later hm).not_blocked hfair)
  · cases (h.later hm).nearer.call.symm.trans hact

end

end Stuck

lemma executed_of_received (hfair : Fair r) (hf : .received f ∈ (r.state n).workers)
    (hdrop : ∀ m, f ∉ (r.state m).dropped) : ∃ m ≥ n, f ∈ (r.state m).executed := by
  by_contra hno
  push Not at hno
  obtain ⟨w, hw⟩ := mem_iff_getElem?.1 hf
  have hstep : ∀ m ≥ n, (r.state m).workers[w]? = some (.received f) →
      (r.state (m + 1)).workers[w]? = some (.received f) ∧ (r.act m).worker ≠ some w := fun m hm hw =>
    (received_step (did r m) hw (hdrop m)).resolve_right (hno (m + 1) (Nat.le_succ_of_le hm))
  have hall : ∀ m ≥ n, (r.state m).workers[w]? = some (.received f) := by
    intro m hm
    induction m, hm using Nat.le_induction with
    | base => exact hw
    | succ m hm ih => exact (hstep m hm ih).1
  obtain ⟨m, hm, hgone | hact⟩ := hfair.worker n w (at_lt hw)
  · cases (hall m hm).symm.trans hgone
  · exact (hstep m hm (hall m hm)).2 hact

lemma stuck_of_quiet (hok : ∀ m, Attended (r.state m) (r.act m)) (hquiet : ∀ m ≥ n, r.act m ≠ .execute) :
    ∃ k ≥ n, Stuck r k := by
  have hserved : ∀ m, Served (r.state m) := fun m => served_reach (r.reach_of hok m)
  have hle : ∀ m ≥ n, (r.state (m + 1)).work ≤ (r.state m).work := by
    intro m hm
    rcases progress (did r m) (hquiet m hm) with hlt | hnear
    · exact Nat.le_of_lt hlt
    · exact Nat.le_of_eq hnear.work
  obtain ⟨k, hk, hconst⟩ := eventually_const (f := fun m => (r.state m).work) hle
  exact ⟨k, hk, fun m _ => hserved m, fun m hm => hquiet m (Nat.le_trans hk hm), hconst⟩

lemma lengths_step (hd : Did p i p') : p.calls.length ≤ p'.calls.length ∧ p.workers.length ≤ p'.workers.length := by
  cases hd with
  | idle => exact ⟨Nat.le_refl _, Nat.le_refl _⟩
  | _ => simp [call, worker]

lemma lengths (r : Run step (new limit)) (hm : m ≥ n) :
    (r.state n).calls.length ≤ (r.state m).calls.length ∧ (r.state n).workers.length ≤ (r.state m).workers.length := by
  induction m, hm using Nat.le_induction with
  | base => exact ⟨Nat.le_refl _, Nat.le_refl _⟩
  | succ m hm ih =>
    have hstep := lengths_step (did r m)
    exact ⟨Nat.le_trans ih.1 hstep.1, Nat.le_trans ih.2 hstep.2⟩

/-- Every call of `execute` returns, and its closure is called if somebody waits for the result. -/
lemma eventually_executed (hfair : Fair r) (hok : ∀ m, Attended (r.state m) (r.act m))
    (hquiet : ∀ m ≥ n, r.act m ≠ .execute) (hf : f < (r.state n).calls.length) :
    ∃ m ≥ n, (r.state m).calls[f]? = some .returned ∧
      ((∀ k, f ∉ (r.state k).dropped) → ∃ k ≥ n, f ∈ (r.state k).executed) := by
  obtain ⟨k, hk, hstuck⟩ := stuck_of_quiet hok hquiet
  obtain ⟨m, hm, hret⟩ := hstuck.returned hfair (Nat.lt_of_lt_of_le hf (lengths r hk).1)
  have hmn := Nat.le_trans hk hm
  refine ⟨m, hmn, hret, fun hdrop => ?_⟩
  have hm' := hstuck.later hm
  rcases placed_reach (r.reach m) f hret with hhigh | hrecv | hexec | hdropped
  · rw [hm'.high_prio hfair] at hhigh
    cases hhigh
  · obtain ⟨j, hj, hexec⟩ := executed_of_received hfair hrecv hdrop
    exact ⟨j, Nat.le_trans hmn hj, hexec⟩
  · exact ⟨m, hmn, hexec⟩
  · exact absurd hdropped (hdrop m)

end Runs

/-- As long as work is left only to threads that are going to find it, a thread is there whenever a closure waits, every
call returns and every closure is called. -/
theorem all_executed (limit : Nat) :
    (∀ p, Reach step Attended (new limit) p → p.high_prio ≠ [] ∨ .blocked ∈ p.calls → ∃ x ∈ p.workers, x.stays = true) ∧
      ∀ r : Run step (new limit), Fair r → (∀ m, Attended (r.state m) (r.act m)) → ∀ n, (∀ m ≥ n, r.act m ≠ .execute) →
        ∀ f < (r.state n).calls.length, ∃ m ≥ n, (r.state m).calls[f]? = some .returned ∧
          ((∀ k, f ∉ (r.state k).dropped) → ∃ k ≥ n, f ∈ (r.state k).executed) := by
  refine ⟨fun p h hwait => ?_, fun r hfair hok n hquiet f hf => eventually_executed hfair hok hquiet hf⟩
  have hserved := served_reach h
  rcases hwait with hne | hb
  · obtain ⟨x, hx, hl⟩ := hserved.high_prio hne
    refine ⟨x, hx, ?_⟩
    cases x with
    | rendezvous | leaving | gone => cases hl
    | _ => rfl
  · exact hserved.blocked hb

lemma fair_of_rest (limit : Nat) (is : List Step)
    (hsome : ∀ n < is.length, (step (trace step (new limit) (is.getD · .idle) n) (is.getD n .idle)).isSome)
    (hworkers : ∀ x ∈ (trace step (new limit) (is.getD · .idle) is.length).workers, x = .gone)
    (hcalls : ∀ x ∈ (trace step (new limit) (is.getD · .idle) is.length).calls, x = .returned) :
    Fair (Run.of_loop is .idle hsome rfl) := by
  have hrest : ∀ n, (Run.of_loop is .idle hsome rfl).state (max n is.length) =
      trace step (new limit) (is.getD · .idle) is.length := fun n => Run.trace_loop rfl (Nat.le_max_right _ _)
  constructor
  · intro n w hw
    have hlen := (lengths (Run.of_loop is .idle hsome rfl) (Nat.le_max_left n is.length)).2
    obtain ⟨x, hx⟩ : ∃ x, ((Run.of_loop is .idle hsome rfl).state (max n is.length)).workers[w]? = some x :=
      ⟨_, getElem?_eq_getElem (Nat.lt_of_lt_of_le hw hlen)⟩
    have hmem := mem_of_getElem? hx
    rw [hrest n] at hmem
    exact ⟨max n is.length, Nat.le_max_left _ _, .inl (hx.trans (congrArg some (hworkers x hmem)))⟩
  · intro n j hj
    have hlen := (lengths (Run.of_loop is .idle hsome rfl) (Nat.le_max_left n is.length)).1
    obtain ⟨x, hx⟩ : ∃ x, ((Run.of_loop is .idle hsome rfl).state (max n is.length)).calls[j]? = some x :=
      ⟨_, getElem?_eq_getElem (Nat.lt_of_lt_of_le hj hlen)⟩
    have hmem := mem_of_getElem? hx
    rw [hrest n] at hmem
    exact ⟨max n is.length, Nat.le_max_left _ _, .inl (hx.trans (congrArg some (hcalls x hmem)))⟩

/-- The second closure waits in the queue until the only thread has called the first one. -/
theorem all_executed_two : ∃ r : Run step (new 1), Fair r ∧ (r.state 10).calls.length = 2 ∧ ∃ k, 1 ∈ (r.state k).executed := by
  have hfair := fair_of_rest 1 [.execute, .try_send 0 none, .load 0, .spawn 0, .start 0, .urgent 0, .park 0,
    .send 0 (some 0), .run 0, .execute, .try_send 1 none, .load 1, .push 1, .finish 0, .urgent 0, .run 0, .finish 0, .urgent 0,
    .give_up 0, .exit 0] (by decide) (by decide) (by decide)
  obtain ⟨m, -, -, hexec⟩ := (all_executed 1).2 _ hfair
    (Run.of_loop_all (q := fun _ p i => Attended p i) (by decide) fun _ => trivial) 10
    (Run.of_loop_all (q := fun n _ (i : Step) => n ≥ 10 → i ≠ .execute) (by decide) fun _ _ => by decide) 1 (by decide)
  obtain ⟨k, -, hk⟩ := hexec
    (Run.of_loop_all (q := fun _ (p : ThreadPool) _ => 1 ∉ p.dropped) (by decide) fun _ => by decide)
  exact ⟨_, hfair, rfl, k, hk⟩

/-- The thread has given up when the second call finds it in the counter: the closure stays in the queue. And a call whose
own thread gives up before its `send` waits for ever. -/
theorem not_executed :
    (∃ r : Run step (new 1), Fair r ∧ (r.state 16).calls[1]? = some .returned ∧ (∀ m ≥ 10, r.act m ≠ .execute) ∧
      ∀ m, 1 ∉ (r.state m).dropped ∧ 1 ∉ (r.state m).executed) ∧
    ∃ p, Reach step (fun _ _ => True) (new 1) p ∧ p.calls = [.blocked] ∧ ∀ x ∈ p.workers, x.stays = false := by
  have hfair := fair_of_rest 1 [.execute, .try_send 0 none, .load 0, .spawn 0, .start 0, .urgent 0, .park 0,
    .send 0 (some 0), .run 0, .execute, .finish 0, .urgent 0, .give_up 0, .try_send 1 none, .load 1, .push 1, .exit 0]
    (by decide) (by decide) (by decide)
  have hreach : Reach step (fun _ _ => True) (new 1) _ := .of_steps
      [.execute, .try_send 0 none, .load 0, .spawn 0, .start 0,
    .urgent 0, .give_up 0, .exit 0, .send 0 none] rfl
  refine ⟨⟨_, hfair, rfl, ?_, ?_⟩, _, hreach, rfl, by decide⟩
  · exact Run.of_loop_all (q := fun n _ (i : Step) => n ≥ 10 → i ≠ .execute) (by decide) fun _ _ => by decide
  · exact Run.of_loop_all (q := fun _ (p : ThreadPool) _ => 1 ∉ p.dropped ∧ 1 ∉ p.executed) (by decide) fun _ => by decide

end ThreadPool

end Geario.Rt
