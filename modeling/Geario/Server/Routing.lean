import Geario.Server.Manager
/-!
# The routing list matches the status of the workers

Once all updates have been handled and no worker changes its status, the list
holds each available worker once and no other, and the server is paused when the
list is empty.

`set` changes the value before it sets `updated`, and two changes may be seen as
one update, so that a task can find its worker available twice in a row. The
worker is then in the list twice and stays there when it becomes unavailable.
-/
open Lib List Option

namespace Geario.Server

open Slot

variable {τ : Type}

/-! ## The list -/

/-- The list holds the workers whose last update was `Available`, except for those that are gone. -/
structure Lists (gone : Worker → Bool) (seen : Nat → Option Nat) (st : HandleCmdState τ) : Prop where
  listed : ∀ e ∈ st.workers, seen e.name = some e.gen
  nodup : (st.workers.map Worker.name).Nodup
  kept : ∀ name gen, seen name = some gen → gone ⟨name, gen⟩ = false → ⟨name, gen⟩ ∈ st.workers
  paused : st.paused = st.workers.isEmpty

variable {gone : Worker → Bool} {seen : Nat → Option Nat} {st : HandleCmdState τ}

lemma lists_new (gone : Worker → Bool) : Lists gone (fun _ => none) (HandleCmdState.new : HandleCmdState τ) :=
  ⟨nofun, .nil, nofun, rfl⟩

lemma Lists.mono {gone' : Worker → Bool} (h : Lists gone seen st) (hg : ∀ w, gone w → gone' w) : Lists gone' seen st := by
  refine { h with kept := fun name gen hs hn => h.kept name gen hs ?_ }
  cases hw : gone ⟨name, gen⟩ with
  | false => rfl
  | true =>
    rw [hg _ hw] at hn
    cases hn

lemma Lists.drop_gone (h : Lists gone seen st) {idx : Nat} {worker : Worker} (hw : st.workers[idx]? = some worker)
    (hg : gone worker) {st' : HandleCmdState τ} (hst : st'.workers = st.workers.eraseIdx idx)
    (hp : st'.paused = st'.workers.isEmpty) : Lists gone seen st' := by
  refine ⟨?_, ?_, ?_, hp⟩
  · rw [hst]
    exact fun e he => h.listed e (mem_of_mem_eraseIdx he)
  · rw [hst]
    exact h.nodup.sublist ((eraseIdx_sublist _ _).map _)
  · intro name gen hs hn
    rw [hst]
    obtain ⟨k, hk, hke⟩ := mem_iff_getElem.1 (h.kept name gen hs hn)
    refine mem_eraseIdx_iff_getElem.2 ⟨k, hk, fun hkidx => ?_, hke⟩
    subst hkidx
    cases hw.symm.trans (hke ▸ getElem?_eq_getElem hk)
    rw [hg] at hn
    cases hn

lemma Lists.process_loop (item : τ) : ∀ (n : Nat) (st : HandleCmdState τ), n = st.workers.length →
    Lists gone seen { st with paused := st.workers.isEmpty } → (0 < n → st.paused = st.workers.isEmpty) →
    Lists gone seen (st.process_loop gone false item n)
  | 0, st, hn, h, _ => by
    have hnil : st.workers = [] := length_eq_zero_iff.1 hn.symm
    refine { h with paused := ?_ }
    show true = st.workers.isEmpty
    rw [hnil]
    rfl
  | n + 1, st, hn, h, hp => by
    unfold HandleCmdState.process_loop
    extract_lets next
    split
    · exact { h with paused := hp (by omega) }
    next worker hw =>
      by_cases hg : gone worker
      · rw [if_pos hg]
        have hlt : next < st.workers.length := (List.getElem?_eq_some_iff.1 hw).1
        refine process_loop item n _ ?_ ?_ ?_
        · simp [length_eraseIdx, hlt]
          omega
        · exact h.drop_gone hw hg rfl rfl
        · intro h0
          have hlen : 0 < (st.workers.eraseIdx next).length := by
            simp [length_eraseIdx, hlt]
            omega
          rw [hp (by omega), isEmpty_eq_false_iff_exists_mem.2, isEmpty_eq_false_iff_exists_mem.2]
          · exact exists_mem_of_length_pos hlen
          · exact exists_mem_of_length_pos (by omega)
      · rw [if_neg hg]
        exact { h with paused := hp (by omega) }

section

variable (h : Lists gone seen st)
include h

lemma Lists.process (item : τ) : Lists gone seen (st.process gone false item) := by
  refine Lists.process_loop item _ st rfl ?_ fun _ => h.paused
  exact { h with paused := rfl }

lemma Lists.send_backlog : Lists gone seen (st.send_backlog gone) := by
  unfold HandleCmdState.send_backlog
  split
  · exact h
  · exact h
  next worker rest item items hworkers _ =>
    split
    next hg =>
      have hw : st.workers[0]? = some worker := by rw [hworkers]; rfl
      refine h.drop_gone hw hg ?_ ?_
      · rw [hworkers]
        rfl
      · have := h.paused
        rw [hworkers] at this
        rw [this]
        rfl
    · exact { h with }

lemma Lists.add_worker {worker : Worker} (hs : seen worker.name = none) :
    Lists gone (fun k => if k = worker.name then some worker.gen else seen k) (st.add_worker worker) := by
  have hperm : (st.add_worker worker).workers.Perm (worker :: st.workers) :=
    (perm_insertionSort _ _).trans (perm_append_singleton _ _)
  have hnot : ∀ e ∈ st.workers, e.name ≠ worker.name := by
    intro e he heq
    have := h.listed e he
    rw [heq, hs] at this
    cases this
  refine ⟨?_, ?_, ?_, ?_⟩
  · intro e he
    rcases mem_cons.1 (hperm.mem_iff.1 he) with rfl | he
    · exact if_pos rfl
    · rw [if_neg (hnot e he)]
      exact h.listed e he
  · rw [(hperm.map Worker.name).nodup_iff, map_cons, nodup_cons]
    refine ⟨fun hmem => ?_, h.nodup⟩
    obtain ⟨e, he, heq⟩ := mem_map.1 hmem
    exact hnot e he heq
  · intro name gen hseen hn
    refine hperm.mem_iff.2 ?_
    by_cases hname : name = worker.name
    · rw [if_pos hname] at hseen
      cases hseen
      subst hname
      exact mem_cons_self
    · rw [if_neg hname] at hseen
      exact mem_cons_of_mem _ (h.kept name gen hseen hn)
  · have hlen := hperm.length_eq
    rw [length_cons] at hlen
    have hne : (st.add_worker worker).workers.isEmpty = false := by
      rw [isEmpty_eq_false_iff_exists_mem]
      exact ⟨worker, hperm.mem_iff.2 mem_cons_self⟩
    rw [hne]
    show (if (st.add_worker worker).workers.length = 1 then false else st.paused) = false
    split
    · rfl
    · rw [h.paused, isEmpty_eq_false_iff_exists_mem]
      exact exists_mem_of_length_pos (by omega)

lemma Lists.remove_worker (worker : Worker) :
    Lists gone (fun k => if k = worker.name then none else seen k) (st.remove_worker worker) := by
  have hsub : (st.remove_worker worker).workers.Sublist st.workers := by
    rw [← reverse_reverse st.workers]
    exact eraseP_sublist.reverse
  have hnot : ∀ e ∈ (st.remove_worker worker).workers, e.name ≠ worker.name := by
    intro e he heq
    -- the names are distinct, so the handle that is removed was the only one with its name
    obtain ⟨a, l₁, l₂, hl₁, ha, hst, herase⟩ := exists_of_eraseP (p := fun e : Worker => decide (e.name = worker.name))
      (mem_reverse.2 (hsub.subset he)) (by simpa using heq)
    have ha : a.name = worker.name := by simpa using ha
    have hnd := nodup_reverse.2 h.nodup
    rw [← map_reverse, hst, map_append, map_cons, nodup_append, nodup_cons] at hnd
    have he := mem_reverse.1 he
    rw [herase] at he
    rcases mem_append.1 he with he | he
    · exact hl₁ e he (by simpa using heq)
    · refine hnd.2.1.1 (mem_map.2 ⟨e, he, ?_⟩)
      rw [heq, ha]
  refine ⟨?_, ?_, ?_, ?_⟩
  · intro e he
    rw [if_neg (hnot e he)]
    exact h.listed e (hsub.subset he)
  · exact h.nodup.sublist (hsub.map _)
  · intro name gen hseen hn
    obtain ⟨hname, hseen⟩ := ite_none_left_eq_some.1 hseen
    refine mem_reverse.2 ((mem_eraseP_of_neg ?_).2 (mem_reverse.2 (h.kept name gen hseen hn)))
    simpa using hname
  · show (st.paused || (st.remove_worker worker).workers.isEmpty) = (st.remove_worker worker).workers.isEmpty
    cases hw : st.workers with
    | nil =>
      rw [HandleCmdState.remove_worker, hw]
      exact Bool.or_true _
    | cons e es =>
      rw [h.paused, hw]
      rfl

end

/-! ## Updates on their way -/

/-- The updates in the queue lead from those that were handled to the last ones sent, and `Available` follows only what is
not. -/
def Leads : (Nat → Option Nat) → List (ServerCommand τ) → (Nat → Option Nat) → Prop
  | seen, [], last => seen = last
  | seen, .Item _ :: queue, last => Leads seen queue last
  | seen, .Available worker :: queue, last =>
    seen worker.name = none ∧ Leads (fun k => if k = worker.name then some worker.gen else seen k) queue last
  | seen, .Unavailable worker :: queue, last => Leads (fun k => if k = worker.name then none else seen k) queue last

lemma Leads.append {seen mid last : Nat → Option Nat} {queue queue' : List (ServerCommand τ)} (h : Leads seen queue mid)
    (h' : Leads mid queue' last) : Leads seen (queue ++ queue') last := by
  induction queue generalizing seen with
  | nil =>
    obtain rfl : seen = mid := h
    exact h'
  | cons cmd queue ih =>
    cases cmd with
    | Item item => exact ih h
    | Available worker => exact ⟨h.1, ih h.2⟩
    | Unavailable worker => exact ih h

/-! ## A worker and its task -/

def Thread.running : Thread → Bool
  | .idle | .set_updated | .set_wake => true
  | _ => false

def Thread.failing : Thread → Bool
  | .drop_updated | .drop_available | .drop_wake | .dead => true
  | _ => false

def Thread.noting : Thread → Bool
  | .set_updated | .drop_updated => true
  | _ => false

def Thread.waking : Thread → Bool
  | .set_wake | .drop_available | .drop_wake => true
  | _ => false

def Task.waiting : Task → Bool
  | .wait_for_status | .poll_update | .parked => true
  | _ => false

/-- While the task waits, the last update agrees with the status or a change is about to be noticed. -/
structure Slot.Good (slot : Slot) : Prop where
  note : slot.task.waiting → slot.updated ∨ slot.thread.noting ∨ (slot.task = .wait_for_status ∧ slot.failed) ∨
    (slot.failed = false ∧ slot.available = slot.reported)
  parked : slot.task = .parked → slot.updated → slot.thread.waking
  failing : slot.thread.failing → slot.failed
  restart : slot.task = .restart → slot.reported = false

namespace Slot

variable {slot slot' : Slot}

lemma good_start (gen : Nat) (task : Task) (h : task ≠ .parked) : (start gen task).Good :=
  ⟨fun _ => .inr (.inr (.inr ⟨rfl, rfl⟩)), fun ht => absurd ht h, nofun, fun _ => rfl⟩

section

variable (slot : Slot)

@[simp] lemma thread_wake : slot.wake.thread = slot.thread := by
  unfold wake
  split <;> rfl

@[simp] lemma gen_wake : slot.wake.gen = slot.gen := by
  unfold wake
  split <;> rfl

@[simp] lemma reported_wake : slot.wake.reported = slot.reported := by
  unfold wake
  split <;> rfl

@[simp] lemma failed_wake : slot.wake.failed = slot.failed := by
  unfold wake
  split <;> rfl

lemma wake_not_parked : slot.wake.task ≠ .parked := by
  unfold wake
  split
  · nofun
  · assumption

end

section

variable (h : slot.Good)
include h

lemma Good.wake : slot.wake.Good := by
  refine ⟨?_, fun hp => absurd hp (wake_not_parked slot), ?_, ?_⟩
  · unfold Slot.wake
    split
    next hp =>
      have hn := h.note
      rw [hp] at hn
      intro _
      simpa using hn rfl
    · exact h.note
  · rw [thread_wake, failed_wake]
    exact h.failing
  · rw [reported_wake]
    intro ht
    refine h.restart ?_
    unfold Slot.wake at ht
    split at ht
    · cases ht
    · exact ht

lemma Good.note_of_not_noting (hn : slot.thread.noting = false) (ht : slot.task.waiting) :
    slot.updated ∨ (slot.task = .wait_for_status ∧ slot.failed) ∨ (slot.failed = false ∧ slot.available = slot.reported) := by
  rcases h.note ht with h | h | h | h
  · exact .inl h
  · rw [hn] at h
    cases h
  · exact .inr (.inl h)
  · exact .inr (.inr h)

lemma Good.set (hi : slot.thread = .idle) (val : Bool) : (slot.set val).Good := by
  by_cases hv : slot.available = val
  · have : slot.set val = slot := by
      simp only [Slot.set, hv, if_pos]
      rw [← hi, ← hv]
    rw [this]
    exact h
  · simp only [Slot.set, if_neg hv]
    refine ⟨fun _ => .inr (.inl rfl), fun hp hu => ?_, nofun, h.restart⟩
    have := h.parked hp hu
    rw [hi] at this
    cases this

lemma Good.drop (hi : slot.thread = .idle ∨ slot.thread = .dead) : { slot with thread := .drop_failed }.Good := by
  refine ⟨fun ht => ?_, fun hp hu => ?_, nofun, h.restart⟩
  · have hn := h.note_of_not_noting (by rcases hi with hi | hi <;> rw [hi] <;> rfl) ht
    exact hn.imp_right .inr
  · have := h.parked hp hu
    rcases hi with hi | hi <;> rw [hi] at this <;> cases this

lemma Good.woken (hn : slot.thread.noting = false) (thread : Thread) (hf : thread.failing → slot.failed) :
    { slot.wake with thread }.Good := by
  refine ⟨fun ht => ?_, fun hp => absurd hp (wake_not_parked slot), ?_, h.wake.restart⟩
  · exact (h.wake.note_of_not_noting (by rw [thread_wake]; exact hn) ht).imp_right .inr
  · rw [failed_wake]
    exact hf

lemma Good.run_thread (hs : slot.run_thread = some slot') : slot'.Good := by
  unfold Slot.run_thread at hs
  split at hs <;> cases hs
  · exact ⟨fun _ => .inl rfl, fun _ _ => rfl, nofun, h.restart⟩
  next hthread => exact h.woken (by rw [hthread]; rfl) .idle nofun
  next hthread =>
    refine ⟨fun _ => .inr (.inl rfl), fun hp hu => ?_, fun _ => rfl, h.restart⟩
    have := h.parked hp hu
    rw [hthread] at this
    cases this
  next hthread =>
    exact ⟨fun _ => .inl rfl, fun _ _ => rfl, fun _ => h.failing (by rw [hthread]; rfl), h.restart⟩
  next hthread =>
    have hf : slot.failed := h.failing (by rw [hthread]; rfl)
    refine ⟨fun ht => ?_, fun _ _ => rfl, fun _ => hf, h.restart⟩
    rcases h.note_of_not_noting (by rw [hthread]; rfl) ht with hn | hn | hn
    · exact .inl hn
    · exact .inr (.inr (.inl hn))
    · rw [hf] at hn
      cases hn.1
  next hthread => exact h.woken (by rw [hthread]; rfl) .dead fun _ => h.failing (by rw [hthread]; rfl)

end

lemma run_thread_frame (hs : slot.run_thread = some slot') :
    slot'.gen = slot.gen ∧ slot'.reported = slot.reported ∧ (slot'.thread.running → slot.thread.running) := by
  unfold run_thread at hs
  split at hs <;> cases hs <;> simp_all [Thread.running]

lemma Good.settled (h : slot.Good) (hp : slot.task = .parked) (ht : slot.thread = .idle ∨ slot.thread = .dead) :
    slot.failed = false ∧ slot.available = slot.reported ∧ slot.thread = .idle := by
  have hu : slot.updated = false := by
    cases hu : slot.updated with
    | false => rfl
    | true =>
      have := h.parked hp hu
      rcases ht with ht | ht <;> rw [ht] at this <;> cases this
  have hn := h.note_of_not_noting (by rcases ht with ht | ht <;> rw [ht] <;> rfl) (by rw [hp]; rfl)
  rw [hu, hp] at hn
  simp only [Bool.false_eq_true, reduceCtorEq, false_and, false_or] at hn
  refine ⟨hn.1, hn.2, ht.resolve_right fun hdead => ?_⟩
  have := h.failing (by rw [hdead]; rfl)
  rw [hn.1] at this
  cases this

end Slot

/-! ## The manager -/

namespace Manager

variable {s s' : Manager τ}

def last (s : Manager τ) (name : Nat) : Option Nat := if (s.slots name).reported then some (s.slots name).gen else none

/-- A task finds its worker available only when its last update was not `Available`. -/
def Fresh (s : Manager τ) : Step τ → Prop
  | .task name => (s.slots name).task = .status_available → (s.slots name).available → (s.slots name).reported = false
  | _ => True

instance (s : Manager τ) (i : Step τ) : Decidable (s.Fresh i) := by
  unfold Fresh
  split <;> infer_instance

/-- What the manager knows of its workers agrees with what they have sent. -/
structure Tracked (s : Manager τ) : Prop where
  slots : ∀ name, (s.slots name).Good
  closed : ∀ name, s.worker name ∈ s.closed → (s.slots name).thread.running = false
  old : ∀ worker ∈ s.closed, worker.gen ≤ (s.slots worker.name).gen
  lists : Lists s.gone s.seen s.state
  leads : Leads s.seen s.queue s.last
  fresh : ∀ name, s.num ≤ name → s.seen name = none
  queued : ∀ worker, .Available worker ∈ s.queue → worker.name < s.num
  stopping : s.stopping = false

lemma tracked_new (num : Nat) : (new num : Manager τ).Tracked :=
  ⟨fun _ => good_start 0 .status nofun, nofun, nofun, lists_new _, rfl, fun _ _ => rfl, nofun, rfl⟩

lemma slots_set_slot (s : Manager τ) (name : Nat) (slot : Slot) (k : Nat) :
    (s.set_slot name slot).slots k = if k = name then slot else s.slots k := rfl

section

variable (h : s.Tracked) {name : Nat}
include h

lemma Tracked.set_slot {slot : Slot} (hgood : slot.Good) (hgen : (s.slots name).gen ≤ slot.gen)
    (hlast : (if slot.reported then some slot.gen else none) = s.last name)
    (hclosed : ⟨name, slot.gen⟩ ∈ s.closed → slot.thread.running = false) : (s.set_slot name slot).Tracked := by
  refine ⟨?_, ?_, ?_, h.lists, ?_, h.fresh, h.queued, h.stopping⟩
  · intro k
    rw [slots_set_slot]
    split
    · exact hgood
    · exact h.slots k
  · intro k hk
    rw [worker, slots_set_slot] at hk
    rw [slots_set_slot]
    split
    next hname =>
      rw [if_pos hname, hname] at hk
      exact hclosed hk
    next hname =>
      rw [if_neg hname] at hk
      exact h.closed k hk
  · intro worker hw
    rw [slots_set_slot]
    split
    next hname =>
      have := h.old worker hw
      rw [hname] at this
      exact this.trans hgen
    · exact h.old worker hw
  · have : (s.set_slot name slot).last = s.last := by
      funext k
      rw [last, slots_set_slot]
      split
      next hname =>
        rw [hname]
        exact hlast
      · rfl
    rw [this]
    exact h.leads

lemma Tracked.report (hname : name < s.num) {slot : Slot} {available : Bool}
    (hgood : { slot with reported := available }.Good) (hgen : slot.gen = (s.slots name).gen)
    (hthread : slot.thread = (s.slots name).thread) (hfresh : available → (s.slots name).reported = false) :
    (s.report name slot available).Tracked := by
  have hlast : (s.report name slot available).last =
      fun k => if k = name then (if available then some slot.gen else none) else s.last k := by
    funext k
    by_cases hk : k = name
    all_goals simp [last, Manager.report, Manager.set_slot, hk]
  refine ⟨?_, ?_, ?_, h.lists, ?_, h.fresh, ?_, h.stopping⟩
  · intro k
    show (if k = name then { slot with reported := available } else s.slots k).Good
    split
    · exact hgood
    · exact h.slots k
  · intro k hk
    show (if k = name then { slot with reported := available } else s.slots k).thread.running = false
    have hk : ⟨k, (if k = name then { slot with reported := available } else s.slots k).gen⟩ ∈ s.closed := hk
    split
    next heq =>
      rw [if_pos heq, heq] at hk
      refine hthread ▸ h.closed name ?_
      rw [Manager.worker, ← hgen]
      exact hk
    next hne =>
      rw [if_neg hne] at hk
      exact h.closed k hk
  · intro worker hw
    show worker.gen ≤ (if worker.name = name then { slot with reported := available } else s.slots worker.name).gen
    have hold := h.old worker hw
    split
    next heq =>
      rw [heq, ← hgen] at hold
      exact hold
    · exact hold
  · rw [hlast]
    refine h.leads.append ?_
    cases available with
    | false => exact rfl
    | true => exact ⟨by simp [last, hfresh rfl], rfl⟩
  · intro worker hw
    rcases mem_append.1 hw with hw | hw
    · exact h.queued worker hw
    · cases available with
      | false => simp at hw
      | true =>
        simp only [if_pos, mem_singleton, ServerCommand.Available.injEq] at hw
        rw [hw]
        exact hname

lemma Tracked.run_task (hname : name < s.num) (hok : s.Fresh (.task name))
    (hs : s.run_task name = some s') : s'.Tracked := by
  have hg := h.slots name
  simp only [Manager.run_task] at hs
  split at hs
  next htask =>
    split at hs <;> cases hs
    · exact h.report hname ⟨nofun, nofun, hg.failing, fun _ => rfl⟩ rfl rfl nofun
    · exact h.set_slot ⟨nofun, nofun, hg.failing, nofun⟩ (le_refl _) rfl (h.closed name)
  next htask =>
    cases hs
    refine h.report hname ⟨fun _ => ?_, nofun, hg.failing, nofun⟩ rfl rfl (hok htask)
    cases hf : (s.slots name).failed with
    | true => exact .inr (.inr (.inl ⟨rfl, rfl⟩))
    | false => exact .inr (.inr (.inr ⟨rfl, rfl⟩))
  next htask =>
    cases hs
    have hnote := hg.note (by rw [htask]; rfl)
    cases hf : (s.slots name).failed with
    | true => exact h.set_slot ⟨nofun, nofun, fun _ => rfl, nofun⟩ (le_refl _) rfl (h.closed name)
    | false =>
      rw [hf] at hnote
      refine h.set_slot ⟨fun _ => ?_, nofun, fun ht => ?_, nofun⟩ (le_refl _) rfl (h.closed name)
      · simpa using hnote
      · have := hg.failing ht
        rw [hf] at this
        cases this
  next htask =>
    cases hs
    cases hu : (s.slots name).updated with
    | true => exact h.set_slot ⟨nofun, nofun, hg.failing, nofun⟩ (le_refl _) rfl (h.closed name)
    | false =>
      have hnote := hg.note (by rw [htask]; rfl)
      rw [hu, htask] at hnote
      refine h.set_slot ⟨fun _ => ?_, nofun, hg.failing, nofun⟩ (le_refl _) rfl (h.closed name)
      simpa using hnote
  next htask =>
    cases hs
    rw [h.stopping, if_neg Bool.false_ne_true]
    refine h.set_slot (good_start _ _ nofun) (Nat.le_succ _) ?_ fun hc => ?_
    · simp [last, start, hg.restart htask]
    · exact absurd (h.old _ hc) (Nat.not_succ_le_self _)
  all_goals cases hs

lemma Tracked.handle_cmd (hs : s.handle_cmd = some s') : s'.Tracked := by
  have hl := h.leads
  have hqueued := h.queued
  simp only [Manager.handle_cmd] at hs
  split at hs
  · cases hs
  next item queue hq =>
    cases hs
    rw [hq] at hl hqueued
    refine { h with lists := ?_, leads := hl, queued := fun w hw => hqueued w (mem_cons_of_mem _ hw) }
    rw [h.stopping]
    exact h.lists.process item
  next worker queue hq =>
    cases hs
    rw [hq] at hl hqueued
    obtain ⟨hseen, hl⟩ := hl
    refine ⟨h.slots, h.closed, h.old, (h.lists.add_worker hseen).send_backlog, hl, fun k hk => ?_,
      fun w hw => hqueued w (mem_cons_of_mem _ hw), h.stopping⟩
    have hne : k ≠ worker.name := fun heq => absurd (hqueued worker mem_cons_self) (by rw [← heq]; exact not_lt.2 hk)
    show (if k = worker.name then _ else s.seen k) = none
    rw [if_neg hne]
    exact h.fresh k hk
  next worker queue hq =>
    cases hs
    rw [hq] at hl hqueued
    refine ⟨h.slots, h.closed, h.old, (h.lists.remove_worker worker).send_backlog, hl, fun k hk => ?_,
      fun w hw => hqueued w (mem_cons_of_mem _ hw), h.stopping⟩
    show (if k = worker.name then none else s.seen k) = none
    split
    · rfl
    · exact h.fresh k hk

lemma Tracked.close (worker : Worker) (hold : worker.gen ≤ (s.slots worker.name).gen)
    (hw : ∀ name, s.worker name = worker → (s.slots name).thread.running = false) :
    { s with closed := worker :: s.closed }.Tracked := by
  refine { h with closed := ?_, old := ?_, lists := h.lists.mono ?_ }
  · intro name hc
    rcases mem_cons.1 hc with hc | hc
    · exact hw name hc
    · exact h.closed name hc
  · intro w hc
    rcases mem_cons.1 hc with rfl | hc
    · exact hold
    · exact h.old w hc
  · intro w hg
    simp only [Manager.gone, decide_eq_true_eq] at hg ⊢
    exact mem_cons_of_mem _ hg

lemma Tracked.step {i : Step τ} (hok : s.Fresh i) (hs : step s i = some s') : s'.Tracked := by
  cases i with
  | set name val =>
    simp only [Server.step] at hs
    split at hs <;> cases hs
    rename_i hc
    refine h.set_slot ((h.slots name).set hc.2 val) (le_refl _) rfl fun hclosed => ?_
    have := h.closed name hclosed
    rw [hc.2] at this
    cases this
  | close name =>
    simp only [Server.step] at hs
    split at hs <;> cases hs
    rename_i hc
    have hd : (s.set_slot name { s.slots name with thread := .drop_failed }).Tracked :=
      h.set_slot ((h.slots name).drop hc.2) (le_refl _) rfl fun _ => rfl
    refine hd.close (s.worker name) ?_ fun k hk => ?_
    · simp [Manager.worker, Manager.set_slot]
    · obtain rfl : k = name := congrArg Worker.name hk
      simp [Manager.set_slot, Thread.running]
  | on_stop name =>
    simp only [Server.step] at hs
    split at hs <;> cases hs
    rename_i hc
    exact h.set_slot ((h.slots name).drop hc.2) (le_refl _) rfl fun _ => rfl
  | close_old worker =>
    simp only [Server.step] at hs
    split at hs <;> cases hs
    rename_i hlt
    refine h.close worker (le_of_lt hlt) fun k hk => ?_
    subst hk
    exact absurd hlt (lt_irrefl _)
  | thread name =>
    obtain ⟨-, hs⟩ := of_guard hs
    obtain ⟨slot, hslot, rfl⟩ := of_map hs
    obtain ⟨hgen, hrep, hrun⟩ := run_thread_frame hslot
    refine h.set_slot ((h.slots name).run_thread hslot) (le_of_eq hgen.symm) ?_ fun hc => ?_
    · rw [hgen, hrep]
      rfl
    · rw [hgen] at hc
      have := h.closed name hc
      cases hr : slot.thread.running with
      | false => rfl
      | true =>
        rw [hrun hr] at this
        cases this
  | task name =>
    obtain ⟨hname, hs⟩ := of_guard hs
    exact h.run_task hname hok hs
  | spurious name =>
    simp only [Server.step] at hs
    split at hs <;> cases hs
    refine h.set_slot (h.slots name).wake ?_ ?_ fun hc => ?_
    · rw [gen_wake]
    · rw [gen_wake, reported_wake]
      rfl
    · rw [gen_wake] at hc
      rw [thread_wake]
      exact h.closed name hc
  | send item =>
    cases hs
    refine { h with leads := h.leads.append rfl, queued := fun w hw => ?_ }
    rcases mem_append.1 hw with hw | hw
    · exact h.queued w hw
    · simp at hw
  | handle_cmd => exact h.handle_cmd hs

end

/-- All updates have been handled and no worker or task is in the middle of anything. -/
structure Settled (s : Manager τ) : Prop where
  queue : s.queue = []
  slots : ∀ name, name < s.num →
    (s.slots name).task = .parked ∧ ((s.slots name).thread = .idle ∨ (s.slots name).thread = .dead)

/-- The list holds each available worker once and no other worker, and the server is paused when there is none. -/
structure Routed (s : Manager τ) : Prop where
  once : ∀ name, name < s.num →
    (s.state.workers.map Worker.name).count name = if (s.slots name).status = .Available then 1 else 0
  current : ∀ e ∈ s.state.workers, e.name < s.num ∧ e = s.worker e.name
  paused : s.state.paused ↔ ∀ name, name < s.num → (s.slots name).status ≠ .Available

lemma Tracked.routed (h : s.Tracked) (hs : s.Settled) : s.Routed := by
  have hseen : s.seen = s.last := by
    have := h.leads
    rw [hs.queue] at this
    exact this
  have hslot : ∀ name, name < s.num → (s.slots name).failed = false ∧ (s.slots name).available = (s.slots name).reported ∧
      (s.slots name).thread = .idle := fun name hname => (h.slots name).settled (hs.slots name hname).1 (hs.slots name hname).2
  have hstatus : ∀ name, name < s.num → ((s.slots name).status = .Available ↔ (s.slots name).reported) := by
    intro name hname
    obtain ⟨hf, ha, -⟩ := hslot name hname
    rw [status, hf, ha]
    cases (s.slots name).reported <;> simp
  have hcurrent : ∀ e ∈ s.state.workers, e.name < s.num ∧ e = s.worker e.name ∧ (s.slots e.name).reported := by
    intro e he
    have hl := h.lists.listed e he
    have hlt : e.name < s.num := by
      by_contra hge
      rw [h.fresh e.name (not_lt.1 hge)] at hl
      cases hl
    rw [hseen, last] at hl
    obtain ⟨hr, hl⟩ := of_guard hl
    refine ⟨hlt, ?_, hr⟩
    rw [Manager.worker, some.inj hl]
  have hmem : ∀ name, name < s.num → (s.slots name).reported → s.worker name ∈ s.state.workers := by
    intro name hname hr
    refine h.lists.kept name _ ?_ ?_
    · rw [hseen, last, if_pos hr]
    · -- a worker whose thread is at rest has not closed its channel
      have hn : s.worker name ∉ s.closed := by
        intro hc
        have := h.closed name hc
        rw [(hslot name hname).2.2] at this
        cases this
      simpa [Manager.gone, Manager.worker] using hn
  refine ⟨?_, fun e he => ⟨(hcurrent e he).1, (hcurrent e he).2.1⟩, ?_⟩
  · intro name hname
    split
    next hav =>
      refine count_eq_one_of_mem h.lists.nodup (mem_map.2 ⟨s.worker name, ?_, rfl⟩)
      exact hmem name hname ((hstatus name hname).1 hav)
    next hav =>
      refine count_eq_zero.2 fun hin => ?_
      obtain ⟨e, he, rfl⟩ := mem_map.1 hin
      exact hav ((hstatus e.name hname).2 (hcurrent e he).2.2)
  · rw [h.lists.paused, List.isEmpty_iff]
    constructor
    · intro hnil name hname hav
      have := hmem name hname ((hstatus name hname).1 hav)
      rw [hnil] at this
      cases this
    · intro hall
      refine eq_nil_iff_forall_not_mem.2 fun e he => ?_
      obtain ⟨hlt, -, hr⟩ := hcurrent e he
      exact hall e.name hlt ((hstatus e.name hlt).2 hr)

/-- Once everything has been handled the list matches the status of the workers, in runs in which no task finds its
worker available twice in a row. -/
theorem routing_matches {num : Nat} (h : Reach Server.step Fresh (new num) s) (hs : s.Settled) : s.Routed :=
  (h.inv Tracked (tracked_new num) fun _ _ _ ht hok hst => ht.step hok hst).routed hs

def view (s : Manager τ) (names : List Nat) : Nat × Nat × HandleCmdState τ × List Slot :=
  (s.num, s.queue.length, s.state, names.map s.slots)

lemma Settled.of_view {num : Nat} {state : HandleCmdState τ} {slots : List Slot}
    (h : s.view (range num) = (num, 0, state, slots)) (hslots : ∀ slot ∈ slots, slot.task = .parked ∧ slot.thread = .idle) :
    s.Settled := by
  simp only [view, Prod.mk.injEq, length_eq_zero_iff] at h
  obtain ⟨rfl, hq, -, rfl⟩ := h
  refine ⟨hq, fun name hname => ?_⟩
  obtain ⟨hp, hi⟩ := hslots (s.slots name) (mem_map.2 ⟨name, mem_range.2 hname, rfl⟩)
  exact ⟨hp, .inl hi⟩

/-- One of two workers becomes available after its task has looked at it. -/
theorem routing_matches_two :
    ∃ s : Manager Nat, Reach Server.step Fresh (new 2) s ∧ s.state.workers = [⟨1, 0⟩] ∧ s.Settled ∧ s.Routed := by
  have hrun : (run Server.step Fresh (new 2 : Manager Nat)
      [.task 0, .task 0, .task 0, .task 0, .task 1, .task 1, .task 1, .task 1, .set 1 true, .thread 1, .thread 1, .task 1,
        .task 1, .task 1, .task 1, .task 1, .handle_cmd, .handle_cmd, .handle_cmd]).map (fun s => s.view (range 2)) =
      some (2, 0, ⟨0, [], [⟨1, 0⟩], false⟩,
        [⟨0, false, false, false, .idle, .parked, false⟩, ⟨0, true, false, false, .idle, .parked, true⟩]) := by
    decide +kernel
  obtain ⟨s, hr, hv⟩ := Reach.of_run_map _ hrun
  have hs : s.Settled := .of_view hv (by decide)
  refine ⟨s, hr, ?_, hs, routing_matches hr hs⟩
  exact congrArg (fun v => v.2.2.1.workers) hv

/-- A worker becomes available, which its task sees before `updated` is set and again afterwards; then it becomes
unavailable. -/
theorem routing_stale :
    ∃ s : Manager Nat, Reach Server.step (fun _ _ => True) (new 1) s ∧ s.Settled ∧ (s.slots 0).status = .Unavailable ∧
      s.state.workers = [⟨0, 0⟩] ∧ ¬ s.Routed := by
  have hrun : (run Server.step (fun _ _ => True) (new 1 : Manager Nat)
      [.set 0 true, .task 0, .task 0, .thread 0, .thread 0, .task 0, .task 0, .task 0, .task 0, .task 0, .task 0,
        .handle_cmd, .handle_cmd, .set 0 false, .thread 0, .thread 0, .task 0, .task 0, .task 0, .task 0, .task 0,
        .handle_cmd]).map (fun s => s.view (range 1)) =
      some (1, 0, ⟨0, [], [⟨0, 0⟩], false⟩, [⟨0, false, false, false, .idle, .parked, false⟩]) := by
    decide +kernel
  obtain ⟨s, hr, hv⟩ := Reach.of_run_map _ hrun
  have hslot : s.slots 0 = ⟨0, false, false, false, .idle, .parked, false⟩ :=
    congrArg (fun v => v.2.2.2.headD (.start 0 .status)) hv
  have hworkers : s.state.workers = [⟨0, 0⟩] := congrArg (fun v => v.2.2.1.workers) hv
  have hnum : s.num = 1 := congrArg (fun v => v.1) hv
  refine ⟨s, hr, .of_view hv (by decide), by rw [hslot]; rfl, hworkers, fun h => ?_⟩
  have := h.once 0 (by rw [hnum]; decide)
  rw [hworkers, hslot] at this
  revert this
  decide

end Manager

end Geario.Server
