import Geario.Lib.Run
/-!
# The waiters of a pipeline

The handles of a pipeline share a `WaitersRef`: a slab with one waker per handle,
the index of the handle whose readiness check is under way (`cur`), and the
indexes that want to be woken when it is over. `run` registers the waker, and
then polls the check if nobody else has one under way. A check that is over, or
is given up, calls the wakers and gives `cur` free (`notify`).

A service gets a `Ctx` with the index. Its own check may check other services
with that `Ctx` (`nested`), drop such a check before it has completed, and use
`poll_fn`. `running` is set between `enter` and `leave`, so a nested check does
the first and not the second.
-/

namespace Geario.Service

structure WaitersRef where
  /-- `u32::MAX` is `none` -/
  cur : Option Nat
  wakers : List Nat
  /-- the slab; wakers are numbered -/
  indexes : Nat → Option (Option Nat)

/-- What a service does with its `Ctx` in one poll of its readiness. -/
inductive Body
  | nested (waker : Nat)
  | drop_nested
  | poll_fn
  deriving DecidableEq

namespace WaitersRef

def new : WaitersRef :=
  { cur := none, wakers := [], indexes := fun key => if key = 0 then some none else none }

def set (s : WaitersRef) (key : Nat) (entry : Option (Option Nat)) : WaitersRef :=
  { s with indexes := fun k => if k = key then entry else s.indexes k }

def insert (s : WaitersRef) (key : Nat) : WaitersRef := s.set key (some none)

def drain (indexes : Nat → Option (Option Nat)) : List Nat → (Nat → Option (Option Nat)) × List Nat
  | [] => (indexes, [])
  | idx :: wakers =>
    match indexes idx with
    | some (some waker) =>
      let r := drain (fun k => if k = idx then some none else indexes k) wakers
      (r.1, waker :: r.2)
    | _ => drain indexes wakers

def notify (s : WaitersRef) : WaitersRef × List Nat :=
  let r := drain s.indexes s.wakers
  ({ cur := none, wakers := [], indexes := r.1 }, r.2)

def release (s : WaitersRef) (idx : Nat) : WaitersRef × List Nat := if s.cur = some idx then s.notify else (s, [])

def remove (s : WaitersRef) (idx : Nat) : WaitersRef × List Nat := (s.set idx none).release idx

def enter (s : WaitersRef) (idx waker : Nat) : WaitersRef × Bool :=
  let s := s.set idx (some (some waker))
  match s.cur with
  | none => ({ s with cur := some idx }, true)
  | some c => if c = idx then (s, true) else ({ s with wakers := s.wakers ++ [idx] }, false)

def exec (s : WaitersRef) (idx : Nat) : Body → WaitersRef × List Nat
  | .nested waker => ((s.enter idx waker).1, [])
  | .drop_nested => s.release idx
  | .poll_fn => if s.cur = some 0 then (s, []) else ({ s with wakers := s.wakers ++ [0] }, [])

def exec_all (s : WaitersRef) (idx : Nat) : List Body → WaitersRef × List Nat
  | [] => (s, [])
  | b :: body =>
    let r := s.exec idx b
    let r' := r.1.exec_all idx body
    (r'.1, r.2 ++ r'.2)

def leave (s : WaitersRef) (idx : Nat) (ready : Bool) : WaitersRef × List Nat :=
  if ready then s.notify else ({ s with wakers := s.wakers ++ [idx] }, [])

structure Poll where
  waiters : WaitersRef
  result : Option Bool
  called : List Nat

def run (s : WaitersRef) (idx waker : Nat) (body : List Body) (ready : Bool) : Poll :=
  let e := s.enter idx waker
  if e.2 then
    let b := e.1.exec_all idx body
    let l := b.1.leave idx ready
    { waiters := l.1, result := some ready, called := b.2 ++ l.2 }
  else { waiters := e.1, result := none, called := [] }

variable {s : WaitersRef} {idx key waker w : Nat}

/-! ## Who is registered -/

structure Registered (s : WaitersRef) (key waker : Nat) : Prop where
  mem : key ∈ s.wakers
  waker : s.indexes key = some (some waker)
  cur : ∃ c, s.cur = some c ∧ c ≠ key

/-- A waker that is registered for an index is called, or registered after. -/
def Keeps (s : WaitersRef) (key : Nat) (r : WaitersRef × List Nat) : Prop :=
  ∀ waker, s.Registered key waker → r.1.Registered key waker ∨ waker ∈ r.2

lemma mem_drain {indexes : Nat → Option (Option Nat)} {wakers : List Nat} (hm : key ∈ wakers)
    (hw : indexes key = some (some waker)) : waker ∈ (drain indexes wakers).2 := by
  induction wakers generalizing indexes with
  | nil => cases hm
  | cons idx wakers ih =>
    by_cases hk : idx = key
    · subst hk
      simp only [drain, hw]
      exact List.mem_cons_self
    · have hm : key ∈ wakers := (List.mem_cons.1 hm).resolve_left fun h => hk h.symm
      unfold drain
      split
      · refine List.mem_cons_of_mem _ (ih hm ?_)
        rw [if_neg fun h => hk h.symm]
        exact hw
      · exact ih hm hw

section

variable (h : s.Registered key waker)
include h

lemma mem_notify : waker ∈ s.notify.2 := mem_drain h.mem h.waker

lemma Registered.set (hk : key ≠ idx) (entry : Option (Option Nat)) :
    (s.set idx entry).Registered key waker := ⟨h.mem, (if_neg hk).trans h.waker, h.cur⟩

lemma Registered.push (idx : Nat) :
    Registered { s with wakers := s.wakers ++ [idx] } key waker := ⟨List.mem_append_left _ h.mem, h.waker, h.cur⟩

end

lemma keeps_release (s : WaitersRef) (idx key : Nat) : s.Keeps key (s.release idx) := by
  intro waker h
  unfold release
  split
  · exact .inr (mem_notify h)
  · exact .inl h

lemma keeps_remove (s : WaitersRef) (hk : key ≠ idx) : s.Keeps key (s.remove idx) :=
  fun waker h => keeps_release (s.set idx none) idx key waker (h.set hk none)

lemma release_remove (s : WaitersRef) (idx : Nat) : (s.remove idx).1.release idx = ((s.remove idx).1, []) := by
  refine if_neg ?_
  unfold remove release
  split
  · exact nofun
  · assumption

lemma enter_of_ne {c : Nat} (hc : s.cur = some c) (hne : c ≠ idx) :
    s.enter idx w = ({ s.set idx (some (some w)) with wakers := s.wakers ++ [idx] }, false) := by
  unfold enter
  dsimp only [set]
  rw [hc]
  exact if_neg hne

lemma enter_of_owner (h : s.cur = none ∨ s.cur = some idx) :
    s.enter idx w = ({ s.set idx (some (some w)) with cur := some idx }, true) := by
  unfold enter
  dsimp only [set]
  rcases h with h | h
  · rw [h]
  · rw [h]
    exact if_pos rfl

lemma registered_enter {c : Nat} (hc : s.cur = some c) (hne : c ≠ idx) : (s.enter idx w).1.Registered idx w := by
  rw [enter_of_ne hc hne]
  exact ⟨List.mem_append_right _ (List.mem_singleton.2 rfl), if_pos rfl, c, hc, hne⟩

lemma Registered.enter (h : s.Registered key waker) (hk : key ≠ idx) : (s.enter idx w).1.Registered key waker := by
  obtain ⟨c, hc, hne⟩ := h.cur
  by_cases hidx : c = idx
  · rw [enter_of_owner (.inr (hidx ▸ hc))]
    exact ⟨h.mem, (if_neg hk).trans h.waker, idx, rfl, fun h => hk h.symm⟩
  · rw [enter_of_ne hc hidx]
    exact (h.set hk _).push idx

lemma keeps_exec (s : WaitersRef) (hk : key ≠ idx) (b : Body) : s.Keeps key (s.exec idx b) := by
  cases b with
  | nested waker => exact fun _ h => .inl (h.enter hk)
  | drop_nested => exact keeps_release s idx key
  | poll_fn =>
    intro waker h
    unfold exec
    dsimp only
    split
    · exact .inl h
    · exact .inl (h.push 0)

lemma keeps_exec_all (s : WaitersRef) (hk : key ≠ idx) (body : List Body) : s.Keeps key (s.exec_all idx body) := by
  induction body generalizing s with
  | nil => exact fun _ h => .inl h
  | cons b body ih =>
    intro waker h
    rcases keeps_exec s hk b waker h with h | h
    · rcases ih (s.exec idx b).1 waker h with h | h
      · exact .inl h
      · exact .inr (List.mem_append_right _ h)
    · exact .inr (List.mem_append_left _ h)

lemma keeps_leave (s : WaitersRef) (idx key : Nat) (ready : Bool) : s.Keeps key (s.leave idx ready) := by
  intro waker h
  cases ready with
  | true => exact .inr (mem_notify h)
  | false => exact .inl (h.push idx)

/-! ## What `run` does -/

lemma cur_exec_all (body : List Body) (h : s.cur = none ∨ s.cur = some idx) :
    (s.exec_all idx body).1.cur = none ∨ (s.exec_all idx body).1.cur = some idx := by
  induction body generalizing s with
  | nil => exact h
  | cons b body ih =>
    refine ih ?_
    cases b with
    | nested waker =>
      dsimp only [exec]
      rw [enter_of_owner h]
      exact .inr rfl
    | drop_nested =>
      dsimp only [exec, release]
      split
      · exact .inl rfl
      · exact h
    | poll_fn =>
      dsimp only [exec]
      split <;> exact h

inductive Ran (s : WaitersRef) (idx waker : Nat) : Bool → Poll → Prop
  /-- another handle has the check -/
  | refused {ready : Bool} {p : Poll} (result : p.result = none) (called : p.called = []) (cur : p.waiters.cur = s.cur)
      (other : ∃ c, s.cur = some c ∧ c ≠ idx) (registered : p.waiters.Registered idx waker) : Ran s idx waker ready p
  | ready {p : Poll} (result : p.result = some true) (owner : s.cur = none ∨ s.cur = some idx) (cur : p.waiters.cur = none) :
      Ran s idx waker true p
  | pending {p : Poll} (result : p.result = some false) (owner : s.cur = none ∨ s.cur = some idx)
      (cur : p.waiters.cur = none ∨ p.waiters.cur = some idx) : Ran s idx waker false p

lemma ran (s : WaitersRef) (idx waker : Nat) (body : List Body) (ready : Bool) :
    Ran s idx waker ready (s.run idx waker body ready) := by
  by_cases howner : s.cur = none ∨ s.cur = some idx
  · have he := enter_of_owner (w := waker) howner
    unfold run
    rw [he]
    cases ready with
    | true => exact .ready rfl howner rfl
    | false => exact .pending rfl howner (cur_exec_all body (.inr rfl))
  · obtain ⟨c, hc⟩ := Option.ne_none_iff_exists'.1 fun h => howner (.inl h)
    have hne : c ≠ idx := fun h => howner (.inr (h ▸ hc))
    have hreg := registered_enter (w := waker) hc hne
    unfold run
    rw [enter_of_ne hc hne] at hreg ⊢
    exact .refused rfl rfl rfl ⟨c, hc, hne⟩ hreg

lemma keeps_run (s : WaitersRef) (hk : key ≠ idx) (waker : Nat) (body : List Body) (ready : Bool) :
    s.Keeps key ((s.run idx waker body ready).waiters, (s.run idx waker body ready).called) := by
  intro w h
  have h := h.enter (w := waker) hk
  unfold run
  dsimp only
  split
  · rcases keeps_exec_all _ hk body w h with h | h
    · rcases keeps_leave _ idx key ready w h with h | h
      · exact .inl h
      · exact .inr (List.mem_append_right _ h)
    · exact .inr (List.mem_append_left _ h)
  · exact .inl h

lemma registered_run (body : List Body) (ready : Bool) (h : s.Registered idx waker) :
    (s.run idx waker body ready).waiters.Registered idx waker := by
  obtain ⟨c, hc, hne⟩ := h.cur
  cases ran s idx waker body ready with
  | refused _ _ _ _ hreg => exact hreg
  | ready _ howner | pending _ howner =>
    rw [hc] at howner
    rcases howner with h | h
    · cases h
    · exact absurd (Option.some.inj h) hne

end WaitersRef

end Geario.Service
