import Geario.Lib.Run
/-!
# The values of a system

`System::get_value` looks a type up under the read lock. If nothing is there it
runs the closure, with no lock, and inserts what that returns under the write
lock. The calls of all threads are interleaved at these points.

Another call may look the type up before the first one inserts. Then both insert,
the second value takes the place of the first, and each call returns its own.
-/
open Lib

namespace Geario.Rt

inductive Getting (α : Type)
  | start
  | missed
  | made (val : α)
  | returned (val : α)
  deriving DecidableEq

def Getting.pending {α : Type} : Getting α → Bool
  | missed | made _ => true
  | _ => false

structure GetValue (α : Type) where
  type_id : Nat
  stage : Getting α
  deriving DecidableEq

structure Values (α : Type) where
  storage : Nat → Option α
  calls : List (GetValue α)

namespace Values

variable {α : Type}

inductive Step (α : Type)
  | get_value (type_id : Nat)
  | read (j : Nat)
  | f (j : Nat) (val : α)
  | write (j : Nat)

def new : Values α := { storage := fun _ => none, calls := [] }

def set_stage (s : Values α) (j type_id : Nat) (stage : Getting α) : Values α :=
  { s with calls := s.calls.set j ⟨type_id, stage⟩ }

def lookup (s : Values α) (type_id : Nat) : Getting α :=
  match s.storage type_id with
  | some val => .returned val
  | none => .missed

def insert (s : Values α) (type_id : Nat) (val : α) : Values α :=
  { s with storage := fun t => if t = type_id then some val else s.storage t }

def step (s : Values α) : Step α → Option (Values α)
  | .get_value type_id => some { s with calls := s.calls ++ [⟨type_id, .start⟩] }
  | .read j =>
    match s.calls[j]? with
    | some ⟨type_id, .start⟩ => some (s.set_stage j type_id (s.lookup type_id))
    | _ => none
  | .f j val =>
    match s.calls[j]? with
    | some ⟨type_id, .missed⟩ => some (s.set_stage j type_id (.made val))
    | _ => none
  | .write j =>
    match s.calls[j]? with
    | some ⟨type_id, .made val⟩ => some ((s.insert type_id val).set_stage j type_id (.returned val))
    | _ => none

/-- No type is looked up while a call is going to insert one. -/
def Apart (s : Values α) : Step α → Prop
  | .read j => ∀ c ∈ s.calls[j]?, ∀ d ∈ s.calls, d.type_id = c.type_id → d.stage.pending = false
  | _ => True

instance [DecidableEq α] (s : Values α) (i : Step α) : Decidable (s.Apart i) := by
  unfold Apart
  split <;> infer_instance

variable {s s' : Values α} {i : Step α}

@[grind] structure Single (s : Values α) : Prop where
  returned : ∀ (j type_id : Nat) (val : α), s.calls[j]? = some ⟨type_id, .returned val⟩ → s.storage type_id = some val
  missing : ∀ (j : Nat) (c : GetValue α), s.calls[j]? = some c → c.stage.pending → s.storage c.type_id = none
  pending : ∀ (j k : Nat) (c d : GetValue α), s.calls[j]? = some c → s.calls[k]? = some d → c.type_id = d.type_id →
    c.stage.pending → d.stage.pending → j = k

lemma single_step (h : s.Single) (hok : s.Apart i) (hs : step s i = some s') :
    s'.Single ∧ ∀ type_id val, s.storage type_id = some val → s'.storage type_id = some val := by
  cases i with
  | get_value type_id =>
    cases hs
    refine ⟨⟨?_, ?_, ?_⟩, fun _ _ => id⟩
    all_goals grind [Getting.pending]
  | read j =>
    simp only [step] at hs
    split at hs <;> cases hs
    next type_id hj =>
    have hapart (k : Nat) (d : GetValue α) (hk : s.calls[k]? = some d) : d.type_id = type_id → d.stage.pending = false :=
      hok _ hj d (List.mem_of_getElem? hk)
    refine ⟨⟨?_, ?_, ?_⟩, fun _ _ => id⟩
    all_goals grind [set_stage, lookup, Getting.pending]
  | f j val =>
    simp only [step] at hs
    split at hs <;> cases hs
    refine ⟨⟨?_, ?_, ?_⟩, fun _ _ => id⟩
    all_goals grind [set_stage, Getting.pending]
  | write j =>
    simp only [step] at hs
    split at hs <;> cases hs
    refine ⟨⟨?_, ?_, ?_⟩, ?_⟩
    all_goals grind [set_stage, insert, Getting.pending]

/-- A type has one value, which every call returns and which stays, as long as lookups and insertions are apart. -/
theorem one_value (h : Reach step Apart new s) :
    (∀ c ∈ s.calls, ∀ val, c.stage = .returned val → s.storage c.type_id = some val) ∧
      ∀ s', Reach step Apart s s' → ∀ type_id val, s.storage type_id = some val → s'.storage type_id = some val := by
  have hsingle := h.inv Single ⟨by simp [new], by simp [new], by simp [new]⟩ fun _ _ _ hx hok hs => (single_step hx hok hs).1
  refine ⟨fun c hc val hval => ?_, fun s' hs' type_id val hval => ?_⟩
  · obtain ⟨j, hj⟩ := List.getElem?_of_mem hc
    exact hsingle.returned j c.type_id val (hval ▸ hj)
  · have hkept := hs'.inv (fun x => x.Single ∧ x.storage type_id = some val) ⟨hsingle, hval⟩ fun _ _ _ hx hok hs =>
      ⟨(single_step hx.1 hok hs).1, (single_step hx.1 hok hs).2 type_id val hx.2⟩
    exact hkept.2

theorem one_value_two :
    ∃ s : Values Nat, Reach step Apart new s ∧ s.calls = [⟨0, .returned 7⟩, ⟨0, .returned 7⟩] ∧ s.storage 0 = some 7 := by
  have hreach : Reach step Apart (new : Values Nat) _ :=
    .of_steps [.get_value 0, .get_value 0, .read 0, .f 0 7, .write 0, .read 1] rfl
  exact ⟨_, hreach, rfl, (one_value hreach).1 ⟨0, .returned 7⟩ (.head _) 7 rfl⟩

/-- Two calls find nothing: the first returns its value, and the second one replaces that and returns another. -/
theorem two_values :
    ∃ s s' : Values Nat, Reach step (fun _ _ => True) new s ∧ Reach step (fun _ _ => True) s s' ∧
      s.calls = [⟨0, .returned 7⟩, ⟨0, .missed⟩] ∧ s.storage 0 = some 7 ∧
      s'.calls = [⟨0, .returned 7⟩, ⟨0, .returned 8⟩] ∧ s'.storage 0 = some 8 := by
  have hfirst : Reach step (fun _ _ => True) (new : Values Nat) _ :=
    .of_steps [.get_value 0, .get_value 0, .read 0, .read 1, .f 0 7, .write 0] rfl
  exact ⟨_, _, hfirst, .of_steps [.f 1 8, .write 1] rfl, rfl, rfl, rfl, rfl⟩

end Values

end Geario.Rt
