import Geario.Lib.Deque
import Geario.Lib.Run
/-!
# The submission queue

Requests go straight to the ring while it has room and nothing waits; else
they wait in `changes`, and `apply_changes` moves them to the ring once per turn
of the driver loop. The kernel consumes the ring from its front.

`pushed` and `submitted` record the entries given to the ring and the entries
the handlers submitted, in order. A handler's requests carry its batch number in
the high bits of `user_data`.
-/
open Lib

namespace Geario.Uring

open List

/-- What a submission entry asks for: an operation of a handler, or the cancellation of the one with this `user_data`. -/
inductive Request (α : Type)
  | op (a : α)
  | async_cancel (target : Nat)
  deriving DecidableEq

structure Entry (α : Type) where
  request : Request α
  user_data : Nat
  deriving DecidableEq

def CANCEL : Nat := 2 ^ 64 - 2

def BATCH : Nat := 48

structure Reactor (α : Type) where
  capacity : Nat
  /-- the entries in the ring that the kernel has not consumed -/
  ring : List (Entry α)
  changes : VecDeque (Entry α)
  pushed : List (Entry α)
  submitted : List (Entry α)

variable {α : Type}

namespace Reactor

def new (capacity : Nat) : Reactor α :=
  { capacity, ring := [], changes := .with_capacity 32, pushed := [], submitted := [] }

def push_multiple (r : Reactor α) (l : List (Entry α)) : Option (Reactor α) :=
  if l.length ≤ r.capacity - r.ring.length then some { r with ring := r.ring ++ l, pushed := r.pushed ++ l } else none

def submit_inner (r : Reactor α) (e : Entry α) : Option (Reactor α) :=
  let r := { r with submitted := r.submitted ++ [e] }
  if r.changes.items ≠ [] ∨ r.ring.length = r.capacity then some { r with changes := r.changes.push_back e }
  else r.push_multiple [e]

def submit (r : Reactor α) (hid id : Nat) (a : α) : Option (Reactor α) :=
  r.submit_inner { request := .op a, user_data := id ||| hid <<< BATCH }

def cancel (r : Reactor α) (hid id : Nat) : Option (Reactor α) :=
  r.submit_inner { request := .async_cancel (id ||| hid <<< BATCH), user_data := CANCEL }

/-- The pushes of `apply_changes`: `num` entries, from the first slice or else from the second. -/
def push_slices (r : Reactor α) (num : Nat) : Option (Reactor α) :=
  let (s1, s2) := r.changes.as_slices
  let s1_num := min s1.length num
  if s1_num > 0 then r.push_multiple (s1.take s1_num)
  else if s2 ≠ [] then
    let s2_num := min s2.length (num - s1_num)
    if s2_num > 0 then r.push_multiple (s2.take s2_num) else some r
  else some r

def apply_changes (r : Reactor α) : Option (Bool × Reactor α) :=
  if r.changes.items = [] then some (false, r)
  else
    let num := min r.changes.items.length (r.capacity - r.ring.length)
    (r.push_slices num).map fun r =>
      let r := { r with changes := r.changes.drain_front num }
      (!r.changes.items.isEmpty, r)

def consume (r : Reactor α) (n : Nat) : Reactor α := { r with ring := r.ring.drop n }

end Reactor

inductive SubmitStep (α : Type)
  | submit (hid id : Nat) (a : α)
  | cancel (hid id : Nat)
  | apply_changes
  | consume (n : Nat)

namespace Reactor

def step (r : Reactor α) : SubmitStep α → Option (Reactor α)
  | .submit hid id a => r.submit hid id a
  | .cancel hid id => r.cancel hid id
  | .apply_changes => r.apply_changes.map (·.2)
  | .consume n => some (r.consume n)

/-- What there is room for ends before the array of `changes` does. -/
def Straight (r : Reactor α) : Prop := min r.changes.items.length (r.capacity - r.ring.length) ≤ r.changes.first

instance (r : Reactor α) : Decidable r.Straight := inferInstanceAs (Decidable (_ ≤ _))

/-- The guard of a run: changes are applied only when they need not be taken from both slices. -/
def Unwrapped (r : Reactor α) : SubmitStep α → Prop
  | .apply_changes => r.Straight
  | _ => True

instance (r : Reactor α) : (e : SubmitStep α) → Decidable (r.Unwrapped e)
  | .apply_changes => inferInstanceAs (Decidable r.Straight)
  | .submit .. | .cancel .. | .consume _ => .isTrue trivial

/-- Nothing submitted is lost, duplicated or reordered. -/
def Kept (r : Reactor α) : Prop := r.pushed ++ r.changes.items = r.submitted

variable {r r' : Reactor α} {e : Entry α} {s : SubmitStep α}

variable {l : List (Entry α)}

lemma push_multiple_eq (h : r.push_multiple l = some r') :
    r' = { r with ring := r.ring ++ l, pushed := r.pushed ++ l } := by
  obtain ⟨-, h⟩ := of_guard h
  exact (Option.some.inj h).symm

lemma kept_submit (hk : r.Kept) (h : r.submit_inner e = some r') : r'.Kept := by
  unfold submit_inner at h
  dsimp only at h
  split at h
  · cases h
    rw [Kept, VecDeque.items_push_back, ← append_assoc]
    exact congrArg (· ++ [e]) hk
  next hroom =>
    rw [push_multiple_eq h]
    have hnil : r.changes.items = [] := by
      by_contra hne
      exact hroom (.inl hne)
    rw [Kept, hnil, append_nil] at hk
    rw [Kept]
    rw [hnil, hk, append_nil]

lemma push_slices_eq {num : Nat} (hne : r.changes.items ≠ []) (h : r.push_slices num = some r') :
    r'.pushed = r.pushed ++ r.changes.items.take (min r.changes.first num) ∧ r'.changes = r.changes ∧
      r'.submitted = r.submitted := by
  unfold push_slices at h
  dsimp only at h
  rw [VecDeque.length_first_slice] at h
  split at h
  · rw [push_multiple_eq h, VecDeque.as_slices]
    rw [take_take, Nat.min_eq_left (Nat.min_le_left _ _)]
    exact ⟨rfl, rfl, rfl⟩
  · have hpos := VecDeque.first_pos hne
    have hnum : num = 0 := by omega
    subst hnum
    have hr : r' = r := by
      split at h
      · rw [Nat.zero_sub, Nat.min_zero, if_neg (Nat.lt_irrefl 0)] at h
        exact (Option.some.inj h).symm
      · exact (Option.some.inj h).symm
    rw [hr, Nat.min_zero, take_zero, append_nil]
    exact ⟨rfl, rfl, rfl⟩

lemma apply_changes_eq {more : Bool} (h : r.apply_changes = some (more, r')) :
    r'.pushed = r.pushed ++ r.changes.items.take (min r.changes.first (min r.changes.items.length (r.capacity - r.ring.length))) ∧
      r'.changes.items = r.changes.items.drop (min r.changes.items.length (r.capacity - r.ring.length)) ∧
      r'.submitted = r.submitted := by
  unfold apply_changes at h
  split at h
  next hnil =>
    cases h
    rw [hnil, take_nil, drop_nil, append_nil]
    exact ⟨rfl, rfl, rfl⟩
  next hne =>
    obtain ⟨r1, hr1, h⟩ := of_map h
    cases h
    obtain ⟨hp, hc, hs⟩ := push_slices_eq hne hr1
    exact ⟨hp, by rw [VecDeque.items_drain_front, hc], hs⟩

lemma apply_changes_kept_iff {more : Bool} (hk : r.Kept) (h : r.apply_changes = some (more, r')) : r'.Kept ↔ r.Straight := by
  obtain ⟨hp, hc, hs⟩ := apply_changes_eq h
  rw [Kept, hp, hc, hs, ← hk, append_assoc, append_right_inj, Straight]
  constructor
  · intro heq
    have hlen := congrArg length heq
    rw [length_append, length_take, length_drop] at hlen
    omega
  · intro hle
    rw [Nat.min_eq_right hle, take_append_drop]

lemma kept_step (hk : r.Kept) (hu : r.Unwrapped s) (hst : r.step s = some r') : r'.Kept := by
  cases s with
  | submit | cancel => exact kept_submit hk hst
  | apply_changes =>
    obtain ⟨⟨more, r1⟩, ha, rfl⟩ := of_map hst
    exact (apply_changes_kept_iff hk ha).2 hu
  | consume n =>
    cases hst
    exact hk

/-- As long as changes need not be taken from both slices, the ring is given what was submitted, in order, and
`apply_changes` keeps it so exactly then. -/
theorem submissions_kept {capacity : Nat} (hr : Reach step Unwrapped (.new capacity) r) :
    r.pushed ++ r.changes.items = r.submitted ∧
      ∀ more r', r.apply_changes = some (more, r') → (r'.pushed ++ r'.changes.items = r'.submitted ↔ r.Straight) := by
  have hk : r.Kept := hr.inv Kept (by rw [Kept]; rfl) fun _ _ _ hk hu hst => kept_step hk hu hst
  exact ⟨hk, fun more r' h => apply_changes_kept_iff hk h⟩

theorem submissions_kept_small : ∃ r : Reactor Nat, r.changes.items.length = 2 ∧
    r.pushed ++ r.changes.items = r.submitted := by
  have hreach : ∀ r : Reactor Nat, run step Unwrapped (.new 2)
      [.submit 0 1 7, .submit 0 2 8, .submit 0 3 9, .cancel 0 1, .consume 1, .submit 1 1 7, .apply_changes] = some r →
      Reach step Unwrapped (.new 2) r := fun _ => Reach.of_run
  refine ⟨_, ?_, (submissions_kept (hreach _ rfl)).1⟩
  rfl

/-- Thirty entries wait for a ring of four, and six more arrive, so that the array of 32 wraps around. With two entries
before its end and room for four, two are removed without being pushed. -/
theorem wrapped_changes_lost : ∃ r : Reactor Nat, Reach step (fun _ _ => True) (.new 4) r ∧
    r.submitted.length = 40 ∧ (r.pushed ++ r.changes.items).length = 38 := by
  have hreach : ∀ r : Reactor Nat, run step (fun _ _ => True) (.new 4)
      (replicate 34 (.submit 0 1 7) ++ (replicate 7 [.consume 4, .apply_changes]).flatten ++
        replicate 6 (.submit 0 1 7) ++ [.consume 2, .apply_changes, .consume 4, .apply_changes]) = some r →
      Reach step (fun _ _ => True) (.new 4) r := fun _ => Reach.of_run
  exact ⟨_, hreach _ rfl, rfl, rfl⟩

/-! ## The notifier

Its poll is pushed to the ring itself, when the reactor is created and after a completion without `more`, and the
reactor panics when the ring is full. -/

def NOTIFY : Nat := 2 ^ 64 - 1

def notified (r : Reactor α) (poll_add : α) (more : Bool) : Option (Reactor α) :=
  if more then some r else r.push_multiple [{ request := .op poll_add, user_data := NOTIFY }]

def created (capacity : Nat) (poll_add : α) : Option (Reactor α) := (new capacity).notified poll_add false

def turn (r : Reactor α) : SubmitStep α ⊕ α × Bool → Option (Reactor α)
  | .inl s => r.step s
  | .inr (poll_add, more) => r.notified poll_add more

/-- The notifier's completion finds room in the ring, or asks for nothing. -/
def Roomy (r : Reactor α) : SubmitStep α ⊕ α × Bool → Prop
  | .inl _ => True
  | .inr (_, more) => more = false → r.ring.length < r.capacity

instance (r : Reactor α) : (s : SubmitStep α ⊕ α × Bool) → Decidable (r.Roomy s)
  | .inl _ => .isTrue trivial
  | .inr (_, _) => inferInstanceAs (Decidable (_ → _))

def Fits (r : Reactor α) : Prop := r.ring.length ≤ r.capacity

lemma fits_push (hl : l.length ≤ r.capacity - r.ring.length) (hf : r.Fits) :
    ∃ r', r.push_multiple l = some r' ∧ r'.Fits ∧ r'.ring = r.ring ++ l := by
  refine ⟨_, if_pos hl, ?_, rfl⟩
  rw [Fits, length_append]
  exact Nat.add_le_of_le_sub' hf hl

lemma fits_submit (hf : r.Fits) (e : Entry α) : ∃ r', r.submit_inner e = some r' ∧ r'.Fits := by
  unfold submit_inner
  dsimp only
  split
  · exact ⟨_, rfl, hf⟩
  next hroom =>
    have hlt : r.ring.length < r.capacity := Nat.lt_of_le_of_ne hf fun heq => hroom (.inr heq)
    obtain ⟨r', hr', hf', -⟩ := fits_push (r := { r with submitted := r.submitted ++ [e] }) (l := [e]) (Nat.sub_pos_of_lt hlt) hf
    exact ⟨r', hr', hf'⟩

lemma fits_slices (hf : r.Fits) {num : Nat} (hn : num ≤ r.capacity - r.ring.length) :
    ∃ r', r.push_slices num = some r' ∧ r'.Fits := by
  have hpush : ∀ l : List (Entry α), l.length ≤ num → ∃ r', r.push_multiple l = some r' ∧ r'.Fits := fun l hl => by
    obtain ⟨r', hr', hf', -⟩ := fits_push (Nat.le_trans hl hn) hf
    exact ⟨r', hr', hf'⟩
  unfold push_slices
  dsimp only
  split
  · exact hpush _ (Nat.le_trans (length_take_le _ _) (Nat.min_le_right _ _))
  · split
    · split
      · exact hpush _ (Nat.le_trans (length_take_le _ _) (Nat.le_trans (Nat.min_le_right _ _) (Nat.sub_le _ _)))
      · exact ⟨r, rfl, hf⟩
    · exact ⟨r, rfl, hf⟩

lemma fits_step (hf : r.Fits) (s : SubmitStep α) : ∃ r', r.step s = some r' ∧ r'.Fits := by
  cases s with
  | submit | cancel => exact fits_submit hf _
  | apply_changes =>
    change ∃ r', r.apply_changes.map (·.2) = some r' ∧ r'.Fits
    unfold apply_changes
    split
    · exact ⟨r, rfl, hf⟩
    · obtain ⟨r', hr', hf'⟩ := fits_slices hf (Nat.min_le_right r.changes.items.length (r.capacity - r.ring.length))
      dsimp only
      rw [hr']
      exact ⟨_, rfl, hf'⟩
  | consume n =>
    refine ⟨_, rfl, ?_⟩
    rw [Fits, consume, length_drop]
    exact Nat.le_trans (Nat.sub_le _ _) hf

lemma fits_turn (hf : r.Fits) (s : SubmitStep α ⊕ α × Bool) : ((r.turn s).isSome ↔ r.Roomy s) ∧ ∀ r', r.turn s = some r' →
    r'.Fits ∧ ∀ a, s = .inr (a, false) → { request := .op a, user_data := NOTIFY } ∈ r'.ring := by
  rcases s with s | ⟨a, _ | _⟩
  · obtain ⟨r', hr', hf'⟩ := fits_step hf s
    refine ⟨iff_of_true (by rw [turn, hr']; rfl) trivial, fun r'' hst => ?_⟩
    cases hr'.symm.trans hst
    exact ⟨hf', nofun⟩
  · by_cases hroom : r.ring.length < r.capacity
    · obtain ⟨r', hr', hf', hring⟩ := fits_push (l := [{ request := .op a, user_data := NOTIFY }]) (Nat.sub_pos_of_lt hroom) hf
      refine ⟨iff_of_true (by rw [turn, notified, if_neg Bool.false_ne_true, hr']; rfl) fun _ => hroom, fun r'' hst => ?_⟩
      cases hr'.symm.trans hst
      refine ⟨hf', fun a' ha => ?_⟩
      cases ha
      rw [hring]
      exact mem_append_right _ mem_cons_self
    · have hnone : r.turn (.inr (a, false)) = none := if_neg fun hle => hroom (Nat.lt_of_sub_pos hle)
      rw [hnone]
      exact ⟨iff_of_false Bool.false_ne_true fun h => hroom (h rfl), nofun⟩
  · refine ⟨iff_of_true rfl nofun, fun r' hst => ?_⟩
    cases hst
    exact ⟨hf, nofun⟩

/-- As long as the notifier's completions find room, nothing panics, and its poll is in the ring after each that ends
the one before. -/
theorem notifier_polled {capacity : Nat} (hc : 0 < capacity) (poll_add : α) : ∃ r₀, created capacity poll_add = some r₀ ∧
    ∀ r, Reach turn Roomy r₀ r → ∀ s, ((r.turn s).isSome = true ↔ r.Roomy s) ∧ ∀ r', r.turn s = some r' →
      ∀ a, s = .inr (a, false) → { request := .op a, user_data := NOTIFY } ∈ r'.ring := by
  have hnew : Fits (new capacity : Reactor α) := Nat.zero_le _
  obtain ⟨hsome, hkeep⟩ := fits_turn hnew (.inr (poll_add, false))
  obtain ⟨r₀, hr₀⟩ := Option.isSome_iff_exists.1 (hsome.2 fun _ => hc)
  refine ⟨r₀, hr₀, fun r hr s => ?_⟩
  have hf : r.Fits := hr.inv Fits (hkeep r₀ hr₀).1 fun r s r' hf _ hst => ((fits_turn hf s).2 r' hst).1
  exact ⟨(fits_turn hf s).1, fun r' hst => ((fits_turn hf s).2 r' hst).2⟩

/-- The kernel takes the poll out of a ring of one, and the notifier completes without `more`. -/
theorem notifier_polled_again : ∃ r₀ r r' : Reactor Nat, created 1 7 = some r₀ ∧ r₀.turn (.inl (.consume 1)) = some r ∧
    r.turn (.inr (8, false)) = some r' ∧ { request := .op 8, user_data := NOTIFY } ∈ r'.ring := by
  obtain ⟨r₀, hr₀, h⟩ := notifier_polled Nat.one_pos 7
  cases hr₀
  exact ⟨_, _, _, rfl, rfl, rfl, (h _ (.step (i := .inl (.consume 1)) .refl trivial rfl) _).2 _ rfl 8 rfl⟩

/-- A ring of two: the completions before the notifier's have filled it. -/
theorem notifier_panics : ∃ r₀ r : Reactor Nat, created 2 7 = some r₀ ∧ Reach turn (fun _ _ => True) r₀ r ∧
    r.turn (.inr (7, false)) = none := by
  have hreach : ∀ r₀ r : Reactor Nat, run turn (fun _ _ => True) r₀
      [.inl (.consume 1), .inl (.submit 0 1 8), .inl (.submit 0 2 9)] = some r → Reach turn (fun _ _ => True) r₀ r :=
    fun _ _ => Reach.of_run
  exact ⟨_, _, rfl, hreach _ _ rfl, rfl⟩

end Reactor

end Geario.Uring
