import Geario.Lib.Run
/-!
# The end of an `mpsc` channel

`is_terminated` looks at the number of senders and at `has_receiver`, not at the
buffer. When the last sender goes, what it has sent may still be there, and the
receiver can make a new sender.
-/
open Lib

namespace Geario.Channel

/-- The channel of a receiver; `senders` is the strong count without the receiver. -/
structure Mpsc (α : Type) where
  buffer : List α
  has_receiver : Bool
  senders : Nat
  deriving DecidableEq

namespace Mpsc

variable {α : Type}

inductive Step (α : Type)
  | send (item : α)
  | close
  | clone
  | sender
  | drop
  | poll_next
  deriving DecidableEq

def new : Mpsc α := { buffer := [], has_receiver := true, senders := 1 }

/-- `Pending` is `none`. -/
def poll_next (s : Mpsc α) : Option (Option α) × Mpsc α :=
  match s.buffer with
  | msg :: buffer => (some (some msg), { s with buffer })
  | [] => (if s.has_receiver ∧ s.senders ≠ 0 then none else some none, s)

def is_terminated (s : Mpsc α) : Bool := s.senders = 0 || !s.has_receiver

def step (s : Mpsc α) : Step α → Option (Mpsc α)
  | .send item =>
    if s.senders = 0 then none
    else some (if s.has_receiver then { s with buffer := s.buffer ++ [item] } else s)
  | .close => some { s with has_receiver := false }
  | .clone => if s.senders = 0 then none else some { s with senders := s.senders + 1 }
  | .sender => some { s with senders := s.senders + 1 }
  | .drop => if s.senders = 0 then none else some { s with senders := s.senders - 1 }
  | .poll_next => some s.poll_next.2

/-- Every later `poll_next` returns `None`. -/
def Over (s : Mpsc α) : Prop := ∀ s', Reach step (fun _ _ => True) s s' → s'.poll_next.1 = some none

lemma closed_step {s s' : Mpsc α} {i : Step α} (h : s.buffer = [] ∧ s.has_receiver = false) (hs : step s i = some s') :
    s'.buffer = [] ∧ s'.has_receiver = false := by
  cases i with
  | poll_next =>
    cases hs
    simp [poll_next, h.1, h.2]
  | _ => grind [step]

lemma over_of_closed {s : Mpsc α} (h : s.buffer = [] ∧ s.has_receiver = false) : s.Over := by
  intro s' hs'
  have hc := hs'.inv (fun s => s.buffer = [] ∧ s.has_receiver = false) h fun _ _ _ hx _ hs => closed_step hx hs
  simp [poll_next, hc.1, hc.2]

lemma closed_of_over [Inhabited α] {s : Mpsc α} (h : s.Over) : s.buffer = [] ∧ s.has_receiver = false := by
  have hb : s.buffer = [] := by
    have hp := h s .refl
    rw [poll_next] at hp
    split at hp
    · cases hp
    next hb => exact hb
  refine ⟨hb, Bool.eq_false_iff.2 fun hr => ?_⟩
  -- a new sender sends something
  have hp := h _ (.step (i := .send default) (.step (i := .sender) .refl trivial rfl) trivial rfl)
  simp [poll_next, hr, hb] at hp

/-- A terminated receiver has nothing left just when the channel was closed and the buffer is empty. -/
theorem terminated_over_iff [Inhabited α] (s : Mpsc α) :
    (s.is_terminated = true → s.Over) ↔ (s.is_terminated = true → s.buffer = [] ∧ s.has_receiver = false) :=
  ⟨fun h ht => closed_of_over (h ht), fun h ht => over_of_closed (h ht)⟩

/-- The only sender sends something and is dropped. -/
theorem terminated_not_over : ∃ s : Mpsc Nat, Reach step (fun _ _ => True) new s ∧ s.is_terminated = true ∧
    s.poll_next.1 = some (some 7) :=
  ⟨_, .step (i := .drop) (.step (i := .send 7) .refl trivial rfl) trivial rfl, rfl, rfl⟩

end Mpsc

end Geario.Channel
