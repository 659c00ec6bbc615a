import Geario.Lib.Run
import Geario.Polling.Stream
/-!
# The interest the poller holds

A stream keeps two pairs of flags: what it wants to hear about, and what the
poller was last told. The poller is told only when the pair to be told differs
from the one it was told before. Both pairs agree with the poller after every
event and every change of interest, so that nothing is ever left out.
-/
open Geario.Io
open Lib (Reach of_map)

namespace Geario.Polling

/-- A stream, and the interest (readable, writable) that the poller holds for it. -/
structure Registered where
  item : StreamItem
  poller : Bool × Bool
  deriving DecidableEq

namespace Registered

inductive Step
  | event (readable writable : Bool) (rd : ReadResult) (cuts : List Nat) (wr : WriteResult)
  | interest (rd wr : Bool) (rres : ReadResult) (cuts : List Nat) (wres : WriteResult)
  | other (ctx : IoState)
  deriving DecidableEq

def new (ctx : IoState) : Registered := ⟨⟨{}, ctx⟩, (false, false)⟩

def arm (s : Registered) (item : StreamItem) (readable writable : Bool) : Registered where
  item := Polling.arm item readable writable
  poller := if (item.flags.arm_rd, item.flags.arm_wr) = (readable, writable) then s.poller else (readable, writable)

def event (s : Registered) (readable writable : Bool) (rd : ReadResult) (cuts : List Nat) (wr : WriteResult) : Option Registered :=
  let r := event_read s.item readable rd
  (event_write r.2 writable cuts wr).map fun w => s.arm w.2 r.1 w.1

def interest (s : Registered) (rd wr : Bool) (rres : ReadResult) (cuts : List Nat) (wres : WriteResult) : Option Registered :=
  let r := interest_read s.item rd rres
  (interest_write r.2 wr cuts wres).map fun w => if r.1.2 || w.1.2 then s.arm w.2 r.1.1 w.1.1 else { s with item := w.2 }

def step (s : Registered) : Step → Option Registered
  | .event readable writable rd cuts wr => s.event readable writable rd cuts wr
  | .interest rd wr rres cuts wres => s.interest rd wr rres cuts wres
  | .other ctx => some { s with item.ctx := ctx }

/-! ## Flags -/

variable {s s' : Registered} {item : StreamItem} {cuts : List Nat} {rres : ReadResult} {wres : WriteResult}
  {w : (Bool × Bool) × StreamItem} {readable writable : Bool}

lemma event_read_flags (item : StreamItem) (readable : Bool) (rd : ReadResult) :
    (event_read item readable rd).2.flags = { item.flags with rd := (event_read item readable rd).1 } := by
  rw [event_read]
  split <;> rfl

lemma event_write_flags {writable : Bool} {w : Bool × StreamItem} (h : event_write item writable cuts wres = some w) :
    w.2.flags = { item.flags with wr := w.1 } := by
  rw [event_write] at h
  split at h
  · obtain ⟨r, -, rfl⟩ := of_map h
    rfl
  · cases h
    rfl

lemma interest_read_armed (item : StreamItem) (rd : Bool) (rres : ReadResult) :
    (interest_read item rd rres).1.1 ↔ rd ∧ (item.flags.rd ∨ (read item.ctx rres).1 = .Io) := by
  rw [interest_read]
  cases rd with
  | false => simp
  | true =>
    by_cases hrd : item.flags.rd = true
    · simp [hrd]
    · by_cases hr : (read item.ctx rres).1 = .Io
      all_goals simp [hrd, hr]

lemma interest_write_armed {wr : Bool} (h : interest_write item wr cuts wres = some w) :
    w.1.1 ↔ wr ∧ (item.flags.wr ∨ (write item.ctx cuts wres).map Prod.fst = some .Io) := by
  rw [interest_write] at h
  cases wr with
  | false =>
    cases h
    simp
  | true =>
    by_cases hwr : item.flags.wr = true
    · rw [if_pos rfl, if_pos hwr] at h
      cases h
      simp [hwr]
    · rw [if_pos rfl, if_neg hwr] at h
      obtain ⟨r, hr, rfl⟩ := of_map h
      by_cases hst : r.1 = .Io
      all_goals simp [hwr, hr, hst]

lemma interest_read_flags (item : StreamItem) (rd : Bool) (rres : ReadResult) :
    (interest_read item rd rres).2.flags = { item.flags with rd := (interest_read item rd rres).1.1 } ∧
      ((interest_read item rd rres).1.2 = false → (interest_read item rd rres).1.1 = item.flags.rd) := by
  obtain ⟨⟨flag, wr, arm_rd, arm_wr⟩, ctx⟩ := item
  rw [interest_read]
  cases rd with
  | false => exact ⟨rfl, fun h => h.symm⟩
  | true =>
    cases flag with
    | true => exact ⟨rfl, fun _ => rfl⟩
    | false =>
      by_cases hr : (read ctx rres).1 = .Io
      all_goals simp [hr]

lemma interest_write_flags {wr : Bool} (h : interest_write item wr cuts wres = some w) :
    w.2.flags = { item.flags with wr := w.1.1 } ∧ (w.1.2 = false → w.1.1 = item.flags.wr) := by
  obtain ⟨⟨rd, flag, arm_rd, arm_wr⟩, ctx⟩ := item
  cases wr with
  | false =>
    cases h
    exact ⟨rfl, fun h => h.symm⟩
  | true =>
    cases flag with
    | true =>
      cases h
      exact ⟨rfl, fun _ => rfl⟩
    | false =>
      obtain ⟨r, -, rfl⟩ := of_map h
      by_cases hst : r.1 = .Io
      all_goals simp [hst]

/-! ## The invariant -/

/-- The poller holds what it was told last, and that is what the stream wants. -/
structure Agrees (s : Registered) : Prop where
  armed : s.poller = (s.item.flags.arm_rd, s.item.flags.arm_wr)
  wanted : s.poller = (s.item.flags.rd, s.item.flags.wr)

lemma agrees_new (ctx : IoState) : Agrees (new ctx) := ⟨rfl, rfl⟩

lemma Agrees.arm (h : Agrees s) (ha : item.flags.arm_rd = s.item.flags.arm_rd) (ha' : item.flags.arm_wr = s.item.flags.arm_wr)
    (hr : item.flags.rd = readable) (hw : item.flags.wr = writable) :
    Agrees (s.arm item readable writable) ∧ (s.arm item readable writable).poller = (readable, writable) := by
  have hp : (s.arm item readable writable).poller = (readable, writable) := by
    rw [Registered.arm]
    split
    case isTrue heq => rw [h.armed, ← ha, ← ha', heq]
    case isFalse => rfl
  refine ⟨⟨hp, ?_⟩, hp⟩
  rw [hp, ← hr, ← hw]
  rfl

lemma agrees_event (h : Agrees s) {rd : ReadResult}
    (hst : s.event readable writable rd cuts wres = some s') : Agrees s' := by
  obtain ⟨w, hw, rfl⟩ := of_map hst
  have hr := event_read_flags s.item readable rd
  have hw' := event_write_flags hw
  rw [hr] at hw'
  refine (h.arm ?_ ?_ ?_ ?_).1
  all_goals rw [hw']

lemma agrees_interest (h : Agrees s) {rd wr : Bool} (hst : s.interest rd wr rres cuts wres = some s') :
    Agrees s' ∧ ∃ w, interest_write (interest_read s.item rd rres).2 wr cuts wres = some w ∧
      s'.poller = ((interest_read s.item rd rres).1.1, w.1.1) := by
  obtain ⟨w, hw, rfl⟩ := of_map hst
  obtain ⟨hr, hru⟩ := interest_read_flags s.item rd rres
  obtain ⟨hw', hwu⟩ := interest_write_flags hw
  rw [hr] at hw' hwu
  split
  case isTrue =>
    have harm : Agrees (s.arm w.2 (interest_read s.item rd rres).1.1 w.1.1) ∧
        (s.arm w.2 (interest_read s.item rd rres).1.1 w.1.1).poller = ((interest_read s.item rd rres).1.1, w.1.1) :=
      h.arm (by rw [hw']) (by rw [hw']) (by rw [hw']) (by rw [hw'])
    exact ⟨harm.1, w, hw, harm.2⟩
  case isFalse hu =>
    -- neither half has changed
    rw [Bool.or_eq_true, not_or, Bool.not_eq_true, Bool.not_eq_true] at hu
    have hflags : w.2.flags = s.item.flags := by rw [hw', hru hu.1, hwu hu.2]
    refine ⟨⟨?_, ?_⟩, w, hw, ?_⟩
    · rw [h.armed, hflags]
    · rw [h.wanted, hflags]
    · rw [h.wanted, hru hu.1, hwu hu.2]

lemma agrees_step (i : Step) (h : Agrees s) (hst : s.step i = some s') : Agrees s' := by
  cases i with
  | event readable writable rd cuts wr => exact agrees_event h hst
  | interest rd wr rres cuts wres => exact (agrees_interest h hst).1
  | other ctx =>
    cases hst
    exact ⟨h.armed, h.wanted⟩

/-- The poller's interest is the stream's at all times, and after a change of interest it is what was asked for, as far as the
attempts to read and write came to wait for the socket. -/
theorem interest_held {ctx : IoState} (h : Reach step (fun _ _ => True) (new ctx) s) :
    s.poller = (s.item.flags.arm_rd, s.item.flags.arm_wr) ∧ s.poller = (s.item.flags.rd, s.item.flags.wr) ∧
      ∀ rd wr rres cuts wres s', s.interest rd wr rres cuts wres = some s' →
        (s'.poller.1 = true ↔ rd = true ∧ (s.poller.1 = true ∨ (read s.item.ctx rres).1 = .Io)) ∧
        (s'.poller.2 = true ↔ wr = true ∧
          (s.poller.2 = true ∨ (write (interest_read s.item rd rres).2.ctx cuts wres).map Prod.fst = some .Io)) := by
  have ha : Agrees s := h.inv Agrees (agrees_new ctx) fun s i s' hI _ hst => agrees_step i hI hst
  refine ⟨ha.armed, ha.wanted, fun rd wr rres cuts wres s' hst => ?_⟩
  obtain ⟨-, w, hw, hp⟩ := agrees_interest ha hst
  rw [hp, ha.wanted]
  refine ⟨interest_read_armed s.item rd rres, ?_⟩
  rw [interest_write_armed hw, (interest_read_flags s.item rd rres).1]

/-- Reading is armed by a read that finds nothing, and kept when writing is wanted as well. -/
theorem interest_held_two : ∃ s s', Reach step (fun _ _ => True) (new (.new ⟨4, 4, 2, 1⟩ none)) s ∧
    s.interest true true .pending [] .pending = some s' ∧ s.poller = (true, false) ∧
    (s'.poller.1 = true ↔ true = true ∧ (s.poller.1 = true ∨ (read s.item.ctx .pending).1 = .Io)) := by
  have hreach : Reach step (fun _ _ => True) (new (.new ⟨4, 4, 2, 1⟩ none)) _ := .of_steps
      [.interest true false .pending [] .pending] rfl
  exact ⟨_, _, hreach, rfl, rfl, ((interest_held hreach).2.2 true true .pending [] .pending _ rfl).1⟩

end Registered

end Geario.Polling
