import Geario.Channel.Mpsc
import Geario.Lib.Waker
/-!
# The receiver of an `mpsc` channel

One task polls `recv`, others share the receiver by reference. Whatever ends the
wait has to call the waker of the last poll. `Receiver::close` does not.
-/
open Lib List Option Bool

namespace Geario.Channel

structure Receiver (α : Type) where
  chan : Mpsc α
  /-- the receiver has not been dropped -/
  alive : Bool
  blocked_recv : Waker Nat
  /-- what was sent with `Ok` -/
  sent : List α
  received : List α

namespace Receiver

open Waker

variable {α : Type} {s s' : Receiver α}

inductive Step (α : Type)
  | send (item : α)
  | sender_close
  | clone
  | drop_sender
  | sender
  | close
  | poll_recv (waker : Nat)
  | drop

def new : Receiver α := { chan := .new, alive := true, blocked_recv := .new, sent := [], received := [] }

/-- The waker is registered before the senders are counted. -/
def poll_recv (s : Receiver α) (waker : Nat) : Receiver α :=
  match s.chan.poll_next with
  | (some (some msg), chan) => { s with chan, blocked_recv := s.blocked_recv.ready, received := s.received ++ [msg] }
  | (some none, chan) =>
    { s with chan, blocked_recv := (if chan.has_receiver then s.blocked_recv.register waker else s.blocked_recv).ready }
  | (none, chan) => { s with chan, blocked_recv := s.blocked_recv.register waker }

def step (s : Receiver α) : Step α → Option (Receiver α)
  | .send item => (s.chan.step (.send item)).map fun chan =>
    if s.chan.has_receiver then { s with chan, blocked_recv := s.blocked_recv.wake, sent := s.sent ++ [item] } else { s with chan }
  | .sender_close =>
    if s.chan.senders = 0 then none
    else some { s with chan.has_receiver := false, blocked_recv := s.blocked_recv.wake }
  | .clone => (s.chan.step .clone).map fun chan => { s with chan }
  | .drop_sender => (s.chan.step .drop).map fun chan =>
    { s with chan, blocked_recv := if s.chan.has_receiver ∧ s.chan.senders = 1 then s.blocked_recv.wake else s.blocked_recv }
  | .sender => if s.alive then some { s with chan.senders := s.chan.senders + 1 } else none
  | .close => if s.alive then some { s with chan.has_receiver := false } else none
  | .poll_recv waker => if s.alive then some (s.poll_recv waker) else none
  | .drop => if s.alive then some { s with alive := false, chan := { s.chan with buffer := [], has_receiver := false } } else none

/-- The receiver is not closed while `recv` waits. -/
def Orderly (s : Receiver α) : Step α → Prop
  | .close => s.blocked_recv.waits = false
  | _ => True

@[grind] structure Inv (s : Receiver α) : Prop where
  sound : s.blocked_recv.Sound
  order : s.alive → s.sent = s.received ++ s.chan.buffer
  early : s.received <+: s.sent
  waits : s.blocked_recv.waits → s.alive → s.chan.buffer = [] ∧ s.chan.has_receiver ∧ s.chan.senders ≠ 0

lemma inv_step {i : Step α} (h : Inv s) (hok : s.Orderly i) (hst : s.step i = some s') : Inv s' := by
  have hwake := h.sound.wake
  have hwoken := h.sound.waits_wake
  cases i with
  | poll_recv waker =>
    have hready := sound_ready s.blocked_recv
    have hregister := sound_register s.blocked_recv waker
    have hend := sound_ready (s.blocked_recv.register waker)
    grind [step, poll_recv, Mpsc.poll_next, Waker.waits, Waker.ready]
  | close => grind [step, Orderly]
  | _ => grind [step, Mpsc.step]

/-- Messages are received in the order they were sent, what is not received is in the buffer as long as the receiver
lives, and a pending poll that would be ready now has been woken. -/
theorem recv_delivers (hr : Reach step Orderly new s) :
    s.received <+: s.sent ∧ (s.alive → s.sent = s.received ++ s.chan.buffer) ∧
      ∀ w called, s.blocked_recv.last = some (w, called) → s.alive → s.chan.poll_next.1 ≠ none → called := by
  have h := hr.inv Inv ⟨sound_new, fun _ => rfl, nil_prefix, fun hw => by cases hw⟩ fun _ _ _ hi hok hst => inv_step hi hok hst
  refine ⟨h.early, h.order, fun w called hl ha hne => called_of_not_waits hl (eq_false_iff.2 fun hw => hne ?_)⟩
  obtain ⟨hb, hr, hs⟩ := h.waits hw ha
  rw [Mpsc.poll_next, hb]
  exact if_pos ⟨hr, hs⟩

theorem recv_delivers_two : ∃ s : Receiver Nat, s.received = [7] ∧ s.sent = s.received ++ [8] :=
  ⟨_, rfl, (recv_delivers (.step (i := .poll_recv 2) (.step (i := .send 8) (.step (i := .send 7)
    (.step (i := .poll_recv 1) .refl trivial rfl) trivial rfl) trivial rfl) trivial rfl)).2.1 rfl⟩

end Receiver

end Geario.Channel
