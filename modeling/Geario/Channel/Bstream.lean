import Geario.Lib.Run
import Geario.Lib.Waker
/-!
# Byte streams

`bstream` is a channel of byte chunks on one thread: the receiver owns the shared
part, the senders have weak references to it. `NEED_READ` says that the buffer is
below `max_buffer_size`. The receiver waits for a chunk, an error or the end; a
sender waits until the buffer has space or the stream has ended.

Whatever makes a poll ready has to wake the task of the last poll. This holds for
the sender's side. On the receiver's side the drop of the last sender ends the
stream, and does not wake the receiver.
-/
open Lib Bool

namespace Geario.Channel

open Waker

abbrev Bytes := List UInt8

inductive Status
  | Eof | Ready | Dropped
  deriving DecidableEq

structure Flags where
  eof : Bool := false
  error : Bool := false
  need_read : Bool := false
  sender_gone : Bool := false
  deriving DecidableEq

structure Inner (E : Type) where
  len : Nat
  flags : Flags
  err : Option E
  items : List Bytes
  max_buffer_size : Nat
  recv_task : Waker Nat
  send_task : Waker Nat

variable {E : Type}

namespace Inner

def new (eof : Bool) (max_buffer_size : Nat) : Inner E :=
  { len := 0, flags := if eof then { eof := true } else { need_read := true }, err := none, items := [], max_buffer_size
    recv_task := .new, send_task := .new }

def set_error (s : Inner E) (err : E) : Inner E :=
  { s with
    err := some err, flags.error := true, recv_task := s.recv_task.wake, send_task := s.send_task.wake }

def feed_eof (s : Inner E) : Inner E :=
  { s with flags.eof := true, recv_task := s.recv_task.wake, send_task := s.send_task.wake }

def feed_data (s : Inner E) (data : Bytes) : Inner E :=
  let len := s.len + data.length
  { s with
    len, items := s.items ++ [data], recv_task := s.recv_task.wake
    flags := if s.max_buffer_size ≤ len then { s.flags with need_read := false } else s.flags }

def get_data (s : Inner E) : Option Bytes × Inner E :=
  match s.items with
  | [] => (none, s)
  | data :: items =>
    let len := s.len - data.length
    (some data,
      if len < s.max_buffer_size then
        { s with len, items, flags.need_read := true, send_task := s.send_task.wake }
      else { s with len, items })

/-- `none` is pending. -/
def poll_read (s : Inner E) (waker : Nat) : Option (Option (Except E Bytes)) × Inner E :=
  match s.get_data with
  | (some data, s) => (some (some (.ok data)), { s with recv_task := s.recv_task.ready })
  | (none, s) =>
    match s.err with
    | some err => (some (some (.error err)),
        { s with err := none, flags.eof := true, recv_task := s.recv_task.ready })
    | none =>
      if s.flags.eof || s.flags.error then (some none, { s with recv_task := s.recv_task.ready })
      else (none, { s with recv_task := s.recv_task.register waker })

def poll_ready (s : Inner E) (waker : Nat) : Option Status × Inner E :=
  if s.flags.need_read then (some .Ready, { s with send_task := s.send_task.ready })
  else if s.flags.sender_gone && s.flags.error then (some .Dropped, { s with send_task := s.send_task.ready })
  else if s.flags.eof then (some .Eof, { s with send_task := s.send_task.ready })
  else (none, { s with send_task := s.send_task.register waker })

end Inner

structure Bstream (E : Type) where
  inner : Inner E
  senders : Nat
  receiver : Bool

namespace Bstream

inductive Step (E : Type)
  | poll_read (waker : Nat)
  | poll_ready (waker : Nat)
  | feed_data (data : Bytes)
  | feed_eof
  | set_error (err : E)
  | clone
  | drop_sender
  | drop_receiver

def new (eof : Bool) (max_buffer_size : Nat) : Bstream E := { inner := .new eof max_buffer_size, senders := 1, receiver := true }

def poll_ready (s : Bstream E) (waker : Nat) : Option Status × Bstream E :=
  if s.receiver then
    let r := s.inner.poll_ready waker
    (r.1, { s with inner := r.2 })
  else (some .Dropped, { s with inner.send_task := s.inner.send_task.ready })

/-- A sender does something with the shared part, if that is still there. -/
def upgrade (s : Bstream E) (f : Inner E → Inner E) : Option (Bstream E) :=
  if s.senders = 0 then none else some (if s.receiver then { s with inner := f s.inner } else s)

def step (s : Bstream E) : Step E → Option (Bstream E)
  | .poll_read waker => if s.receiver then some { s with inner := (s.inner.poll_read waker).2 } else none
  | .poll_ready waker => if s.senders = 0 then none else some (s.poll_ready waker).2
  | .feed_data data => s.upgrade (·.feed_data data)
  | .feed_eof => s.upgrade Inner.feed_eof
  | .set_error err => s.upgrade (·.set_error err)
  | .clone => if s.senders = 0 then none else some { s with senders := s.senders + 1 }
  | .drop_sender =>
    if s.senders = 0 then none
    else if s.senders = 1 ∧ s.receiver then
      some { s with
        senders := 0, inner.flags := { s.inner.flags with eof := true, sender_gone := true } }
    else some { s with senders := s.senders - 1 }
  | .drop_receiver =>
    if s.receiver then some { s with receiver := false, inner.send_task := s.inner.send_task.wake } else none

/-- The last sender is not dropped while the receiver waits. -/
def Orderly (s : Bstream E) : Step E → Prop
  | .drop_sender => s.senders = 1 → s.receiver = true → s.inner.recv_task.waits = false
  | _ => True

instance (s : Bstream E) (i : Step E) : Decidable (s.Orderly i) := by
  unfold Orderly
  split <;> infer_instance

/-! ## What holds in every run -/

variable {s s' : Bstream E} {i : Step E} {m : Nat}

structure Empty (items : List Bytes) (err : Option E) (flags : Flags) : Prop where
  items : items = []
  err : err = none
  eof : flags.eof = false
  error : flags.error = false

structure Full (flags : Flags) : Prop where
  need_read : flags.need_read = false
  eof : flags.eof = false
  dropped : (flags.sender_gone && flags.error) = false

structure Inv (s : Bstream E) : Prop where
  pos : 0 < s.inner.max_buffer_size
  len : s.inner.len = (s.inner.items.map List.length).sum
  /-- the buffer has space, or is not empty -/
  space : s.inner.flags.need_read = true ∨ s.inner.flags.eof = true ∨ s.inner.max_buffer_size ≤ s.inner.len
  recv : s.inner.recv_task.Sound
  send : s.inner.send_task.Sound
  read : s.inner.recv_task.waits = true → s.receiver = true → Empty s.inner.items s.inner.err s.inner.flags
  ready : s.inner.send_task.waits = true → 0 < s.senders → s.receiver = true ∧ Full s.inner.flags

section

variable (h : Inv s)
include h

lemma inv_poll_read (waker : Nat) : Inv { s with inner := (s.inner.poll_read waker).2 } := by
  unfold Inner.poll_read Inner.get_data
  cases hi : s.inner.items with
  | cons data items =>
    have hlen : s.inner.len - data.length = (items.map List.length).sum := by
      rw [h.len, hi, List.map_cons, List.sum_cons, Nat.add_sub_cancel_left]
    dsimp only
    split
    case isTrue hlt =>
      exact ⟨h.pos, hlen, .inl rfl, sound_ready _, h.send.wake, nofun, fun hw => (nomatch h.send.waits_wake.symm.trans hw)⟩
    case isFalse hge =>
      exact ⟨h.pos, hlen, .inr (.inr (Nat.le_of_not_lt hge)), sound_ready _, h.send, nofun, h.ready⟩
  | nil =>
    have hnone : s.inner.len = 0 := by
      rw [h.len, hi]
      rfl
    -- an empty buffer has space, so that no sender waits
    have hno : s.inner.send_task.waits = true → ¬ 0 < s.senders := by
      intro hw hs
      obtain ⟨-, hfull⟩ := h.ready hw hs
      rcases h.space with hr | he | hle
      · cases hfull.need_read.symm.trans hr
      · cases hfull.eof.symm.trans he
      · exact absurd h.pos (Nat.not_lt.2 (hnone ▸ hle))
    dsimp only
    split
    case h_1 err _ =>
      exact ⟨h.pos, h.len, .inr (.inl rfl), sound_ready _, h.send, nofun, fun hw hs => absurd hs (hno hw)⟩
    case h_2 he =>
      split
      case isTrue => exact ⟨h.pos, h.len, h.space, sound_ready _, h.send, nofun, h.ready⟩
      case isFalse hf =>
        obtain ⟨heof, herr⟩ := or_eq_false_iff.1 (eq_false_iff.2 hf)
        exact ⟨h.pos, h.len, h.space, sound_register s.inner.recv_task waker, h.send, fun _ _ => ⟨hi, he, heof, herr⟩, h.ready⟩

lemma inv_poll_ready (waker : Nat) : Inv (s.poll_ready waker).2 := by
  have hready : Inv { s with inner.send_task := s.inner.send_task.ready } :=
    ⟨h.pos, h.len, h.space, h.recv, sound_ready _, h.read, nofun⟩
  unfold poll_ready Inner.poll_ready
  split
  case isTrue hrecv =>
    split
    case isTrue => exact hready
    case isFalse hn =>
      split
      case isTrue => exact hready
      case isFalse hd =>
        split
        case isTrue => exact hready
        case isFalse he =>
          have hfull : Full s.inner.flags := ⟨eq_false_iff.2 hn, eq_false_iff.2 he, eq_false_iff.2 hd⟩
          exact ⟨h.pos, h.len, h.space, h.recv, sound_register s.inner.send_task waker, h.read, fun _ _ => ⟨hrecv, hfull⟩⟩
  case isFalse => exact hready

lemma inv_feed_data (data : Bytes) : Inv { s with inner := s.inner.feed_data data } := by
  have hlen : s.inner.len + data.length = ((s.inner.items ++ [data]).map List.length).sum := by
    rw [h.len, List.map_append, List.sum_append]
    rfl
  have hwake := h.recv.waits_wake
  unfold Inner.feed_data
  dsimp only
  split
  case isTrue hle =>
    refine ⟨h.pos, hlen, .inr (.inr hle), h.recv.wake, h.send, fun hw => (nomatch hwake.symm.trans hw), fun hw hs => ?_⟩
    obtain ⟨hr, hfull⟩ := h.ready hw hs
    exact ⟨hr, rfl, hfull.eof, hfull.dropped⟩
  case isFalse hlt =>
    refine ⟨h.pos, hlen, ?_, h.recv.wake, h.send, fun hw => (nomatch hwake.symm.trans hw), fun hw hs => ?_⟩
    · rcases h.space with hr | he | hle
      · exact .inl hr
      · exact .inr (.inl he)
      · exact absurd (Nat.le_trans hle (Nat.le_add_right _ _)) hlt
    · obtain ⟨hr, hfull⟩ := h.ready hw hs
      exact ⟨hr, hfull.need_read, hfull.eof, hfull.dropped⟩

lemma inv_wake {flags : Flags} {err : Option E} (hspace : s.inner.flags.need_read → flags.need_read)
    (heof : s.inner.flags.eof → flags.eof) :
    Inv { s with inner := { s.inner with
      flags, err, recv_task := s.inner.recv_task.wake, send_task := s.inner.send_task.wake } } := by
  refine ⟨h.pos, h.len, ?_, h.recv.wake, h.send.wake, fun hw => (nomatch h.recv.waits_wake.symm.trans hw),
    fun hw => (nomatch h.send.waits_wake.symm.trans hw)⟩
  rcases h.space with hr | he | hle
  · exact .inl (hspace hr)
  · exact .inr (.inl (heof he))
  · exact .inr (.inr hle)

lemma inv_upgrade (f : Inner E → Inner E) (hf : Inv { s with inner := f s.inner }) (hst : s.upgrade f = some s') :
    Inv s' := by
  obtain ⟨-, rfl⟩ := of_ite_not hst
  split
  · exact hf
  · exact h

lemma inv_drop_sender (hok : s.Orderly .drop_sender) (hst : step s .drop_sender = some s') : Inv s' := by
  obtain ⟨-, hst⟩ := Option.ite_none_left_eq_some.1 hst
  split at hst
  case isTrue hlast =>
    cases hst
    have hno := hok hlast.1 hlast.2
    exact ⟨h.pos, h.len, .inr (.inl rfl), h.recv, h.send, fun hw => (nomatch hno.symm.trans hw), fun _ hs => absurd hs (Nat.lt_irrefl _)⟩
  case isFalse =>
    cases hst
    exact { h with ready := fun hw hs => h.ready hw (Nat.lt_of_lt_of_le hs (Nat.sub_le _ _)) }

lemma inv_step (hok : s.Orderly i) (hst : step s i = some s') : Inv s' := by
  cases i with
  | poll_read waker =>
    obtain ⟨-, rfl⟩ := of_ite hst
    exact inv_poll_read h waker
  | poll_ready waker =>
    obtain ⟨-, rfl⟩ := of_ite_not hst
    exact inv_poll_ready h waker
  | feed_data data => exact inv_upgrade h (·.feed_data data) (inv_feed_data h data) hst
  | feed_eof =>
    have heof : Inv { s with inner := s.inner.feed_eof } := inv_wake h (fun hr => hr) fun _ => rfl
    exact inv_upgrade h Inner.feed_eof heof hst
  | set_error err =>
    have herr : Inv { s with inner := s.inner.set_error err } := inv_wake h (fun hr => hr) fun he => he
    exact inv_upgrade h (·.set_error err) herr hst
  | clone =>
    obtain ⟨hne, rfl⟩ := of_ite_not hst
    exact { h with ready := fun hw _ => h.ready hw (Nat.pos_of_ne_zero hne) }
  | drop_sender => exact inv_drop_sender h hok hst
  | drop_receiver =>
    obtain ⟨-, rfl⟩ := of_ite hst
    exact { h with send := h.send.wake, read := nofun, ready := fun hw => (nomatch h.send.waits_wake.symm.trans hw) }

end

lemma inv_new (eof : Bool) (h : 0 < m) : Inv (new eof m : Bstream E) := by
  refine ⟨h, rfl, ?_, sound_new, sound_new, nofun, nofun⟩
  cases eof with
  | true => exact .inr (.inl rfl)
  | false => exact .inl rfl

lemma Empty.poll_read {x : Inner E} (h : Empty x.items x.err x.flags) (waker : Nat) : (x.poll_read waker).1 = none := by
  unfold Inner.poll_read Inner.get_data
  rw [h.items]
  dsimp only
  rw [h.err, h.eof, h.error]
  rfl

lemma Full.poll_ready {x : Inner E} (h : Full x.flags) (waker : Nat) : (x.poll_ready waker).1 = none := by
  unfold Inner.poll_ready
  rw [h.need_read, h.dropped, h.eof]
  rfl

/-- When a poll was pending and would be ready now, its waker has been called; as long as the last sender is not dropped while
the receiver waits. -/
theorem no_lost_wake {eof : Bool} (hm : 0 < m) (h : Reach step Orderly (new eof m) s) :
    (∀ waker called waker', s.inner.recv_task.last = some (waker, called) → s.receiver = true →
      (s.inner.poll_read waker').1 ≠ none → called = true) ∧
    (∀ waker called waker', s.inner.send_task.last = some (waker, called) → 0 < s.senders →
      (s.poll_ready waker').1 ≠ none → called = true) := by
  have hinv : Inv s := h.inv Inv (inv_new eof hm) fun _ _ _ hi hok hst => inv_step hi hok hst
  refine ⟨fun waker called waker' hlast hr hne => ?_, fun waker called waker' hlast hs hne => ?_⟩
  · refine called_of_not_waits hlast (eq_false_iff.2 fun hw => hne ?_)
    exact (hinv.read hw hr).poll_read waker'
  · refine called_of_not_waits hlast (eq_false_iff.2 fun hw => hne ?_)
    obtain ⟨hr, hfull⟩ := hinv.ready hw hs
    unfold poll_ready
    rw [if_pos hr]
    exact hfull.poll_ready waker'

/-- A chunk that fills the buffer, a sender that waits, and the receiver takes the chunk. -/
theorem no_lost_wake_two : ∃ (s : Bstream Unit) (called : Bool), Reach step Orderly (new false 2) s ∧
    s.inner.send_task.last = some (4, called) ∧ (s.poll_ready 4).1 = some .Ready ∧ called = true := by
  have hreach : Reach step Orderly (new false 2 : Bstream Unit) _ := .of_steps
      [.poll_read 3, .feed_data [1, 2], .poll_ready 4,
      .poll_read 3] rfl
  exact ⟨_, _, hreach, rfl, rfl, (no_lost_wake (by decide) hreach).2 4 true 4 rfl (by decide) nofun⟩

/-- The last sender is dropped while the receiver waits: `poll_read` would return the end of the stream, and the receiver is not
woken. -/
theorem lost_wake_of_drop : ∃ s : Bstream Unit, Reach step (fun _ _ => True) (new false 1) s ∧ s.receiver = true ∧
    s.inner.recv_task.last = some (3, false) ∧ (s.inner.poll_read 3).1 = some none := by
  have hreach : Reach step (fun _ _ => True) (new false 1 : Bstream Unit) _ := .of_steps [.poll_read 3, .drop_sender] rfl
  exact ⟨_, hreach, rfl, rfl, rfl⟩

end Bstream

end Geario.Channel
