import Geario.Lib.Run
import Geario.Polling.Stream
/-!
# The driver's handle

A connection takes its handle out of the cell for a call of the driver and puts
it back after that. A connection that is terminated inside the call has no handle
to drop, so the handle that is put back stays.
-/
open Lib

namespace Geario.Io

namespace IoState

def with_handle (hnd : IoState → IoState) (s : IoState) : IoState :=
  if s.handle then { hnd { s with handle := false } with handle := true } else s

/-- `transparent`: the filters pass output through unchanged. -/
def try_write_vectored (write_bufs : IoState → IoState) (s : IoState) (transparent : Bool) : IoState :=
  if s.flags.is_stopping_any || s.buffer.write_buf_size ≠ 0 || !transparent then s else s.with_handle write_bufs

def send_buf (hnd_write : IoState → IoState) (s : IoState) : IoState :=
  let s := s.consolidate_write_state hnd_write true
  if s.flags.is_stopping_any then { s with error := none } else s

inductive Use
  | with_write_buf (d : Data) (hnd : IoState → IoState)
  | send_buf (hnd : IoState → IoState)
  | try_write_vectored (transparent : Bool) (hnd : IoState → IoState)
  | update_read_status (buf : Data) (status : Except IoError Nat)
  /-- `call_notify`, at the end of `update_read_status` -/
  | notify (hnd : IoState → IoState)
  | run (hnd : IoState → IoState)
  | terminate_connection (err : Option IoError)

def use (s : IoState) : Use → Option IoState
  | .with_write_buf d hnd => some ((s.write hnd d).getD s)
  | .send_buf hnd => some (s.send_buf hnd)
  | .try_write_vectored transparent hnd => some (s.try_write_vectored hnd transparent)
  | .update_read_status buf status => some (s.update_read_status buf status).2
  | .notify hnd => some (s.with_handle hnd)
  | .run hnd => some (s.ops_send_buf hnd)
  | .terminate_connection err => some (s.terminate_connection err)

/-- A callback leaves `IO_STOPPED` as it is. -/
def Calm (hnd : IoState → IoState) : Prop := ∀ s, (hnd s).flags.io_stopped = s.flags.io_stopped

def Outside (_ : IoState) : Use → Prop
  | .with_write_buf _ hnd | .send_buf hnd | .try_write_vectored _ hnd | .notify hnd | .run hnd => Calm hnd
  | .update_read_status .. | .terminate_connection _ => True

/-- A stopped io has no handle. -/
def Released (s : IoState) : Prop := s.flags.io_stopped = true → s.handle = false

variable {s s' : IoState} {hnd : IoState → IoState}

section

variable (h : s.Released)
include h

lemma Released.with_handle (hk : Calm hnd) : (s.with_handle hnd).Released := by
  grind [Released, Calm, IoState.with_handle]

lemma Released.call_write (hk : Calm hnd) : (s.call_write hnd).2.Released := by
  grind [Released, Calm, IoState.call_write]

lemma Released.wr_backpressure (size : Nat) : (s.wr_backpressure size).Released := by
  grind [Released, IoState.wr_backpressure, wake_dispatch_task]

lemma Released.consolidate (hk : Calm hnd) (force : Bool) : (s.consolidate_write_state hnd force).Released := by
  have hcall := h.call_write hk
  refine Released.wr_backpressure ?_ _
  grind [Released, start_write, schedule_write]

lemma Released.terminate (err : Option IoError) : (s.terminate_connection err).Released := by
  grind [Released, terminate_connection, Flags.is_terminated]

lemma Released.read (buf : Data) (status : Except IoError Nat) : (s.update_read_status buf status).2.Released := by
  cases status with
  | error err => exact Released.terminate (s := { s with buffer := s.buffer.set_read_buf buf }) h (some err)
  | ok nbytes => grind [Released, IoState.update_read_status, read_processed, read_grown, read_notify, wake_dispatch_task,
      Flags.set_read_ready_and_backpressure]

lemma released_use {i : Use} (hok : s.Outside i) (hs : s.use i = some s') : s'.Released := by
  cases i with
  | with_write_buf d hnd =>
    cases hs
    have hw := Released.consolidate (s := { s with buffer := s.buffer.append_write_src d }) h hok false
    grind [IoState.write]
  | send_buf hnd =>
    cases hs
    have hw := h.consolidate hok true
    grind [IoState.send_buf, Released]
  | try_write_vectored transparent hnd =>
    cases hs
    have hw := h.with_handle hok
    grind [IoState.try_write_vectored]
  | update_read_status buf status =>
    cases hs
    exact h.read buf status
  | notify hnd =>
    cases hs
    exact h.with_handle hok
  | run hnd =>
    cases hs
    have hw := Released.call_write (s := { s with flags.wr_send_op := false }) h hok
    grind [ops_send_buf, Released, wake_write_task]
  | terminate_connection err =>
    cases hs
    exact h.terminate err

end

/-- A connection that has been terminated has no handle, if it was not terminated inside a call of the driver. -/
theorem handle_released {init : IoState} (h0 : init.flags.io_stopped = false) (h : Reach use Outside init s) :
    s.flags.io_stopped = true → s.handle = false :=
  h.inv Released (fun hs => by cases h0.symm.trans hs) fun _ _ _ hx hok hs => released_use hx hok hs

/-- The driver writes, and then the connection is terminated. -/
theorem handle_released_after_write :
    ∃ s, Reach use Outside (.new ⟨64, 64, 32, 1⟩ none) s ∧ s.flags.io_stopped = true ∧ s.handle = false := by
  have hreach : Reach use Outside (.new ⟨64, 64, 32, 1⟩ none) _ :=
    .step (i := .terminate_connection none) (.step (i := .with_write_buf [1] id) .refl (fun _ => rfl) rfl) trivial rfl
  exact ⟨_, hreach, rfl, handle_released rfl hreach rfl⟩

/-- The socket accepts nothing when the polling driver writes at once. -/
theorem handle_kept :
    ∃ s, Reach use (fun _ _ => True) (.new ⟨64, 64, 32, 1⟩ none) s ∧ s.flags.io_stopped = true ∧ s.handle = true :=
  ⟨_, .step (i := .with_write_buf [1] (Polling.hnd_write [1] (.ready 0))) .refl trivial rfl, rfl, rfl⟩

end IoState

end Geario.Io
