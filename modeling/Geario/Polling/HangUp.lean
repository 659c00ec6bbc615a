import Geario.Io.Write
import Geario.Lib.Run
import Geario.Polling.Read
/-!
# Input before a hang-up

The peer sends a byte string and then closes. The poller may report the hang-up
as soon as the close has arrived, whatever is still in the socket. An event
reads once and then stops the connection when the hang-up was reported, so
nothing is lost as long as that one read takes everything that is left.
-/
open Geario.Io
open Lib (Reach of_bind of_guard of_map)
open List Option

namespace Geario.Polling

structure Link where
  item : StreamItem
  unsent : Data
  socket : Data
  closed : Bool
  consumed : Data
  deriving DecidableEq

namespace Link

inductive Step
  | send (n : Nat)
  | close
  | event (ev : Event) (rd : ReadResult) (cuts : List Nat) (wr : WriteResult)
  | interest (rd wr : Bool) (rres : ReadResult) (cuts : List Nat) (wres : WriteResult)
  | consume (n : Nat)
  | pause
  | poll
  | write (d : Data) (cuts : List Nat) (wr : WriteResult)
  | send_buf (cuts : List Nat) (wr : WriteResult)
  deriving DecidableEq

variable {cfg : IoConfig} {layers : Option Nat} {B : Data} {s s' : Link} {i : Step} {item : StreamItem}
  {cuts : List Nat} {wr : WriteResult}

def new (cfg : IoConfig) (layers : Option Nat) (B : Data) : Link :=
  { item := { flags := {}, ctx := .new cfg layers }, unsent := B, socket := [], closed := false, consumed := [] }

def kernel_read (s : Link) : ReadResult → Option Data
  | .data d => if d ≠ [] ∧ d <+: s.socket then some (s.socket.drop d.length) else none
  | .eof => if s.closed = true ∧ s.socket = [] then some [] else none
  | .pending => if s.closed = false ∧ s.socket = [] then some [] else none
  | .error _ => none

def kernel_read_if (s : Link) (reads : Bool) (rd : ReadResult) : Option Data :=
  if reads then s.kernel_read rd else some s.socket

def step (s : Link) : Step → Option Link
  | .send n => some { s with socket := s.socket ++ s.unsent.take n, unsent := s.unsent.drop n }
  | .close => if s.unsent = [] then some { s with closed := true } else none
  | .event ev rd cuts wr =>
    if wr.Fine ∧ (ev.interrupt = true → s.closed = true) then
      (s.kernel_read_if ev.readable rd).bind fun socket =>
        (Polling.event s.item ev rd cuts wr).map fun item => { s with item, socket }
    else none
  | .interest rd wr rres cuts wres =>
    if wres.Fine then
      (s.kernel_read_if (s.item.reads rd) rres).bind fun socket =>
        (Polling.interest s.item rd wr rres cuts wres).map fun item => { s with item, socket }
    else none
  | .consume n =>
    let r := s.item.ctx.with_read_buf fun buf => (buf.take n, buf.drop n)
    some { s with item.ctx := r.2, consumed := s.consumed ++ r.1 }
  | .pause => some { s with item.ctx := s.item.ctx.pause }
  | .poll => some { s with item.ctx := s.item.ctx.poll_read.2 }
  | .write d cuts wr =>
    if wr.Fine then
      (s.item.ctx.write (hnd_write cuts wr) d).map fun ctx => { s with item.ctx := ctx }
    else none
  | .send_buf cuts wr =>
    if wr.Fine then some { s with item.ctx := s.item.ctx.ops_send_buf (hnd_write cuts wr) } else none

/-- A hang-up is reported when its event takes all that is left in the socket. -/
def Drained (s : Link) : Step → Prop
  | .event ev rd _ _ => ev.interrupt = true → s.kernel_read_if ev.readable rd = some []
  | _ => True

instance (s : Link) (i : Step) : Decidable (s.Drained i) := by
  unfold Drained
  split <;> infer_instance

structure Inv (B : Data) (s : Link) : Prop where
  up : s.item.ctx.buffer.Up
  pending : s.item.ctx.buffer.pending = []
  bytes : s.consumed ++ (s.item.ctx.buffer.dst ++ (s.socket ++ s.unsent)) = B
  closed : s.closed = true → s.unsent = []
  stopped : s.item.ctx.flags.io_stopped = true → s.socket = [] ∧ s.unsent = []

lemma onlyWrites_write_fine {io io' : IoState} {st : IoTaskStatus} (hw : wr.Fine)
    (h : Polling.write io cuts wr = some (st, io')) : io.OnlyWrites io' := by
  obtain ⟨⟨pages, rest⟩, -, heq⟩ := of_map h
  have hpages : ∃ written, (write_pages wr pages rest).1 = .ok written ∧ (write_pages wr pages rest).2.1 = false := by
    unfold write_pages
    split
    · exact ⟨_, rfl, rfl⟩
    · cases wr with
      | error e => exact hw.elim
      | ready n => exact ⟨_, rfl, decide_eq_false (Nat.ne_of_gt hw)⟩
      | pending => exact ⟨_, rfl, rfl⟩
  obtain ⟨written, hst, hstop⟩ := hpages
  dsimp only at heq
  rw [hst, hstop] at heq
  have hbuf : io.OnlyWrites { io with buffer := { io.buffer.process_write_buf with write := (write_pages wr pages rest).2.2 } } :=
    ⟨(Stack.sameInput_process_write_buf io.buffer).trans (Stack.sameInput_write _ _), rfl, id⟩
  have hio' := congrArg Prod.snd heq
  rw [← show _ = io' from hio']
  exact hbuf.trans (IoState.onlyWrites_update_write_status _ written)

lemma onlyWrites_hnd_write (hw : wr.Fine) (io : IoState) : io.OnlyWrites (hnd_write cuts wr io) := by
  unfold hnd_write
  cases h : Polling.write io cuts wr with
  | none => exact .refl io
  | some r => exact onlyWrites_write_fine hw h

lemma onlyWrites_event_write {writable : Bool}
    {w : Bool × StreamItem} (hw : wr.Fine) (h : event_write item writable cuts wr = some w) :
    item.ctx.OnlyWrites w.2.ctx := by
  unfold event_write at h
  split at h
  · obtain ⟨⟨st, io⟩, hr, rfl⟩ := of_map h
    exact onlyWrites_write_fine hw hr
  · cases h
    exact .refl item.ctx

lemma onlyWrites_interest_write {wr : Bool} {wres : WriteResult}
    {w : (Bool × Bool) × StreamItem} (hw : wres.Fine) (h : interest_write item wr cuts wres = some w) :
    item.ctx.OnlyWrites w.2.ctx := by
  unfold interest_write at h
  split at h
  · split at h
    · cases h
      exact .refl item.ctx
    · obtain ⟨⟨st, io⟩, hr, rfl⟩ := of_map h
      split <;> exact onlyWrites_write_fine hw hr
  · cases h
    exact .refl item.ctx

namespace Inv

lemma init : Inv B (new cfg layers B) := by
  obtain ⟨hdst, hp, hup⟩ := Stack.new_input layers
  refine ⟨hup, hp, ?_, nofun, nofun⟩
  change [] ++ ((Stack.new layers).dst ++ ([] ++ B)) = B
  rw [hdst]
  rfl

lemma of_ctx (h : Inv B s) (hctx : item.ctx = s.item.ctx) : Inv B { s with item } := by
  refine ⟨?_, ?_, ?_, h.closed, ?_⟩
  · exact hctx ▸ h.up
  · exact hctx ▸ h.pending
  · rw [hctx]
    exact h.bytes
  · exact hctx ▸ h.stopped

lemma of_same (h : Inv B s) (hi : Stack.SameInput s.item.ctx.buffer item.ctx.buffer)
    (hs : item.ctx.flags.io_stopped = s.item.ctx.flags.io_stopped) : Inv B { s with item } where
  up := hi.up h.up
  pending := hi.pending.trans h.pending
  bytes := by
    rw [hi.dst]
    exact h.bytes
  closed := h.closed
  stopped hstop := h.stopped (hs ▸ hstop)

lemma of_writes (h : Inv B s) (hw : s.item.ctx.OnlyWrites item.ctx) : Inv B { s with item } :=
  h.of_same hw.input hw.io_stopped

variable {rd : ReadResult} {socket : Data}

section

variable (h : Inv B s)
include h

lemma of_read (hk : s.kernel_read rd = some socket) :
    Inv B { s with item.ctx := (read s.item.ctx rd).2, socket } := by
  cases rd with
  | data d =>
    obtain ⟨hd, rfl⟩ := Lib.of_ite hk
    obtain ⟨rest, hrest⟩ := hd.2
    obtain ⟨hdst, hp, hup, ho, -⟩ := read_data_spec hd.1 h.up
    have hdrop : s.socket.drop d.length = rest := by rw [← hrest, drop_left]
    refine ⟨hup, hp, ?_, h.closed, fun hstop => ?_⟩
    · have hbytes := h.bytes
      rw [← hrest] at hbytes
      rw [hdst, hdrop, Stack.received, h.pending, append_nil, append_assoc, ← append_assoc d]
      exact hbytes
    · obtain ⟨hsock, hun⟩ := h.stopped (ho.io_stopped ▸ hstop)
      exact ⟨by rw [hsock, drop_nil], hun⟩
  | pending =>
    obtain ⟨hsock, rfl⟩ := Lib.of_ite hk
    obtain ⟨hd, hp, hup, ho, -⟩ := read_pending_spec s.item.ctx
    rw [← hsock.2]
    exact h.of_same ⟨hd, hp, hup⟩ ho.io_stopped
  | eof =>
    obtain ⟨hsock, rfl⟩ := Lib.of_ite hk
    obtain ⟨buffer, hio, hl, hd, hp⟩ := read_eof_spec s.item.ctx
    refine ⟨?_, ?_, ?_, h.closed, fun _ => ⟨rfl, h.closed hsock.1⟩⟩
    · rw [hio]
      exact fun l hm => h.up l (hl ▸ hm)
    · rw [hio]
      exact hp.trans h.pending
    · rw [hio, ← hsock.2]
      rw [hd]
      exact h.bytes
  | error e => cases hk

lemma of_stop (hsock : s.socket = []) (hun : s.unsent = []) :
    Inv B { s with item.ctx := s.item.ctx.terminate_connection none } := by
  obtain ⟨hb, -⟩ := s.item.ctx.terminate_connection_spec none
  refine ⟨?_, ?_, ?_, h.closed, fun _ => ⟨hsock, hun⟩⟩
  · exact hb ▸ h.up
  · exact hb ▸ h.pending
  · rw [hb]
    exact h.bytes

lemma of_event_read {readable : Bool} (hk : s.kernel_read_if readable rd = some socket) :
    Inv B { s with item := (event_read s.item readable rd).2, socket } := by
  cases readable with
  | true => exact (h.of_read hk).of_ctx rfl
  | false =>
    cases hk
    exact h

lemma of_interest_read {wish : Bool} (hk : s.kernel_read_if (s.item.reads wish) rd = some socket) :
    Inv B { s with item := (interest_read s.item wish rd).2, socket } := by
  unfold kernel_read_if StreamItem.reads at hk
  unfold interest_read
  cases wish with
  | true =>
    cases hrd : s.item.flags.rd with
    | true =>
      rw [hrd] at hk
      cases hk
      exact h
    | false =>
      rw [hrd] at hk
      have hread := h.of_read hk
      simp only [if_true, Bool.false_eq_true, if_false]
      split
      · exact hread.of_ctx rfl
      · exact hread
  | false =>
    cases hk
    exact h.of_ctx rfl

lemma step (hc : s.Drained i) (hst : s.step i = some s') : Inv B s' := by
  cases i with
  | send n =>
    cases hst
    refine ⟨h.up, h.pending, ?_, fun hcl => ?_, fun hstop => ?_⟩
    · rw [append_assoc s.socket, take_append_drop]
      exact h.bytes
    · rw [h.closed hcl, drop_nil]
    · obtain ⟨hsock, hun⟩ := h.stopped hstop
      rw [hsock, hun, take_nil, drop_nil]
      exact ⟨rfl, rfl⟩
  | close =>
    obtain ⟨hun, rfl⟩ := Lib.of_ite hst
    exact { h with closed := fun _ => hun }
  | event ev rd cuts wr =>
    obtain ⟨hev, hst⟩ := of_guard hst
    obtain ⟨socket, hk, hst⟩ := of_bind hst
    obtain ⟨item, hitem, rfl⟩ := of_map hst
    obtain ⟨w, hw, rfl⟩ := of_map hitem
    have hread := h.of_event_read hk
    have hwrite : Inv B { s with item := w.2, socket } := hread.of_writes (onlyWrites_event_write hev.1 hw)
    split
    next hint =>
      have hempty : socket = [] := some.inj (hk.symm.trans (hc hint))
      exact hwrite.of_stop hempty (h.closed (hev.2 hint))
    · exact hwrite.of_ctx rfl
  | interest rd wr rres cuts wres =>
    obtain ⟨hfine, hst⟩ := of_guard hst
    obtain ⟨socket, hk, hst⟩ := of_bind hst
    obtain ⟨item, hitem, rfl⟩ := of_map hst
    obtain ⟨w, hw, rfl⟩ := of_map hitem
    have hread := h.of_interest_read hk
    have hwrite : Inv B { s with item := w.2, socket } := hread.of_writes (onlyWrites_interest_write hfine hw)
    split
    · exact hwrite.of_ctx rfl
    · exact hwrite
  | consume n =>
    cases hst
    obtain ⟨hres, hdst, hp, ho, hup, -⟩ := s.item.ctx.with_read_buf_spec fun buf => (buf.take n, buf.drop n)
    refine ⟨hup h.up, hp.trans h.pending, ?_, h.closed, fun hstop => h.stopped (ho.io_stopped ▸ hstop)⟩
    rw [hres, hdst, append_assoc, ← append_assoc (take n _), take_append_drop]
    exact h.bytes
  | pause =>
    cases hst
    obtain ⟨hb, ho, -⟩ := s.item.ctx.pause_spec
    exact h.of_same (hb ▸ .refl _) ho.io_stopped
  | poll =>
    cases hst
    obtain ⟨hb, ho, -⟩ := s.item.ctx.poll_read_spec
    exact h.of_same (hb ▸ .refl _) ho.io_stopped
  | write d cuts wr =>
    obtain ⟨hfine, hst⟩ := of_guard hst
    obtain ⟨ctx, hctx, rfl⟩ := of_map hst
    exact h.of_writes (IoState.onlyWrites_write (onlyWrites_hnd_write hfine) hctx)
  | send_buf cuts wr =>
    obtain ⟨hfine, rfl⟩ := Lib.of_ite hst
    exact h.of_writes (IoState.onlyWrites_ops_send_buf (onlyWrites_hnd_write hfine) _)

end

end Inv

/-- When every hang-up comes with a read that takes the rest, the bytes arrive in order and all of them have reached the
read buffer before the connection is marked stopped. -/
theorem input_before_stop (hr : Reach step Drained (new cfg layers B) s) :
    s.consumed ++ s.item.ctx.buffer.dst <+: B ∧
      (s.item.ctx.flags.io_stopped = true → s.consumed ++ s.item.ctx.buffer.dst = B) := by
  have h : Inv B s := hr.inv (Inv B) Inv.init fun _ _ _ h hc hst => h.step hc hst
  have hbytes := h.bytes
  rw [← append_assoc] at hbytes
  refine ⟨⟨_, hbytes⟩, fun hstop => ?_⟩
  obtain ⟨hsock, hun⟩ := h.stopped hstop
  rwa [hsock, hun, append_nil, append_nil] at hbytes

/-- Two reads, and the hang-up is reported with the second. -/
theorem input_before_stop_small : ∃ s : Link, s.item.ctx.flags.io_stopped = true ∧ s.consumed = [1, 2] ∧
    s.consumed ++ s.item.ctx.buffer.dst = [1, 2, 3] := by
  have hreach : Reach step Drained (new ⟨4, 4, 2, 1⟩ (some 1) [1, 2, 3]) _ := .of_steps
      [.send 2, .interest true false (.data [1, 2]) [] .pending, .consume 2, .send 1, .close,
        .event ⟨true, false, true⟩ (.data [3]) [] .pending] rfl
  refine ⟨_, ?_, ?_, (input_before_stop hreach).2 rfl⟩
  · rfl
  · rfl

/-- The hang-up is reported while a byte is left after the one read of the event. -/
theorem stopped_with_input : ∃ s : Link, Reach step (fun _ _ => True) (new ⟨4, 4, 2, 1⟩ none [1, 2, 3]) s ∧
    s.item.ctx.flags.io_stopped = true ∧ s.consumed ++ s.item.ctx.buffer.dst = [1, 2] ∧ s.socket = [3] := by
  have hreach : Reach step (fun _ _ => True) (new ⟨4, 4, 2, 1⟩ none [1, 2, 3]) _ := .of_steps
      [.interest true false .pending [] .pending, .send 3, .close, .event ⟨true, false, true⟩ (.data [1, 2]) [] .pending] rfl
  exact ⟨_, hreach, rfl, rfl, rfl⟩

end Link

end Geario.Polling
