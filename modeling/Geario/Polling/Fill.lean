import Geario.Io.Recv
import Geario.Lib.Run
import Geario.Polling.Read
/-!
# `Io::read` over driver reads

One task fills slices one after the other, and the driver reads, is paused, and
stops in between. A waiting `Io::read` is taken up where it asks whether the
connection is ready, and a closed one says no whatever there is in its buffer.
So the bytes that complete the slice must be looked at before the close.
-/
open Geario.Io
open Lib (Reach of_bind of_guard of_map)
open List Option

namespace Geario.Polling

structure Reader where
  io : IoState
  arrived : Data
  taken : Data
  reading : Option Nat
  /-- what the last step returned for a slice of which length; without a slice it is `UnexpectedEof` -/
  returned : Option (Nat × Option Data)
  deriving DecidableEq

namespace Reader

inductive Step
  | driver (result : ReadResult)
  | stop
  | pause
  | call (len : Nat)
  | poll
  deriving DecidableEq

variable {cfg : IoConfig} {layers : Option Nat} {s s' : Reader} {i : Step}

def new (cfg : IoConfig) (layers : Option Nat) : Reader :=
  { io := .new cfg layers, arrived := [], taken := [], reading := none, returned := none }

def note (s : Reader) (len : Nat) (r : Option (Option Data)) (io : IoState) : Reader :=
  { s with
    io
    taken := s.taken ++ (r.getD none).getD []
    reading := if r.isNone then some len else none
    returned := r.map fun dst => (len, dst) }

def running (s : Reader) : IoState := { s.io with dispatch_task.woken := false }

def step (s : Reader) : Step → Option Reader
  | .driver (.data []) => none
  | .driver (.data d) =>
    some { s with io := (Polling.read s.io (.data d)).2, arrived := s.arrived ++ d, returned := none }
  | .driver result => some { s with io := (Polling.read s.io result).2, returned := none }
  | .stop => some { s with io := s.io.terminate_connection none, returned := none }
  | .pause => some { s with io := s.io.pause, returned := none }
  | .call len => if s.reading = none then (s.running.read 2 len).map fun (r, io) => s.note len r io else none
  | .poll => s.reading.bind fun len => (IoState.read_resume 2 s.running len).map fun (r, io) => s.note len r io

/-- When the connection closes, a waiting read has looked at the bytes that complete its slice; and none arrive for it
after that. -/
def Timely (s : Reader) : Step → Prop
  | .driver (.data d) => s.io.flags.is_closed = true → ∀ len ∈ s.reading, s.io.buffer.dst.length + d.length < len
  | .driver .eof | .driver (.error _) | .stop => ∀ len ∈ s.reading, s.io.buffer.dst.length < len
  | _ => True

instance (s : Reader) (i : Step) : Decidable (s.Timely i) := by
  unfold Timely
  split <;> infer_instance

structure Inv (s : Reader) : Prop where
  up : s.io.buffer.Up
  pending : s.io.buffer.pending = []
  bytes : s.taken ++ s.io.buffer.dst = s.arrived
  armed : ∀ len ∈ s.reading, s.io.dispatch_task.Armed
  woken : ∀ len ∈ s.reading, len ≤ s.io.buffer.dst.length →
    s.io.dispatch_task.woken = true ∧ s.io.flags.buf_r_ready = true ∧ s.io.flags.is_closed = false
  ok : ∀ len dst, s.returned = some (len, some dst) → dst.length = len ∧ dst <:+ s.taken
  eof : ∀ len, s.returned = some (len, none) → s.io.buffer.dst.length < len

namespace Inv

lemma init : Inv (new cfg layers) := by
  obtain ⟨hdst, hp, hup⟩ := Stack.new_input layers
  exact ⟨hup, hp, hdst, nofun, nofun, nofun, nofun⟩

lemma of_same {io' : IoState} (h : Inv s) (ho : s.io.OnlyReads io') (hup : io'.buffer.Up)
    (hd : io'.buffer.dst = s.io.buffer.dst) (hp : io'.buffer.pending = s.io.buffer.pending)
    (hw : io'.dispatch_task = s.io.dispatch_task) (hready : io'.flags.buf_r_ready = s.io.flags.buf_r_ready) :
    Inv { s with io := io', returned := none } where
  up := hup
  pending := hp.trans h.pending
  bytes := by rw [hd]; exact h.bytes
  armed len hlen := hw ▸ h.armed len hlen
  woken len hlen hle := by rw [hw, hready, ho.is_closed]; exact h.woken len hlen (hd ▸ hle)
  ok := nofun
  eof := nofun

lemma of_stop {io' : IoState} (err : Option IoError) (h : Inv s) (hc : ∀ len ∈ s.reading, s.io.buffer.dst.length < len)
    (hl : io'.buffer.layers = s.io.buffer.layers) (hd : io'.buffer.dst = s.io.buffer.dst)
    (hp : io'.buffer.pending = s.io.buffer.pending)
    (hw : io'.dispatch_task = (s.io.terminate_connection err).dispatch_task) :
    Inv { s with io := io', returned := none } where
  up l hm := h.up l (hl ▸ hm)
  pending := hp.trans h.pending
  bytes := by rw [hd]; exact h.bytes
  armed len hlen := by
    rw [hw]
    rcases (s.io.terminate_connection_spec err).2.2.2.2.2 with ⟨-, hsame⟩ | ⟨-, -, -, hwake⟩
    · rw [hsame]
      exact h.armed len hlen
    · rw [hwake]
      exact LocalWaker.armed_wake (h.armed len hlen)
  woken len hlen hle := absurd (hc len hlen) (Nat.not_lt.2 (hd ▸ hle))
  ok := nofun
  eof := nofun

lemma of_data {d : Data} (h : Inv s) (hne : d ≠ []) (hc : s.Timely (.driver (.data d))) :
    Inv { s with io := (Polling.read s.io (.data d)).2, arrived := s.arrived ++ d, returned := none } := by
  obtain ⟨hdst, hp, hup, ho, hw, hready⟩ := read_data_spec hne h.up
  rw [Stack.received, h.pending, append_nil] at hdst
  refine ⟨hup, hp, ?_, fun len hlen => ?_, fun len hlen hle => ⟨?_, hready, ?_⟩, (by intros; contradiction), (by intros; contradiction)⟩
  · rw [hdst, ← append_assoc, h.bytes]
  · rw [hw]
    exact LocalWaker.armed_wake (h.armed len hlen)
  · rw [hw]
    exact LocalWaker.woken_wake (h.armed len hlen)
  · rw [ho.is_closed, ← Bool.not_eq_true]
    intro hclosed
    have hlt := hc hclosed len hlen
    rw [hdst, length_append] at hle
    omega

lemma of_reads {len : Nat} {r : Option (Option Data)} {io : IoState} (h : Inv s)
    (hr : s.running.Reads len r io) : Inv (s.note len r io) := by
  have hup : io.buffer.Up := hr.up h.up
  have hp : io.buffer.pending = [] := hr.pending.trans h.pending
  match r, hr with
  | none, hr =>
    obtain ⟨hd, hlt, hreg⟩ := hr.waits rfl
    refine ⟨hup, hp, ?_, fun _ _ => .inl hreg, fun len' hlen hle => ?_, nofun, nofun⟩
    · change s.taken ++ [] ++ io.buffer.dst = s.arrived
      rw [append_nil, hd]
      exact h.bytes
    · cases hlen
      exact absurd hlt (Nat.not_lt.2 (hd ▸ hle))
  | some none, hr =>
    obtain ⟨hd, hlt⟩ := hr.eof rfl
    refine ⟨hup, hp, ?_, nofun, nofun, nofun, fun len' hlen => ?_⟩
    · change s.taken ++ [] ++ io.buffer.dst = s.arrived
      rw [append_nil, hd]
      exact h.bytes
    · cases hlen
      exact hd ▸ hlt
  | some (some dst), hr =>
    obtain ⟨hlen, hd⟩ := hr.ok dst rfl
    refine ⟨hup, hp, ?_, nofun, nofun, fun len' dst' hret => ?_, nofun⟩
    · change s.taken ++ dst ++ io.buffer.dst = s.arrived
      rw [append_assoc, hd]
      exact h.bytes
    · obtain ⟨rfl, heq⟩ := Prod.mk.inj (some.inj hret)
      cases heq
      exact ⟨hlen, s.taken, rfl⟩

lemma step (h : Inv s) (hc : s.Timely i) (hst : s.step i = some s') : Inv s' := by
  cases i with
  | driver result =>
    cases result with
    | data d =>
      cases d with
      | nil => cases hst
      | cons x d =>
        cases hst
        exact h.of_data (cons_ne_nil x d) hc
    | pending =>
      cases hst
      obtain ⟨hd, hp, hup, ho, hw, hflags⟩ := read_pending_spec s.io
      exact h.of_same ho (hup h.up) hd hp hw (congrArg Flags.buf_r_ready hflags)
    | eof =>
      cases hst
      obtain ⟨buffer, hio, hl, hd, hp⟩ := read_eof_spec s.io
      rw [hio]
      exact h.of_stop none hc hl hd hp rfl
    | error e =>
      cases hst
      obtain ⟨buffer, hio, hl, hd, hp⟩ := read_error_spec s.io e
      rw [hio]
      exact h.of_stop (some e) hc hl hd hp rfl
  | stop =>
    cases hst
    obtain ⟨hb, -⟩ := s.io.terminate_connection_spec none
    exact h.of_stop none hc (congrArg Stack.layers hb) (congrArg Stack.dst hb) (congrArg Stack.pending hb) rfl
  | pause =>
    cases hst
    obtain ⟨hb, ho, hw, hready⟩ := s.io.pause_spec
    exact h.of_same ho (hb ▸ h.up) (congrArg Stack.dst hb) (congrArg Stack.pending hb) hw hready
  | call len =>
    obtain ⟨-, hst⟩ := of_guard hst
    obtain ⟨r, io, hr, hreads⟩ := s.running.read_spec len
    rw [hr] at hst
    cases hst
    exact h.of_reads hreads
  | poll =>
    obtain ⟨len, hlen, hst⟩ := of_bind hst
    obtain ⟨⟨r, io⟩, hr, rfl⟩ := of_map hst
    refine h.of_reads (IoState.read_resume_spec hr fun hcase => ?_)
    -- enough bytes would have been announced, and the connection would be open
    by_contra hle
    obtain ⟨-, hready, hopen⟩ := h.woken len hlen (Nat.not_lt.1 hle)
    rcases hcase with hclosed | hnot
    · cases hclosed.symm.trans hopen
    · cases hnot.symm.trans hready

end Inv

/-- With every close at the right time: the bytes are in order, a slice is filled completely, `UnexpectedEof` means that
bytes are missing, and a read that could go on has been woken. -/
theorem read_fails_only_when_missing (hr : Reach step Timely (new cfg layers) s) :
    s.taken ++ s.io.buffer.dst = s.arrived ∧
      (∀ len dst, s.returned = some (len, some dst) → dst.length = len ∧ dst <:+ s.taken) ∧
      (∀ len, s.returned = some (len, none) → s.io.buffer.dst.length < len) ∧
      (∀ len ∈ s.reading, len ≤ s.io.buffer.dst.length → s.io.dispatch_task.woken = true) := by
  have h : Inv s := hr.inv Inv Inv.init fun _ _ _ h hc hst => h.step hc hst
  exact ⟨h.bytes, h.ok, h.eof, fun len hlen hle => (h.woken len hlen hle).1⟩

/-- A slice filled over two reads of the driver, and one for which a byte is missing. -/
theorem read_of_two_chunks : ∃ s : Reader, s.returned = some (2, none) ∧ s.taken = [1, 2, 3] ∧ s.io.buffer.dst.length < 2 := by
  have hreach : Reach step Timely (new ⟨4, 4, 2, 1⟩ none) _ := .of_steps
      [.call 3, .driver (.data [1, 2]), .poll, .driver (.data [3, 4]), .poll, .stop, .call 2] rfl
  refine ⟨_, ?_, ?_, (read_fails_only_when_missing hreach).2.2.1 2 rfl⟩
  · rfl
  · rfl

/-- Both bytes arrive and the connection is stopped before the waiting read is polled again. -/
theorem read_eof_with_bytes : ∃ s : Reader, Reach step (fun _ _ => True) (new ⟨4, 4, 2, 1⟩ none) s ∧
    s.returned = some (2, none) ∧ s.io.buffer.dst = [1, 2] := by
  have hreach : Reach step (fun _ _ => True) (new ⟨4, 4, 2, 1⟩ none) _ := .of_steps
      [.call 2, .driver (.data [1, 2]), .stop, .poll] rfl
  exact ⟨_, hreach, rfl, rfl⟩

end Reader

end Geario.Polling
