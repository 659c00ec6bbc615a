import Geario.Io.Recv
import Geario.Lib.Run
import Geario.Polling.Read
/-!
# Frames do not depend on how bytes arrive

The peer sends a byte string. The driver reads it in pieces of any size, reading
is paused and resumed, the application polls `recv` whenever it likes, and after
the last read the connection is stopped. Whatever the order, what `recv` has
returned together with what the rest still decodes to is what the whole string
decodes to; so it returns exactly those items and then `Ok(None)`.
-/
open Geario.Io
open Lib (Decoder Reach)
open List Option

namespace Geario.Polling

structure Session (ι : Type) where
  io : IoState
  input : Data
  items : List ι
  ended : Bool
  failed : Bool
  waiting : Bool
  deriving DecidableEq

namespace Session

inductive Step
  | read (n : Nat)
  | would_block
  | eof
  | stop
  | pause
  | recv
  deriving DecidableEq

variable {ι : Type} {d : Decoder UInt8 ι} {cfg : IoConfig} {B : Data} {s s' : Session ι} {i : Step}

def new (cfg : IoConfig) (B : Data) : Session ι :=
  { io := .new cfg none, input := B, items := [], ended := false, failed := false, waiting := false }

def note (s : Session ι) : Option (Recv ι) → Session ι
  | none => { s with waiting := true }
  | some (.ok (some x)) => { s with waiting := false, items := s.items ++ [x] }
  | some (.ok none) => { s with waiting := false, ended := true }
  | some _ => { s with waiting := false, failed := true }

def poll (d : Decoder UInt8 ι) (s : Session ι) : Session ι :=
  let p := { s.io with dispatch_task.woken := false }.poll_recv d
  { s with io := p.2 }.note (p.1.map Io.recv)

def step (d : Decoder UInt8 ι) (s : Session ι) : Step → Option (Session ι)
  | .read n =>
    if 0 < n ∧ n ≤ s.input.length then
      some { s with io := (Polling.read s.io (.data (s.input.take n))).2, input := s.input.drop n }
    else none
  | .would_block => some { s with io := (Polling.read s.io .pending).2 }
  | .eof => if s.input = [] then some { s with io := (Polling.read s.io .eof).2 } else none
  | .stop => if s.input = [] then some { s with io := s.io.terminate_connection none } else none
  | .pause => some { s with io := s.io.pause }
  | .recv => some (s.poll d)

/-- There is only the base filter, no timer and no pending write; the connection is closed by being stopped. -/
structure Plain (io : IoState) : Prop where
  base : io.buffer.layers = none
  error : io.error = none
  dsp_timeout : io.flags.dsp_timeout = false
  dsp_w_backpressure : io.flags.dsp_w_backpressure = false
  io_stopping : io.flags.io_stopping = io.flags.io_stopped

structure Inv (d : Decoder UInt8 ι) (B : Data) (s : Session ι) : Prop where
  plain : Plain s.io
  items : s.items ++ d.items (s.io.buffer.dst ++ s.input) = d.items B
  stopped : s.io.flags.io_stopped = true → s.input = []
  ended : s.ended = true → d.items (s.io.buffer.dst ++ s.input) = []
  failed : s.failed = false
  armed : s.waiting = true → s.io.dispatch_task.Armed
  waiting : s.waiting = true → s.io.dispatch_task.woken = true ∨
    d.decode s.io.buffer.dst = none ∧ s.io.flags.io_stopped = false

namespace Plain

variable {io io' : IoState}

lemma up (h : Plain io) : io.buffer.Up := by
  intro l hl
  rw [h.base] at hl
  cases hl

lemma received (h : Plain io) : io.buffer.received = io.buffer.dst := by
  rw [Stack.received, Stack.pending_base h.base, append_nil]

lemma of_reads (h : Plain io) (ho : io.OnlyReads io') : Plain io' where
  base := isSome_eq_false_iff.1 (ho.layers.trans (by rw [h.base]; rfl)) |> isNone_iff_eq_none.1
  error := ho.error.trans h.error
  dsp_timeout := ho.dsp_timeout.trans h.dsp_timeout
  dsp_w_backpressure := ho.dsp_w_backpressure.trans h.dsp_w_backpressure
  io_stopping := ho.io_stopping.trans (h.io_stopping.trans ho.io_stopped.symm)

lemma of_stop (h : Plain io) : Plain (io.terminate_connection none) := by
  obtain ⟨hb, -, hs, ht, hw, hcase⟩ := io.terminate_connection_spec none
  rcases hcase with ⟨-, hsame⟩ | ⟨-, hstopping, herr, -⟩
  · rw [hsame]
    exact h
  · exact ⟨hb ▸ h.base, herr.trans h.error, ht.trans h.dsp_timeout, hw.trans h.dsp_w_backpressure, hstopping.trans hs.symm⟩

end Plain

namespace Inv

lemma init : Inv d B (new cfg B) where
  plain := ⟨rfl, rfl, rfl, rfl, rfl⟩
  items := rfl
  stopped := nofun
  ended := nofun
  failed := rfl
  armed := nofun
  waiting := nofun

section

variable (h : Inv d B s)
include h

lemma of_same {io' : IoState} (ho : s.io.OnlyReads io') (hd : io'.buffer.dst = s.io.buffer.dst)
    (hw : io'.dispatch_task = s.io.dispatch_task) : Inv d B { s with io := io' } where
  plain := h.plain.of_reads ho
  items := by rw [hd]; exact h.items
  stopped hs := h.stopped (ho.io_stopped ▸ hs)
  ended he := by rw [hd]; exact h.ended he
  failed := h.failed
  armed hwait := hw ▸ h.armed hwait
  waiting hwait := by rw [hw, hd, ho.io_stopped]; exact h.waiting hwait

lemma of_read {n : Nat} (hn : 0 < n) (hle : n ≤ s.input.length) :
    Inv d B { s with io := (Polling.read s.io (.data (s.input.take n))).2, input := s.input.drop n } := by
  have hne : s.input.take n ≠ [] := by
    intro h0
    have hlen := congrArg length h0
    rw [length_take, length_nil] at hlen
    omega
  obtain ⟨hdst, -, -, ho, hw, -⟩ := read_data_spec hne h.plain.up
  rw [h.plain.received] at hdst
  -- the bytes move from the input to the buffer
  have hsame : (Polling.read s.io (.data (s.input.take n))).2.buffer.dst ++ s.input.drop n = s.io.buffer.dst ++ s.input := by
    rw [hdst, append_assoc, take_append_drop]
  exact
    { plain := h.plain.of_reads ho
      items := by rw [hsame]; exact h.items
      stopped := fun hs => by rw [h.stopped (ho.io_stopped ▸ hs), drop_nil]
      ended := fun he => by rw [hsame]; exact h.ended he
      failed := h.failed
      armed := fun hwait => .inr (by rw [hw]; exact LocalWaker.woken_wake (h.armed hwait))
      waiting := fun hwait => .inl (by rw [hw]; exact LocalWaker.woken_wake (h.armed hwait)) }

lemma of_stop (hin : s.input = []) {io' : IoState} (hp : Plain io')
    (hd : io'.buffer.dst = s.io.buffer.dst) (hw : io'.dispatch_task = (s.io.terminate_connection none).dispatch_task) :
    Inv d B { s with io := io' } := by
  have hwoken : s.waiting → io'.dispatch_task.woken = true := by
    intro hwait
    rw [hw]
    rcases (s.io.terminate_connection_spec none).2.2.2.2.2 with ⟨hs, hsame⟩ | ⟨-, -, -, hwake⟩
    · rw [hsame]
      rcases h.waiting hwait with hwoken | ⟨-, hopen⟩
      · exact hwoken
      · rw [hs] at hopen
        cases hopen
    · rw [hwake]
      exact LocalWaker.woken_wake (h.armed hwait)
  exact
    { plain := hp
      items := by rw [hd]; exact h.items
      stopped := fun _ => hin
      ended := fun he => by rw [hd]; exact h.ended he
      failed := h.failed
      armed := fun hwait => .inr (hwoken hwait)
      waiting := fun hwait => .inl (hwoken hwait) }

lemma of_poll : Inv d B (s.poll d) := by
  have hp : Plain { s.io with dispatch_task.woken := false } :=
    { h.plain with }
  obtain ⟨ho, hcase⟩ := IoState.poll_recv_spec d hp.error hp.dsp_timeout hp.dsp_w_backpressure hp.io_stopping
  have hp' := hp.of_reads ho
  have hpoll : s.poll d = { s with io := _ }.note _ := rfl
  rw [hpoll]
  rcases hcase with ⟨x, n, hdec, hr, hdst⟩ | ⟨hdec, hdst, ⟨hs, hr⟩ | ⟨hs, hr, hw⟩⟩
  · rw [hr]
    have hitems := h.items
    rw [Decoder.items_append hdec] at hitems
    exact
      { plain := hp'
        items := by
          dsimp only [note, map_some, Io.recv]
          rw [hdst, append_assoc]
          exact hitems
        stopped := fun hs => h.stopped (ho.io_stopped ▸ hs)
        ended := fun he => by
          have hnil := h.ended he
          rw [Decoder.items_append hdec] at hnil
          cases hnil
        failed := h.failed
        armed := nofun
        waiting := nofun }
  · rw [hr]
    have hin : s.input = [] := h.stopped hs
    exact
      { plain := hp'
        items := by
          dsimp only [note, map_some, Io.recv]
          rw [hdst]
          exact h.items
        stopped := fun _ => hin
        ended := fun _ => by
          dsimp only [note, map_some, Io.recv]
          rw [hdst, hin, append_nil]
          exact Decoder.items_of_none hdec
        failed := h.failed
        armed := nofun
        waiting := nofun }
  · rw [hr]
    exact
      { plain := hp'
        items := by
          dsimp only [note, map_none]
          rw [hdst]
          exact h.items
        stopped := fun hs' => h.stopped (ho.io_stopped ▸ hs')
        ended := fun he => by
          dsimp only [note, map_none]
          rw [hdst]
          exact h.ended he
        failed := h.failed
        armed := fun _ => .inl (congrArg LocalWaker.registered hw)
        waiting := fun _ => .inr ⟨(congrArg d.decode hdst).trans hdec, ho.io_stopped.trans hs⟩ }

lemma step (hst : s.step d i = some s') : Inv d B s' := by
  cases i with
  | read n =>
    obtain ⟨hn, rfl⟩ := Lib.of_ite hst
    exact h.of_read hn.1 hn.2
  | would_block =>
    cases hst
    obtain ⟨hd, -, -, ho, hw, -⟩ := read_pending_spec s.io
    exact h.of_same ho hd hw
  | eof =>
    obtain ⟨hin, rfl⟩ := Lib.of_ite hst
    obtain ⟨buffer, hio, hl, hd, -⟩ := read_eof_spec s.io
    have hp := h.plain.of_stop
    have hp' : Plain (Polling.read s.io .eof).2 := by
      rw [hio]
      exact { hp with base := hl.trans h.plain.base }
    exact h.of_stop hin hp' (by rw [hio]; exact hd) (by rw [hio])
  | stop =>
    obtain ⟨hin, rfl⟩ := Lib.of_ite hst
    exact h.of_stop hin h.plain.of_stop (congrArg Stack.dst (s.io.terminate_connection_spec none).1) rfl
  | pause =>
    cases hst
    obtain ⟨hb, ho, hw, -⟩ := s.io.pause_spec
    exact h.of_same ho (congrArg Stack.dst hb) hw
  | recv =>
    cases hst
    exact h.of_poll

end

lemma of_reach (hr : Reach (Session.step d) (fun _ _ => True) (new cfg B) s) : Inv d B s :=
  hr.inv (Inv d B) init fun _ _ _ h _ hst => h.step hst

lemma poll_stopped (h : Inv d B s) (hs : s.io.flags.io_stopped) :
    (s.poll d).io.flags.io_stopped ∧
      ((s.poll d).ended ∨ (s.poll d).io.buffer.dst.length < s.io.buffer.dst.length) := by
  have hp := h.plain
  obtain ⟨ho, hcase⟩ := IoState.poll_recv_spec (s := { s.io with dispatch_task.woken := false })
    d hp.error hp.dsp_timeout hp.dsp_w_backpressure hp.io_stopping
  have hpoll : s.poll d = { s with io := _ }.note _ := rfl
  rw [hpoll]
  rcases hcase with ⟨x, n, hdec, hr, hdst⟩ | ⟨hdec, hdst, ⟨-, hr⟩ | ⟨hopen, -⟩⟩
  · rw [hr]
    refine ⟨ho.io_stopped.trans hs, .inr ?_⟩
    dsimp only [note, map_some, Io.recv]
    rw [hdst]
    exact d.length_drop_lt hdec
  · rw [hr]
    exact ⟨ho.io_stopped.trans hs, .inl rfl⟩
  · rw [hs] at hopen
    cases hopen

lemma drain (h : Inv d B s) (hs : s.io.flags.io_stopped) :
    ∃ t, Reach (Session.step d) (fun _ i => i = .recv) s t ∧ t.ended ∧ t.items = d.items B := by
  -- on how much is left in the buffer, which every item shortens
  induction hlen : s.io.buffer.dst.length using Nat.strongRecOn generalizing s with
  | _ len ih =>
    have hone : Reach (Session.step d) (fun _ i => i = .recv) s (s.poll d) := Reach.refl.step (i := .recv) rfl rfl
    obtain ⟨hs', hend | hlt⟩ := h.poll_stopped hs
    · have hitems := h.of_poll.items
      rw [h.of_poll.ended hend, append_nil] at hitems
      exact ⟨s.poll d, hone, hend, hitems⟩
    · obtain ⟨t, hr, ht⟩ := ih _ (hlen ▸ hlt) h.of_poll hs' rfl
      exact ⟨t, hone.trans hr, ht⟩

end Inv

def prefixed : Decoder UInt8 Data where
  decode
    | [] => none
    | n :: b => if n.toNat ≤ b.length then some (b.take n.toNat, n.toNat + 1) else none
  consumes := by
    intro b x n h
    cases b with
    | nil => cases h
    | cons k b =>
      dsimp only at h
      obtain ⟨hle, h⟩ := Option.ite_none_right_eq_some.1 h
      cases h
      exact ⟨Nat.succ_pos _, Nat.succ_le_succ hle⟩
  stable := by
    intro b r h c
    cases b with
    | nil => cases h
    | cons k b =>
      dsimp only [List.cons_append] at h ⊢
      obtain ⟨hle, h⟩ := Option.ite_none_right_eq_some.1 h
      have hle' : k.toNat ≤ (b ++ c).length := by
        rw [List.length_append]
        exact Nat.le_add_right_of_le hle
      rw [if_pos hle', List.take_append_of_le_length hle]
      exact h

end Session

end Geario.Polling
