import Geario.Io.Read
import Geario.Lib.Run
import Geario.Lib.Slab
import Geario.Uring.Stream
/-!
# Input on the io_uring driver

The peer sends a byte string and then closes. A receive that ends with
`SOCK_NONEMPTY` is submitted again with the data it has got, so bytes wait in
the operation until a receive ends without the flag. If that one finds the end
of the stream, or is cancelled because reading was paused, it reports zero bytes
and the layers are not run: what was waiting stays in front of them, and nobody
is told. The hang-up is reported by an operation of its own, which stops the
connection whatever is left in the socket, unless a receive has just announced
more. If receives end like this only without data, and the hang-up finds nothing
left, all input reaches the application before the connection is stopped.

Writing is left out.
-/
open Geario.Io
open Lib (Reach run Slab of_bind of_guard)
open List Option

namespace Geario.Uring

open StreamItem

/-! ## What the functions of an item do with the input -/

structure SameRead (s s' : IoState) : Prop where
  buffer : ∃ buffer, s' = { s with buffer }
  layers : s'.buffer.layers = s.buffer.layers
  dst : s'.buffer.dst = s.buffer.dst
  pending : s'.buffer.pending = s.buffer.pending

namespace SameRead

lemma refl (s : IoState) : SameRead s s := ⟨⟨s.buffer, rfl⟩, rfl, rfl, rfl⟩

lemma of_buffer {s : IoState} {buffer : Stack} (hl : buffer.layers = s.buffer.layers)
    (hr : buffer.read.getD [] = s.buffer.read.getD []) : SameRead s { s with buffer } := by
  obtain ⟨hd, hp⟩ := Stack.same_content hl hr
  exact ⟨⟨buffer, rfl⟩, hl, hd, hp⟩

variable {s s' : IoState}

lemma flags (h : SameRead s s') : s'.flags = s.flags := by
  obtain ⟨buffer, rfl⟩ := h.buffer
  rfl

lemma dispatch_task (h : SameRead s s') : s'.dispatch_task = s.dispatch_task := by
  obtain ⟨buffer, rfl⟩ := h.buffer
  rfl

lemma up (h : SameRead s s') (hup : s.buffer.Up) : s'.buffer.Up := fun l hl => hup l (h.layers ▸ hl)

end SameRead

lemma same_update_read_status (s : IoState) : SameRead s (s.update_read_status [] (.ok 0)).2 := by
  apply SameRead.of_buffer
  · exact Stack.layers_set_read_buf
  · rw [Stack.read_set_read_buf, append_nil]

lemma same_get_read_buf (s : IoState) :
    SameRead s (if s.get_read_buf.1 ≠ [] then (s.get_read_buf.2.update_read_status s.get_read_buf.1 (.ok 0)).2
      else s.get_read_buf.2) := by
  split
  · obtain ⟨buffer, hio, hl, hd, hp⟩ := s.put_read_buf_back
    rw [hio]
    exact ⟨⟨buffer, rfl⟩, hl, hd, hp⟩
  next hnil =>
    rw [ne_eq, not_not] at hnil
    unfold IoState.get_read_buf at hnil ⊢
    split
    · exact .refl s
    next hready =>
      rw [if_neg hready] at hnil
      split
      next buf buffer hget =>
        rw [hget] at hnil
        obtain ⟨hbuf, rfl⟩ := Prod.mk.inj hget
        have hread : ([] : Data) = s.buffer.read.getD [] := by
          rw [hbuf]
          exact hnil.symm
        exact SameRead.of_buffer (s := s) rfl hread
      · exact .refl s

/-- After a receive has ended the item is idle, or a fresh receive is under way. -/
structure Resumed (ctx : IoState) (d : Did) : Prop where
  same : SameRead ctx d.1.ctx
  op : d.2 = none ∧ d.1.rd_op = none ∨ ∃ key, d.2 = some { key, op := .Recv [] } ∧ d.1.rd_op = some key

lemma resumed_recv {item : StreamItem} {ctx : IoState} {key : Nat} (hctx : item.ctx = ctx) (h : item.rd_op = none) :
    Resumed ctx (item.recv key) := by
  subst hctx
  unfold StreamItem.recv
  rw [h]
  exact ⟨same_get_read_buf item.ctx, .inr ⟨key, rfl, rfl⟩⟩

lemma resumed_recv_ended (item : StreamItem) (h : item.rd_op = none) (buf : Data) (status : Res) (key : Nat) :
    Resumed (item.ctx.update_read_status buf status).2 (item.recv_ended buf status key) := by
  unfold recv_ended
  dsimp only
  split
  · exact resumed_recv rfl h
  · exact ⟨.refl _, .inl ⟨rfl, h⟩⟩

lemma resumed_recv_canceled (item : StreamItem) (buf : Data) (key : Nat) :
    Resumed (item.ctx.update_read_status buf (.ok 0)).2 (item.recv_canceled buf key) := by
  unfold recv_canceled
  dsimp only
  split
  · exact resumed_recv rfl rfl
  · exact ⟨.refl _, .inl ⟨rfl, rfl⟩⟩

structure Link where
  item : StreamItem
  recvs : Slab Data
  canceling : List Nat
  /-- the hang-up has not been reported -/
  poll : Bool
  unsent : Data
  socket : Data
  closed : Bool
  consumed : Data

namespace Link

inductive Step
  | send (n : Nat)
  | close
  | poll_readiness (key : Nat)
  | completed (k : Nat) (res : RecvRes) (nonempty : Bool) (key : Nat)
  | canceled (k : Nat) (key : Nat)
  | hang_up
  | consume (n : Nat)
  | pause
  | poll_read

variable {cfg : IoConfig} {layers : Option Nat} {B : Data} {s s' : Link} {i : Step}

def new (cfg : IoConfig) (layers : Option Nat) (B : Data) : Link :=
  { item := .new (.new cfg layers) false, recvs := .empty, canceling := [], poll := true, unsent := B, socket := [],
    closed := false, consumed := [] }

/-- A receive that was submitted gets a vacant key, which is not `slot`. -/
def did (s : Link) (slot : Option Nat) (d : Did) : Option Link :=
  match d.2 with
  | none => some { s with item := d.1 }
  | some { key, op := .Recv buf, .. } =>
    if s.recvs.contains key ∨ slot = some key then none else some { s with item := d.1, recvs := s.recvs.insert key buf }
  | some _ => none

def poll_readiness (s : Link) (key : Nat) : Option Link :=
  let r := s.item.ctx.poll_read_ready id false
  let item := { s.item with ctx := r.2 }
  match r.1 with
  | some .Ready => s.did none (item.recv key)
  | none => some { s with item := item.pause_read.1, canceling := item.pause_read.2.toList ++ s.canceling }
  | _ => some { s with item }

def kernel_recv (s : Link) : RecvRes → Option Data
  | .data d => if d ≠ [] ∧ d <+: s.socket then some (s.socket.drop d.length) else none
  | .eof => if s.closed = true ∧ s.socket = [] then some [] else none
  | .would_block => some s.socket
  | .error _ => none

def step (s : Link) : Step → Option Link
  | .send n => some { s with socket := s.socket ++ s.unsent.take n, unsent := s.unsent.drop n }
  | .close => if s.unsent = [] then some { s with closed := true } else none
  | .poll_readiness key => s.poll_readiness key
  | .completed k res nonempty key =>
    (s.recvs.get k).bind fun buf =>
      (s.kernel_recv res).bind fun socket =>
        { s with recvs := s.recvs.remove k, socket }.did (some k) (s.item.recv_completed buf res nonempty key)
  | .canceled k key =>
    if k ∈ s.canceling then
      (s.recvs.get k).bind fun buf => { s with recvs := s.recvs.remove k }.did none (s.item.recv_canceled buf key)
    else none
  | .hang_up => if s.poll = true ∧ s.closed = true then some { s with poll := false, item := s.item.poll_completed none } else none
  | .consume n =>
    let r := s.item.ctx.with_read_buf fun buf => (buf.take n, buf.drop n)
    some { s with item.ctx := r.2, consumed := s.consumed ++ r.1 }
  | .pause => some { s with item.ctx := s.item.ctx.pause }
  | .poll_read => some { s with item.ctx := s.item.ctx.poll_read.2 }

/-- A receive that finds the end or is cancelled has no data in it, and the hang-up is reported after all of the input, or
when it is ignored. -/
def Drained (s : Link) : Step → Prop
  | .completed k .eof _ _ => s.recvs.get k = some []
  | .canceled k _ => s.recvs.get k = some []
  | .hang_up => s.item.flags.rd_more = true ∨ s.item.ctx.flags.is_closed = true ∨
      s.socket = [] ∧ ∀ buf ∈ s.recvs.values, buf = []
  | _ => True

instance (s : Link) (i : Step) : Decidable (s.Drained i) := by
  unfold Drained
  split <;> infer_instance

def held (s : Link) : Data := (s.item.rd_op.bind s.recvs.get).getD []

def visible (s : Link) : Data := s.consumed ++ s.item.ctx.buffer.dst

/-- The dispatcher is woken and finds `BUF_R_READY`. -/
def Told (s s' : Link) : Prop :=
  s'.item.ctx.dispatch_task = s.item.ctx.dispatch_task.wake ∧ s'.item.ctx.flags.buf_r_ready = true

/-- The input is with the application, with the receive under way, in the socket or with the peer. -/
structure Inv (B : Data) (s : Link) : Prop where
  up : s.item.ctx.buffer.Up
  pending : s.item.ctx.buffer.pending = []
  bytes : s.visible ++ (s.held ++ (s.socket ++ s.unsent)) = B
  closed : s.closed = true → s.unsent = []
  only : ∀ k buf, s.recvs.get k = some buf → s.item.rd_op = some k
  stopped : s.item.ctx.flags.io_stopped = true → s.held = [] ∧ s.socket = [] ∧ s.unsent = []
  filters : s.item.ctx.flags.io_stopping_filters = true → s.item.ctx.flags.io_stopped = true

namespace Inv

lemma init : Inv B (new cfg layers B) := by
  obtain ⟨hdst, hp, hup⟩ := Stack.new_input layers
  refine ⟨hup, hp, ?_, nofun, nofun, nofun, nofun⟩
  change [] ++ (Stack.new layers).dst ++ ([] ++ ([] ++ B)) = B
  rw [hdst]
  rfl

lemma held_of_get {k : Nat} {buf : Data} (h : Inv B s) (hk : s.recvs.get k = some buf) : s.held = buf := by
  rw [held, h.only k buf hk, bind_some, hk]
  rfl

lemma vacant_remove {k : Nat} {buf : Data} (h : Inv B s) (hk : s.recvs.get k = some buf) (j : Nat) :
    (s.recvs.remove k).get j = none := by
  rw [Slab.get_remove]
  split
  · rfl
  next hne =>
    cases hj : s.recvs.get j with
    | none => rfl
    | some buf' => exact absurd (some.inj ((h.only j buf' hj).symm.trans (h.only k buf hk))) hne

lemma congr (h : Inv B s) (hc : s'.consumed = s.consumed) (hd : s'.item.ctx.buffer.dst = s.item.ctx.buffer.dst)
    (hp : s'.item.ctx.buffer.pending = s.item.ctx.buffer.pending) (hup : s.item.ctx.buffer.Up → s'.item.ctx.buffer.Up)
    (hs : s'.item.ctx.flags.io_stopped = s.item.ctx.flags.io_stopped)
    (hf : s'.item.ctx.flags.io_stopping_filters = s.item.ctx.flags.io_stopping_filters)
    (hop : s'.item.rd_op = s.item.rd_op) (hrecvs : s'.recvs = s.recvs) (hsock : s'.socket = s.socket)
    (hun : s'.unsent = s.unsent) (hcl : s'.closed = s.closed) : Inv B s' where
  up := hup h.up
  pending := hp.trans h.pending
  bytes := by
    rw [visible, held, hc, hd, hop, hrecvs, hsock, hun]
    exact h.bytes
  closed := by
    rw [hcl, hun]
    exact h.closed
  only := by
    rw [hrecvs, hop]
    exact h.only
  stopped := by
    rw [hs, held, hop, hrecvs, hsock, hun]
    exact h.stopped
  filters := by
    rw [hf, hs]
    exact h.filters

lemma did {d : Did} {slot : Option Nat} {buf : Data} (hd : s.did slot d = some s') (hvac : ∀ j, s.recvs.get j = none)
    (hop : d.2 = none ∧ d.1.rd_op = none ∧ buf = [] ∨ ∃ key, d.2 = some { key, op := .Recv buf } ∧ d.1.rd_op = some key)
    (hup : d.1.ctx.buffer.Up) (hpend : d.1.ctx.buffer.pending = [])
    (hbytes : s.consumed ++ d.1.ctx.buffer.dst ++ (buf ++ (s.socket ++ s.unsent)) = B) (hclosed : s.closed → s.unsent = [])
    (hstop : d.1.ctx.flags.io_stopped → buf = [] ∧ s.socket = [] ∧ s.unsent = [])
    (hfilters : d.1.ctx.flags.io_stopping_filters → d.1.ctx.flags.io_stopped) :
    Inv B s' ∧ s'.item.ctx = d.1.ctx ∧ s'.consumed = s.consumed := by
  obtain ⟨item', sub⟩ := d
  rcases hop with ⟨rfl, hnone, rfl⟩ | ⟨key, rfl, hkey⟩
  · cases hd
    have hheld : held { s with item := item' } = [] := by
      rw [held, show item'.rd_op = none from hnone]
      rfl
    refine ⟨⟨hup, hpend, ?_, hclosed, fun k buf hk => ?_, ?_, hfilters⟩, rfl, rfl⟩
    · rw [hheld]
      exact hbytes
    · cases (hvac k).symm.trans hk
    · rw [hheld]
      exact hstop
  · obtain ⟨-, rfl⟩ := Lib.of_ite_not hd
    have hheld : held { s with item := item', recvs := s.recvs.insert key buf } = buf := by
      rw [held, show item'.rd_op = some key from hkey, bind_some, Slab.get_insert_self]
      rfl
    refine ⟨⟨hup, hpend, ?_, hclosed, Slab.forall_insert hkey fun k buf' _ hk => ?_, ?_, hfilters⟩, rfl, rfl⟩
    · rw [hheld]
      exact hbytes
    · cases (hvac k).symm.trans hk
    · rw [hheld]
      exact hstop

lemma resumed {d : Did} {slot : Option Nat} {ctx : IoState} (hd : s.did slot d = some s') (hres : Resumed ctx d)
    (hvac : ∀ j, s.recvs.get j = none) (hup : ctx.buffer.Up) (hpend : ctx.buffer.pending = [])
    (hbytes : s.consumed ++ ctx.buffer.dst ++ (s.socket ++ s.unsent) = B) (hclosed : s.closed → s.unsent = [])
    (hstop : ctx.flags.io_stopped → s.socket = [] ∧ s.unsent = [])
    (hfilters : ctx.flags.io_stopping_filters → ctx.flags.io_stopped) :
    Inv B s' ∧ SameRead ctx s'.item.ctx ∧ s'.consumed = s.consumed := by
  have hsame := hres.same
  have hop : d.2 = none ∧ d.1.rd_op = none ∧ ([] : Data) = [] ∨
      ∃ key, d.2 = some { key, op := .Recv [] } ∧ d.1.rd_op = some key := by
    rcases hres.op with ⟨hnone, hop⟩ | h
    · exact .inl ⟨hnone, hop, rfl⟩
    · exact .inr h
  obtain ⟨hinv, hctx, hc⟩ := did hd hvac hop (hsame.up hup) (hsame.pending.trans hpend) (hsame.dst ▸ hbytes) hclosed
    (fun hs => ⟨rfl, hstop (hsame.flags ▸ hs)⟩) (hsame.flags ▸ hfilters)
  exact ⟨hinv, hctx ▸ hsame, hc⟩

end Inv

def Seen (s s' : Link) : Prop := s'.visible = s.visible ∨ Told s s'

lemma seen_of_same (hs : SameRead s.item.ctx s'.item.ctx) (hc : s'.consumed = s.consumed) : Seen s s' := by
  left
  rw [visible, visible, hs.dst, hc]

section Completed

variable {k : Nat} {buf : Data} {key : Nat} {nonempty : Bool} {socket : Data}

lemma inv_would_block (h : Inv B s) (hk : s.recvs.get k = some buf)
    (hst : { s with recvs := s.recvs.remove k }.did (some k) (s.item.recv_completed buf .would_block nonempty key) = some s') :
    Inv B s' ∧ Seen s s' := by
  have hheld := h.held_of_get hk
  obtain ⟨hinv, hctx, hc⟩ := Inv.did hst (h.vacant_remove hk) (.inr ⟨key, rfl, rfl⟩) h.up h.pending (hheld ▸ h.bytes)
    h.closed (hheld ▸ h.stopped) h.filters
  exact ⟨hinv, seen_of_same (hctx ▸ .refl _) hc⟩

lemma inv_eof (h : Inv B s) (hk : s.recvs.get k = some []) (hsock : s.closed ∧ s.socket = [])
    (hst : { s with recvs := s.recvs.remove k, socket := [] }.did (some k) (s.item.recv_completed [] .eof nonempty key) = some s') :
    Inv B s' ∧ Seen s s' := by
  obtain ⟨hb, -, hstopped, -⟩ := s.item.ctx.terminate_connection_spec none
  have hsame := same_update_read_status (s.item.ctx.terminate_connection none)
  have hres : Resumed ((s.item.ctx.terminate_connection none).update_read_status [] (.ok 0)).2
      (s.item.recv_completed [] .eof nonempty key) :=
    resumed_recv_ended { s.item with rd_op := none, ctx := s.item.ctx.terminate_connection none } rfl [] (.ok 0) key
  have hbytes := h.bytes
  rw [h.held_of_get hk, hsock.2, visible, ← hb, ← hsame.dst] at hbytes
  obtain ⟨hinv, hs, hc⟩ := Inv.resumed hst hres (h.vacant_remove hk) (hsame.up (hb ▸ h.up))
    (hsame.pending.trans (hb ▸ h.pending)) hbytes h.closed (fun _ => ⟨rfl, h.closed hsock.1⟩)
    (fun _ => hsame.flags ▸ hstopped)
  refine ⟨hinv, .inl ?_⟩
  rw [visible, visible, hs.dst, hsame.dst, hb, hc]

lemma inv_data {d : Data} (h : Inv B s) (hk : s.recvs.get k = some buf) (hd : d ≠ []) (hpre : d <+: s.socket)
    (hst : { s with recvs := s.recvs.remove k, socket := s.socket.drop d.length }.did (some k)
      (s.item.recv_completed buf (.data d) nonempty key) = some s') : Inv B s' ∧ Seen s s' := by
  obtain ⟨rest, hrest⟩ := hpre
  have hdrop : s.socket.drop d.length = rest := by rw [← hrest, drop_left]
  have hheld := h.held_of_get hk
  have hbytes := h.bytes
  have hrun : s.item.ctx.flags.io_stopped ≠ true := by
    intro hstop
    have hnil := (h.stopped hstop).2.1
    rw [← hrest, append_eq_nil_iff] at hnil
    exact hd hnil.1
  rw [hheld, ← hrest, append_assoc d] at hbytes
  rw [hdrop] at hst
  cases nonempty with
  | true =>
    rw [← append_assoc buf] at hbytes
    obtain ⟨hinv, hctx, hc⟩ := Inv.did hst (h.vacant_remove hk) (.inr ⟨key, rfl, rfl⟩) h.up h.pending hbytes h.closed
      (fun hstop => absurd hstop hrun) h.filters
    exact ⟨hinv, seen_of_same (hctx ▸ .refl _) hc⟩
  | false =>
    have hn : d.length ≠ 0 := fun h0 => hd (eq_nil_of_length_eq_zero h0)
    have hres : Resumed (s.item.ctx.update_read_status (buf ++ d) (.ok d.length)).2
        (s.item.recv_completed buf (.data d) false key) :=
      resumed_recv_ended { s.item with rd_op := none } rfl (buf ++ d) (.ok d.length) key
    obtain ⟨hr, hup, ho, -, hp, hwake, -⟩ := s.item.ctx.update_read_status_spec (buf ++ d) d.length h.up rfl
    have hrec : s.item.ctx.buffer.received = s.item.ctx.buffer.dst := by
      rw [Stack.received, h.pending, append_nil]
    have hdst : (s.item.ctx.update_read_status (buf ++ d) (.ok d.length)).2.buffer.dst =
        s.item.ctx.buffer.dst ++ (buf ++ d) := by
      rw [← hrec, ← hr, Stack.received, hp hn, append_nil]
    have hgrow : s.item.ctx.buffer.dst.length < (s.item.ctx.buffer.received ++ (buf ++ d)).length := by
      rw [hrec, length_append, length_append]
      omega
    have hbytes' : s.consumed ++ (s.item.ctx.update_read_status (buf ++ d) (.ok d.length)).2.buffer.dst ++
        (rest ++ s.unsent) = B := by
      rw [hdst, ← hbytes, visible]
      simp only [append_assoc]
    obtain ⟨hinv, hs, hc⟩ := Inv.resumed hst hres (h.vacant_remove hk) hup (hp hn) hbytes' h.closed
      (fun hstop => absurd (ho.io_stopped ▸ hstop) hrun) (by rw [ho.io_stopping_filters, ho.io_stopped]; exact h.filters)
    refine ⟨hinv, .inr ⟨hs.dispatch_task.trans (hwake hn hgrow), ?_⟩⟩
    rw [hs.flags]
    exact s.item.ctx.update_read_status_ready h.up hn hgrow

lemma inv_canceled (h : Inv B s) (hk : s.recvs.get k = some [])
    (hst : { s with recvs := s.recvs.remove k }.did none (s.item.recv_canceled [] key) = some s') : Inv B s' ∧ Seen s s' := by
  have hsame := same_update_read_status s.item.ctx
  have hres := resumed_recv_canceled s.item [] key
  have hbytes := h.bytes
  rw [h.held_of_get hk, visible, ← hsame.dst] at hbytes
  obtain ⟨hinv, hs, hc⟩ := Inv.resumed hst hres (h.vacant_remove hk) (hsame.up h.up) (hsame.pending.trans h.pending) hbytes
    h.closed (fun hstop => (h.stopped (hsame.flags ▸ hstop)).2) (hsame.flags ▸ h.filters)
  refine ⟨hinv, .inl ?_⟩
  rw [visible, visible, hs.dst, hsame.dst, hc]

end Completed

lemma same_poll_read_ready (h : Inv B s) :
    ∃ read_task, (s.item.ctx.poll_read_ready id false).2 = { s.item.ctx with read_task } := by
  have hdown : s.item.ctx.flags.is_shutting_down_filters = false := by
    rw [Io.Flags.is_shutting_down_filters]
    cases hf : s.item.ctx.flags.io_stopping_filters with
    | false => rfl
    | true => rw [h.filters hf, Bool.true_or, Bool.true_and, Bool.not_true]
  have hsame : s.item.ctx.shutdown_filters id false = s.item.ctx := by
    rw [IoState.shutdown_filters, hdown, if_neg nofun]
  unfold IoState.poll_read_ready IoState.base_poll_read_ready
  rw [hsame]
  dsimp only
  split
  · exact ⟨_, rfl⟩
  · split
    · exact ⟨_, rfl⟩
    · split <;> exact ⟨_, rfl⟩

lemma inv_poll_readiness {key : Nat} (h : Inv B s) (hst : s.poll_readiness key = some s') : Inv B s' ∧ Seen s s' := by
  obtain ⟨read_task, hctx⟩ := same_poll_read_ready h
  unfold poll_readiness at hst
  dsimp only at hst
  rw [hctx] at hst
  -- the same item with another waker
  have hreg : ∀ {item : StreamItem} {canceling : List Nat}, item.ctx = { s.item.ctx with read_task } →
      item.rd_op = s.item.rd_op → Inv B { s with item, canceling } ∧ Seen s { s with item, canceling } := by
    intro item canceling hitem hop
    refine ⟨h.congr rfl ?_ ?_ ?_ ?_ ?_ hop rfl rfl rfl rfl, .inl ?_⟩
    · rw [hitem]
    · rw [hitem]
    · rw [hitem]
      exact id
    · rw [hitem]
    · rw [hitem]
    · rw [visible, visible]
      rw [hitem]
  split at hst
  · cases hop : s.item.rd_op with
    | none =>
      have hvac : ∀ j, s.recvs.get j = none := by
        intro j
        cases hj : s.recvs.get j with
        | none => rfl
        | some buf => cases hop.symm.trans (h.only j buf hj)
      have hheld : s.held = [] := by
        rw [held, hop]
        rfl
      have hbytes := h.bytes
      rw [hheld] at hbytes
      obtain ⟨hinv, hs, hc⟩ := Inv.resumed hst (resumed_recv rfl hop) hvac h.up h.pending hbytes h.closed
        (fun hstop => (h.stopped hstop).2) h.filters
      refine ⟨hinv, .inl ?_⟩
      rw [visible, visible, hs.dst, hc]
    | some k =>
      have hrecv : ∀ item : StreamItem, item.rd_op = some k → item.recv key =
          ({ item with flags.rd_reissue := item.flags.rd_reissue || item.flags.rd_canceling }, none) := by
        intro item hitem
        rw [StreamItem.recv, hitem, if_neg nofun]
      rw [hrecv { s.item with ctx.read_task := read_task } hop] at hst
      cases hst
      exact hreg rfl rfl
  · cases hst
    refine hreg ?_ ?_
    all_goals
      unfold pause_read
      split <;> rfl
  · cases hst
    exact hreg rfl rfl

lemma inv_hang_up (h : Inv B s) (hok : s.Drained .hang_up) (hclosed : s.closed) :
    Inv B { s with poll := false, item := s.item.poll_completed none } ∧
      Seen s { s with poll := false, item := s.item.poll_completed none } := by
  unfold poll_completed
  split
  next hstop =>
    rw [Bool.and_eq_true, Bool.not_eq_true', Bool.not_eq_true'] at hstop
    obtain ⟨hb, -, hstopped, -⟩ := s.item.ctx.terminate_connection_spec none
    -- the hang-up is not ignored, so there is nothing left
    have hnone : s.socket = [] ∧ ∀ buf ∈ s.recvs.values, buf = [] := by
      rcases hok with hmore | hclosed | hnone
      · cases hstop.1.symm.trans hmore
      · cases hstop.2.symm.trans hclosed
      · exact hnone
    have hheld : s.held = [] := by
      rw [held]
      cases hbuf : s.item.rd_op.bind s.recvs.get with
      | none => rfl
      | some buf =>
        obtain ⟨k, -, hk⟩ := of_bind hbuf
        exact hnone.2 buf (Slab.mem_values.2 ⟨k, hk⟩)
    refine ⟨⟨hb ▸ h.up, hb ▸ h.pending, ?_, h.closed, h.only, fun _ => ⟨hheld, hnone.1, h.closed hclosed⟩, fun _ => hstopped⟩, .inl ?_⟩
    · rw [visible]
      rw [hb]
      exact h.bytes
    · rw [visible, visible]
      rw [hb]
  · exact ⟨{ h with }, .inl rfl⟩

lemma inv_step (h : Inv B s) (hok : s.Drained i) (hst : s.step i = some s') : Inv B s' ∧ Seen s s' := by
  cases i with
  | send n =>
    cases hst
    refine ⟨⟨h.up, h.pending, ?_, fun hcl => ?_, h.only, fun hstop => ?_, h.filters⟩, .inl rfl⟩
    · have hbytes := h.bytes
      rw [← take_append_drop n s.unsent, ← append_assoc s.socket] at hbytes
      exact hbytes
    · rw [h.closed hcl, drop_nil]
    · obtain ⟨hheld, hsock, hun⟩ := h.stopped hstop
      refine ⟨hheld, ?_, ?_⟩
      · simp [hsock, hun]
      · simp [hun]
  | close =>
    obtain ⟨hun, rfl⟩ := Lib.of_ite hst
    exact ⟨{ h with closed := fun _ => hun }, .inl rfl⟩
  | poll_readiness key => exact inv_poll_readiness h hst
  | completed k res nonempty key =>
    obtain ⟨buf, hk, hst⟩ := of_bind hst
    obtain ⟨socket, hkernel, hst⟩ := of_bind hst
    cases res with
    | data d =>
      obtain ⟨hd, rfl⟩ := Lib.of_ite hkernel
      exact inv_data h hk hd.1 hd.2 hst
    | eof =>
      obtain ⟨hsock, rfl⟩ := Lib.of_ite hkernel
      cases hk.symm.trans hok
      exact inv_eof h hk hsock hst
    | would_block =>
      cases hkernel
      exact inv_would_block h hk hst
    | error e => cases hkernel
  | canceled k key =>
    obtain ⟨-, hst⟩ := of_guard hst
    obtain ⟨buf, hk, hst⟩ := of_bind hst
    cases hk.symm.trans hok
    exact inv_canceled h hk hst
  | hang_up =>
    obtain ⟨hcl, rfl⟩ := Lib.of_ite hst
    exact inv_hang_up h hok hcl.2
  | consume n =>
    cases hst
    obtain ⟨hres, hdst, hp, ho, hup, -⟩ := s.item.ctx.with_read_buf_spec fun buf => (buf.take n, buf.drop n)
    have hvis : visible { s with
        item.ctx := (s.item.ctx.with_read_buf fun buf => (buf.take n, buf.drop n)).2
        consumed := s.consumed ++ (s.item.ctx.with_read_buf fun buf => (buf.take n, buf.drop n)).1 } = s.visible := by
      rw [visible, visible]
      rw [hres, hdst, append_assoc, take_append_drop]
    refine ⟨⟨hup h.up, hp.trans h.pending, ?_, h.closed, h.only, ?_, ?_⟩, .inl hvis⟩
    · rw [hvis]
      exact h.bytes
    · rw [ho.io_stopped]
      exact h.stopped
    · rw [ho.io_stopping_filters, ho.io_stopped]
      exact h.filters
  | pause =>
    cases hst
    obtain ⟨hb, ho, -⟩ := s.item.ctx.pause_spec
    refine ⟨h.congr rfl ?_ ?_ (hb ▸ id) ho.io_stopped ho.io_stopping_filters rfl rfl rfl rfl rfl, .inl ?_⟩
    · rw [hb]
    · rw [hb]
    · rw [visible, visible, hb]
  | poll_read =>
    cases hst
    obtain ⟨hb, ho, -⟩ := s.item.ctx.poll_read_spec
    refine ⟨h.congr rfl ?_ ?_ (hb ▸ id) ho.io_stopped ho.io_stopping_filters rfl rfl rfl rfl rfl, .inl ?_⟩
    · rw [hb]
    · rw [hb]
    · rw [visible, visible, hb]

/-- When receives end without data only if they hold none and the hang-up comes last: the bytes arrive in order, all are in
the read buffer before the connection is marked stopped, and the dispatcher is told. -/
theorem input_processed (hr : Reach step Drained (new cfg layers B) s) :
    s.visible <+: B ∧ (s.item.ctx.flags.io_stopped = true → s.visible = B) ∧
      ∀ i s', s.Drained i → s.step i = some s' → s.visible.length < s'.visible.length → Told s s' := by
  have h : Inv B s := hr.inv (Inv B) Inv.init fun _ _ _ h hok hst => (inv_step h hok hst).1
  refine ⟨⟨_, h.bytes⟩, fun hstop => ?_, fun i s' hok hst hlt => ?_⟩
  · obtain ⟨hheld, hsock, hun⟩ := h.stopped hstop
    have hbytes := h.bytes
    rwa [hheld, hsock, hun, append_nil, append_nil, append_nil] at hbytes
  · rcases (inv_step h hok hst).2 with hvis | htold
    · rw [hvis] at hlt
      exact absurd hlt (Nat.lt_irrefl _)
    · exact htold

/-- Two bytes are announced to be followed by a third, which comes in a receive of its own; then the end is found. -/
theorem input_processed_small : ∃ s : Link, s.item.ctx.flags.io_stopped = true ∧ s.visible = [1, 2, 3] := by
  have hreach : Reach step Drained (new ⟨64, 64, 32, 0⟩ (some 1) [1, 2, 3]) _ := .of_steps
      [.poll_readiness 1, .send 2, .completed 1 (.data [1, 2]) true 2, .send 1, .completed 2 (.data [3]) false 1, .consume 3,
        .close, .completed 1 .eof false 2] rfl
  refine ⟨_, ?_, (input_processed hreach).2.1 ?_⟩
  · rfl
  · rfl

/-- The end is found by a receive that holds two bytes, which stay in front of the layer. A cancelled receive leaves its
bytes and the dispatcher asleep. The hang-up comes with a byte in the socket. -/
theorem input_left_behind :
    (∃ s : Link, Reach step (fun _ _ => True) (new ⟨64, 64, 32, 0⟩ (some 0) [1, 2]) s ∧
      s.item.ctx.flags.io_stopped = true ∧ s.visible = [] ∧ s.item.ctx.buffer.pending = [1, 2]) ∧
    (∃ s s' : Link, Reach step (fun _ _ => True) (new ⟨64, 64, 32, 0⟩ none [1, 2]) s ∧ s.step (.canceled 2 3) = some s' ∧
      s.visible = [] ∧ s'.visible = [1, 2] ∧ s'.item.ctx.dispatch_task = { registered := true, woken := false }) ∧
    ∃ s : Link, Reach step (fun _ _ => True) (new ⟨64, 64, 32, 0⟩ none [1]) s ∧
      s.item.ctx.flags.io_stopped = true ∧ s.visible = [] ∧ s.socket = [1] := by
  refine ⟨?_, ?_, ?_⟩
  · exact ⟨_, .of_steps [.poll_readiness 1, .send 2, .completed 1 (.data [1, 2]) true 2, .close, .completed 2 .eof false 3] rfl,
      rfl, rfl, rfl⟩
  · exact ⟨_, _, .of_steps [.poll_read, .poll_readiness 1, .send 2, .completed 1 (.data [1, 2]) true 2, .pause,
      .poll_readiness 3] rfl, rfl, rfl, rfl, rfl⟩
  · exact ⟨_, .of_steps [.send 1, .close, .hang_up] rfl, rfl, rfl, rfl⟩

end Link

end Geario.Uring
