import Geario.Lib.Run
import Geario.Lib.Slab
import Geario.Uring.Stream
/-!
# The streams of an io_uring driver

`StreamOpsStorage` has a slab of streams and a slab of operations, and an
operation names its stream by the index in the first one. A stream is removed
when its `Close` has completed and both of its handles are gone; operations on
it may still be outstanding then. The next stream gets the same index, and with
it the completions of those operations. If no operation names a stream when it
is removed, the end of an operation touches no other connection than the one it
was submitted for.

Connections are numbered as they are registered, and operations carry the number
of the connection that submitted them; the driver does not know either. What a
connection does on its own is left open: it may change its `IoState` at any
time.
-/
open Geario.Io
open Lib (Reach Slab of_bind of_guard of_map)
open Option

namespace Geario.Uring

inductive SendCqe
  | last
  | more
  | notif
  deriving DecidableEq

inductive Cqe
  | recv (res : RecvRes) (nonempty : Bool)
  | send (flags : SendCqe) (res : Res)
  | poll (err : Option IoError)
  | close

namespace StreamItem

def completed (lim : Limits) (item : StreamItem) (op : Op) (cqe : Cqe) (cuts : List Nat) (key : Nat) :
    Option (Did × Option Op) :=
  match op, cqe with
  | .Recv buf, .recv res nonempty => some (item.recv_completed buf res nonempty key, none)
  | .Send buf result, .send .notif res =>
    (item.notif_completed lim (.Send buf result) (result.getD res) cuts key).map fun d => (d, none)
  | .Send buf _, .send .more res => (item.more_completed lim buf res cuts key).map fun d => (d, some (.Send buf (some res)))
  | .Send buf result, .send .last res => (item.write_completed lim (.Send buf result) res cuts key).map fun d => (d, none)
  | .Writev pages, .send .last res => (item.write_completed lim (.Writev pages) res cuts key).map fun d => (d, none)
  | .Poll, .poll err => some ((item.poll_completed err, none), none)
  | _, _ => none

def canceled (lim : Limits) (item : StreamItem) (op : Op) (cuts : List Nat) (key : Nat) : Option Did :=
  match op with
  | .Recv buf => some (item.recv_canceled buf key)
  | .Send buf result => item.write_canceled lim (.Send buf result) cuts key
  | .Writev pages => item.write_canceled lim (.Writev pages) cuts key
  | .Poll => some (item, none)
  | .Close => some (item, none)

end StreamItem

structure Stream where
  item : StreamItem
  ctl : Bool
  weak : Bool
  conn : Nat

structure Operation where
  id : Nat
  op : Op
  conn : Nat

structure Storage where
  ops : Slab Operation
  streams : Slab Stream
  next : Nat

namespace Storage

inductive Step
  | register (ctx : IoState) (no_zc : Bool) (id key : Nat)
  | app (id : Nat) (ctx : IoState)
  | resume_read (id key : Nat)
  | resume_write (id : Nat) (cuts : List Nat) (key : Nat)
  | pause_read (id : Nat)
  | drop_stream (id key : Nat)
  | drop_weak_stream (id : Nat)
  | completed (k : Nat) (cqe : Cqe) (cuts : List Nat) (key : Nat)
  | canceled (k : Nat) (cuts : List Nat) (key : Nat)

def Step.ends : Step → Option Nat
  | .completed k _ _ _ => some k
  | .canceled k _ _ => some k
  | _ => none

variable {lim : Limits} {st st' : Storage} {i : Step} {id : Nat} {e : Operation}

def new : Storage := { ops := .empty, streams := .empty, next := 0 }

/-- A function of the item of `x` is over. The operation it submitted gets a vacant key, which is not `slot`. -/
def did (st : Storage) (id : Nat) (x : Stream) (slot : Option Nat) (d : Did) : Option Storage :=
  let streams := st.streams.insert id { x with item := d.1 }
  match d.2 with
  | none => some { st with streams }
  | some s =>
    if st.ops.contains s.key ∨ slot = some s.key then none
    else some { st with streams, ops := st.ops.insert s.key { id, op := s.op, conn := x.conn } }

def register (st : Storage) (ctx : IoState) (no_zc : Bool) (id key : Nat) : Option Storage :=
  if st.streams.contains id ∨ st.ops.contains key then none
  else
    some
      { ops := st.ops.insert key { id, op := .Poll, conn := st.next }
        streams := st.streams.insert id { item := .new ctx no_zc, ctl := true, weak := true, conn := st.next }
        next := st.next + 1 }

def close_completed (st : Storage) (k id : Nat) (x : Stream) : Storage :=
  { st with
    ops := st.ops.remove k
    streams := if x.item.flags.dropped_sec then st.streams.remove id
      else st.streams.insert id { x with item.flags.dropped_pri := true } }

def slot_after (st : Storage) (k : Nat) (e : Operation) : Option Op → Slab Operation
  | none => st.ops.remove k
  | some op => st.ops.insert k { e with op }

def completed (lim : Limits) (st : Storage) (k : Nat) (e : Operation) (cqe : Cqe) (cuts : List Nat) (key : Nat) :
    Option Storage :=
  match e.op, cqe with
  | .Close, .close => (st.streams.get e.id).map fun x => st.close_completed k e.id x
  | op, cqe =>
    match st.streams.get e.id with
    | none => some { st with ops := st.ops.remove k }
    | some x =>
      (x.item.completed lim op cqe cuts key).bind fun r =>
        { st with ops := st.slot_after k e r.2 }.did e.id x (some k) r.1

def canceled (lim : Limits) (st : Storage) (k : Nat) (e : Operation) (cuts : List Nat) (key : Nat) : Option Storage :=
  match st.streams.get e.id with
  | none => some { st with ops := st.ops.remove k }
  | some x => (x.item.canceled lim e.op cuts key).bind ({ st with ops := st.ops.remove k }.did e.id x none)

def drop_weak_stream (st : Storage) (id : Nat) (x : Stream) : Storage :=
  { st with
    streams := if x.item.flags.dropped_pri then st.streams.remove id
      else st.streams.insert id { x with item.flags.dropped_sec := true, weak := false } }

def with_stream (st : Storage) (id : Nat) (handle : Stream → Bool) (f : Stream → Option Storage) : Option Storage :=
  (st.streams.get id).bind fun x => if handle x then f x else none

def step (lim : Limits) (st : Storage) : Step → Option Storage
  | .register ctx no_zc id key => st.register ctx no_zc id key
  | .app id ctx => st.with_stream id (fun _ => true) fun x => st.did id x none ({ x.item with ctx }, none)
  | .resume_read id key => st.with_stream id Stream.ctl fun x => st.did id x none (x.item.recv key)
  | .resume_write id cuts key => st.with_stream id Stream.ctl fun x => (x.item.send lim cuts key).bind (st.did id x none)
  | .pause_read id => st.with_stream id Stream.ctl fun x => st.did id x none (x.item.pause_read.1, none)
  | .drop_stream id key =>
    st.with_stream id Stream.ctl fun x => st.did id { x with ctl := false } none (x.item, some { key, op := .Close })
  | .drop_weak_stream id => st.with_stream id Stream.weak fun x => some (st.drop_weak_stream id x)
  | .completed k cqe cuts key => (st.ops.get k).bind fun e => st.completed lim k e cqe cuts key
  | .canceled k cuts key => (st.ops.get k).bind fun e => st.canceled lim k e cuts key

def Unnamed (ops : Slab Operation) (id : Nat) : Prop := ∀ e ∈ ops.values, e.id ≠ id

instance (ops : Slab Operation) (id : Nat) : Decidable (Unnamed ops id) := by
  unfold Unnamed
  infer_instance

/-- A stream that is removed in this step is not named by another operation. -/
def Quiet (st : Storage) : Step → Prop
  | .completed k .close _ _ =>
    ∀ e ∈ st.ops.get k, ∀ x ∈ st.streams.get e.id, x.item.flags.dropped_sec = true → Unnamed (st.ops.remove k) e.id
  | .drop_weak_stream id => ∀ x ∈ st.streams.get id, x.item.flags.dropped_pri = true → Unnamed st.ops id
  | _ => True

instance (st : Storage) (i : Step) : Decidable (Quiet st i) := by
  unfold Quiet
  split <;> infer_instance

/-- An operation under way belongs to the connection of its stream. -/
def Named (st : Storage) : Prop := ∀ k e, st.ops.get k = some e → ∃ x, st.streams.get e.id = some x ∧ x.conn = e.conn

/-- The streams of other connections stay. -/
def Spares (st st' : Storage) (conn : Nat) : Prop :=
  ∀ j x, st.streams.get j = some x → x.conn ≠ conn → st'.streams.get j = some x

namespace Named

lemma of_ops {ops : Slab Operation} (h : st.Named) (hops : ∀ k e, ops.get k = some e → st.ops.get k = some e) :
    Named { st with ops } := fun k e hk => h k e (hops k e hk)

variable {x y : Stream}

lemma insert (h : st.Named) (hx : st.streams.get id = some x) (hy : y.conn = x.conn) :
    Named { st with streams := st.streams.insert id y } := by
  intro k e hk
  obtain ⟨z, hz, hconn⟩ := h k e hk
  rw [Slab.get_insert]
  split
  next heq =>
    rw [heq, hx] at hz
    cases hz
    exact ⟨y, rfl, hy.trans hconn⟩
  · exact ⟨z, hz, hconn⟩

lemma remove (h : st.Named) (hid : Unnamed st.ops id) : Named { st with streams := st.streams.remove id } := by
  intro k e hk
  obtain ⟨x, hx, hconn⟩ := h k e hk
  refine ⟨x, ?_, hconn⟩
  rw [Slab.get_remove, if_neg (hid e (Slab.mem_values.2 ⟨k, hk⟩))]
  exact hx

lemma did {slot : Option Nat} {d : Did} (h : st.Named) (hx : st.streams.get id = some x)
    (hy : y.conn = x.conn) (hd : st.did id y slot d = some st') : st'.Named := by
  obtain ⟨item, sub⟩ := d
  have hstreams := h.insert (y := { y with item }) hx hy
  cases sub with
  | none =>
    cases hd
    exact hstreams
  | some s =>
    obtain ⟨-, rfl⟩ := Lib.of_ite_not hd
    exact Slab.forall_insert ⟨_, Slab.get_insert_self _ _ _, rfl⟩ fun k e _ => hstreams k e

end Named

lemma spares_did {slot : Option Nat} {d : Did} (hx : st.streams.get id = some x)
    (hd : st.did id x slot d = some st') : Spares st st' x.conn := by
  have hstreams : st'.streams = st.streams.insert id { x with item := d.1 } := by
    unfold did at hd
    split at hd
    · cases hd
      rfl
    · obtain ⟨-, rfl⟩ := Lib.of_ite_not hd
      rfl
  intro j y hj hne
  rw [hstreams, Slab.get_insert]
  split
  next heq =>
    rw [heq, hx] at hj
    cases hj
    exact absurd rfl hne
  · exact hj

section

variable (h : st.Named)
include h

variable {k key : Nat}

section

variable (hk : st.ops.get k = some e)
include hk

lemma named_slot_after (back : Option Op) : Named { st with ops := st.slot_after k e back } := by
  cases back with
  | none => exact h.of_ops fun _ _ hj => (Slab.get_of_remove hj).2
  | some op =>
    exact Slab.forall_insert (h k e hk) fun j e' _ => h j e'

lemma completed_spec {cqe : Cqe} {cuts : List Nat} (hst : st.completed lim k e cqe cuts key = some st') :
    Spares st st' e.conn ∧ (Quiet st (.completed k cqe cuts key) → st'.Named) := by
  obtain ⟨x, hx, hconn⟩ := h k e hk
  unfold completed at hst
  split at hst
  · obtain ⟨y, hy, rfl⟩ := of_map hst
    cases hx.symm.trans hy
    have hremove : Named { st with ops := st.ops.remove k } := h.of_ops fun _ _ hj => (Slab.get_of_remove hj).2
    unfold close_completed
    constructor
    · intro j y hj hne
      have hjd : j ≠ e.id := by
        rintro rfl
        cases hx.symm.trans hj
        exact hne hconn
      split
      · rw [Slab.get_remove, if_neg hjd]
        exact hj
      · rw [Slab.get_insert, if_neg hjd]
        exact hj
    · intro hq
      split
      next hsec => exact hremove.remove (hq e hk x hx hsec)
      · exact hremove.insert hx rfl
  · rw [hx] at hst
    obtain ⟨r, -, hd⟩ := of_bind hst
    have hslot := named_slot_after h hk r.2
    have hspares : Spares { st with ops := st.slot_after k e r.2 } st' x.conn := spares_did hx hd
    rw [← hconn]
    exact ⟨hspares, fun _ => hslot.did hx rfl hd⟩

lemma canceled_spec {cuts : List Nat} (hst : st.canceled lim k e cuts key = some st') : Spares st st' e.conn ∧ st'.Named := by
  obtain ⟨x, hx, hconn⟩ := h k e hk
  unfold canceled at hst
  rw [hx] at hst
  obtain ⟨d, -, hd⟩ := of_bind hst
  have hremove : Named { st with ops := st.ops.remove k } := h.of_ops fun _ _ hj => (Slab.get_of_remove hj).2
  have hspares : Spares { st with ops := st.ops.remove k } st' x.conn := spares_did hx hd
  rw [← hconn]
  exact ⟨hspares, hremove.did hx rfl hd⟩

end

lemma named_register {ctx : IoState} {no_zc : Bool} {id : Nat}
    (hst : st.register ctx no_zc id key = some st') : st'.Named := by
  obtain ⟨hfree, rfl⟩ := Lib.of_ite_not hst
  have hvacant : st.streams.get id = none := by
    simp only [Slab.contains, not_or, not_isSome_iff_eq_none] at hfree
    exact hfree.1
  refine Slab.forall_insert ⟨_, Slab.get_insert_self _ _ _, rfl⟩ fun k e _ hk => ?_
  obtain ⟨x, hx, hconn⟩ := h k e hk
  -- the index of a stream that is named is not vacant
  have hne : e.id ≠ id := by
    intro heq
    rw [heq, hvacant] at hx
    cases hx
  refine ⟨x, ?_, hconn⟩
  rw [Slab.get_insert, if_neg hne]
  exact hx

lemma named_step (hok : Quiet st i) (hst : st.step lim i = some st') : st'.Named := by
  -- what is done through a handle
  have hwith : ∀ {id : Nat} {handle : Stream → Bool} {f : Stream → Option Storage}, st.with_stream id handle f = some st' →
      (∀ x, st.streams.get id = some x → f x = some st' → st'.Named) → st'.Named := by
    intro id handle f hw hf
    obtain ⟨x, hx, hw⟩ := of_bind hw
    obtain ⟨-, hw⟩ := of_guard hw
    exact hf x hx hw
  cases i with
  | register ctx no_zc id key => exact named_register h hst
  | app | resume_read => exact hwith hst fun x hx hd => h.did hx rfl hd
  | resume_write id cuts key =>
    refine hwith hst fun x hx hd => ?_
    obtain ⟨d, -, hd⟩ := of_bind hd
    exact h.did hx rfl hd
  | pause_read id => exact hwith hst fun x hx hd => h.did hx rfl hd
  | drop_stream id key => exact hwith hst fun x hx hd => h.did (y := { x with ctl := false }) hx rfl hd
  | drop_weak_stream id =>
    refine hwith hst fun x hx hd => ?_
    cases hd
    unfold drop_weak_stream
    split
    next hpri => exact h.remove (hok x hx hpri)
    · exact h.insert hx rfl
  | completed k cqe cuts key =>
    obtain ⟨e, hk, hst⟩ := of_bind hst
    exact (completed_spec h hk hst).2 hok
  | canceled k cuts key =>
    obtain ⟨e, hk, hst⟩ := of_bind hst
    exact (canceled_spec h hk hst).2

end

lemma named_new : Named new := by
  intro k e hk
  cases hk

/-- If streams are removed only when no operation names them, the end of an operation leaves every connection but its own
as it was. -/
theorem ends_isolated (hr : Reach (step lim) Quiet new st) {k : Nat} {e : Operation} (hk : st.ops.get k = some e)
    (hi : i.ends = some k) (hst : st.step lim i = some st') : Spares st st' e.conn := by
  have h : st.Named := hr.inv Named named_new fun _ _ _ => named_step
  cases i with
  | completed j cqe cuts key =>
    cases hi
    obtain ⟨e', hk', hst⟩ := bind_eq_some_iff.1 hst
    cases hk.symm.trans hk'
    exact (completed_spec h hk hst).1
  | canceled j cuts key =>
    cases hi
    obtain ⟨e', hk', hst⟩ := bind_eq_some_iff.1 hst
    cases hk.symm.trans hk'
    exact (canceled_spec h hk hst).1
  | _ => cases hi

/-- A connection that is closed after its operations have ended, and another one that gets its index: the second one's
poll touches nothing of a third. -/
theorem ends_isolated_reused : ∃ st st' : Storage, ∃ e : Operation, st.ops.get 1 = some e ∧ e.id = 0 ∧ e.conn = 2 ∧
    st.step ⟨2, 16⟩ (.completed 1 (.poll none) [] 0) = some st' ∧ Spares st st' 2 := by
  have hreach : Reach (step ⟨2, 16⟩) Quiet new _ := .of_steps
      [.register (.new ⟨64, 64, 32, 0⟩ none) false 0 1, .register (.new ⟨64, 64, 32, 0⟩ none) false 1 2,
        .drop_weak_stream 0, .drop_stream 0 3, .completed 1 (.poll none) [] 0, .completed 3 .close [] 0,
        .register (.new ⟨64, 64, 32, 0⟩ none) false 0 1] rfl
  refine ⟨_, _, ⟨0, .Poll, 2⟩, ?_, rfl, rfl, rfl, ends_isolated hreach (k := 1) (e := ⟨0, .Poll, 2⟩)
    (i := .completed 1 (.poll none) [] 0) ?_ rfl ?_⟩
  all_goals rfl

/-- The first connection is removed with a zero-copy send and its poll outstanding, and the second one gets its index: the
`notif` makes the tail an operation of the second one, and the poll stops it. -/
theorem ends_crossed : ∃ st st' st'' : Storage, ∃ e p : Operation, Reach (step ⟨2, 16⟩) (fun _ _ => True) new st ∧
    st.ops.get 2 = some e ∧ e.conn = 0 ∧ st.step ⟨2, 16⟩ (.completed 2 (.send .notif (.ok 0)) [2] 4) = some st' ∧
    st'.ops.get 1 = some p ∧ p.conn = 0 ∧ st'.step ⟨2, 16⟩ (.completed 1 (.poll none) [] 0) = some st'' ∧
    ((st.streams.get 0).map fun x => (x.conn, x.item.ctx.buffer.write)) = some (1, []) ∧
    st'.ops.get 4 = some { id := 0, op := .Send [2, 3] none, conn := 1 } ∧
    ((st'.streams.get 0).map fun x => (x.conn, x.item.ctx.flags.io_stopped)) = some (1, false) ∧
    ((st''.streams.get 0).map fun x => (x.conn, x.item.ctx.flags.io_stopped)) = some (1, true) := by
  have hreach : Reach (step ⟨2, 16⟩) (fun _ _ => True) new _ := .of_steps
      [.register (.new ⟨64, 64, 32, 0⟩ none) false 0 1, .app 0 ((IoState.new ⟨64, 64, 32, 0⟩ none).with_write [1, 2, 3]),
        .resume_write 0 [3] 2, .completed 2 (.send .more (.ok 1)) [] 0, .drop_weak_stream 0, .drop_stream 0 3,
        .completed 3 .close [] 0, .register (.new ⟨64, 64, 32, 0⟩ none) false 0 3] rfl
  exact ⟨_, _, _, _, _, hreach, rfl, rfl, rfl, rfl, rfl, rfl, rfl, rfl, rfl, rfl⟩

end Storage

end Geario.Uring
