import Geario.Buffers.Moves
import Geario.Lib.Slab
import Geario.Lib.Run
/-!
# Programs on buffers

A client program holds buffers, handles, pages and queues under names and
calls their methods in any order. A closure given to `with_bytes_mut` runs
between two steps, `enter` and `leave`; in between the queue is lent and its
current page is a `BytesMut` like others (`swap` is `mem::swap` with another
one). A call that panics is not a step: a program that went on would see the
objects the panic left behind, which no method promises anything about.

`View` is what the program can see of an object, and `model` what each method
does to views, each on the object it is called on. Three methods return what
depends on how a queue is cut into pages; their meaning is the relation `Post`.
-/
open Lib

namespace Geario.Buffers

inductive Obj
  | bytes (st : Storage)
  | buf (v : Nat)
  | page (p : BytePage)
  | pages (b : BytePages)
  /-- A queue inside `with_bytes_mut`, with the capacity its current page had and the `BytesMut` of the closure. -/
  | lent (size : BytePageSize) (rest : List BytePage) (cap v : Nat)
  deriving DecidableEq

inductive View
  | bytes (l : List UInt8)
  | buf (l : List UInt8)
  | page (l : List UInt8)
  | pages (l : List UInt8)
  | lent (front l : List UInt8)
  deriving DecidableEq

namespace Obj

def refs : Obj → Multiset Ref
  | bytes st => st.refs
  | buf v => {.own v}
  | page p => p.refs
  | pages b => b.refs
  | lent _ rest _ v => BytePages.pagesRefs rest + {.own v}

def view (h : Heap) : Obj → View
  | bytes st => .bytes (st.content h)
  | buf v => .buf (Ref.content h (.own v))
  | page p => .page (p.content h)
  | pages b => .pages (b.content h)
  | lent _ rest _ v => .lent (BytePages.pagesContent h rest) (Ref.content h (.own v))

def NotFull (h : Heap) : Obj → Prop
  | pages b => 0 < b.slack h
  | _ => True

end Obj

/-! ## New objects -/

inductive Make
  | buf_with_capacity (cap : Nat)
  | buf_new
  | buf_copy (src : List UInt8)
  | bytes_copy (src : List UInt8)
  | bytes_static (data : List UInt8)
  | bytes_stext (data : List UInt8) (shares : Bool)
  | page_vec (data : List UInt8)
  | pages_new (size : BytePageSize)
  deriving DecidableEq

namespace Make

def exec : Make → Mem Obj
  | buf_with_capacity cap => do return .buf (← BytesMut.with_capacity cap)
  | buf_new => do return .buf (← BytesMut.new)
  | buf_copy src => do return .buf (← BytesMut.copy_from_slice src)
  | bytes_copy src => do return .bytes (← Storage.from_slice src)
  | bytes_static data => pure (.bytes (.from_static data))
  | bytes_stext data shares => pure (.bytes (.from_stext data shares))
  | page_vec data => pure (.page (.vec data))
  | pages_new size => do return .pages (← BytePages.new size)

def model : Make → View
  | buf_with_capacity _ | buf_new => .buf []
  | buf_copy src => .buf src
  | bytes_copy src | bytes_static src | bytes_stext src _ => .bytes src
  | page_vec data => .page data
  | pages_new _ => .pages []

def Fits : Make → Prop
  | buf_with_capacity cap => METADATA_SIZE + cap < 2 ^ 32
  | buf_copy src | bytes_copy src => METADATA_SIZE + src.length < 2 ^ 32
  | _ => True

def Ok : Make → Prop
  | pages_new size => size ≠ .Unset
  | _ => True

end Make

/-! ## Methods of one object -/

inductive QueueOp
  | set_page_size (size : BytePageSize)
  | put_slice (src : List UInt8)
  | put_u8 (n : UInt8)
  | take
  | clear
  | freeze
  | into_mut
  | chunk_mut (data : List UInt8)
  | advance_mut (cnt : Nat)
  | enter
  deriving DecidableEq

inductive Unary
  | buf (op : BufOp)
  | buf_freeze
  | buf_page
  | bytes (op : BytesOp)
  | bytes_page
  | page (op : PageOp)
  | page_freeze
  | page_mut
  | queue (op : QueueOp)
  | leave
  | drop
  deriving DecidableEq

namespace QueueOp

def exec (b : BytePages) : QueueOp → Mem (List Obj)
  | set_page_size size => pure [.pages (b.set_page_size size)]
  | put_slice src => do return [.pages (← b.put_slice src)]
  | put_u8 n => do return [.pages (← b.put_u8 n)]
  | take => pure (.pages b.take.1 :: b.take.2.toList.map .page)
  | clear => do return [.pages (← b.clear)]
  | freeze => do
    let (b, st) ← b.freeze
    return [.pages b, .bytes st]
  | into_mut => do return [.buf (← b.into_mut)]
  | chunk_mut data => do return [.pages (← b.chunk_mut data)]
  | advance_mut cnt => do
    b.advance_mut cnt
    return [.pages b]
  | enter => do
    let (b, v, cap) ← b.enter
    return [.lent b.size b.pages cap v]

def model (l : List UInt8) : QueueOp → Option (List View)
  | set_page_size _ | chunk_mut _ => some [.pages l]
  | put_slice src => some [.pages (l ++ src)]
  | put_u8 n => some [.pages (l ++ [n])]
  | clear => some [.pages []]
  | freeze => some [.pages [], .bytes l]
  | into_mut => some [.buf l]
  | take | advance_mut _ | enter => none

def Post (l : List UInt8) (op : QueueOp) (outs : List View) : Prop :=
  match op with
  | take => (∃ p rest, outs = [.pages rest, .page p] ∧ l = p ++ rest) ∨ outs = [.pages []] ∧ l = []
  | advance_mut cnt => ∃ d, d.length = cnt ∧ outs = [.pages (l ++ d)]
  | enter => ∃ front cur, outs = [.lent front cur] ∧ l = front ++ cur
  | _ => some outs = op.model l

/-- No allocation of `2 ^ 32` bytes or more, and the safety contract of `advance_mut`. -/
def Fits (h : Heap) (b : BytePages) : QueueOp → Prop
  | freeze => b.Small ∧ METADATA_SIZE + (b.content h).length < 2 ^ 32
  | into_mut => METADATA_SIZE + (b.content h).length < 2 ^ 32
  | advance_mut cnt => b.current.isSome ∧ cnt ≤ b.slack h
  | _ => True

def Ok (h : Heap) (b : BytePages) : QueueOp → Prop
  | put_slice _ | enter => b.size ≠ .Unset
  | put_u8 _ => b.size ≠ .Unset ∧ 0 < b.slack h
  | chunk_mut data => b.size ≠ .Unset ∧ data.length ≤ b.slack h
  | _ => True

def Spares (h : Heap) (b : BytePages) : QueueOp → Prop
  | advance_mut cnt => cnt < b.slack h
  | _ => True

end QueueOp

namespace Unary

def exec : Unary → Obj → Option (Mem (List Obj))
  | buf op, .buf v => some do
    let (v, out) ← op.run v
    return .buf v :: out.toList.map .bytes
  | buf op, .lent size rest cap v => some do
    let (v, out) ← op.run v
    return .lent size rest cap v :: out.toList.map .bytes
  | buf_freeze, .buf v => some do return [.bytes (← StorageVec.freeze v)]
  | buf_page, .buf v => some (pure [.page (.storage v)])
  | bytes op, .bytes st => some do
    let (st, out) ← op.run st
    return .bytes st :: out.toList.map .bytes
  | bytes_page, .bytes st => some (pure [.page (.bytes st)])
  | page op, .page p => some do
    let (p, out) ← op.run p
    return .page p :: out.toList.map .page
  | page_freeze, .page p => some do return [.bytes (← p.freeze)]
  | page_mut, .page p => some do return [.buf (← p.into_mut)]
  | queue op, .pages b => some (op.exec b)
  | leave, .lent size rest cap v => some do return [.pages (← BytePages.leave ⟨size, rest, none⟩ v cap)]
  | drop, .bytes st => some do st.drop; return []
  | drop, .buf v => some do release_shared_vec v; return []
  | drop, .page p => some do p.drop; return []
  | drop, .pages b => some do b.drop; return []
  | _, _ => none

def model : Unary → View → Option (List View)
  | buf op, .buf l => (op.model l).map fun r => .buf r.1 :: r.2.toList.map .bytes
  | buf op, .lent front l => (op.model l).map fun r => .lent front r.1 :: r.2.toList.map .bytes
  | buf_freeze, .buf l => some [.bytes l]
  | buf_page, .buf l => some [.page l]
  | bytes op, .bytes l => (op.model l).map fun r => .bytes r.1 :: r.2.toList.map .bytes
  | bytes_page, .bytes l => some [.page l]
  | page op, .page l => (op.model l).map fun r => .page r.1 :: r.2.toList.map .page
  | page_freeze, .page l => some [.bytes l]
  | page_mut, .page l => some [.buf l]
  | queue op, .pages l => op.model l
  | leave, .lent front l => some [.pages (front ++ l)]
  | drop, _ => some []
  | _, _ => none

def Post (u : Unary) (x : View) (outs : List View) : Prop :=
  match u, x with
  | queue op, .pages l => op.Post l outs
  | _, _ => ∀ r, u.model x = some r → outs = r

def Fits (h : Heap) : Unary → Obj → Prop
  | buf op, .buf v | buf op, .lent _ _ _ v => METADATA_SIZE + op.request (Ref.content h (.own v)).length < 2 ^ 32
  | bytes _, .bytes st => st.Small
  | page _, .page p | page_freeze, .page p => p.Small
  | page_mut, .page p => METADATA_SIZE + (p.content h).length < 2 ^ 32
  | queue op, .pages b => op.Fits h b
  | _, _ => True

def Ok (h : Heap) : Unary → Obj → Prop
  | buf op, .buf v | buf op, .lent _ _ _ v => op.Ok (Ref.content h (.own v)).length
  | bytes op, .bytes st => op.Ok h st
  | page op, .page p => op.Ok (p.content h).length
  | queue op, .pages b => op.Ok h b
  | _, _ => True

/-- The call does not move or take over a header that others use, the handles of the others being `F`. -/
def Calm (h : Heap) (F : Multiset Ref) : Unary → Obj → Prop
  | page op, .page p => op.Quiet (p.content h).length p F
  | page_mut, .page p => p.Adoptable h F
  | _, _ => True

def Spares (h : Heap) : Unary → Obj → Prop
  | queue op, .pages b => op.Spares h b
  | leave, .lent size _ _ v => 0 < h.room v ∨ size.capacity ≤ (Ref.content h (.own v)).length
  | _, _ => True

end Unary

/-! ## Methods of two objects -/

inductive Binary
  | append
  | prepend
  | move_to
  | copy_to
  | split_into (at_ : Nat)
  | try_get_current_from
  | swap
  deriving DecidableEq

namespace Binary

def exec : Binary → Obj → Obj → Option (Mem (List Obj))
  | append, .pages b, .page p => some do return [.pages (← b.append p)]
  | prepend, .pages b, .page p => some do return [.pages (← b.prepend p)]
  | move_to, .pages b, .pages dst => some do
    let (b, dst) ← b.move_to dst
    return [.pages b, .pages dst]
  | copy_to, .pages b, .pages dst => some do return [.pages b, .pages (← b.copy_to dst)]
  | split_into at_, .pages b, .pages dst => some do
    let (b, dst) ← b.split_into at_ dst
    return [.pages b, .pages dst]
  | try_get_current_from, .pages b, .pages other =>
    some (pure [.pages (b.try_get_current_from other).1, .pages (b.try_get_current_from other).2])
  | swap, .lent size rest cap v, .buf w => some (pure [.lent size rest cap w, .buf v])
  | _, _, _ => none

def model : Binary → View → View → Option (List View)
  | append, .pages l, .page p => some [.pages (l ++ p)]
  | prepend, .pages l, .page p => some [.pages (p ++ l)]
  | move_to, .pages l, .pages d => some [.pages [], .pages (d ++ l)]
  | copy_to, .pages l, .pages d => some [.pages l, .pages (d ++ l)]
  | split_into at_, .pages l, .pages d => some [.pages (l.drop at_), .pages (d ++ l.take at_)]
  | swap, .lent front l, .buf l' => some [.lent front l', .buf l]
  | _, _, _ => none

def Post (u : Binary) (x y : View) (outs : List View) : Prop :=
  match u, x, y with
  | try_get_current_from, .pages l, .pages d =>
    outs = [.pages l, .pages d] ∨ ∃ l' d', outs = [.pages l', .pages d'] ∧ l = [] ∧ d = d' ++ l'
  | _, _, _ => some outs = u.model x y

def Fits : Binary → Obj → Obj → Prop
  | copy_to, .pages b, _ | split_into _, .pages b, _ => b.Small
  | _, _, _ => True

def Ok : Binary → Obj → Obj → Prop
  | append, .pages b, _ => b.size ≠ .Unset
  | move_to, _, .pages dst | copy_to, _, .pages dst => dst.size ≠ .Unset
  | split_into _, .pages b, .pages dst => b.size ≠ .Unset ∧ dst.size ≠ .Unset
  | _, _, _ => True

end Binary

/-! ## Programs -/

structure World where
  heap : Heap
  objs : Slab Obj

/-- One call of a program, with the names of the objects it is about. -/
inductive Op
  | make (j : Nat) (m : Make)
  | one (i j : Nat) (u : Unary)
  | two (i j : Nat) (u : Binary)
  | set_pages_cache (size : Nat)

namespace Op

def ins : Op → List Nat
  | make _ _ | set_pages_cache _ => []
  | one i _ _ => [i]
  | two i j _ => [i, j]

def outs : Op → List Nat
  | make j _ => [j]
  | one i j _ | two i j _ => [i, j]
  | set_pages_cache _ => []

def exec : Op → List Obj → Option (Mem (List Obj))
  | make _ m, [] => some do return [← m.exec]
  | one _ _ u, [o] => u.exec o
  | two _ _ u, [o, o'] => u.exec o o'
  | set_pages_cache size, [] => some do
    modify fun h => { h with cache_size := size }
    return []
  | _, _ => none

def model : Op → List View → Option (List View)
  | make _ m, [] => some [m.model]
  | one _ _ u, [x] => u.model x
  | two _ _ u, [x, y] => u.model x y
  | set_pages_cache _, [] => some []
  | _, _ => none

def Post : Op → List View → List View → Prop
  | make _ m, [], outs => outs = [m.model]
  | one _ _ u, [x], outs => u.Post x outs
  | two _ _ u, [x, y], outs => u.Post x y outs
  | set_pages_cache _, [], outs => outs = []
  | _, _, _ => False

/-- No allocation of `2 ^ 32` bytes or more, header included, is asked for. -/
def Fits (h : Heap) : Op → List Obj → Prop
  | make _ m, [] => m.Fits
  | one _ _ u, [o] => u.Fits h o
  | two _ _ u, [o, o'] => u.Fits o o'
  | _, _ => True

/-- The call is inside the range in which it does not panic. -/
def Ok (h : Heap) : Op → List Obj → Prop
  | make _ m, [] => m.Ok
  | one _ _ u, [o] => u.Ok h o
  | two _ _ u, [o, o'] => u.Ok o o'
  | _, _ => True

def Calm (h : Heap) (F : Multiset Ref) : Op → List Obj → Prop
  | one _ _ u, [o] => u.Calm h F o
  | _, _ => True

/-- The call does not leave the current page of a queue full. -/
def Spares (h : Heap) : Op → List Obj → Prop
  | one _ _ u, [o] => u.Spares h o
  | _, _ => True

end Op

def fetch : List Nat → Slab Obj → Option (List Obj × Slab Obj)
  | [], s => some ([], s)
  | k :: ks, s =>
    match s.get k with
    | none => none
    | some o => (fetch ks (s.remove k)).map fun r => (o :: r.1, r.2)

def store : List (Nat × Obj) → Slab Obj → Option (Slab Obj)
  | [], s => some s
  | (k, o) :: rest, s => if (s.get k).isSome then none else store rest (s.insert k o)

def refsOf (l : List Obj) : Multiset Ref := (l.map Obj.refs).sum

namespace World

def empty : World := { heap := .empty, objs := .empty }

def step (w : World) (op : Op) : Option World :=
  match fetch op.ins w.objs with
  | none => none
  | some (os, rest) =>
    match op.exec os with
    | none => none
    | some m =>
      match m w.heap with
      | .ok (os', h) => (store (op.outs.zip os') rest).map fun objs => { heap := h, objs }
      | .error _ => none

/-- The call on the objects it names panics with `e`. -/
def Panics (w : World) (op : Op) (e : Panic) : Prop :=
  ∃ os rest m, fetch op.ins w.objs = some (os, rest) ∧ op.exec os = some m ∧ m w.heap = .error e

def refs (w : World) : Multiset Ref := refsOf w.objs.values

def view (w : World) (k : Nat) : Option View := (w.objs.get k).map (Obj.view w.heap)

end World

end Geario.Buffers
