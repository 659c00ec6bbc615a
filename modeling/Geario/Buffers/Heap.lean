import Geario.Lib.Buffer
import Geario.Lib.Outcome
/-!
# Shared buffers

`BytesMut`, and every `Bytes` too long to be stored inline, point to a
`SharedVec`: a header and a data area in one allocation, with a reference
count. The header holds the window of the one handle that may write, the
`StorageVec`; a `Bytes` keeps its own window. Released page buffers wait in a
per-size cache.

The header fields are `u32`. Additions and subtractions on them are checked, as
they are in a build with overflow checks; `as u32` casts are reductions modulo
`2 ^ 32`. Touching memory outside a live allocation, or freeing one with a
layout it was not allocated with, is the error `memory`.
-/
open Lib

namespace Geario.Buffers

inductive BytePageSize
  | Size4 | Size8 | Size16 | Size24 | Size32 | Size48 | Size64 | Unset
  deriving DecidableEq, Repr

def BytePageSize.capacity : BytePageSize → Nat
  | .Size4 => 4 * 1024
  | .Size8 => 8 * 1024
  | .Size16 => 16 * 1024
  | .Size24 => 24 * 1024
  | .Size32 => 32 * 1024
  | .Size48 => 48 * 1024
  | .Size64 | .Unset => 64 * 1024

def BytePageSize.slots : List BytePageSize := [.Size4, .Size8, .Size16, .Size24, .Size32, .Size48, .Size64]

lemma BytePageSize.capacity_pos (size : BytePageSize) : 0 < size.capacity := by cases size <;> decide

lemma BytePageSize.capacity_le (size : BytePageSize) : size.capacity ≤ 65536 := by cases size <;> decide

/-- `size_of::<SharedVec>()`: the data area starts here. -/
def METADATA_SIZE : Nat := 24

/-- The longest `Bytes` that is stored inside the handle. -/
def INLINE_CAP : Nat := 3 * 8 - 1

def MIN_CAPACITY : Nat := 128 - METADATA_SIZE

def LAYOUT_MAX : Nat := 2 ^ 63 - 4

inductive Panic
  /-- a failed `assert!` or `expect` -/
  | assertion
  | overflow
  | bounds
  /-- an allocation larger than a `Layout` can be -/
  | layout
  | abort
  /-- undefined behaviour: memory that is not there, or a wrong layout given to `dealloc` -/
  | memory
  /-- a loop of the model ran longer than its bound -/
  | fuel
  deriving DecidableEq, Repr

structure SharedVec where
  offset : Nat
  len : Nat
  capacity : Nat
  remaining : Nat
  ref_count : Nat
  size : BytePageSize
  /-- The allocation, header bytes included. -/
  mem : List UInt8
  deriving DecidableEq

section Arithmetic

variable {σ : Type}

def add_u32 (a b : Nat) : StateT σ (Except Panic) Nat := if a + b < 2 ^ 32 then pure (a + b) else throw .overflow

def add_usize (a b : Nat) : StateT σ (Except Panic) Nat := if a + b < 2 ^ 64 then pure (a + b) else throw .overflow

def sub_checked (a b : Nat) : StateT σ (Except Panic) Nat := if b ≤ a then pure (a - b) else throw .overflow

end Arithmetic

namespace SharedVec

/-- A method of `StorageVec` that only touches what the pointer points to. -/
abbrev Upd := StateT SharedVec (Except Panic)

def as_ref (s : SharedVec) : List UInt8 := slice s.mem s.offset s.len

def write (pos : Nat) (src : List UInt8) : Upd Unit := do
  let s ← get
  if pos + src.length ≤ s.mem.length then
    set { s with mem := splice s.mem pos src }
  else throw .memory

def put_u8 (n : UInt8) : Upd Unit := do
  let s ← get
  let len ← add_u32 s.len 1
  let remaining ← sub_checked s.remaining 1
  set { s with len, remaining }
  write (s.offset + s.len) [n]

def set_len (len : Nat) : Upd Unit := do
  let s ← get
  if len % 2 ^ 32 ≤ s.capacity then
    set { s with len := len % 2 ^ 32, remaining := s.capacity - len % 2 ^ 32 }
  else throw .assertion

def set_start (start : Nat) : Upd Unit := do
  let s ← get
  if start ≠ 0 then
    if start ≤ s.capacity then
      let offset ← add_u32 s.offset start
      let len := if s.len > start then s.len - start else 0
      let rest ← sub_checked s.capacity len
      let remaining ← sub_checked rest start
      let capacity ← add_u32 remaining len
      set { s with offset, len, remaining, capacity }
    else throw .assertion

def truncate (len : Nat) : Upd Unit := do
  let s ← get
  -- the front of the buffer is taken back when nobody else points to it
  if len = 0 ∧ s.ref_count = 1 ∧ s.offset ≠ METADATA_SIZE then
    let capacity := (s.offset + s.capacity - METADATA_SIZE) % 2 ^ 32
    set { s with len := 0, offset := METADATA_SIZE, capacity, remaining := capacity }
  else if len < s.len then set_len len

/-- The first branch of `reserve_inner`: move the content to the front of the allocation. -/
def reclaim : Upd Unit := do
  let s ← get
  let capacity := s.offset + s.capacity
  let remaining := (capacity - s.len - METADATA_SIZE) % 2 ^ 32
  let capacity ← add_u32 s.len remaining
  set { s with offset := METADATA_SIZE, remaining, capacity }
  if s.len ≠ 0 then write METADATA_SIZE s.as_ref

/-- The growing half of `resize`: copies of a byte behind the content, then `set_len`. -/
def fill (additional : Nat) (value : UInt8) : Upd Unit := do
  let s ← get
  if s.len ≤ s.capacity then
    write (s.offset + s.len) (List.replicate additional value)
    set_len (s.len + additional)
  else throw .bounds

/-- `ptr::copy_nonoverlapping` to the free space after the content, then `set_len`. -/
def put_slice (src : List UInt8) : Upd Unit := do
  let s ← get
  write (s.offset + s.len) src
  set_len (s.len + src.length)

def write_at (pos : Nat) (src : List UInt8) : Upd Unit := do
  let s ← get
  if pos + src.length ≤ s.len then write (s.offset + pos) src else throw .bounds

end SharedVec

/-- The allocations, the cache of released pages (`CACHE`) and the number of buffers it keeps of each size. -/
structure Heap where
  vecs : Nat → Option SharedVec
  /-- Addresses from here on have not been used. -/
  next : Nat
  cache : BytePageSize → List Nat
  cache_size : Nat

abbrev Mem := StateT Heap (Except Panic)

namespace Heap

def empty : Heap := { vecs := fun _ => none, next := 0, cache := fun _ => [], cache_size := 128 }

def put (h : Heap) (v : Nat) (s : SharedVec) : Heap := { h with vecs := Function.update h.vecs v (some s) }

def free (h : Heap) (v : Nat) : Heap := { h with vecs := Function.update h.vecs v none }

def alloc (h : Heap) (s : SharedVec) : Heap := { h with vecs := Function.update h.vecs h.next (some s), next := h.next + 1 }

def set_cache (h : Heap) (size : BytePageSize) (l : List Nat) : Heap :=
  { h with cache := Function.update h.cache size l }

def cached (h : Heap) (v : Nat) : Nat := (BytePageSize.slots.map fun size => (h.cache size).count v).sum

end Heap

def deref (v : Nat) : Mem SharedVec := fun h =>
  match h.vecs v with
  | some s => .ok (s, h)
  | none => .error .memory

def update {α : Type} (v : Nat) (m : SharedVec.Upd α) : Mem α := fun h =>
  match h.vecs v with
  | some s =>
    match m s with
    | .ok (a, s') => .ok (a, h.put v s')
    | .error e => .error e
  | none => .error .memory

namespace SharedVec

def init (size : BytePageSize) (cap : Nat) (src : List UInt8) : SharedVec :=
  { offset := METADATA_SIZE, len := src.length % 2 ^ 32, capacity := cap % 2 ^ 32,
    remaining := cap % 2 ^ 32 - src.length % 2 ^ 32, ref_count := 1, size,
    mem := splice (List.replicate (METADATA_SIZE + cap) 0) METADATA_SIZE src }

def create (size : BytePageSize) (cap : Nat) (src : List UInt8) : Mem Nat := do
  let h ← get
  if LAYOUT_MAX < METADATA_SIZE + cap then throw .layout
  else if cap % 2 ^ 32 < src.length % 2 ^ 32 then throw .overflow
  else if cap < src.length then throw .memory
  else
    set (h.alloc (init size cap src))
    return h.next

def retain : Upd Unit := do
  let s ← get
  if s.ref_count = 2 ^ 32 - 1 then throw .abort
  else set { s with ref_count := s.ref_count + 1 }

def reset (s : SharedVec) (cap : Nat) : SharedVec :=
  { s with len := 0, offset := METADATA_SIZE, capacity := cap - METADATA_SIZE, remaining := cap - METADATA_SIZE,
           ref_count := 1, size := .Unset }

end SharedVec

def release_shared_vec (v : Nat) : Mem Unit := do
  let s ← deref v
  let h ← get
  if s.ref_count ≠ 1 then
    set (h.put v { s with ref_count := s.ref_count - 1 })
  else
    let cap ← add_u32 s.offset s.capacity
    if s.size ≠ .Unset ∧ (h.cache s.size).length < h.cache_size then
      set ((h.put v (s.reset cap)).set_cache s.size (v :: h.cache s.size))
    else if cap ≠ s.mem.length then throw .memory
    else set (h.free v)

namespace StorageVec

def with_capacity (capacity : Nat) : Mem Nat := SharedVec.create .Unset capacity []

/-- A page buffer from the cache, or a new one. There is no cache slot for `Unset`. -/
def sized (size : BytePageSize) : Mem Nat := do
  let h ← get
  if size = .Unset then throw .bounds
  else match h.cache size with
    | v :: rest => do
      set (h.set_cache size rest)
      update v (modify fun s => { s with size })
      return v
    | [] => SharedVec.create size size.capacity []

def from_slice (capacity : Nat) (src : List UInt8) : Mem Nat := SharedVec.create .Unset capacity src

def unsize (v : Nat) : Mem Unit := update v (modify fun s => { s with size := .Unset })

def clone (v : Nat) : Mem Nat := do
  update v SharedVec.retain
  return v

def reserve_capacity (v capacity : Nat) : Mem Nat := do
  let s ← deref v
  let v' ← SharedVec.create .Unset capacity s.as_ref
  release_shared_vec v
  return v'

def reserve_inner (v additional : Nat) : Mem Nat := do
  let s ← deref v
  let new_cap ← add_usize s.len additional
  if s.ref_count = 1 ∧ s.offset + s.capacity ≥ new_cap + METADATA_SIZE then
    update v SharedVec.reclaim
    return v
  else reserve_capacity v new_cap

def reserve (v additional : Nat) : Mem Nat := do
  let s ← deref v
  if additional ≤ s.remaining then return v
  else reserve_inner v additional

def resize (v new_len : Nat) (value : UInt8) : Mem Nat := do
  let s ← deref v
  if new_len > s.len then
    let v' ← reserve v (new_len - s.len)
    update v' (SharedVec.fill (new_len - s.len) value)
    return v'
  else
    update v (SharedVec.truncate new_len)
    return v

end StorageVec

end Geario.Buffers
