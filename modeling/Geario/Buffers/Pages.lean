import Geario.Buffers.Page
/-!
# `BytePages`

A queue of pages and a current page that is being filled. Its content is the
concatenation of the queued pages followed by the current one. `append` has
four ways of adding a page (adopt it as the current one, queue it behind an
empty current page, copy it into the current page, or queue both), `put_slice`
fills page after page.

The calls that work on the current page (`with_current`, `with_bytes_mut`)
first take it out, or get a new one, and put it back in the end: `open_current`
and `close_current`. Loops over `take` are `drain`.
-/
open Lib

namespace Geario.Buffers

structure BytePages where
  size : BytePageSize
  pages : List BytePage
  current : Option Nat
  deriving DecidableEq

namespace BytePages

def new (size : BytePageSize) : Mem BytePages :=
  if size = .Unset then throw .assertion else pure { size, pages := [], current := none }

def push_back (b : BytePages) (page : BytePage) : BytePages := { b with pages := b.pages ++ [page] }

def set_page_size (b : BytePages) (size : BytePageSize) : BytePages := { b with size }

def current_len (b : BytePages) : Mem Nat :=
  match b.current with
  | some v => do return (← deref v).len
  | none => pure 0

def remaining_mut (b : BytePages) : Mem Nat :=
  match b.current with
  | some v => do return (← deref v).remaining
  | none => pure 0

def len (b : BytePages) : Mem Nat := do
  b.pages.foldlM (fun c page => do return c + (← page.len)) (← b.current_len)

def pages_empty : List BytePage → Mem Bool
  | [] => pure true
  | p :: rest => do if ← p.is_empty then pages_empty rest else return false

def is_empty (b : BytePages) : Mem Bool := do
  if ← pages_empty b.pages then return (← b.current_len) == 0 else return false

def num_pages (b : BytePages) : Nat := if b.current.isNone then b.pages.length else b.pages.length + 1

def take (b : BytePages) : BytePages × Option BytePage :=
  match b.pages with
  | page :: rest => ({ b with pages := rest }, some page)
  | [] => ({ b with current := none }, b.current.map .storage)

def open_current (b : BytePages) : Mem (BytePages × Nat) := do
  let v ← (match b.current with
    | some v => pure v
    | none => StorageVec.sized b.size)
  return ({ b with current := none }, v)

def close_current (b : BytePages) (v : Nat) : Mem BytePages := do
  let s ← deref v
  if s.remaining = 0 then return b.push_back (.storage v) else return { b with current := some v }

def with_current {α : Type} (b : BytePages) (f : Nat → Mem α) : Mem (BytePages × α) := do
  let (b, v) ← b.open_current
  let result ← f v
  return (← b.close_current v, result)

def put_chunk (src : List UInt8) (v : Nat) : Mem Nat := do
  let s ← deref v
  let amount := min src.length s.remaining
  update v (SharedVec.put_slice (src.take amount))
  return amount

/-- `while !src.is_empty()`, for at most `fuel` rounds. -/
def put_slice_loop : Nat → BytePages → List UInt8 → Mem BytePages
  | _, b, [] => pure b
  | 0, _, _ :: _ => throw .fuel
  | fuel + 1, b, src => do
    let (b, amount) ← b.with_current (put_chunk src)
    put_slice_loop fuel b (src.drop amount)

def put_slice (b : BytePages) (src : List UInt8) : Mem BytePages := put_slice_loop (src.length + 1) b src

def put_u8 (b : BytePages) (n : UInt8) : Mem BytePages := do
  let (b, _) ← b.with_current fun v => update v (SharedVec.put_u8 n)
  return b

def prepend (b : BytePages) (p : BytePage) : Mem BytePages := do
  if ← p.is_empty then
    p.drop
    return b
  else return { b with pages := p :: b.pages }

/-- `self.current = Some(st)`: what was there is dropped. -/
def replace_current (b : BytePages) (v : Nat) : Mem BytePages := do
  match b.current with
  | some w => release_shared_vec w
  | none => pure ()
  return { b with current := some v }

def flush (b : BytePages) : BytePages :=
  match b.current with
  | some v => { b with current := none }.push_back (.storage v)
  | none => b

def append (b : BytePages) (p : BytePage) : Mem BytePages := do
  if ← p.is_empty then
    p.drop
    return b
  else if (← b.current_len) = 0 then
    match ← p.into_storage with
    | .inl st => b.replace_current st
    | .inr page => return b.push_back page
  else if (← p.len) ≤ (← b.remaining_mut) then
    let b ← b.put_slice (← p.as_ref)
    p.drop
    return b
  else return b.flush.push_back p

def all_pages (b : BytePages) : List BytePage := b.pages ++ (b.current.map BytePage.storage).toList

def cleared (b : BytePages) : BytePages := { b with pages := [], current := none }

def drain {σ : Type} (f : σ → BytePage → Mem σ) (b : BytePages) (init : σ) : Mem σ := b.all_pages.foldlM f init

lemma drain_eq {σ : Type} (f : σ → BytePage → Mem σ) (b : BytePages) (init : σ) :
    b.drain f init =
      match b.take with
      | (b', some page) => do b'.drain f (← f init page)
      | (_, none) => pure init := by
  obtain ⟨size, pages, current⟩ := b
  cases pages with
  | cons p rest => rfl
  | nil =>
    cases current with
    | none | some => rfl

def clear (b : BytePages) : Mem BytePages := do
  b.drain (fun _ page => page.drop) ()
  return b.cleared

def move_to (b dst : BytePages) : Mem (BytePages × BytePages) := do
  let dst ← b.drain append dst
  return (b.cleared, dst)

def copy_to (b dst : BytePages) : Mem BytePages := do
  let dst ← b.pages.foldlM (fun (dst : BytePages) p => do dst.append (← p.clone)) dst
  match b.current with
  | some v => do
    let st ← Storage.from_slice (← deref v).as_ref
    dst.append (.bytes st)
  | none => return dst

/-- The loop of `split_into`: the pages left, what is left of `at`, and whether it returned. -/
def split_loop : List BytePage → Nat → BytePages → Mem (List BytePage × Nat × BytePages × Bool)
  | [], at_, dst => pure ([], at_, dst, false)
  | page :: rest, at_, dst => do
    let len := min (← page.len) at_
    let (page, front) ← page.split_to len
    let dst ← dst.append front
    if ← page.is_empty then
      page.drop
      split_loop rest (at_ - len) dst
    else return (page :: rest, at_, dst, true)

def split_current (b : BytePages) (at_ : Nat) (dst : BytePages) : Mem (BytePages × BytePages) :=
  match b.current with
  | some v => do
    let page := BytePage.storage v
    let len := min (← page.len) at_
    let (page, front) ← page.split_to len
    let dst ← dst.append front
    return (← { b with current := none }.append page, dst)
  | none => pure (b, dst)

def split_into (b : BytePages) (at_ : Nat) (dst : BytePages) : Mem (BytePages × BytePages) := do
  let (pages, at_, dst, returned) ← split_loop b.pages at_ dst
  let b := { b with pages }
  if returned ∨ at_ = 0 then return (b, dst) else b.split_current at_ dst

def extend_page (buf : Nat) (p : BytePage) : Mem Nat := do
  let buf ← BytesMut.put_slice buf (← p.as_ref)
  p.drop
  return buf

def into_mut (b : BytePages) : Mem Nat := do
  let buf ← BytesMut.with_capacity (← b.len)
  b.drain extend_page buf

/-- With two pages or more the content is collected as in `BytesMut::from`. -/
def freeze (b : BytePages) : Mem (BytePages × Storage) := do
  if b.num_pages = 0 ∨ (← b.is_empty) then return (b, Storage.empty)
  else if b.num_pages = 1 then
    match b.take with
    | (b, some page) => return (b, ← page.freeze)
    | (_, none) => throw .assertion
  else
    let buf ← b.into_mut
    return (b.cleared, ← StorageVec.freeze buf)

def try_get_current_from (b pages : BytePages) : BytePages × BytePages :=
  match b.pages, b.current, pages.current with
  | [], none, some v => ({ b with current := some v }, { pages with current := none })
  | _, _, _ => (b, pages)

/-- `chunk_mut`, and `data` copied to the front of the chunk. -/
def chunk_mut (b : BytePages) (data : List UInt8) : Mem BytePages := do
  let (b, v) ← b.open_current
  let s ← deref v
  if data.length ≤ s.remaining then
    update v (SharedVec.write (s.offset + s.len) data)
    return { b with current := some v }
  else throw .bounds

def advance_mut (b : BytePages) (cnt : Nat) : Mem Unit :=
  match b.current with
  | some v => do
    let s ← deref v
    update v (SharedVec.set_len (s.len + cnt))
  | none => throw .assertion

/-- `with_bytes_mut` up to the call of the closure: the rest of the queue, the buffer and its capacity. -/
def enter (b : BytePages) : Mem (BytePages × Nat × Nat) := do
  let (b, v) ← b.open_current
  return (b, v, (← deref v).capacity)

/-- `with_bytes_mut` after the closure, which left the buffer `v`. -/
def leave (b : BytePages) (v cap : Nat) : Mem BytePages := do
  let s ← deref v
  (if s.capacity ≠ cap then StorageVec.unsize v else pure ())
  if s.len ≥ b.size.capacity then return b.push_back (.storage v) else return { b with current := some v }

def drop (b : BytePages) : Mem Unit := b.drain (fun _ page => page.drop) ()

end BytePages

end Geario.Buffers
