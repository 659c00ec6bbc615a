import Geario.Buffers.Address
import Geario.Buffers.Programs
import Geario.Polling.Stream
/-!
# The memory a write call is given

`StreamItem::write` takes a page out of the write buffer into a variable of the
loop, takes the address of its bytes there, and then moves the page to an array
that keeps it until the call has returned. What the variable holds after that
is left over from the page moved last. So the entries for pages with their bytes
elsewhere are right, and those for inline pages all point into the variable.
-/
open Lib
open Geario.Buffers

namespace Geario.Polling

inductive Slot
  | page
  | pages (i : Nat)
  deriving DecidableEq

structure Frame where
  /-- what is in the memory of the variable `page`, which has been moved from -/
  page : Option BytePage
  pages : List BytePage
  bufs : List (Addr Slot × Nat)
  deriving DecidableEq

namespace Frame

variable {h : Heap} {F : Multiset Ref} {b : BytePages} {f : Frame}

def values (f : Frame) : Slot → Option BytePage
  | .page => f.page
  | .pages i => f.pages[i]?

/-- One round: the entry is made before the page is moved. -/
def push (h : Heap) (f : Frame) (page : BytePage) : Frame :=
  { page := some page
    bufs := f.bufs ++ [(page.as_ptr h .page, (page.content h).length)]
    pages := f.pages ++ [page] }

/-- The loop, with the number of pages and the size so far; it also returns what is left in the write buffer. -/
def gather (h : Heap) (num size : Nat) (f : Frame) : List BytePage → Frame × List BytePage
  | [] => (f, [])
  | page :: rest =>
    let size := size + (page.content h).length
    if num + 1 = MAX_WRITE_ITEMS ∨ MAX_WRITE_SIZE ≤ size then (f.push h page, rest)
    else gather h (num + 1) size (f.push h page) rest

def of_buffer (h : Heap) (b : BytePages) : Frame := (gather h 0 0 { page := none, pages := [], bufs := [] } b.all_pages).1

def load (h : Heap) (f : Frame) (e : Addr Slot × Nat) : Option (List UInt8) := BytePage.load h f.values e.2 e.1

def accept (h : Heap) (f : Frame) (n : Nat) : Option (List UInt8) := (f.bufs.mapM (f.load h)).map fun l => l.flatten.take n

def Made (h : Heap) (f : Frame) : Prop := f.bufs = f.pages.map fun p => (p.as_ptr h .page, (p.content h).length)

lemma made_push (hm : f.Made h) (page : BytePage) : (f.push h page).Made h := by
  rw [Made, push, List.map_append, show f.bufs = _ from hm]
  rfl

lemma gather_spec (l : List BytePage) (num size : Nat) (hm : f.Made h) :
    (gather h num size f l).1.Made h ∧ (gather h num size f l).1.pages ++ (gather h num size f l).2 = f.pages ++ l := by
  induction l generalizing f num size with
  | nil => exact ⟨hm, rfl⟩
  | cons page rest ih =>
    have happend : (f.push h page).pages ++ rest = f.pages ++ page :: rest := by simp [push]
    rw [gather]
    split
    · exact ⟨made_push hm page, happend⟩
    · obtain ⟨hm', hp⟩ := ih (num + 1) (size + (page.content h).length) (made_push hm page)
      exact ⟨hm', hp.trans happend⟩

lemma of_buffer_spec (h : Heap) (b : BytePages) : (of_buffer h b).Made h ∧ (of_buffer h b).pages <+: b.all_pages := by
  obtain ⟨hm, hp⟩ := gather_spec (h := h) b.all_pages 0 0 (f := { page := none, pages := [], bufs := [] }) rfl
  exact ⟨hm, _, hp⟩

/-- The entry of the `i`-th page points to memory this page owns where it is kept now, and its bytes are there. -/
def Valid (h : Heap) (f : Frame) (i : Nat) : Prop :=
  ∀ p, f.pages[i]? = some p → ∃ e, f.bufs[i]? = some e ∧ e.1 = p.as_ptr h (.pages i) ∧ f.load h e = some (p.content h)

lemma valid_iff (hm : f.Made h) {i : Nat} {p : BytePage} (hp : f.pages[i]? = some p) (hl : p.Live h) :
    f.Valid h i ↔ ¬p.Inline := by
  have hne : Slot.page ≠ .pages i := nofun
  have hbuf : f.bufs[i]? = some (p.as_ptr h .page, (p.content h).length) := by
    rw [show f.bufs = _ from hm, List.getElem?_map, hp]
    rfl
  constructor
  · intro hv
    obtain ⟨e, he, haddr, -⟩ := hv p hp
    cases hbuf.symm.trans he
    exact (BytePage.as_ptr_eq_iff hne).1 haddr
  · intro hi q hq
    cases hp.symm.trans hq
    exact ⟨_, hbuf, (BytePage.as_ptr_eq_iff hne).2 hi, BytePage.load_of_not_inline hl hi Slot.page f.values⟩

lemma mapM_load {l : List BytePage} (hl : ∀ p ∈ l, p.Live h ∧ ¬p.Inline) :
    (l.map fun p => (p.as_ptr h Slot.page, (p.content h).length)).mapM (f.load h) = some (l.map (BytePage.content h)) := by
  induction l with
  | nil => rfl
  | cons p l ih =>
    have hp := hl p List.mem_cons_self
    have hload : f.load h (p.as_ptr h .page, (p.content h).length) = some (p.content h) :=
      BytePage.load_of_not_inline hp.1 hp.2 Slot.page f.values
    rw [List.map_cons, List.mapM_cons, hload, ih fun q hq => hl q (List.mem_cons_of_mem p hq)]
    rfl

/-- All entries are right exactly when no page is stored inline; then the socket is given the content of the write buffer,
as far as it accepts it. -/
theorem entries_valid_iff (hs : Safe h (b.refs + F)) :
    ((∀ i, (of_buffer h b).Valid h i) ↔ ∀ p ∈ (of_buffer h b).pages, ¬p.Inline) ∧
      ((∀ p ∈ (of_buffer h b).pages, ¬p.Inline) → ∀ n, n ≤ (BytePages.pagesContent h (of_buffer h b).pages).length →
        (of_buffer h b).accept h n = some ((b.content h).take n)) := by
  obtain ⟨hm, rest, hrest⟩ := of_buffer_spec h b
  have hlive : ∀ p ∈ (of_buffer h b).pages, p.Live h := by
    intro p hp
    refine BytePages.live_pages hs p ?_
    rw [← hrest]
    exact List.mem_append_left _ hp
  constructor
  · constructor
    · intro hv p hp
      obtain ⟨i, hi⟩ := List.mem_iff_getElem?.1 hp
      exact (valid_iff hm hi (hlive p hp)).1 (hv i)
    · intro hi i p hp
      have hmem := List.mem_of_getElem? hp
      exact (valid_iff hm hp (hlive p hmem)).2 (hi p hmem) p hp
  · intro hi n hn
    have hcontent : BytePages.pagesContent h (of_buffer h b).pages ++ BytePages.pagesContent h rest = b.content h := by
      rw [← BytePages.pagesContent_append, hrest, BytePages.pagesContent_all_pages]
    rw [accept, show (of_buffer h b).bufs = _ from hm, mapM_load fun p hp => ⟨hlive p hp, hi p hp⟩, ← hcontent,
      List.take_append_of_le_length hn]
    rfl

/-- A static page and a vector. -/
theorem entries_valid_static :
    let b : BytePages := { size := .Size16, pages := [.bytes (.static [1, 2]), .vec [3]], current := none }
    (∀ i, (of_buffer .empty b).Valid .empty i) ∧ (of_buffer .empty b).accept .empty 2 = some [1, 2] := by
  intro b
  have hs : Safe .empty (b.refs + 0) := World.sound_empty
  have hi : ∀ p ∈ (of_buffer .empty b).pages, ¬p.Inline := by decide
  exact ⟨(entries_valid_iff hs).1.2 hi, (entries_valid_iff hs).2 hi 2 (by decide)⟩

/-- Two small `Bytes` are appended to a new write buffer. Both entries point into the variable of the loop, and the
socket is given the second one twice. -/
theorem inline_pages_overwritten : ∃ (b : BytePages) (h : Heap),
    (do
      let b ← BytePages.new .Size16
      let b ← b.append (.bytes (← Storage.from_slice [1, 2, 3]))
      b.append (.bytes (← Storage.from_slice [4, 5, 6])) : Mem BytePages) .empty = .ok (b, h) ∧
    b.content h = [1, 2, 3, 4, 5, 6] ∧ ¬(of_buffer h b).Valid h 0 ∧
    (of_buffer h b).accept h 6 = some [4, 5, 6, 4, 5, 6] := by
  refine ⟨_, _, rfl, rfl, ?_, rfl⟩
  intro hv
  obtain ⟨e, he, haddr, -⟩ := hv _ rfl
  cases he
  cases haddr

end Frame

end Geario.Polling
