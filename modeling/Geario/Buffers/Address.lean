import Geario.Buffers.Queue
/-!
# Addresses of pages

A page's bytes are in a shared buffer, in memory the page owns elsewhere, or,
for a small `Bytes`, inside the page value itself. Such an address is that of
the place the value is kept in, so it does not follow the value when it is
moved. Places are left open: whoever keeps pages says what they are.
-/
open Lib Multiset

namespace Geario.Buffers

inductive Addr (π : Type)
  /-- inside the value that is kept there -/
  | inside (place : π)
  | shared (v offset : Nat)
  /-- memory of a vector, a static or an external buffer, named by what it holds -/
  | outside (data : List UInt8)
  deriving DecidableEq

namespace BytePage

variable {π : Type} {h : Heap} {F : Multiset Ref} {p : BytePage} {place place' : π} {values : π → Option BytePage}

/-- `BytePage::as_ptr` of a page that is kept in `place`. -/
def as_ptr (h : Heap) (place : π) : BytePage → Addr π
  | bytes (.inline _ _) => .inside place
  | bytes (.vec v offset _) => .shared v offset
  | bytes (.static data) | bytes (.stext data _) | vec data => .outside data
  | storage v => .shared v ((h.vecs v).elim 0 SharedVec.offset)

def Inline : BytePage → Prop
  | bytes (.inline _ _) => True
  | _ => False

instance : DecidablePred Inline := fun p => by
  unfold Inline
  split <;> infer_instance

/-- What is found in memory, with the values that are kept in the places; nothing is known of other memory. -/
def load (h : Heap) (values : π → Option BytePage) (n : Nat) : Addr π → Option (List UInt8)
  | .inside place =>
    match values place with
    | some (bytes (.inline data _)) => if n ≤ data.length then some (data.take n) else none
    | _ => none
  | .shared v offset =>
    match h.vecs v with
    | some s => if offset + n ≤ s.mem.length ∨ n = 0 then some (slice s.mem offset n) else none
    | none => none
  | .outside data => if n ≤ data.length then some (data.take n) else none

def Live (h : Heap) (p : BytePage) : Prop := ∀ r ∈ p.refs, ∃ s, h.vecs r.ptr = some s ∧ s.Wf ∧ r.Within s

lemma as_ptr_eq_iff (hne : place ≠ place') : p.as_ptr h place = p.as_ptr h place' ↔ ¬p.Inline := by
  cases p with
  | bytes st =>
    cases st with
    | inline data fits =>
      simp only [as_ptr, Inline, Addr.inside.injEq, not_true_eq_false, iff_false]
      exact hne
    | vec | static | stext => exact iff_of_true rfl id
  | storage | vec => exact iff_of_true rfl id

lemma load_as_ptr (hl : p.Live h) (hp : values place = some p) :
    load h values (p.content h).length (p.as_ptr h place) = some (p.content h) := by
  have hdata : ∀ data : List UInt8, (if data.length ≤ data.length then some (data.take data.length) else none) = some data := by
    intro data
    rw [if_pos (Nat.le_refl _), List.take_length]
  cases p with
  | bytes st =>
    cases st with
    | inline data fits =>
      simp only [as_ptr, load, hp]
      exact hdata data
    | vec v offset len =>
      obtain ⟨s, hv, -, hw⟩ := hl _ (mem_singleton_self _)
      have hlen : (slice s.mem offset len).length = len := by
        rcases hw with hw | rfl
        · exact length_slice hw
        · rw [slice_zero, List.length_nil]
      have hc : (bytes (.vec v offset len)).content h = slice s.mem offset len := Ref.content_win hv
      rw [hc, hlen, as_ptr, load, show h.vecs v = some s from hv]
      exact if_pos hw
    | static data => exact hdata data
    | stext data shares => exact hdata data
  | storage v =>
    obtain ⟨s, hv, hwf, -⟩ := hl _ (mem_singleton_self _)
    have hc : (storage v).content h = s.as_ref := Ref.content_page hv
    rw [hc, hwf.length_as_ref, as_ptr, load, show h.vecs v = some s from hv]
    refine if_pos (.inl ?_)
    have := hwf.window
    have := hwf.room
    dsimp only [Option.elim]
    omega
  | vec data => exact hdata data

lemma load_of_not_inline (hl : p.Live h) (hi : ¬p.Inline) (place : π) (values : π → Option BytePage) :
    load h values (p.content h).length (p.as_ptr h place) = some (p.content h) := by
  have hload : load h values (p.content h).length (p.as_ptr h place) =
      load h (fun _ : π => some p) (p.content h).length (p.as_ptr h place) := by
    cases p with
    | bytes st =>
      cases st with
      | inline data fits => exact absurd trivial hi
      | _ => rfl
    | _ => rfl
  rw [hload]
  exact load_as_ptr hl rfl

end BytePage

namespace BytePages

variable {h : Heap} {F : Multiset Ref} {b : BytePages}

lemma mem_pagesRefs {p : BytePage} {l : List BytePage} {r : Ref} (hp : p ∈ l) (hr : r ∈ p.refs) : r ∈ pagesRefs l := by
  obtain ⟨l₁, l₂, rfl⟩ := List.append_of_mem hp
  rw [pagesRefs_append, pagesRefs_cons]
  exact mem_add.2 (.inr (mem_add.2 (.inl hr)))

lemma live_pages (hs : Safe h (b.refs + F)) : ∀ p ∈ b.all_pages, p.Live h := by
  intro p hp r hr
  rcases List.mem_append.1 hp with hp | hp
  · have hmem : r ∈ b.refs + F := mem_add.2 (.inl (mem_add.2 (.inl (mem_pagesRefs hp hr))))
    obtain ⟨s, hv, hw⟩ := hs.within hmem
    exact ⟨s, hv, hs.wf hv, hw⟩
  · obtain ⟨v, hcur, rfl⟩ := Option.map_eq_some_iff.1 (Option.mem_toList.1 hp)
    obtain rfl := mem_singleton.1 hr
    have hmem : .own v ∈ b.refs + F := by
      refine mem_add.2 (.inl (mem_add.2 (.inr ?_)))
      rw [hcur]
      exact mem_singleton_self _
    obtain ⟨s, hv, -⟩ := hs.within hmem
    exact ⟨s, hv, hs.wf hv, trivial⟩

lemma pagesContent_all_pages : pagesContent h b.all_pages = b.content h := by
  rw [all_pages, pagesContent_append, content]
  cases b.current with
  | none => rfl
  | some v => exact congrArg _ (List.append_nil _)

end BytePages

end Geario.Buffers
