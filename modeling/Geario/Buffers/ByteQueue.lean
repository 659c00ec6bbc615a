import Geario.Buffers.Handles
/-!
# Pages and queues as values

Three results about programs that use pages and queues as well. A page and its
clone are independent as long as nobody moves or takes over a header that the
other reads through. A queue is a byte queue. And `put_u8` finds room, as long
as neither `advance_mut` nor a closure leaves a full page behind.
-/
open Lib

namespace Geario.Buffers

open BytePages

namespace World

variable {w w' : World} {op : Op} {k i : Nat} {b : BytePages}

/-! ## Clones -/

/-- In a program whose calls are calm, a call changes what is seen of no object it is not called on. -/
theorem clones_independent (hr : Reach step (fun w op => w.Fits op ∧ w.Calm op) .empty w) (hfit : w.Fits op) (hc : w.Calm op)
    (hst : w.step op = some w') (hk : k ∉ op.ins) (hv : (w.view k).isSome) : w'.view k = w.view k := by
  obtain ⟨hs, ha⟩ := apart_of_reach hr
  cases hget : w.objs.get k with
  | none =>
    rw [view, hget] at hv
    cases hv
  | some o => exact view_bystander hs ha hfit hc hst hk hget

/-- Two clones of a page, the second read after the first was split. -/
theorem clones_independent_after_split : ∃ w w' : World, w.step (.one 0 2 (.page (.split_to 2))) = some w' ∧
    w.view 1 = some (.page [1, 2, 3]) ∧ w'.view 1 = w.view 1 := by
  refine ⟨_, _, rfl, rfl, clones_independent (k := 1) (.step (i := .one 0 1 (.page .clone)) (.step (i := .one 0 1 .buf_page)
      (.step (i := .make 0 (.buf_copy [1, 2, 3])) .refl ⟨fits_of_fetch rfl ?_, calm_of_fetch rfl trivial⟩ rfl)
      ⟨fits_of_fetch rfl trivial, calm_of_fetch rfl trivial⟩ rfl) ⟨fits_of_fetch rfl trivial, calm_of_fetch rfl trivial⟩ rfl)
    ?_ ?_ (rfl : step _ (.one 0 2 (.page (.split_to 2))) = some _) (by decide) rfl⟩
  · change METADATA_SIZE + 3 < 2 ^ 32
    decide
  · exact fits_of_fetch rfl trivial
  · exact calm_of_fetch rfl trivial

/-- The clone of a page made from a `BytesMut` is moved with the page. -/
theorem clone_follows_advance : ∃ w w' : World, Reach step (fun _ _ => True) .empty w ∧
    w.step (.one 0 2 (.page (.advance_to 1))) = some w' ∧ w.view 1 = some (.page [1, 2, 3]) ∧ w'.view 1 = some (.page [2, 3]) := by
  have hreach : Reach step (fun _ _ => True) .empty _ := .of_steps
      [.make 0 (.buf_copy [1, 2, 3]), .one 0 1 .buf_page, .one 0 1 (.page .clone)] rfl
  exact ⟨_, _, hreach, rfl, rfl, rfl⟩

/-! ## The byte queue -/

/-- In a calm program a queue's length is that of its content, a call fails only when a reference count runs over, and it
does to the contents what `Post` says. -/
theorem queue_of_bytes (hr : Reach step (fun w op => w.Fits op ∧ w.Calm op) .empty w) :
    (∀ i b, w.objs.get i = some (.pages b) →
      b.len w.heap = .ok ((b.content w.heap).length, w.heap) ∧ b.is_empty w.heap = .ok ((b.content w.heap).isEmpty, w.heap)) ∧
    ∀ op, w.Fits op → w.Calm op → w.Ok op →
      (∀ e, w.Panics op e → e = .abort) ∧
      ∀ w', w.step op = some w' → ∃ xs ys, seeAll w.view op.ins = some xs ∧ op.Post xs ys ∧
        w'.view = rewire w.view op.ins (op.outs.zip ys) := by
  obtain ⟨hs, ha⟩ := apart_of_reach hr
  refine ⟨fun i b hi => ?_, fun op hfit hc hok => ⟨fun e hp => panics_abort hs hfit hok hp, fun w' hst => view_step hs ha hfit hc hst⟩⟩
  have hsb : Safe w.heap (b.refs + refsOf (w.objs.remove i).values) := hs.cast (refsOf_remove hi)
  obtain ⟨n, h, hlen, rfl, rfl⟩ := ((outcome_len (E := fun _ => False)
    (Q := fun n h => n = (b.content w.heap).length ∧ h = w.heap) hsb).2 ⟨rfl, rfl⟩).total
  obtain ⟨e, h, hemp, rfl, rfl⟩ := ((outcome_is_empty (E := fun _ => False)
    (Q := fun e h => e = (b.content w.heap).isEmpty ∧ h = w.heap) hsb).2 ⟨rfl, rfl⟩).total
  exact ⟨hlen, hemp⟩

theorem queue_of_bytes_after_append : ∃ w : World, w.view 0 = some (.pages [1, 2, 3]) ∧ ∀ i b, w.objs.get i = some (.pages b) →
    b.len w.heap = .ok ((b.content w.heap).length, w.heap) ∧ b.is_empty w.heap = .ok ((b.content w.heap).isEmpty, w.heap) := by
  refine ⟨_, rfl, (queue_of_bytes (.step (i := .two 0 1 .append) (.step (i := .make 1 (.page_vec [1, 2, 3]))
    (.step (i := .make 0 (.pages_new .Size4)) .refl ⟨fits_of_fetch rfl trivial, calm_of_fetch rfl trivial⟩ rfl)
    ⟨fits_of_fetch rfl trivial, calm_of_fetch rfl trivial⟩ rfl) ⟨fits_of_fetch rfl trivial, calm_of_fetch rfl trivial⟩ rfl)).1⟩

variable {size : BytePageSize}

/-- For `2 ^ 32 + 1` bytes the buffer has room for one by its header, and it is released with a layout that is not its own.
-/
lemma into_mut_overlong {h : Heap} {a b : UInt8} {l : List UInt8} {Q : Nat → Heap → Prop}
    (hl : (a :: l).length = 2 ^ 32) :
    Outcome (into_mut ⟨size, [.vec (a :: l), .vec [b]], none⟩) h (· = .memory) Q := by
  have hlen : ∀ R : Nat → Heap → Prop, Outcome (len ⟨size, [.vec (a :: l), .vec [b]], none⟩) h (· = .memory) R ↔
      R (0 + (a :: l).length + 1) h := fun _ => Iff.rfl
  simp only [into_mut, BytesMut.with_capacity, StorageVec.with_capacity, outcome_bind]
  rw [hlen, zero_add]
  generalize a :: l = src at hl
  have hmax : METADATA_SIZE + (src.length + 1) ≤ LAYOUT_MAX := by
    rw [LAYOUT_MAX, METADATA_SIZE]
    omega
  rw [outcome_create_empty hmax]
  obtain ⟨hoff, hlen0, hcap, hrem, hmem⟩ := SharedVec.init_header (src.length + 1)
  have hrc : (SharedVec.init .Unset (src.length + 1) []).ref_count = 1 := rfl
  have hsize : (SharedVec.init .Unset (src.length + 1) []).size = .Unset := rfl
  generalize SharedVec.init .Unset (src.length + 1) [] = t at hoff hlen0 hcap hrem hmem hrc hsize
  have hcap1 : t.capacity = 1 := by omega
  have hv : (h.alloc t).vecs h.next = some t := Function.update_self ..
  rw [drain_eq]
  simp only [take, extend_page, BytePage.as_ref, outcome_bind, outcome_pure]
  rw [outcome_put_slice_moved hv hlen0 (by omega) (by omega) (by omega)]
  have hv' : ((h.alloc t).alloc (SharedVec.init .Unset src.length [])).vecs h.next = some t := by
    exact (Function.update_of_ne (ne_of_lt (Nat.lt_succ_self _)) ..).trans hv
  simp only [release_shared_vec, outcome_bind]
  rw [outcome_deref hv', hrc, hsize, hoff, hcap1, add_u32, hmem, hl]
  exact (rfl : Panic.memory = .memory)

lemma freeze_overlong {h : Heap} {a b : UInt8} {l : List UInt8} (hl : (a :: l).length = 2 ^ 32) :
    Outcome (freeze ⟨size, [.vec (a :: l), .vec [b]], none⟩) h (· = .memory) fun _ _ => False := by
  have hrun : freeze ⟨size, [.vec (a :: l), .vec [b]], none⟩ = do
      let buf ← into_mut ⟨size, [.vec (a :: l), .vec [b]], none⟩
      return (⟨size, [], none⟩, ← StorageVec.freeze buf) := rfl
  rw [hrun, outcome_bind]
  exact into_mut_overlong hl

/-- Two pages, one of `2 ^ 32` bytes, cannot be frozen. -/
theorem freeze_of_long_pages : ∃ (w : World) (l : List UInt8), Reach step (fun _ _ => True) .empty w ∧
    l.length = 2 ^ 32 + 1 ∧ w.view 0 = some (.pages l) ∧ w.Panics (.one 0 1 (.queue .freeze)) .memory := by
  obtain ⟨src, hsrc⟩ : ∃ src : List UInt8, src.length = 2 ^ 32 - 1 := ⟨List.replicate _ 0, List.length_replicate⟩
  have hlen : ((0 : UInt8) :: src).length = 2 ^ 32 := by
    rw [List.length_cons]
    omega
  obtain ⟨w, hw, hobj, hview⟩ : ∃ w, run step (fun _ _ => True) .empty
      [.make 0 (.pages_new .Size4), .make 1 (.page_vec (0 :: src)), .two 0 1 .append, .make 1 (.page_vec [0]), .two 0 1 .append] = some w ∧
      w.objs.get 0 = some (.pages ⟨.Size4, [.vec (0 :: src), .vec [0]], none⟩) ∧
      w.view 0 = some (.pages (((0 :: src) ++ [0]) ++ [])) := ⟨_, rfl, rfl, rfl⟩
  refine ⟨w, _, .of_run hw, ?_, hview, ?_⟩
  · rw [List.append_nil, List.length_append, hlen, List.length_singleton]
  · have hf : fetch [0] w.objs = some ([.pages ⟨.Size4, [.vec (0 :: src), .vec [0]], none⟩], w.objs.remove 0) := by
      simp only [fetch, hobj, Option.map_some]
    have hfail : Outcome (QueueOp.exec ⟨.Size4, [.vec (0 :: src), .vec [0]], none⟩ .freeze) w.heap (· = .memory)
        fun _ _ => False := (freeze_overlong hlen).seq fun _ _ => False.elim
    obtain ⟨e, hm, rfl⟩ := hfail.fails
    exact ⟨_, _, _, hf, rfl, hm⟩

/-! ## Room for a byte -/

/-- `put_u8` finds room and adds its byte, if no call has left a full page behind. -/
theorem put_u8_has_room (hr : Reach step (fun w op => w.Fits op ∧ w.Calm op ∧ w.Spares op) .empty w)
    (hi : w.objs.get i = some (.pages b)) (hsz : b.size ≠ .Unset) (n : UInt8) :
    0 < b.slack w.heap ∧ ∃ b' h, b.put_u8 n w.heap = .ok (b', h) ∧ b'.content h = b.content w.heap ++ [n] := by
  obtain ⟨hs, ha, hroomy⟩ := roomy_of_reach hr
  have hpos : 0 < b.slack w.heap := hroomy i _ hi
  have hsb : Safe w.heap (b.refs + refsOf (w.objs.remove i).values) := hs.cast (refsOf_remove hi)
  obtain ⟨b', h, hput, -, -, -, hc⟩ := (put_u8_spec (E := fun _ => False) hsb (fun hu => hsz hu) hpos).total
  exact ⟨hpos, b', h, hput, hc (Owned.cast ha (refsOf_remove hi))⟩

/-- A page is appended to a new queue. -/
theorem put_u8_has_room_again : ∃ (w : World) (b : BytePages), w.objs.get 0 = some (.pages b) ∧
    ∃ b' h, b.put_u8 7 w.heap = .ok (b', h) ∧ b'.content h = [6, 7] := by
  have hreach : Reach step (fun w op => w.Fits op ∧ w.Calm op ∧ w.Spares op) .empty _ := .step (i := .two 0 1 .append)
    (.step (i := .make 1 (.page_vec [6])) (.step (i := .make 0 (.pages_new .Size4)) .refl
      ⟨fits_of_fetch rfl trivial, calm_of_fetch rfl trivial, spares_of_fetch rfl trivial⟩ rfl)
      ⟨fits_of_fetch rfl trivial, calm_of_fetch rfl trivial, spares_of_fetch rfl trivial⟩ rfl)
    ⟨fits_of_fetch rfl trivial, calm_of_fetch rfl trivial, spares_of_fetch rfl trivial⟩ rfl
  exact ⟨_, _, rfl, (put_u8_has_room (i := 0) hreach rfl (by decide) 7).2⟩

/-- A closure that puts a full buffer of three bytes in place of the page, then `put_u8`. -/
theorem put_u8_after_swap : ∃ w, Reach step (fun _ _ => True) .empty w ∧
    w.view 0 = some (.pages [1, 2, 3]) ∧ w.Panics (.one 0 2 (.queue (.put_u8 9))) .overflow := by
  have hreach : Reach step (fun _ _ => True) .empty _ := .of_steps
      [.make 0 (.pages_new .Size4), .make 1 (.buf_copy [1, 2, 3]), .one 0 2 (.queue .enter), .two 0 1 .swap, .one 0 2 .leave] rfl
  exact ⟨_, hreach, rfl, _, _, _, rfl, rfl, rfl⟩

end World

end Geario.Buffers
