import Geario.Buffers.Programs
/-!
# Closures that panic

Inside `with_bytes_mut` the frame keeps `st`, a second owner of the current page
that the count does not know of. When the closure returns, it is forgotten. When
the closure panics, both are dropped.
-/
open Lib Outcome

namespace Geario.Buffers

open BytePages

/-- A program, and `st` of the call of `with_bytes_mut` that is going on for a queue. -/
structure Frames where
  world : World
  st : Nat → Option Nat

namespace Frames

def init : Frames := { world := .empty, st := fun _ => none }

inductive Step
  | op (op : Op)
  /-- the closure for a queue panics, and the panic is caught outside -/
  | panic (i : Nat)

def kept (s : Frames) (w : World) : Op → Nat → Option Nat
  | .one i _ (.queue .enter) =>
    match w.objs.get i with
    | some (.lent _ _ _ v) => Function.update s.st i (some v)
    | _ => s.st
  | _ => s.st

def step (s : Frames) : Step → Option Frames
  | .op op => (s.world.step op).map fun w => { world := w, st := s.kept w op }
  | .panic i =>
    match s.world.objs.get i, s.st i with
    | some (.lent size rest _ v), some st =>
      match (do release_shared_vec v; release_shared_vec st : Mem Unit) s.world.heap with
      | .ok (_, heap) => some { s with world := { heap, objs := (s.world.objs.remove i).insert i (.pages ⟨size, rest, none⟩) } }
      | .error _ => none
    | _, _ => none

/-- The closure returns, and no allocation is too large. -/
def Returns (s : Frames) : Step → Prop
  | .op op => s.world.Fits op
  | .panic _ => False

lemma sound_of_reach {s : Frames} (hr : Reach step Returns init s) : s.world.Sound := by
  refine hr.inv (·.world.Sound) World.sound_empty fun s i s' hs hok hst => ?_
  cases i with
  | panic i => exact hok.elim
  | op op =>
    obtain ⟨w, hw, rfl⟩ := of_map hst
    exact World.sound_step hs hok hw

end Frames

section

variable {h : Heap} {R : Multiset Ref} {v : Nat} {s : SharedVec} {E : Panic → Prop}

lemma release_last (hv : h.vecs v = some s) (hwf : s.Wf) (h1 : s.ref_count = 1) :
    Outcome (release_shared_vec v) h E fun _ h' => h'.vecs v = none ∨ ∃ size, v ∈ h'.cache size := by
  simp only [release_shared_vec, outcome_bind, add_u32]
  rw [outcome_deref hv, outcome_get, if_neg (by simpa using h1), hwf.window, if_pos hwf.small, outcome_bind, outcome_pure]
  refine ite (fun _ => .inr ⟨s.size, ?_⟩) fun _ => ?_
  · simp [Heap.set_cache]
  · rw [if_neg (by simp), outcome_set]
    exact .inl (Function.update_self ..)

lemma Safe.cached_once (hs : Safe h R) (hv : h.vecs v = some s) : h.cached v = 0 ∨ s.ref_count = 1 := by
  refine (Nat.eq_zero_or_pos (h.cached v)).imp_right fun hpos => ?_
  obtain ⟨x, hx, hxp⟩ := List.sum_pos_iff_exists_pos_nat.1 hpos
  obtain ⟨size, -, rfl⟩ := List.mem_map.1 hx
  obtain ⟨-, t, ht, hsp⟩ := hs.cached (List.count_pos_iff.1 hxp)
  cases hv.symm.trans ht
  exact hsp.ref_count

variable {size : BytePageSize}

lemma content_unsize (hv : h.vecs v = some s) (r : Ref) : r.content (h.put v { s with size }) = r.content h := by
  by_cases heq : r.ptr = v
  · rw [Ref.content, Ref.content, heq, hv, Heap.vecs_put_self]
    cases r with
    | own | page | win => rfl
  · rw [Ref.content, Ref.content, Heap.vecs_put_ne heq]

lemma leave_content {rest : List BytePage} {cap : Nat} (hv : h.vecs v = some s) :
    Outcome (BytePages.leave ⟨size, rest, none⟩ v cap) h E fun b h' =>
      b.content h' = pagesContent h rest ++ Ref.content h (.own v) := by
  have hunsize : Outcome (if s.capacity ≠ cap then StorageVec.unsize v else pure ()) h E fun _ h' =>
      ∀ r : Ref, r.content h' = r.content h :=
    ite (fun _ => (outcome_update hv).2 (outcome_modify.2 fun r => content_unsize hv r)) fun _ _ => rfl
  rw [leave, outcome_bind, outcome_deref hv, outcome_bind]
  refine hunsize.mono fun _ h' hsame => ?_
  have hpages : pagesContent h' rest = pagesContent h rest := by
    refine congrArg List.flatten (List.map_congr_left fun p _ => ?_)
    rcases p with (_ | _ | _ | _) | _ | _ <;> simp [BytePage.content, Storage.content, hsame]
  refine ite (fun _ => ?_) fun _ => ?_
  · rw [outcome_pure, ← hpages, ← hsame]
    rw [content_push_back rfl, content, curContent_none, List.append_nil]
    rfl
  · rw [outcome_pure, ← hpages, ← hsame]
    rfl

end

/-- As long as no closure panics, buffers are counted and in one cache slot at most; every handle can be dropped, and the
last one frees its buffer or puts it into the cache; and a queue gets back what the closure left. -/
theorem with_bytes_mut_safe {s : Frames} (hr : Reach Frames.step Frames.Returns .init s) :
    (∀ v b, s.world.heap.vecs v = some b →
      b.ref_count = s.world.refs.countP (·.ptr = v) + s.world.heap.cached v ∧ s.world.heap.cached v ≤ 1) ∧
    (∀ r F, s.world.refs = {r} + F → ∃ h', release_shared_vec r.ptr s.world.heap = .ok ((), h') ∧ Safe h' F ∧
      (F.countP (·.ptr = r.ptr) = 0 → h'.vecs r.ptr = none ∨ ∃ size, r.ptr ∈ h'.cache size)) ∧
    ∀ i size rest cap v, s.world.objs.get i = some (.lent size rest cap v) →
      Outcome (BytePages.leave ⟨size, rest, none⟩ v cap) s.world.heap (fun _ => False) fun b h' =>
        b.content h' = pagesContent s.world.heap rest ++ Ref.content s.world.heap (.own v) := by
  have hs := Frames.sound_of_reach hr
  refine ⟨fun v b hv => ?_, fun r F hrefs => ?_, fun i size rest cap v hi => ?_⟩
  · have hc := hs.counted hv
    have honce := hs.cached_once hv
    exact ⟨hc, by omega⟩
  · have hsr : Safe s.world.heap ({r} + F) := hs.cast hrefs
    obtain ⟨b, hv, hwf, -⟩ := hsr.live (r := r) (by simp)
    obtain ⟨⟨⟩, h', hm, hk, -⟩ := (release_spec hsr).total
    refine ⟨h', hm, hk.safe.cast (zero_add F), fun h0 => (release_last (E := fun _ => False) hv hwf ?_).of_ok hm⟩
    have hc := hsr.counted hv
    rw [Multiset.countP_add, h0, Safe.countP_self (by simp), Multiset.card_singleton] at hc
    have honce := hsr.cached_once hv
    omega
  · obtain ⟨b, hv, -⟩ := hs.within (World.mem_refsOf hi (r := .own v) (by simp [Obj.refs]))
    exact leave_content hv

/-- A closure swaps the page for a buffer with bytes of its own. -/
theorem with_bytes_mut_swapped : ∃ s : Frames, s.world.view 0 = some (.lent [] [1, 2, 3]) ∧
    ∀ v b, s.world.heap.vecs v = some b → b.ref_count = s.world.refs.countP (·.ptr = v) + s.world.heap.cached v :=
  ⟨_, rfl, fun v b hv => ((with_bytes_mut_safe (.step (i := .op (.two 0 1 .swap)) (.step (i := .op (.one 0 2 (.queue .enter)))
    (.step (i := .op (.make 1 (.buf_copy [1, 2, 3])))
    (.step (i := .op (.make 0 (.pages_new .Size4))) .refl (World.fits_of_fetch rfl trivial) rfl)
    (World.fits_of_fetch rfl (by decide : METADATA_SIZE + 3 < 2 ^ 32)) rfl) (World.fits_of_fetch rfl trivial) rfl)
    (World.fits_of_fetch rfl trivial) rfl)).1 v b hv).1⟩

/-- The closure swaps the page for another buffer and panics: the page is in the cache, and the program has it. -/
theorem panic_caches_live : ∃ s : Frames, Reach Frames.step (fun _ _ => True) .init s ∧
    s.world.objs.get 1 = some (.buf 1) ∧ s.world.heap.cache .Size4 = [1] :=
  ⟨_, .of_steps [.op (.make 0 (.pages_new .Size4)), .op (.make 1 (.buf_copy [1, 2, 3])), .op (.one 0 2 (.queue .enter)),
    .op (.two 0 1 .swap), .panic 0] rfl, rfl, rfl⟩

end Geario.Buffers
