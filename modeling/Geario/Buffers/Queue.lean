import Geario.Buffers.Pages
/-!
# `BytePages` is a byte queue

What each call does to the content, the queued pages followed by the current
one. As everywhere, what a call says about content supposes that no page's
buffer is written by someone else (`Owned`); that it is safe does not.

`slack` is the room a write finds: the free space of the current page or, if
there is none, a page of the configured size.
-/
open Lib List Multiset

namespace Geario.Buffers

open BytePage

namespace BytePages

def pagesRefs (l : List BytePage) : Multiset Ref := (l.map BytePage.refs).sum

def pagesContent (h : Heap) (l : List BytePage) : List UInt8 := l.flatMap (BytePage.content h)

def curRefs (current : Option Nat) : Multiset Ref := current.elim 0 fun v => {.own v}

def curContent (h : Heap) (current : Option Nat) : List UInt8 := current.elim [] fun v => Ref.content h (.own v)

def refs (b : BytePages) : Multiset Ref := pagesRefs b.pages + curRefs b.current

def content (h : Heap) (b : BytePages) : List UInt8 := pagesContent h b.pages ++ curContent h b.current

def Small (b : BytePages) : Prop := ∀ p ∈ b.pages, p.Small

def slack (h : Heap) (b : BytePages) : Nat := b.current.elim b.size.capacity h.room

section Basic

variable {h h' : Heap} {A A' F : Multiset Ref} {l l' : List BytePage} {p : BytePage} {b : BytePages}

@[simp] lemma pagesRefs_nil : pagesRefs [] = 0 := rfl

@[simp] lemma pagesRefs_cons : pagesRefs (p :: l) = p.refs + pagesRefs l := by
  rw [pagesRefs, List.map_cons, List.sum_cons, pagesRefs]

@[simp] lemma pagesRefs_append : pagesRefs (l ++ l') = pagesRefs l + pagesRefs l' := by
  rw [pagesRefs, map_append, sum_append, pagesRefs, pagesRefs]

@[simp] lemma pagesContent_nil : pagesContent h [] = [] := rfl

@[simp] lemma pagesContent_cons : pagesContent h (p :: l) = p.content h ++ pagesContent h l := flatMap_cons

@[simp] lemma pagesContent_append : pagesContent h (l ++ l') = pagesContent h l ++ pagesContent h l' := flatMap_append

@[simp] lemma curRefs_none : curRefs none = 0 := rfl

@[simp] lemma curRefs_some {v : Nat} : curRefs (some v) = {.own v} := rfl

@[simp] lemma curContent_none : curContent h none = [] := rfl

@[simp] lemma curContent_some {v : Nat} : curContent h (some v) = Ref.content h (.own v) := rfl

section

variable (k : Keeps h A F h' A') (ho : Owned h (A + F))
include k ho

lemma pagesContent_keeps (hF : ∀ r ∈ pagesRefs l, r ∈ F) : pagesContent h' l = pagesContent h l := by
  induction l with
  | nil => rfl
  | cons p l ih =>
    rw [pagesContent_cons, pagesContent_cons, ih fun r hr => hF r (mem_add.2 (.inr hr)),
      content_keeps k ho fun r hr => hF r (mem_add.2 (.inl hr))]

lemma curContent_keeps {o : Option Nat} (hF : ∀ r ∈ curRefs o, r ∈ F) : curContent h' o = curContent h o := by
  cases o with
  | none => rfl
  | some v => exact k.frame ho _ (hF _ (Multiset.mem_singleton_self _))

lemma content_keeps (hF : ∀ r ∈ b.refs, r ∈ F) : b.content h' = b.content h := by
  rw [content, content, pagesContent_keeps k ho fun r hr => hF r (mem_add.2 (.inl hr)),
    curContent_keeps k ho fun r hr => hF r (mem_add.2 (.inr hr))]

lemma slack_keeps (hF : ∀ r ∈ b.refs, r ∈ F) : b.slack h' = b.slack h := by
  rw [slack, slack]
  cases hc : b.current with
  | none => rfl
  | some v => exact k.room ho v (hF _ (mem_add.2 (.inr (by rw [hc]; exact Multiset.mem_singleton_self _))))

end

lemma content_push_back (hc : b.current = none) : (b.push_back p).content h = b.content h ++ p.content h := by
  rw [content, content, push_back, hc, pagesContent_append, pagesContent_cons, pagesContent_nil, curContent_none]
  simp only [append_nil]

lemma refs_push_back : (b.push_back p).refs = b.refs + p.refs := by
  rw [refs, refs, push_back, pagesRefs_append, pagesRefs_cons, pagesRefs_nil]
  abel

end Basic

variable {h : Heap} {F : Multiset Ref} {E : Panic → Prop} {b : BytePages} {p : BytePage} {v : Nat} {src : List UInt8}
  {Q : Nat → Heap → Prop}

/-! ## The current page -/

lemma open_current_spec (hs : Safe h (b.refs + F)) (hub : b.size = .Unset → E .bounds) :
    Outcome b.open_current h E fun q h' =>
      q.1 = { b with current := none } ∧ Keeps h b.refs F h' (pagesRefs b.pages + {.own q.2}) ∧
        (Owned h (b.refs + F) →
          pagesContent h' b.pages = pagesContent h b.pages ∧ Ref.content h' (.own q.2) = curContent h b.current) ∧
        h'.room q.2 = b.slack h := by
  obtain ⟨size, pages, current⟩ := b
  cases current with
  | some v => exact ⟨rfl, .refl hs, fun _ => ⟨rfl, rfl⟩, rfl⟩
  | none =>
    have hs' : Safe h (pagesRefs pages + F) := hs.cast (by simp [refs])
    simp only [open_current, outcome_bind]
    by_cases hu : size = .Unset
    · simp only [StorageVec.sized, outcome_bind, outcome_get, if_pos hu, outcome_throw]
      exact hub hu
    · refine (sized_spec hs' hu).mono ?_
      rintro v h' ⟨hk, hc, hroom⟩
      refine outcome_pure.2 ⟨rfl, ?_, fun ho => ⟨?_, hc⟩, hroom⟩
      · exact hk.widen_left
      · refine pagesContent_keeps hk (ho.cast (by simp [refs])) mem_left

lemma close_current_spec (hc : b.current = none) (hs : Safe h (pagesRefs b.pages + {.own v} + F)) :
    Outcome (b.close_current v) h E fun b' h' =>
      h' = h ∧ b'.size = b.size ∧ Keeps h (pagesRefs b.pages + {.own v}) F h b'.refs ∧
        b'.content h = pagesContent h b.pages ++ Ref.content h (.own v) ∧ 0 < b'.slack h := by
  obtain ⟨s, hv, hwf⟩ := hs.right.live_own
  simp only [close_current, outcome_bind]
  rw [outcome_deref hv]
  refine Outcome.ite (fun hfull => outcome_pure.2 ⟨rfl, rfl, ?_, ?_, ?_⟩) fun hroom => outcome_pure.2 ⟨rfl, rfl, ?_, rfl, ?_⟩
  · have hk : Keeps h {.own v} (pagesRefs b.pages + F) h {.page v} :=
      Keeps.convert hs.right hv rfl (fun _ => trivial) (by simp) fun hb => hb.elim
    refine hk.widen_left.cast rfl ?_
    rw [refs_push_back, refs, hc, curRefs_none, add_zero]
    rfl
  · rw [content_push_back hc, content, hc, curContent_none, append_nil]
    rfl
  · rw [slack, push_back, hc]
    exact b.size.capacity_pos
  · exact .refl hs
  · change 0 < h.room v
    rw [Heap.room_eq hv]
    omega

lemma with_current_spec {α : Type} {f : Nat → Mem α} {d : α → List UInt8} {R : α → Prop} (hs : Safe h (b.refs + F))
    (hub : b.size = .Unset → E .bounds)
    (hf : ∀ {v h1 G}, Safe h1 ({.own v} + G) → h1.room v = b.slack h → Outcome (f v) h1 E fun a h2 =>
      Keeps h1 {.own v} G h2 {.own v} ∧ Ref.content h2 (.own v) = Ref.content h1 (.own v) ++ d a ∧ R a) :
    Outcome (b.with_current f) h E fun q h' =>
      Keeps h b.refs F h' q.1.refs ∧ q.1.size = b.size ∧ 0 < q.1.slack h' ∧ R q.2 ∧
        (Owned h (b.refs + F) → q.1.content h' = b.content h ++ d q.2) := by
  refine (open_current_spec hs hub).seq ?_
  rintro ⟨_, v⟩ h1 ⟨rfl, hk1, hc1, hroom⟩
  refine (hf hk1.safe.right hroom).seq fun a h2 ⟨hk2, hc2, hR⟩ => ?_
  have hk12 := hk1.trans hk2.widen_left
  refine (close_current_spec (b := { b with current := none }) rfl hk12.safe).seq ?_
  rintro b' _ ⟨rfl, hsize, hk3, hc3, hslack⟩
  refine outcome_pure.2 ⟨hk12.trans hk3, hsize, hslack, hR, fun ho => ?_⟩
  obtain ⟨hp, hcur⟩ := hc1 ho
  have ho1 : Owned h1 ({.own v} + (pagesRefs b.pages + F)) := (hk1.owned ho).cast (by abel)
  rw [hc3, hc2, pagesContent_keeps hk2 ho1 mem_left, hp, hcur, content, append_assoc]

/-! ## Writing -/

lemma put_chunk_spec (hs : Safe h ({.own v} + F)) :
    Outcome (put_chunk src v) h E fun a h' =>
      Keeps h {.own v} F h' {.own v} ∧ Ref.content h' (.own v) = Ref.content h (.own v) ++ src.take a ∧
        a = min src.length (h.room v) := by
  obtain ⟨s, hv, hwf⟩ := hs.live_own
  simp only [put_chunk, outcome_bind]
  rw [outcome_deref hv, Heap.room_eq hv]
  refine (update_own_spec hs hv ((SharedVec.put_slice_spec hwf ?_).mono fun _ _ h => ⟨h.1, h.2.1⟩)).mono
    fun _ h' ⟨hk, hc⟩ => outcome_pure.2 ⟨hk, ?_, rfl⟩
  · rw [length_take]
    omega
  · rw [hc, Ref.content_own hv]

section

variable (hs : Safe h (b.refs + F))
include hs

section

variable (hub : b.size = .Unset → E .bounds)
include hub

lemma put_slice_loop_spec {fuel : Nat} (hfuel : src.length + (if b.slack h = 0 then 1 else 0) ≤ fuel) :
    Outcome (put_slice_loop fuel b src) h E fun b' h' =>
      Keeps h b.refs F h' b'.refs ∧ b'.size = b.size ∧ (0 < b.slack h ∨ src ≠ [] → 0 < b'.slack h') ∧
        (Owned h (b.refs + F) → b'.content h' = b.content h ++ src) := by
  induction fuel generalizing h b src with
  | zero =>
    cases src with
    | nil => exact outcome_pure.2 ⟨.refl hs, rfl, fun hp => hp.resolve_right (by simp), fun _ => (append_nil _).symm⟩
    | cons c rest => rw [length_cons] at hfuel; omega
  | succ fuel ih =>
    cases src with
    | nil => exact outcome_pure.2 ⟨.refl hs, rfl, fun hp => hp.resolve_right (by simp), fun _ => (append_nil _).symm⟩
    | cons c rest =>
      generalize hsrc : c :: rest = src at hfuel
      rw [put_slice_loop.eq_def, ← hsrc]
      dsimp only
      rw [hsrc]
      refine (with_current_spec (d := fun a => src.take a) (R := fun a => a = min src.length (b.slack h)) hs hub
        fun hs1 hroom => (put_chunk_spec hs1).mono fun a h2 hk => ⟨hk.1, hk.2.1, hroom ▸ hk.2.2⟩).seq ?_
      rintro ⟨b1, a⟩ h1 ⟨hk1, hsize, hslack, ha, hc1⟩
      refine (ih hk1.safe (hsize ▸ hub) ?_).mono fun b2 h2 ⟨hk2, hsize2, hsl2, hc2⟩ =>
        ⟨hk1.trans hk2, hsize2.trans hsize, fun _ => hsl2 (.inl hslack), fun ho => ?_⟩
      · -- either bytes went into the page or a full page went out of the way
        rw [if_neg (by omega), length_drop]
        split at hfuel <;> omega
      · rw [hc2 (hk1.owned ho), hc1 ho, append_assoc, take_append_drop]

lemma put_slice_spec :
    Outcome (b.put_slice src) h E fun b' h' =>
      Keeps h b.refs F h' b'.refs ∧ b'.size = b.size ∧ (0 < b.slack h ∨ src ≠ [] → 0 < b'.slack h') ∧
        (Owned h (b.refs + F) → b'.content h' = b.content h ++ src) :=
  put_slice_loop_spec hs hub (by split <;> omega)

lemma put_u8_spec {n : UInt8} (hnf : 0 < b.slack h) :
    Outcome (b.put_u8 n) h E fun b' h' =>
      Keeps h b.refs F h' b'.refs ∧ b'.size = b.size ∧ 0 < b'.slack h' ∧
        (Owned h (b.refs + F) → b'.content h' = b.content h ++ [n]) := by
  refine (with_current_spec (d := fun _ => [n]) (R := fun _ => True) hs hub fun {v h1 G} hs1 hroom => ?_).seq
    fun q h' ⟨hk, hsize, hslack, _, hc⟩ => outcome_pure.2 ⟨hk, hsize, hslack, hc⟩
  obtain ⟨s, hv, hwf⟩ := hs1.live_own
  rw [Heap.room_eq hv] at hroom
  refine (update_own_spec hs1 hv (SharedVec.put_u8_spec hwf (by omega))).mono fun _ h2 ⟨hk, hc⟩ => ⟨hk, ?_, trivial⟩
  rw [hc, Ref.content_own hv]

lemma put_u8_full {n : UInt8} {Q : BytePages → Heap → Prop}
    (h0 : b.slack h = 0) (hof : E .overflow) : Outcome (b.put_u8 n) h E Q := by
  simp only [put_u8, with_current, outcome_bind]
  refine (open_current_spec hs hub).mono ?_
  rintro ⟨_, v⟩ h1 ⟨rfl, hk1, -, hroom⟩
  obtain ⟨s, hv, hwf⟩ := hk1.safe.right.live_own
  rw [outcome_update hv]
  refine (SharedVec.put_u8_full hwf ?_).weaken ?_
  · rw [← Heap.room_eq hv, hroom, h0]
  · rintro _ rfl
    exact hof

end

end

/-! ## Adding pages -/

lemma outcome_current_len (hs : Safe h (b.refs + F)) :
    Outcome b.current_len h E Q ↔ Q (curContent h b.current).length h := by
  obtain ⟨size, pages, current⟩ := b
  cases current with
  | none => exact Iff.rfl
  | some v =>
    obtain ⟨s, hv, hwf⟩ := hs.right.live_own
    simp only [current_len, outcome_bind, outcome_pure]
    rw [outcome_deref hv, curContent_some, Ref.content_own hv, hwf.length_as_ref]

lemma outcome_remaining_mut (hs : Safe h (b.refs + F)) :
    Outcome b.remaining_mut h E Q ↔ Q (b.current.elim 0 h.room) h := by
  obtain ⟨size, pages, current⟩ := b
  cases current with
  | none => exact Iff.rfl
  | some v =>
    obtain ⟨s, hv, -⟩ := hs.right.live_own
    simp only [remaining_mut, outcome_bind, outcome_pure]
    rw [outcome_deref hv, Option.elim_some, Heap.room_eq hv]

lemma prepend_spec (hs : Safe h (b.refs + p.refs + F)) :
    Outcome (b.prepend p) h E fun b' h' =>
      Keeps h (b.refs + p.refs) F h' b'.refs ∧
        (Owned h (b.refs + p.refs + F) → b'.content h' = p.content h ++ b.content h ∧ b'.slack h' = b.slack h) := by
  simp only [prepend, outcome_bind]
  rw [outcome_is_empty hs.right]
  refine Outcome.ite (fun he => ?_) fun _ => outcome_pure.2 ⟨?_, fun _ => ⟨?_, rfl⟩⟩
  · refine (drop_spec hs.right).seq fun _ h' hk => outcome_pure.2 ⟨?_, fun ho => ?_⟩
    · exact hk.widen_left.cast rfl (add_zero _)
    · have ho' := ho.cast (S := p.refs + (b.refs + F)) (by abel)
      rw [isEmpty_iff.1 he, content_keeps hk ho' mem_left, slack_keeps hk ho' mem_left]
      exact ⟨rfl, rfl⟩
  · refine (Keeps.refl hs).cast rfl ?_
    rw [refs, refs, pagesRefs_cons]
    abel
  · rw [content, content, pagesContent_cons, append_assoc]

lemma replace_current_spec (hs : Safe h (b.refs + {.own v} + F)) :
    Outcome (b.replace_current v) h E fun b' h' =>
      Keeps h (b.refs + {.own v}) F h' b'.refs ∧ b'.size = b.size ∧
        (Owned h (b.refs + {.own v} + F) →
          b'.content h' = pagesContent h b.pages ++ Ref.content h (.own v) ∧ b'.slack h' = h.room v) := by
  obtain ⟨size, pages, current⟩ := b
  cases current with
  | none => exact ⟨(Keeps.refl hs).cast rfl (by simp [refs]), rfl, fun _ => ⟨rfl, rfl⟩⟩
  | some w =>
    have hs' : Safe h ({.own w} + (pagesRefs pages + {.own v} + F)) := hs.cast (by rw [refs, curRefs_some]; abel)
    simp only [replace_current, outcome_bind]
    refine (release_spec (r := .own w) hs').mono fun _ h' ⟨hk, _⟩ => outcome_pure.2 ⟨?_, rfl, fun ho => ?_⟩
    · refine hk.widen.cast ?_ (zero_add _)
      rw [refs, curRefs_some]
      abel
    · have ho' := ho.cast (S := {.own w} + (pagesRefs pages + {.own v} + F)) (by rw [refs, curRefs_some]; abel)
      have hF : ∀ r ∈ refs ⟨size, pages, some v⟩, r ∈ pagesRefs pages + {.own v} + F := mem_left
      exact ⟨content_keeps hk ho' hF, slack_keeps hk ho' hF⟩

lemma flush_spec (hs : Safe h (b.refs + F)) :
    Keeps h b.refs F h b.flush.refs ∧ b.flush.content h = b.content h ∧ b.flush.current = none ∧ b.flush.size = b.size := by
  obtain ⟨size, pages, current⟩ := b
  cases current with
  | none => exact ⟨.refl hs, rfl, rfl, rfl⟩
  | some v =>
    obtain ⟨s, hv, -⟩ := hs.right.live_own
    have hk : Keeps h {.own v} (pagesRefs pages + F) h {.page v} :=
      Keeps.convert hs.right hv rfl (fun _ => trivial) (by simp) fun hb => hb.elim
    refine ⟨hk.widen_left.cast rfl ?_, ?_, rfl, rfl⟩
    · rw [flush, refs_push_back, refs, curRefs_none, add_zero]
      rfl
    · rw [flush, content_push_back rfl, content, curContent_none, append_nil]
      rfl

lemma append_spec (hs : Safe h (b.refs + p.refs + F)) (hub : b.size = .Unset → E .bounds) :
    Outcome (b.append p) h E fun b' h' =>
      Keeps h (b.refs + p.refs) F h' b'.refs ∧ b'.size = b.size ∧
        (Owned h (b.refs + p.refs + F) →
          b'.content h' = b.content h ++ p.content h ∧ (0 < b.slack h → 0 < b'.slack h')) := by
  have hsb : Safe h (b.refs + (p.refs + F)) := hs.left
  have hsp : Safe h (p.refs + (b.refs + F)) := hs.right
  have howb : ∀ {h}, Owned h (b.refs + p.refs + F) → Owned h (p.refs + (b.refs + F)) := fun ho => ho.cast (by abel)
  simp only [append, outcome_bind]
  rw [outcome_is_empty hsp]
  refine Outcome.ite (fun he => ?_) fun _ => ?_
  · -- nothing to add
    refine (drop_spec hsp).seq fun _ h' hk => outcome_pure.2 ⟨hk.widen_left.cast rfl (add_zero _), rfl, fun ho => ?_⟩
    rw [isEmpty_iff.1 he, append_nil, content_keeps hk (howb ho) mem_left, slack_keeps hk (howb ho) mem_left]
    exact ⟨rfl, id⟩
  rw [outcome_bind, outcome_current_len hsb]
  refine Outcome.ite (fun h0 => ?_) fun _ => ?_
  · -- behind an empty current page: the page becomes the current one, or it is queued
    have hcur : curContent h b.current = [] := eq_nil_of_length_eq_zero h0
    refine (into_storage_spec hsp).seq ?_
    rintro x _ ⟨rfl, hx⟩
    cases x with
    | inl v =>
      obtain ⟨hk, hc, hroom⟩ := hx
      have hk' := hk.widen_left
      refine (replace_current_spec hk'.safe).mono fun b' h' ⟨hk2, hsize, hc2⟩ => ⟨hk'.trans hk2, hsize, fun ho => ?_⟩
      obtain ⟨hc2, hsl⟩ := hc2 (hk'.owned ho)
      rw [hc2, hc, hsl, content, hcur, append_nil]
      exact ⟨rfl, fun _ => hroom⟩
    | inr q =>
      obtain rfl := hx
      refine outcome_pure.2 ⟨(Keeps.refl hs).cast rfl refs_push_back.symm, rfl, fun _ => ⟨?_, id⟩⟩
      rw [content, content, push_back, pagesContent_append, pagesContent_cons, pagesContent_nil, hcur]
      simp only [append_nil]
  rw [outcome_bind, outcome_len hsp, outcome_bind, outcome_remaining_mut hsb]
  refine Outcome.ite (fun _ => ?_) fun _ => ?_
  · -- it fits into the current page
    rw [outcome_bind, outcome_as_ref hsp]
    refine (put_slice_spec hsb hub).seq fun b1 h1 ⟨hk1, hsize, hsl, hc1⟩ => ?_
    refine (drop_spec hk1.safe.swap).seq fun _ h2 hk2 => outcome_pure.2 ?_
    refine ⟨(hk1.widen.trans hk2.widen_left).cast rfl (add_zero _), hsize, fun ho => ?_⟩
    have ho1 := hk1.owned (ho.cast (by abel))
    have ho1' := ho1.cast (S := p.refs + (b1.refs + F)) (by abel)
    rw [content_keeps hk2 ho1' mem_left, slack_keeps hk2 ho1' mem_left]
    exact ⟨hc1 (ho.cast (by abel)), fun hp => hsl (.inl hp)⟩
  · obtain ⟨hk, hc, hn, hsize⟩ := flush_spec hsb
    refine outcome_pure.2 ⟨hk.widen.cast rfl refs_push_back.symm, hsize, fun _ => ⟨?_, fun _ => ?_⟩⟩
    · rw [content_push_back hn, hc]
    · rw [slack, push_back, hn]
      exact BytePageSize.capacity_pos _

end BytePages

end Geario.Buffers
