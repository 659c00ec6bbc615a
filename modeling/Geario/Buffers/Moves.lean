import Geario.Buffers.Queue
/-!
# Moving content between queues

The calls that go over the pages of a queue: `clear`, `move_to`, `copy_to`,
`split_into` and `freeze`. The invariant of each loop is that what has been
moved followed by what is left is the content at the start. `freeze` copies
into a buffer of its own, so that its rule does not suppose `Owned`.

The last part are the calls that give away the current page for a while
(`with_bytes_mut`) or its free space (`chunk_mut` and `advance_mut`).
-/
open Lib List Option Multiset

namespace Geario.Buffers

open BytePage Outcome Heap

variable {h h' : Heap} {A A' F : Multiset Ref} {E : Panic → Prop} {p : BytePage} {b dst : BytePages} {l : List BytePage}
  {n v : Nat}

lemma BytePage.not_own : .own v ∉ p.refs := by
  cases p with
  | bytes st => cases st <;> simp [refs, Storage.refs]
  | _ => simp [refs]

namespace BytePages

lemma pagesContent_congr (hr : ∀ r ∈ pagesRefs l, r.content h' = r.content h) : pagesContent h' l = pagesContent h l := by
  induction l with
  | nil => rfl
  | cons p l ih =>
    rw [pagesContent_cons, pagesContent_cons, ih fun r hm => hr r (mem_add.2 (.inr hm)),
      content_congr fun r hm => hr r (mem_add.2 (.inl hm))]

/-! ## Looking at a queue -/

section

variable (hs : Safe h (b.refs + F))
include hs

lemma outcome_len {Q : Nat → Heap → Prop} : Outcome b.len h E Q ↔ Q (b.content h).length h := by
  have hloop : ∀ (l : List BytePage) (G : Multiset Ref) (c : Nat), Safe h (pagesRefs l + G) →
      (Outcome (l.foldlM (fun c page => do return c + (← page.len)) c) h E Q ↔ Q (c + (pagesContent h l).length) h) := by
    intro l
    induction l with
    | nil => exact fun _ _ _ => Iff.rfl
    | cons p l ih =>
      intro G c hs
      simp only [foldlM_cons, outcome_bind, outcome_pure]
      rw [BytePage.outcome_len hs.left, ih _ _ hs.right, pagesContent_cons, length_append, add_assoc]
  simp only [len, outcome_bind]
  rw [outcome_current_len hs, hloop _ _ _ hs.left, content, length_append, add_comm]

lemma outcome_is_empty {Q : Bool → Heap → Prop} : Outcome b.is_empty h E Q ↔ Q (b.content h).isEmpty h := by
  have hloop : ∀ (l : List BytePage) (G : Multiset Ref) (R : Bool → Heap → Prop), Safe h (pagesRefs l + G) →
      (Outcome (pages_empty l) h E R ↔ R (pagesContent h l).isEmpty h) := by
    intro l
    induction l with
    | nil => exact fun _ _ _ => Iff.rfl
    | cons p l ih =>
      intro G R hs
      simp only [pages_empty, outcome_bind]
      rw [BytePage.outcome_is_empty hs.left, pagesContent_cons]
      cases p.content h with
      | nil => exact ih _ _ hs.right
      | cons x rest => exact Iff.rfl
  simp only [is_empty, outcome_bind]
  rw [hloop _ _ _ hs.left, content]
  cases pagesContent h b.pages with
  | nil =>
    simp only [isEmpty_nil, if_true, outcome_bind, outcome_pure]
    rw [outcome_current_len hs]
    cases curContent h b.current <;> exact Iff.rfl
  | cons x rest => exact Iff.rfl

/-! ## Taking pages out -/

lemma all_pages_spec : Keeps h b.refs F h (pagesRefs b.all_pages) ∧ pagesContent h b.all_pages = b.content h := by
  obtain ⟨size, pages, current⟩ := b
  cases current with
  | none => exact ⟨(Keeps.refl hs).cast rfl (by simp [refs, all_pages]), by simp [content, all_pages]⟩
  | some v =>
    obtain ⟨s, hv, -⟩ := hs.right.live_own
    have hk : Keeps h {.own v} (pagesRefs pages + F) h {.page v} :=
      Keeps.convert hs.right hv rfl (fun _ => trivial) (by simp) fun hb => hb.elim
    refine ⟨hk.widen_left.cast rfl ?_, ?_⟩
    · simp [all_pages, BytePage.refs]
    · simp only [all_pages, content, map_some, toList_some, pagesContent_append, pagesContent_cons,
        pagesContent_nil, append_nil]
      rfl

lemma take_spec :
    Keeps h b.refs F h (b.take.1.refs + (b.take.2.elim 0 BytePage.refs)) ∧
      b.content h = b.take.2.elim [] (BytePage.content h) ++ b.take.1.content h ∧
        b.take.1.size = b.size ∧ (0 < b.slack h → 0 < b.take.1.slack h) := by
  obtain ⟨size, pages, current⟩ := b
  cases pages with
  | cons p rest =>
    refine ⟨(Keeps.refl hs).cast rfl ?_, ?_, rfl, id⟩
    · simp only [take, refs, elim_some, pagesRefs_cons]
      abel
    · simp only [take, content, elim_some, pagesContent_cons, append_assoc]
  | nil =>
    obtain ⟨hk, hc⟩ := all_pages_spec hs
    refine ⟨hk.cast rfl ?_, ?_, rfl, fun _ => size.capacity_pos⟩
    · cases current <;> simp [take, refs, all_pages]
    · cases current with
      | none => rfl
      | some v => simp only [take, content, map_some, elim_some, content, pagesContent_nil, curContent_some,
          curContent_none, append_nil, nil_append]; rfl

end

lemma take_none (ht : b.take.2 = none) : b.take.1 = b.cleared := by
  obtain ⟨size, pages, current⟩ := b
  cases pages with
  | cons p rest => cases ht
  | nil => rfl

lemma drop_pages_spec (hs : Safe h (pagesRefs l + F)) :
    Outcome (l.foldlM (fun _ page => page.drop) ()) h E fun _ h' => Keeps h (pagesRefs l) F h' 0 := by
  refine foldlM (I := fun l' _ h' => Keeps h (pagesRefs l) F h' (pagesRefs l')) (fun {p l' _ h1} hk => ?_) (.refl hs)
  exact (drop_spec hk.safe.left).mono fun _ h2 hk2 => hk.trans (hk2.widen.cast rfl (zero_add _))

lemma drop_spec (hs : Safe h (b.refs + F)) : Outcome b.drop h E fun _ h' => Keeps h b.refs F h' 0 := by
  have hk := (all_pages_spec hs).1
  exact (drop_pages_spec hk.safe).mono fun _ h' hk' => hk.trans hk'

lemma clear_spec (hs : Safe h (b.refs + F)) :
    Outcome b.clear h E fun b' h' => b' = b.cleared ∧ Keeps h b.refs F h' b'.refs :=
  (drop_spec hs).seq fun _ _ hk => outcome_pure.2 ⟨rfl, hk⟩

/-! ## Moving and copying -/

lemma append_pages_spec (hs : Safe h (dst.refs + pagesRefs l + F)) (hub : dst.size = .Unset → E .bounds) :
    Outcome (l.foldlM append dst) h E fun dst' h' =>
      Keeps h (dst.refs + pagesRefs l) F h' dst'.refs ∧ dst'.size = dst.size ∧
        (Owned h (dst.refs + pagesRefs l + F) →
          dst'.content h' = dst.content h ++ pagesContent h l ∧ (0 < dst.slack h → 0 < dst'.slack h')) := by
  refine mono (foldlM (I := fun l' (dst' : BytePages) h' =>
      Keeps h (dst.refs + pagesRefs l) F h' (dst'.refs + pagesRefs l') ∧ dst'.size = dst.size ∧
        (Owned h (dst.refs + pagesRefs l + F) → dst'.content h' ++ pagesContent h' l' = dst.content h ++ pagesContent h l ∧
          (0 < dst.slack h → 0 < dst'.slack h')))
    (fun {p l' dst1 h1} hI => ?_) ⟨.refl hs, rfl, fun _ => ⟨rfl, id⟩⟩) fun dst' h' hI => ?_
  · obtain ⟨hk, hsize, hc⟩ := hI
    have hk : Keeps h (dst.refs + pagesRefs l) F h1 (dst1.refs + p.refs + pagesRefs l') :=
      hk.cast rfl (by rw [pagesRefs_cons, add_assoc])
    refine (append_spec hk.safe.left (hsize ▸ hub)).mono fun dst2 h2 ⟨hk2, hsize2, hc2⟩ =>
      ⟨hk.trans hk2.widen, hsize2.trans hsize, fun ho => ?_⟩
    have ho1 := (hk.owned ho).cast (S := dst1.refs + p.refs + (pagesRefs l' + F)) (by abel)
    obtain ⟨hcc, hsl⟩ := hc ho
    obtain ⟨hc2, hsl2⟩ := hc2 ho1
    refine ⟨?_, fun hpos => hsl2 (hsl hpos)⟩
    rw [hc2, pagesContent_keeps hk2 ho1 mem_left, ← hcc, pagesContent_cons, append_assoc]
  · obtain ⟨hk, hsize, hc⟩ := hI
    refine ⟨hk.cast rfl (add_zero _), hsize, fun ho => ?_⟩
    rw [← (hc ho).1, pagesContent_nil, append_nil]
    exact ⟨rfl, (hc ho).2⟩

lemma move_to_spec (hs : Safe h (b.refs + dst.refs + F)) (hub : dst.size = .Unset → E .bounds) :
    Outcome (b.move_to dst) h E fun q h' =>
      q.1 = b.cleared ∧ Keeps h (b.refs + dst.refs) F h' (q.1.refs + q.2.refs) ∧ q.2.size = dst.size ∧
        (Owned h (b.refs + dst.refs + F) →
          q.2.content h' = dst.content h ++ b.content h ∧ (0 < dst.slack h → 0 < q.2.slack h')) := by
  obtain ⟨hk, hc⟩ := all_pages_spec hs.left
  have hk' := hk.widen.cast (D := dst.refs + pagesRefs b.all_pages) rfl (add_comm _ _)
  refine (append_pages_spec hk'.safe hub).seq fun dst' h' ⟨hk2, hsize, hc2⟩ => outcome_pure.2 ⟨rfl, ?_, hsize, fun ho => ?_⟩
  · exact (hk'.trans hk2).cast rfl (zero_add _).symm
  · rw [← hc]
    exact hc2 (hk'.owned ho)

/-- A page is made, with `A` becoming `A'`, and appended. -/
lemma append_made {h1 : Heap} (hk : Keeps h A (dst.refs + F) h1 (A' + p.refs)) (hub : dst.size = .Unset → E .bounds) :
    Outcome (dst.append p) h1 E fun dst' h' =>
      Keeps h (A + dst.refs) F h' (A' + dst'.refs) ∧ dst'.size = dst.size ∧
        (Owned h (A + dst.refs + F) →
          (∀ r ∈ A', r.content h' = r.content h1) ∧ (∀ v, .own v ∈ A' → h'.room v = h1.room v) ∧
            dst'.content h' = dst.content h ++ p.content h1 ∧ (0 < dst.slack h → 0 < dst'.slack h')) := by
  have hk1 := hk.widen.cast (D := A' + (dst.refs + p.refs)) rfl (by abel)
  refine (append_spec hk1.safe.right hub).mono fun dst' h' ⟨hk2, hsize, hc⟩ => ⟨hk1.trans hk2.widen_left, hsize, fun ho => ?_⟩
  have ho0 := ho.cast (add_assoc A _ F)
  have ho1 := (hk1.owned ho).cast (S := dst.refs + p.refs + (A' + F)) (by abel)
  obtain ⟨hc, hsl⟩ := hc ho1
  have hdst : ∀ r ∈ dst.refs, r ∈ dst.refs + F := mem_left
  rw [slack_keeps hk ho0 hdst] at hsl
  rw [hc, content_keeps hk ho0 hdst]
  exact ⟨fun r hr => hk2.frame ho1 r (mem_add.2 (.inl hr)), fun v hv => hk2.room ho1 v (mem_add.2 (.inl hv)), rfl, hsl⟩

lemma copy_page_spec (hs : Safe h (p.refs + dst.refs + F)) (hsm : p.Small) (hab : E .abort)
    (hub : dst.size = .Unset → E .bounds) :
    Outcome (do dst.append (← p.clone)) h E fun dst' h' =>
      Keeps h (p.refs + dst.refs) F h' (p.refs + dst'.refs) ∧ dst'.size = dst.size ∧
        (Owned h (p.refs + dst.refs + F) →
          p.content h' = p.content h ∧ dst'.content h' = dst.content h ++ p.content h ∧
            (0 < dst.slack h → 0 < dst'.slack h')) := by
  refine (BytePage.clone_spec hs.left hsm hab).seq fun q h1 ⟨hk1, hc1, _⟩ => ?_
  refine (append_made hk1 hub).mono fun dst' h2 ⟨hk2, hsize, hc2⟩ => ⟨hk2, hsize, fun ho => ?_⟩
  obtain ⟨hp, hq⟩ := hc1 (ho.cast (add_assoc ..))
  obtain ⟨hsame, -, hd, hsl⟩ := hc2 ho
  rw [hd, hq, content_congr hsame, hp]
  exact ⟨rfl, rfl, hsl⟩

lemma copy_pages_spec (hs : Safe h (pagesRefs l + dst.refs + F)) (hsm : ∀ p ∈ l, p.Small) (hab : E .abort)
    (hub : dst.size = .Unset → E .bounds) :
    Outcome (l.foldlM (fun (dst : BytePages) p => do dst.append (← p.clone)) dst) h E fun dst' h' =>
      Keeps h (pagesRefs l + dst.refs) F h' (pagesRefs l + dst'.refs) ∧ dst'.size = dst.size ∧
        (Owned h (pagesRefs l + dst.refs + F) →
          pagesContent h' l = pagesContent h l ∧ dst'.content h' = dst.content h ++ pagesContent h l ∧
            (0 < dst.slack h → 0 < dst'.slack h')) := by
  induction l generalizing h dst F with
  | nil => exact ⟨.refl hs, rfl, fun _ => ⟨rfl, (append_nil _).symm, id⟩⟩
  | cons p l ih =>
    obtain ⟨hp, hl⟩ := forall_mem_cons.1 hsm
    rw [pagesRefs_cons] at hs ⊢
    have hs1 : Safe h (p.refs + dst.refs + (pagesRefs l + F)) := hs.cast (by abel)
    refine (copy_page_spec hs1 hp hab hub).seq fun dst1 h1 ⟨hk1, hsize1, hc1⟩ => ?_
    have hs2 : Safe h1 (pagesRefs l + dst1.refs + (p.refs + F)) := hk1.safe.cast (by abel)
    refine (ih hs2 hl (hsize1 ▸ hub)).mono fun dst2 h2 ⟨hk2, hsize2, hc2⟩ => ⟨?_, hsize2.trans hsize1, fun ho => ?_⟩
    · have k1 := hk1.widen.cast (B := p.refs + pagesRefs l + dst.refs) (D := p.refs + (pagesRefs l + dst1.refs))
        (by abel) (by abel)
      exact (k1.trans hk2.widen_left).cast rfl (by abel)
    · have ho1 := ho.cast (S := p.refs + dst.refs + (pagesRefs l + F)) (by abel)
      have ho2 := (hk1.owned ho1).cast (S := pagesRefs l + dst1.refs + (p.refs + F)) (by abel)
      obtain ⟨hp1, hd1, hsl1⟩ := hc1 ho1
      obtain ⟨hl2, hd2, hsl2⟩ := hc2 ho2
      have hl1 := pagesContent_keeps (l := l) hk1 ho1 mem_left
      rw [pagesContent_cons, pagesContent_cons, BytePage.content_keeps hk2 ho2 mem_left,
        hp1, hl2, hl1, hd2, hd1, hl1, append_assoc]
      exact ⟨rfl, rfl, fun hpos => hsl2 (hsl1 hpos)⟩

lemma copy_current_spec (hs : Safe h ({.own v} + dst.refs + F)) (hub : dst.size = .Unset → E .bounds) :
    Outcome (do
        let st ← Storage.from_slice (← deref v).as_ref
        dst.append (.bytes st)) h E fun dst' h' =>
      Keeps h ({.own v} + dst.refs) F h' ({.own v} + dst'.refs) ∧ dst'.size = dst.size ∧
        (Owned h ({.own v} + dst.refs + F) →
          Ref.content h' (.own v) = Ref.content h (.own v) ∧ h'.room v = h.room v ∧
            dst'.content h' = dst.content h ++ Ref.content h (.own v) ∧ (0 < dst.slack h → 0 < dst'.slack h')) := by
  obtain ⟨s, hv, hwf⟩ := hs.left.live_own
  have hfit : METADATA_SIZE + s.as_ref.length < 2 ^ 32 := by
    have := hwf.small
    have := hwf.window
    have := hwf.data
    have := hwf.room
    rw [hwf.length_as_ref]
    omega
  rw [outcome_bind, outcome_deref hv]
  refine (Storage.from_slice_spec hs.left hfit).seq fun st h1 ⟨hk0, hc1, _⟩ => ?_
  have hk1 : Keeps h {.own v} (dst.refs + F) h1 ({.own v} + st.refs) := hk0.widen.cast (zero_add _) (add_comm ..)
  refine (append_made (p := .bytes st) hk1 hub).mono fun dst' h2 ⟨hk2, hsize, hc2⟩ => ⟨hk2, hsize, fun ho => ?_⟩
  obtain ⟨hsame, hroom, hd, hsl⟩ := hc2 ho
  have ho0 := ho.cast (S := 0 + ({.own v} + (dst.refs + F))) (by abel)
  rw [hd, BytePage.content, hc1, hsame _ (by simp), hroom v (by simp), hk0.frame ho0 _ (by simp), hk0.room ho0 _ (by simp),
    Ref.content_own hv]
  exact ⟨rfl, rfl, rfl, hsl⟩

lemma copy_to_spec (hs : Safe h (b.refs + dst.refs + F)) (hsm : b.Small) (hab : E .abort)
    (hub : dst.size = .Unset → E .bounds) :
    Outcome (b.copy_to dst) h E fun dst' h' =>
      Keeps h (b.refs + dst.refs) F h' (b.refs + dst'.refs) ∧ dst'.size = dst.size ∧
        (Owned h (b.refs + dst.refs + F) →
          b.content h' = b.content h ∧ b.slack h' = b.slack h ∧ dst'.content h' = dst.content h ++ b.content h ∧
            (0 < dst.slack h → 0 < dst'.slack h')) := by
  obtain ⟨size, pages, current⟩ := b
  have hs1 : Safe h (pagesRefs pages + dst.refs + (curRefs current + F)) := hs.cast (by rw [refs]; abel)
  refine (copy_pages_spec hs1 hsm hab hub).seq ?_
  rintro dst1 h1 ⟨hk1, hsize1, hc1⟩
  cases current with
  | none =>
    refine outcome_pure.2 ⟨?_, hsize1, fun ho => ?_⟩
    · exact (hk1.widen (C := 0)).cast (by simp [refs]) (by simp [refs])
    · obtain ⟨hp, hd, hsl⟩ := hc1 (ho.cast (by rw [refs]; abel))
      rw [content, content, hp, hd, curContent_none, curContent_none, append_nil]
      exact ⟨rfl, rfl, rfl, hsl⟩
  | some v =>
    have hrefs : refs ⟨size, pages, some v⟩ = pagesRefs pages + {.own v} := rfl
    have hs2 : Safe h1 ({.own v} + dst1.refs + (pagesRefs pages + F)) := hk1.safe.cast (by rw [curRefs_some]; abel)
    refine (copy_current_spec hs2 (hsize1 ▸ hub)).mono ?_
    rintro dst2 h2 ⟨hk2, hsize2, hc2⟩
    refine ⟨?_, hsize2.trans hsize1, fun ho => ?_⟩
    · have k1 := hk1.widen.cast (B := refs ⟨size, pages, some v⟩ + dst.refs) (D := pagesRefs pages + ({.own v} + dst1.refs))
        (by rw [hrefs, curRefs_some]; abel) (by rw [curRefs_some]; abel)
      exact (k1.trans hk2.widen_left).cast rfl (by rw [hrefs]; abel)
    · have ho1 := ho.cast (S := pagesRefs pages + dst.refs + (curRefs (some v) + F)) (by rw [refs]; abel)
      have ho2 := (hk1.owned ho1).cast (S := {.own v} + dst1.refs + (pagesRefs pages + F)) (by rw [curRefs_some]; abel)
      obtain ⟨hp, hd, hsl⟩ := hc1 ho1
      obtain ⟨hcur, hroom, hd2, hsl2⟩ := hc2 ho2
      have hown : .own v ∈ curRefs (some v) + F := by simp
      have hcur1 := hk1.frame ho1 _ hown
      have hroom1 := hk1.room ho1 _ hown
      have hp2 := pagesContent_keeps (l := pages) hk2 ho2 mem_left
      refine ⟨?_, hroom.trans hroom1, ?_, fun hpos => hsl2 (hsl hpos)⟩
      · rw [content, content, hp2, hp, curContent_some, curContent_some, hcur, hcur1]
      · rw [hd2, hd, hcur1, append_assoc]
        rfl

/-! ## Splitting -/

lemma split_page_spec {m : Nat} (hs : Safe h (p.refs + dst.refs + F)) (hsm : p.Small) (hab : E .abort)
    (hub : dst.size = .Unset → E .bounds) :
    Outcome (do
        let (page, front) ← p.split_to m
        return (page, ← dst.append front)) h E fun q h' =>
      Keeps h (p.refs + dst.refs) F h' (q.1.refs + q.2.refs) ∧ q.2.size = dst.size ∧
        (Owned h (p.refs + dst.refs + F) →
          q.1.content h' = (p.content h).drop m ∧ q.2.content h' = dst.content h ++ (p.content h).take m ∧
            (0 < dst.slack h → 0 < q.2.slack h')) := by
  refine (BytePage.split_to_spec hs.left hsm hab).seq ?_
  rintro ⟨page, front⟩ h1 ⟨hk1, hc1⟩
  refine (append_made hk1 hub).seq fun dst' h2 ⟨hk2, hsize, hc2⟩ => outcome_pure.2 ⟨hk2, hsize, fun ho => ?_⟩
  obtain ⟨hpage, hfront⟩ := hc1 (ho.cast (add_assoc ..))
  obtain ⟨hsame, -, hd, hsl⟩ := hc2 ho
  rw [hd, hfront, content_congr hsame, hpage]
  exact ⟨rfl, rfl, hsl⟩

lemma split_loop_spec (hs : Safe h (pagesRefs l + dst.refs + F)) (hsm : ∀ p ∈ l, p.Small) (hab : E .abort)
    (hub : dst.size = .Unset → E .bounds) :
    Outcome (split_loop l n dst) h E fun q h' =>
      Keeps h (pagesRefs l + dst.refs) F h' (pagesRefs q.1 + q.2.2.1.refs) ∧ q.2.2.1.size = dst.size ∧
        (q.2.2.2 = false → q.1 = []) ∧
        (Owned h (pagesRefs l + dst.refs + F) →
          pagesContent h' q.1 = (pagesContent h l).drop n ∧ q.2.2.1.content h' = dst.content h ++ (pagesContent h l).take n ∧
            (if q.2.2.2 then n ≤ (pagesContent h l).length else q.2.1 + (pagesContent h l).length = n) ∧
            (0 < dst.slack h → 0 < q.2.2.1.slack h')) := by
  induction l generalizing h dst n F with
  | nil => exact ⟨.refl hs, rfl, fun _ => rfl, fun _ => by simp⟩
  | cons p l ih =>
    obtain ⟨hp, hl⟩ := forall_mem_cons.1 hsm
    rw [pagesRefs_cons] at hs ⊢
    have hs1 : Safe h (p.refs + dst.refs + (pagesRefs l + F)) := hs.cast (by abel)
    have hsplit := split_page_spec (m := min (p.content h).length n) hs1 hp hab hub
    simp only [split_loop, outcome_bind, outcome_pure] at hsplit ⊢
    rw [BytePage.outcome_len hs1.left]
    refine hsplit.mono ?_
    rintro ⟨page, front⟩ h1 hq
    refine hq.mono fun dst1 h2 ⟨hk, hsize, hc⟩ => ?_
    rw [BytePage.outcome_is_empty hk.safe.left]
    have hown : Owned h (p.refs + pagesRefs l + dst.refs + F) → Owned h (p.refs + dst.refs + (pagesRefs l + F)) :=
      fun ho => ho.cast (by abel)
    have hkeep : Owned h (p.refs + pagesRefs l + dst.refs + F) → pagesContent h2 l = pagesContent h l := fun ho =>
      pagesContent_keeps hk (hown ho) mem_left
    refine ite (fun he => ?_) fun hne => outcome_pure.2 ⟨?_, hsize, by simp, fun ho => ?_⟩
    · refine (BytePage.drop_spec hk.safe.left).seq fun _ h3 hk3 => ?_
      have hs3 : Safe h3 (pagesRefs l + dst1.refs + F) := hk3.safe.cast (by abel)
      refine (ih hs3 hl (hsize ▸ hub)).mono fun q h4 ⟨hk4, hsize4, hnil, hc4⟩ => ⟨?_, hsize4.trans hsize, hnil, fun ho => ?_⟩
      · have k1 := hk.widen.cast (B := p.refs + pagesRefs l + dst.refs) (D := page.refs + (dst1.refs + pagesRefs l))
          (by abel) (by abel)
        have k3 : Keeps h2 (page.refs + (dst1.refs + pagesRefs l)) F h3 (pagesRefs l + dst1.refs) := by
          rw [← add_assoc] at hk3
          exact hk3.widen.cast rfl (by abel)
        exact (k1.trans k3).trans hk4
      · obtain ⟨hpage, hdst, hsl⟩ := hc (hown ho)
        have hle : (p.content h).length ≤ n := by
          rw [hpage, List.isEmpty_iff, drop_eq_nil_iff] at he
          omega
        have ho2 := (hk.owned (hown ho)).cast (S := page.refs + (dst1.refs + (pagesRefs l + F))) (by abel)
        have ho3 := (hk3.owned ho2).cast (S := pagesRefs l + dst1.refs + F) (by abel)
        have hl3 := pagesContent_keeps (l := l) hk3 ho2 fun r hr => by simp [hr]
        have hd3 : ∀ r ∈ dst1.refs, r ∈ dst1.refs + (pagesRefs l + F) := mem_left
        obtain ⟨hc4, hd4, hn4, hsl4⟩ := hc4 ho3
        rw [min_eq_left hle] at hdst hc4 hd4 hn4
        rw [hl3, hkeep ho] at hc4 hd4 hn4
        rw [content_keeps hk3 ho2 hd3, hdst, take_length] at hd4
        rw [slack_keeps hk3 ho2 hd3] at hsl4
        rw [pagesContent_cons, hc4, hd4, drop_append, drop_of_length_le hle, take_append,
          take_of_length_le hle, length_append, append_assoc]
        refine ⟨rfl, rfl, ?_, fun hpos => hsl4 (hsl hpos)⟩
        split at hn4
        next hrest =>
          rw [if_pos hrest]
          omega
        next hrest =>
          rw [if_neg hrest]
          omega
    · exact hk.widen.cast (by abel) (by rw [pagesRefs_cons]; abel)
    · obtain ⟨hpage, hdst, hsl⟩ := hc (hown ho)
      have hlt : n < (p.content h).length := by
        rw [hpage, List.isEmpty_iff, drop_eq_nil_iff] at hne
        omega
      rw [Nat.min_eq_right (by omega)] at hpage hdst
      rw [pagesContent_cons, pagesContent_cons, hpage, hdst, hkeep ho, if_pos rfl, length_append,
        drop_append_of_le_length (by omega), take_append_of_le_length (by omega)]
      exact ⟨rfl, rfl, by omega, hsl⟩

lemma split_current_spec (hs : Safe h (b.refs + dst.refs + F)) (hab : E .abort) (hub : b.size = .Unset → E .bounds)
    (hub' : dst.size = .Unset → E .bounds) :
    Outcome (b.split_current n dst) h E fun q h' =>
      Keeps h (b.refs + dst.refs) F h' (q.1.refs + q.2.refs) ∧ q.1.size = b.size ∧ q.2.size = dst.size ∧
        (Owned h (b.refs + dst.refs + F) →
          q.1.content h' = pagesContent h b.pages ++ (curContent h b.current).drop n ∧
            q.2.content h' = dst.content h ++ (curContent h b.current).take n ∧
            0 < q.1.slack h' ∧ (0 < dst.slack h → 0 < q.2.slack h')) := by
  obtain ⟨size, pages, current⟩ := b
  cases current with
  | none => exact outcome_pure.2 ⟨.refl hs, rfl, rfl, fun _ => ⟨by simp [content], by simp, size.capacity_pos, id⟩⟩
  | some v =>
    have hrefs : refs ⟨size, pages, some v⟩ = pagesRefs pages + {.own v} := rfl
    have hrest : refs ⟨size, pages, none⟩ = pagesRefs pages := add_zero _
    -- the page is taken out, split, and what is left of it put back
    obtain ⟨s, hv, -⟩ := (hs.cast (S := {.own v} + (pagesRefs pages + dst.refs + F)) (by rw [hrefs]; abel)).live_own
    have hk0 : Keeps h {.own v} (pagesRefs pages + dst.refs + F) h (storage v).refs :=
      Keeps.convert (hs.cast (by rw [hrefs]; abel)) hv rfl (fun _ => trivial) (by simp) fun hb => hb.elim
    have hs0 : Safe h ((storage v).refs + dst.refs + (pagesRefs pages + F)) := hk0.safe.cast (by abel)
    have hsplit := split_page_spec (m := min (BytePage.content h (.storage v)).length n) hs0 trivial hab hub'
    simp only [split_current, outcome_bind, outcome_pure] at hsplit ⊢
    rw [BytePage.outcome_len hs0.left]
    refine hsplit.mono ?_
    rintro ⟨page, front⟩ h1 hq
    refine hq.mono ?_
    rintro dst1 h2 ⟨hk, hsize, hc⟩
    have hs2 : Safe h2 (refs ⟨size, pages, none⟩ + page.refs + (dst1.refs + F)) := hk.safe.cast (by rw [hrest]; abel)
    refine (append_spec hs2 hub).mono ?_
    rintro b1 h3 ⟨hk3, hsize3, hc3⟩
    refine ⟨?_, hsize3, hsize, fun ho => ?_⟩
    · have k0 := hk0.widen.cast
        (B := refs ⟨size, pages, some v⟩ + dst.refs) (D := (storage v).refs + dst.refs + pagesRefs pages)
        (by rw [hrefs]; abel) (by abel)
      have k1 := hk.widen.cast (D := refs ⟨size, pages, none⟩ + page.refs + dst1.refs) rfl (by rw [hrest]; abel)
      exact (k0.trans k1).trans hk3.widen
    · have ho0 := (hk0.owned (ho.cast (by rw [hrefs]; abel))).cast
        (S := (storage v).refs + dst.refs + (pagesRefs pages + F)) (by abel)
      have ho2 := (hk.owned ho0).cast (S := refs ⟨size, pages, none⟩ + page.refs + (dst1.refs + F)) (by rw [hrest]; abel)
      obtain ⟨hpage, hdst, hsl⟩ := hc ho0
      obtain ⟨hc3, hsl3⟩ := hc3 ho2
      have hd2 : ∀ r ∈ dst1.refs, r ∈ dst1.refs + F := mem_left
      have hp2 := pagesContent_keeps (l := pages) hk ho0 mem_left
      rw [slack_keeps hk3 ho2 hd2, content_keeps hk3 ho2 hd2, hc3, hdst, hpage, content, hp2, curContent_none, append_nil,
        take_min_length, drop_min_length]
      exact ⟨rfl, rfl, hsl3 size.capacity_pos, hsl⟩

lemma split_into_spec (hs : Safe h (b.refs + dst.refs + F)) (hsm : b.Small) (hab : E .abort)
    (hub : b.size = .Unset → E .bounds) (hub' : dst.size = .Unset → E .bounds) :
    Outcome (b.split_into n dst) h E fun q h' =>
      Keeps h (b.refs + dst.refs) F h' (q.1.refs + q.2.refs) ∧ q.1.size = b.size ∧ q.2.size = dst.size ∧
        (Owned h (b.refs + dst.refs + F) →
          q.1.content h' = (b.content h).drop n ∧ q.2.content h' = dst.content h ++ (b.content h).take n ∧
            (0 < b.slack h → 0 < q.1.slack h') ∧ (0 < dst.slack h → 0 < q.2.slack h')) := by
  have hb : b.refs = pagesRefs b.pages + curRefs b.current := rfl
  have hs1 : Safe h (pagesRefs b.pages + dst.refs + (curRefs b.current + F)) := hs.cast (by rw [hb]; abel)
  refine (split_loop_spec hs1 hsm hab hub').seq ?_
  rintro ⟨pages, rest, dst1, returned⟩ h1 ⟨hk1, hsize1, hnil, hc1⟩
  have hrefs : refs { b with pages } = pagesRefs pages + curRefs b.current := rfl
  have hk1' := hk1.widen.cast (B := b.refs + dst.refs) (D := refs { b with pages } + dst1.refs) (by rw [hb]; abel)
    (by rw [hrefs]; abel)
  have hown : Owned h (b.refs + dst.refs + F) → Owned h (pagesRefs b.pages + dst.refs + (curRefs b.current + F)) :=
    fun ho => ho.cast (by rw [hb]; abel)
  have hcur : Owned h (b.refs + dst.refs + F) → curContent h1 b.current = curContent h b.current := fun ho =>
    curContent_keeps hk1 (hown ho) mem_left
  have hslack : Owned h (b.refs + dst.refs + F) → slack h1 { b with pages } = b.slack h := fun ho => by
    rw [slack, slack]
    cases hc : b.current with
    | none => rfl
    | some v => exact hk1.room (hown ho) v (by simp [hc])
  refine ite (fun hret => outcome_pure.2 ⟨hk1', rfl, hsize1, fun ho => ?_⟩) fun hnret => ?_
  · obtain ⟨hp, hd, hn, hsl⟩ := hc1 (hown ho)
    -- all that is asked for came from the queue
    have hle : n ≤ (pagesContent h b.pages).length := by
      cases returned with
      | true => exact hn
      | false =>
        have hrest : rest = 0 := hret.resolve_left (by simp)
        have hn : rest + (pagesContent h b.pages).length = n := hn
        omega
    rw [content, content, hp, hcur ho, hd, hslack ho, drop_append_of_le_length hle, take_append_of_le_length hle]
    exact ⟨rfl, rfl, id, hsl⟩
  · have hret : returned = false := by
      cases returned with
      | true => exact absurd (.inl rfl) hnret
      | false => rfl
    subst hret
    refine (split_current_spec hk1'.safe hab hub (hsize1 ▸ hub')).mono ?_
    rintro q h2 ⟨hk2, hsb, hsd, hc2⟩
    refine ⟨hk1'.trans hk2, hsb, hsd.trans hsize1, fun ho => ?_⟩
    obtain ⟨hp, hd, hn, hsl⟩ := hc1 (hown ho)
    obtain ⟨hb2, hd2, hslb, hsld⟩ := hc2 (hk1'.owned ho)
    have hn : rest + (pagesContent h b.pages).length = n := hn
    rw [hb2, hd2, hd, hcur ho, content, drop_append, take_append, ← hp, append_assoc,
      show n - (pagesContent h b.pages).length = rest by omega]
    exact ⟨rfl, rfl, fun _ => hslb, fun hpos => hsld (hsl hpos)⟩

/-! ## Freezing -/

lemma extend_pages_spec {buf : Nat} (hs : Safe h ({.own buf} + pagesRefs l + F))
    (hne : ∀ r ∈ pagesRefs l, .own r.ptr ∉ ({.own buf} : Multiset Ref))
    (hfit : METADATA_SIZE + ((Ref.content h (.own buf)).length + (pagesContent h l).length) < 2 ^ 32) :
    Outcome (l.foldlM extend_page buf) h E fun buf' h' =>
      Keeps h ({.own buf} + pagesRefs l) F h' {.own buf'} ∧
        Ref.content h' (.own buf') = Ref.content h (.own buf) ++ pagesContent h l := by
  induction l generalizing h buf with
  | nil => exact ⟨(Keeps.refl hs).cast rfl (add_zero _), (append_nil _).symm⟩
  | cons p l ih =>
    rw [pagesRefs_cons] at hs hne ⊢
    rw [pagesContent_cons, length_append] at hfit
    rw [foldlM_cons]
    have hsb : Safe h ({.own buf} + (p.refs + pagesRefs l + F)) := hs.left
    have hsp : Safe h (p.refs + ({.own buf} + pagesRefs l + F)) := hs.cast (by abel)
    simp only [extend_page, outcome_bind]
    rw [outcome_as_ref hsp]
    refine (BytesMut.put_slice_spec hsb (by omega)).mono fun buf1 h1 ⟨hk1, hc1⟩ => ?_
    -- the pages show the same after the write, and the buffer is still apart from them
    have hothers : ∀ r ∈ p.refs + pagesRefs l, r.content h1 = r.content h ∧ .own r.ptr ∉ ({.own buf1} : Multiset Ref) :=
      fun r hr => hk1.others r (mem_add.2 (.inl hr)) (hne r hr)
    have hs1 : Safe h1 (p.refs + ({.own buf1} + pagesRefs l + F)) := hk1.safe.cast (by abel)
    refine (BytePage.drop_spec hs1).mono fun _ h2 hk2 => ?_
    have hk2' := (hk2.widen (C := {.own buf1} + pagesRefs l)).cast rfl (zero_add _)
    have hsame : ∀ r ∈ {.own buf1} + pagesRefs l, r.content h2 = r.content h1 := fun r hr =>
      (hk2.others r (mem_add.2 (.inl hr)) not_own).1
    have hl : pagesContent h2 l = pagesContent h l := pagesContent_congr fun r hr =>
      (hsame r (mem_add.2 (.inr hr))).trans (hothers r (mem_add.2 (.inr hr))).1
    have hbuf : Ref.content h2 (.own buf1) = Ref.content h (.own buf) ++ p.content h := by rw [hsame _ (by simp), hc1]
    rw [outcome_pure]
    refine (ih hk2'.safe (fun r hr => (hothers r (mem_add.2 (.inr hr))).2) ?_).mono fun buf2 h3 ⟨hk3, hc3⟩ => ⟨?_, ?_⟩
    · rw [hbuf, hl, length_append]
      omega
    · have k1 := (hk1.widen (C := p.refs + pagesRefs l)).cast (B := {.own buf} + (p.refs + pagesRefs l))
        (D := p.refs + ({.own buf1} + pagesRefs l)) rfl (by abel)
      exact (k1.trans hk2').trans hk3
    · rw [hc3, hbuf, hl, pagesContent_cons, append_assoc]

lemma into_mut_spec (hs : Safe h (b.refs + F)) (hfit : METADATA_SIZE + (b.content h).length < 2 ^ 32) :
    Outcome b.into_mut h E fun buf h' => Keeps h b.refs F h' {.own buf} ∧ Ref.content h' (.own buf) = b.content h := by
  obtain ⟨hk0, hc0⟩ := all_pages_spec hs
  simp only [into_mut, BytesMut.with_capacity, StorageVec.with_capacity, drain, outcome_bind]
  rw [outcome_len hs]
  refine (create_own_spec hk0.safe hfit (Nat.zero_le _) (by simp)).mono fun buf h1 ⟨_, hk1, hc1, _⟩ => ?_
  have hothers : ∀ r ∈ pagesRefs b.all_pages, r.content h1 = r.content h ∧ .own r.ptr ∉ ({.own buf} : Multiset Ref) :=
    fun r hr => hk1.others r (mem_add.2 (.inl hr)) (notMem_zero _)
  have hl : pagesContent h1 b.all_pages = b.content h := (pagesContent_congr fun r hr => (hothers r hr).1).trans hc0
  have hk1' := (hk1.widen (C := pagesRefs b.all_pages)).cast (zero_add _) rfl
  refine (extend_pages_spec hk1'.safe (fun r hr => (hothers r hr).2) ?_).mono fun buf' h2 ⟨hk2, hc2⟩ =>
    ⟨(hk0.trans hk1').trans hk2, ?_⟩
  · rw [hc1, hl, length_nil, zero_add]
    exact hfit
  · rw [hc2, hc1, hl, nil_append]

lemma take_single (h1 : b.num_pages = 1) : ∃ p, b.take = (b.cleared, some p) ∧ (b.Small → p.Small) := by
  obtain ⟨size, pages, current⟩ := b
  cases current with
  | none =>
    obtain ⟨q, rfl⟩ := length_eq_one_iff.1 h1
    exact ⟨q, rfl, fun hsm => hsm q (List.mem_singleton_self q)⟩
  | some v =>
    have h1 : pages.length + 1 = 1 := h1
    obtain rfl : pages = [] := eq_nil_of_length_eq_zero (by omega)
    exact ⟨.storage v, rfl, fun _ => trivial⟩

lemma freeze_spec (hs : Safe h (b.refs + F)) (hsm : b.Small) (hfit : METADATA_SIZE + (b.content h).length < 2 ^ 32) :
    Outcome b.freeze h E fun q h' =>
      Keeps h b.refs F h' (q.1.refs + q.2.refs) ∧ q.2.content h' = b.content h ∧ q.1.content h' = [] ∧
        q.1.size = b.size ∧ (0 < b.slack h → 0 < q.1.slack h') := by
  simp only [freeze, outcome_bind]
  rw [outcome_is_empty hs]
  refine ite (fun he => ?_) fun hne => ite (fun h1 => ?_) fun _ => ?_
  · -- nothing to freeze
    have hnil : b.content h = [] := by
      rcases he with h0 | he
      · obtain ⟨size, pages, current⟩ := b
        cases current with
        | none =>
          obtain rfl : pages = [] := eq_nil_of_length_eq_zero h0
          rfl
        | some v =>
          have h0 : pages.length + 1 = 0 := h0
          omega
      · exact isEmpty_iff.1 he
    exact outcome_pure.2 ⟨(Keeps.refl hs).cast rfl (add_zero _).symm, hnil.symm, hnil, rfl, id⟩
  · -- the only page is given out
    obtain ⟨p, ht, hp⟩ := take_single h1
    obtain ⟨hk, hc, -, -⟩ := take_spec hs
    rw [ht] at hk hc ⊢
    have hk : Keeps h b.refs F h p.refs := hk.cast rfl (zero_add _)
    have hc : b.content h = p.content h := hc.trans (append_nil _)
    refine (BytePage.freeze_spec hk.safe (hp hsm)).seq fun st h' ⟨hk2, hc2, _⟩ => outcome_pure.2 ?_
    exact ⟨(hk.trans hk2).cast rfl (zero_add _).symm, hc2.trans hc.symm, rfl, rfl, fun _ => b.size.capacity_pos⟩
  · refine (into_mut_spec hs hfit).seq fun buf h1 ⟨hk1, hc1⟩ => ?_
    refine (StorageVec.freeze_spec (.inl rfl) hk1.safe).seq fun st h2 ⟨hk2, hc2, _⟩ => outcome_pure.2 ?_
    exact ⟨(hk1.trans hk2).cast rfl (zero_add _).symm, hc2.trans hc1, rfl, rfl, fun _ => b.size.capacity_pos⟩

/-! ## The current page, lent -/

lemma try_get_current_from_spec {b' dst' : BytePages} (hs : Safe h (b.refs + dst.refs + F))
    (ht : b.try_get_current_from dst = (b', dst')) :
    Keeps h (b.refs + dst.refs) F h (b'.refs + dst'.refs) ∧ b'.size = b.size ∧ dst'.size = dst.size ∧
      (0 < b.slack h → 0 < dst.slack h → 0 < b'.slack h ∧ 0 < dst'.slack h) ∧
      (b'.content h = b.content h ∧ dst'.content h = dst.content h ∨
        b.content h = [] ∧ dst.content h = dst'.content h ++ b'.content h) := by
  rcases b with ⟨size, _ | ⟨p, rest⟩, _ | v⟩ <;> rcases dst with ⟨size', pages, _ | w⟩
  all_goals obtain ⟨rfl, rfl⟩ := Prod.mk.inj ht
  case nil.none.some =>
    refine ⟨(Keeps.refl hs).cast rfl ?_, rfl, rfl, fun _ h' => ⟨h', size'.capacity_pos⟩, .inr ⟨rfl, ?_⟩⟩
    · simp only [refs, pagesRefs_nil, curRefs_none, curRefs_some]
      abel
    · simp only [content, pagesContent_nil, curContent_none, append_nil, nil_append]
  all_goals exact ⟨.refl hs, rfl, rfl, fun h h' => ⟨h, h'⟩, .inl ⟨rfl, rfl⟩⟩

section

variable (hs : Safe h (b.refs + F))
include hs

lemma chunk_mut_spec {data : List UInt8} (hub : b.size = .Unset → E .bounds)
    (hbad : b.slack h < data.length → E .bounds) :
    Outcome (b.chunk_mut data) h E fun b' h' =>
      Keeps h b.refs F h' b'.refs ∧ b'.size = b.size ∧ b'.slack h' = b.slack h ∧
        (Owned h (b.refs + F) → b'.content h' = b.content h) := by
  refine (open_current_spec hs hub).seq ?_
  rintro ⟨_, v⟩ h1 ⟨rfl, hk1, hc1, hroom⟩
  obtain ⟨s, hv, hwf⟩ := hk1.safe.right.live_own
  rw [room_eq hv] at hroom
  rw [outcome_bind, outcome_deref hv]
  refine ite (fun hle => ?_) fun hgt => hbad (hroom ▸ Nat.lt_of_not_le hgt)
  have hw := hwf.window
  have hr := hwf.room
  obtain ⟨hm, href, hrem⟩ := SharedVec.mutates_beyond hwf hle
  rw [outcome_bind, outcome_update hv, SharedVec.outcome_write (by omega)]
  have hk2 := hm.keeps hk1.safe.right hv
  refine outcome_pure.2 ⟨hk1.trans hk2.widen_left, rfl, ?_, fun ho => ?_⟩
  · exact (room_eq vecs_put_self).trans (hrem.trans hroom)
  · obtain ⟨hp, hcur⟩ := hc1 ho
    have ho1 : Owned h1 ({.own v} + (pagesRefs b.pages + F)) := (hk1.owned ho).cast (by abel)
    rw [content, content, pagesContent_keeps hk2 ho1 mem_left, hp, curContent_some,
      Ref.content_own vecs_put_self, href, ← Ref.content_own hv, hcur]

lemma advance_mut_spec (hsome : b.current.isSome) (hn : n ≤ b.slack h) :
    Outcome (b.advance_mut n) h E fun _ h' =>
      Keeps h b.refs F h' b.refs ∧ b.slack h' + n = b.slack h ∧
        (Owned h (b.refs + F) → ∃ d, d.length = n ∧ b.content h' = b.content h ++ d) := by
  obtain ⟨size, pages, current⟩ := b
  obtain ⟨v, rfl⟩ := isSome_iff_exists.1 hsome
  have hsv : Safe h ({.own v} + (pagesRefs pages + F)) := hs.right
  obtain ⟨s, hv, hwf⟩ := hsv.live_own
  have hn : n ≤ s.remaining := room_eq hv ▸ hn
  rw [advance_mut, outcome_bind, outcome_deref hv, outcome_update hv]
  refine (SharedVec.set_len_spec hwf hn).mono fun _ s' ⟨hm, hd, hrem⟩ => ?_
  have hk := hm.keeps hsv hv
  refine ⟨hk.widen_left, ?_, fun ho => ?_⟩
  · change (h.put v s').room v + n = h.room v
    rw [room_eq vecs_put_self, room_eq hv, hrem]
  · obtain ⟨d, hlen, hd⟩ := hd
    have ho' : Owned h ({.own v} + (pagesRefs pages + F)) := ho.cast (by rw [refs, curRefs_some]; abel)
    refine ⟨d, hlen, ?_⟩
    rw [content, content, pagesContent_keeps hk ho' mem_left, curContent_some, curContent_some,
      Ref.content_own vecs_put_self, hd, Ref.content_own hv, append_assoc]

lemma enter_spec (hub : b.size = .Unset → E .bounds) :
    Outcome b.enter h E fun q h' =>
      q.1 = { b with current := none } ∧ Keeps h b.refs F h' (pagesRefs b.pages + {.own q.2.1}) ∧
        (Owned h (b.refs + F) →
          pagesContent h' b.pages = pagesContent h b.pages ∧ Ref.content h' (.own q.2.1) = curContent h b.current) := by
  refine (open_current_spec hs hub).seq ?_
  rintro ⟨_, v⟩ h1 ⟨rfl, hk1, hc1, -⟩
  obtain ⟨s, hv, -⟩ := hk1.safe.right.live_own
  rw [outcome_bind, outcome_deref hv]
  exact outcome_pure.2 ⟨rfl, hk1, hc1⟩

end

lemma unsize_spec (hs : Safe h ({.own v} + F)) :
    Outcome (StorageVec.unsize v) h E fun _ h' =>
      Keeps h {.own v} F h' {.own v} ∧ Ref.content h' (.own v) = Ref.content h (.own v) ∧ h'.room v = h.room v := by
  obtain ⟨s, hv, hwf⟩ := hs.live_own
  have hm : s.Mutates { s with size := .Unset } :=
    ⟨{ hwf with tagged := fun hu => absurd rfl hu }, rfl, rfl, .inr ⟨le_refl _, rfl⟩⟩
  rw [StorageVec.unsize, outcome_update hv, outcome_modify]
  refine ⟨hm.keeps hs hv, ?_, ?_⟩
  · rw [Ref.content_own vecs_put_self, Ref.content_own hv]
    rfl
  · rw [room_eq vecs_put_self, room_eq hv]

lemma leave_spec {cap : Nat} (hc : b.current = none) (hs : Safe h (pagesRefs b.pages + {.own v} + F)) :
    Outcome (b.leave v cap) h E fun b' h' =>
      Keeps h (pagesRefs b.pages + {.own v}) F h' b'.refs ∧ b'.size = b.size ∧
        (Owned h (pagesRefs b.pages + {.own v} + F) →
          b'.content h' = pagesContent h b.pages ++ Ref.content h (.own v) ∧
            (0 < h.room v ∨ b.size.capacity ≤ (Ref.content h (.own v)).length → 0 < b'.slack h')) := by
  obtain ⟨s, hv, hwf⟩ := hs.right.live_own
  have hlen := Safe.length_own hs.right hv
  -- the size tag is dropped when the closure changed the capacity
  have hunsize : Outcome (if s.capacity ≠ cap then StorageVec.unsize v else pure ()) h E fun _ h' =>
      Keeps h {.own v} (pagesRefs b.pages + F) h' {.own v} ∧ Ref.content h' (.own v) = Ref.content h (.own v) ∧
        h'.room v = h.room v :=
    ite (fun _ => unsize_spec hs.right) fun _ => outcome_pure.2 ⟨.refl hs.right, rfl, rfl⟩
  simp only [leave, outcome_bind]
  rw [outcome_deref hv]
  refine hunsize.mono fun _ h1 ⟨hk1, hc1, hroom⟩ => ?_
  have hpages : Owned h (pagesRefs b.pages + {.own v} + F) → pagesContent h1 b.pages = pagesContent h b.pages := fun ho =>
    pagesContent_keeps hk1 (ho.cast (S := {.own v} + (pagesRefs b.pages + F)) (by abel)) mem_left
  refine ite (fun hge => outcome_pure.2 ⟨?_, rfl, fun ho => ⟨?_, fun _ => ?_⟩⟩) fun hlt =>
    outcome_pure.2 ⟨hk1.widen_left, rfl, fun ho => ⟨?_, fun hor => ?_⟩⟩
  · obtain ⟨s1, hv1, -⟩ := hk1.safe.live_own
    have hk2 : Keeps h1 {.own v} (pagesRefs b.pages + F) h1 {.page v} :=
      Keeps.convert hk1.safe hv1 rfl (fun _ => trivial) (by simp) fun hb => hb.elim
    refine (hk1.trans hk2).widen_left.cast rfl ?_
    rw [refs_push_back, refs, hc, curRefs_none, add_zero]
    rfl
  · rw [content_push_back hc, content, hc, curContent_none, append_nil, hpages ho, ← hc1]
    rfl
  · rw [slack, push_back, hc]
    exact b.size.capacity_pos
  · rw [content, hpages ho, ← hc1]
    rfl
  · change 0 < h1.room v
    rcases hor with hor | hor
    · rwa [hroom]
    · omega

end BytePages

end Geario.Buffers
