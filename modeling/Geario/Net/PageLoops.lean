import Geario.Buffers.Handles
import Geario.Iocp.Write
/-!
# The loops over the pages of a write

After a write the drivers advance the pages that were taken out of the write
buffer and prepend what is left, each in a loop of its own. Here the loops run on
the pages themselves, whatever they are stored in: a `Bytes`, the `StorageVec`
of a write buffer or a vector. What they leave of the contents is what the loops
over byte lists leave.

A page made from a `StorageVec` is advanced by moving the window of the header,
which a clone of the page reads through as well. The loops are right as long as
no other handle is such a clone.
-/
open Lib List
open Multiset (mem_add count_add)

namespace Geario.Net

open Buffers BytePage BytePages

/-- The loop of `StreamItem::write` of the polling driver and of a `Writev` that is completed. -/
def advance_pages : Nat → List BytePage → Mem (List BytePage)
  | _, [] => pure []
  | written, page :: pages => do
    let len := min (← page.len) written
    let page ← page.advance_to len
    if written - len = 0 then return page :: pages
    else return page :: (← advance_pages (written - len) pages)

/-- The pages go back one by one, the last one first; `prepend` drops a page that is empty. -/
def prepend_pages (pages : List BytePage) (wrt : BytePages) : Mem BytePages := pages.reverse.foldlM BytePages.prepend wrt

def requeue_unsent (buf : BytePage) (res : Nat) (wrt : BytePages) : Mem BytePages := do
  let len ← buf.len
  let sent := min res len
  if sent = len then
    buf.drop
    return wrt
  else wrt.prepend (← buf.advance_to sent)

/-- A page that is empty is taken out of the array. -/
def take_empty (p : BytePage) : Mem (Option BytePage) := do
  if ← p.is_empty then
    p.drop
    return none
  else return some p

/-- The loop of `WriteOperation`; a place without a page ends it. -/
def remove_sent : Nat → List (Option BytePage) → Mem (List (Option BytePage))
  | sent, some p :: pages => do
    let len := min (← p.len) sent
    let page ← take_empty (← p.advance_to len)
    if sent - len ≠ 0 then return page :: (← remove_sent (sent - len) pages) else return page :: pages
  | _, pages => pure pages

def return_unsent (pages : List (Option BytePage)) (wrt : BytePages) : Mem BytePages :=
  (pages.reverse.takeWhile Option.isSome).reduceOption.foldlM BytePages.prepend wrt

/-- The write buffer after a write by the polling driver, or a `Writev`, of which `written` bytes were accepted. -/
def put_back (written : Nat) (pages : List BytePage) (wrt : BytePages) : Mem BytePages := do
  prepend_pages (← advance_pages written pages) wrt

/-- The write buffer after a `WSASend` of which `sent` bytes were accepted. -/
def put_back_sent (sent : Nat) (pages : List BytePage) (wrt : BytePages) : Mem BytePages := do
  return_unsent (← remove_sent sent (pages.map some)) wrt

/-- No other handle reads through the header of one of the pages. -/
def Apart (pages : List BytePage) (F : Multiset Ref) : Prop :=
  ∀ v, .page v ∈ pagesRefs pages → (pagesRefs pages + F).count (.page v) = 1

/-- Pages that were taken out of a write buffer, among the other handles `F`. -/
structure Offered (h : Heap) (pages : List BytePage) (F : Multiset Ref) : Prop where
  safe : Safe h (pagesRefs pages + F)
  owned : Owned h (pagesRefs pages + F)
  small : ∀ p ∈ pages, p.Small
  apart : Apart pages F

/-- The unsent bytes are in front of the buffer, and the other handles have what they had. -/
def Returned (h : Heap) (unsent : List UInt8) (wrt : BytePages) (F : Multiset Ref) (wrt' : BytePages) (h' : Heap) : Prop :=
  wrt'.content h' = unsent ++ wrt.content h ∧ ∀ r ∈ F, r.content h' = r.content h

variable {h h' : Heap} {F : Multiset Ref} {E : Panic → Prop} {p q : BytePage} {l pages : List BytePage} {wrt : BytePages} {n v : Nat}

/-! ## One page -/

/-- Advancing a page makes and removes windows only. -/
lemma advance_to_pages : Outcome (p.advance_to n) h (fun _ => True) fun q _ => ∀ v, q.refs.count (.page v) = p.refs.count (.page v) := by
  have hany : ∀ {α : Type} (m : Mem α) (h : Heap), Outcome m h (fun _ => True) fun _ _ => True := by
    intro α m h
    unfold Outcome
    split <;> trivial
  have hwin : ∀ (st : Storage) v, st.refs.count (.page v) = 0 := by
    intro st v
    cases st <;> simp [Storage.refs]
  cases p with
  | bytes st =>
    refine (hany _ h).seq fun st' _ _ => outcome_pure.2 fun v => ?_
    exact (hwin st' v).trans (hwin st v).symm
  | storage w => exact (hany _ h).seq fun _ _ _ => outcome_pure.2 fun _ => rfl
  | vec data =>
    refine Outcome.ite (fun _ => ?_) fun _ => trivial
    exact (hany _ h).seq fun st' _ _ => outcome_pure.2 fun v => hwin st' v

lemma Apart.alone (ha : Apart (p :: l) F) (hs : Safe h (p.refs + (pagesRefs l + F))) (ho : Owned h (p.refs + (pagesRefs l + F))) :
    p.Alone (pagesRefs l + F) := by
  cases p with
  | bytes st | vec data => trivial
  | storage v =>
    have hself : (storage v).refs.count (.page v) = 1 := Multiset.count_singleton_self _
    have hone := ha v (by simp [BytePage.refs])
    rw [pagesRefs_cons, add_assoc, count_add, hself] at hone
    refine ⟨Multiset.count_eq_zero.1 (by omega), fun hown => ?_⟩
    -- an owner shares its buffer with windows only
    obtain ⟨s, hv, -⟩ := live_page hs
    have hmem : Ref.page v ∈ (storage v).refs + (pagesRefs l + F) := mem_add.2 (.inl (Multiset.mem_singleton_self _))
    rcases ho.before (mem_add.2 (.inr hown)) hv hmem rfl with heq | hbefore
    · cases heq
    · exact hbefore

lemma Apart.tail (ha : Apart (p :: l) F) (hq : ∀ v, q.refs.count (.page v) = p.refs.count (.page v)) :
    Apart l (q.refs + F) := by
  intro v hv
  have hone := ha v (by rw [pagesRefs_cons]; exact mem_add.2 (.inr hv))
  rw [pagesRefs_cons, count_add, count_add] at hone
  rw [count_add, count_add, hq]
  omega

lemma Apart.drop {A : Multiset Ref} (ha : Apart l (A + F)) : Apart l F := by
  intro v hv
  have hone := ha v hv
  have hpos := Multiset.count_pos.2 hv
  rw [count_add, count_add] at hone
  rw [count_add]
  omega

section

variable (ho : Offered h (p :: l) F)
include ho

lemma Offered.head_safe : Safe h (p.refs + (pagesRefs l + F)) := ho.safe.cast (by rw [pagesRefs_cons, add_assoc])

lemma Offered.head_owned : Owned h (p.refs + (pagesRefs l + F)) := ho.owned.cast (by rw [pagesRefs_cons, add_assoc])

/-- A page is advanced by at most its length: nothing else changes, and the rest of the pages is as it was. -/
lemma advance_page_spec :
    Outcome (p.advance_to (min (p.content h).length n)) h E fun q h' =>
      Keeps h p.refs (pagesRefs l + F) h' q.refs ∧ q.content h' = (p.content h).drop (min (p.content h).length n) ∧
        Offered h' l (q.refs + F) := by
  have hle := Nat.min_le_left (p.content h).length n
  refine ((advance_to_spec ho.head_safe (ho.small p mem_cons_self) fun hlt => absurd hlt (not_lt.2 hle)).both advance_to_pages).mono ?_
  rintro q h' ⟨⟨-, hk, hc⟩, hq⟩
  have hk := hk (.inr (ho.apart.alone ho.head_safe ho.head_owned))
  refine ⟨hk, hc hle, hk.safe.swap, (hk.owned ho.head_owned).cast (add_left_comm _ _ _), fun p' hp' => ?_, ho.apart.tail hq⟩
  exact ho.small p' (mem_cons_of_mem _ hp')

end

/-! ## The loops -/

lemma map_content_keeps {A A' : Multiset Ref} (hk : Keeps h A (pagesRefs l + F) h' A') (ho : Owned h (A + (pagesRefs l + F))) :
    l.map (BytePage.content h') = l.map (BytePage.content h) := by
  refine map_congr_left fun p hp => BytePage.content_congr fun r hr => hk.frame ho r ?_
  refine mem_add.2 (.inl ?_)
  clear hk ho
  induction l with
  | nil => cases hp
  | cons p' l ih =>
    rw [pagesRefs_cons, mem_add]
    rcases mem_cons.1 hp with rfl | hp
    · exact .inl hr
    · exact .inr (ih hp)

lemma advance_pages_spec (ho : Offered h l F) :
    Outcome (advance_pages n l) h E fun l' h' =>
      Keeps h (pagesRefs l) F h' (pagesRefs l') ∧ l'.map (BytePage.content h') = Io.advance n (l.map (BytePage.content h)) := by
  induction l generalizing h F n with
  | nil => exact outcome_pure.2 ⟨.refl ho.safe, rfl⟩
  | cons p l ih =>
    simp only [advance_pages, outcome_bind]
    rw [BytePage.outcome_len ho.head_safe]
    refine (advance_page_spec ho).mono ?_
    rintro q h' ⟨hk, hc, hl⟩
    have hrest := map_content_keeps hk ho.head_owned
    rw [map_cons, Io.advance]
    refine Outcome.ite (fun hzero => outcome_pure.2 ⟨?_, ?_⟩) fun hmore => ?_
    · exact hk.widen.cast pagesRefs_cons.symm pagesRefs_cons.symm
    · rw [map_cons, hc, hrest, if_pos hzero]
    · refine (ih hl).seq ?_
      rintro l' h'' ⟨hk', hc'⟩
      refine outcome_pure.2 ⟨?_, ?_⟩
      · exact (hk.widen.trans hk'.widen_left).cast pagesRefs_cons.symm pagesRefs_cons.symm
      · rw [map_cons, hc', hrest, if_neg hmore]
        congr 1
        refine (BytePage.content_keeps hk' hl.owned fun r hr => ?_).trans hc
        exact mem_add.2 (.inl hr)

lemma take_empty_spec (hs : Safe h (p.refs + F)) :
    Outcome (take_empty p) h E fun o h' =>
      Keeps h p.refs F h' (pagesRefs o.toList) ∧ (o = none ∨ o = some p) ∧
        (Owned h (p.refs + F) → o.map (BytePage.content h') = if p.content h = [] then none else some (p.content h)) := by
  simp only [take_empty, outcome_bind]
  rw [BytePage.outcome_is_empty hs]
  refine Outcome.ite (fun he => ?_) fun he => outcome_pure.2 ⟨?_, .inr rfl, fun _ => ?_⟩
  · refine (BytePage.drop_spec hs).seq fun _ h' hk => outcome_pure.2 ⟨hk, .inl rfl, fun _ => ?_⟩
    rw [if_pos (isEmpty_iff.1 he)]
    rfl
  · exact (Keeps.refl hs).cast rfl (by simp)
  · rw [if_neg fun hnil => he (isEmpty_iff.2 hnil)]
    rfl

lemma pagesRefs_reduceOption (o : Option BytePage) (opts : List (Option BytePage)) :
    pagesRefs (o :: opts).reduceOption = pagesRefs o.toList + pagesRefs opts.reduceOption := by
  cases o with
  | none => simp
  | some p => simp

lemma reduceOption_some (k : Nat) (l : List BytePage) : (replicate k none ++ l.map some).reduceOption = l := by
  induction k with
  | zero =>
    rw [replicate_zero, nil_append, reduceOption, filterMap_map]
    exact filterMap_some
  | succ k ih => exact ih

lemma remove_sent_spec (ho : Offered h l F) :
    Outcome (remove_sent n (l.map some)) h E fun opts h' =>
      Keeps h (pagesRefs l) F h' (pagesRefs opts.reduceOption) ∧
        opts.map (Option.map (BytePage.content h')) = Iocp.remove_sent n ((l.map (BytePage.content h)).map some) := by
  induction l generalizing h F n with
  | nil => exact outcome_pure.2 ⟨.refl ho.safe, rfl⟩
  | cons p l ih =>
    simp only [map_cons, remove_sent, outcome_bind]
    rw [BytePage.outcome_len ho.head_safe]
    refine (advance_page_spec ho).mono ?_
    rintro q h1 ⟨hk, hc, hl⟩
    refine (take_empty_spec hk.safe).mono ?_
    rintro o h2 ⟨hk2, hwhich, hc2⟩
    have hc2 := hc2 (hk.owned ho.head_owned)
    have hkeep := hk.trans hk2
    have hrest := map_content_keeps hkeep ho.head_owned
    rw [Iocp.remove_sent, ← hc, ← hc2]
    refine Outcome.ite (fun hmore => ?_) fun hzero => outcome_pure.2 ⟨?_, ?_⟩
    · have hl2 : Offered h2 l (pagesRefs o.toList + F) := by
        refine ⟨hkeep.safe.swap, (hkeep.owned ho.head_owned).cast (add_left_comm _ _ _), hl.small, ?_⟩
        rcases hwhich with rfl | rfl
        · simpa using hl.apart.drop
        · simpa using hl.apart
      refine (ih hl2).seq ?_
      rintro opts h3 ⟨hk3, hc3⟩
      refine outcome_pure.2 ⟨?_, ?_⟩
      · refine (hkeep.widen.trans hk3.widen_left).cast pagesRefs_cons.symm ?_
        rw [pagesRefs_reduceOption]
      · rw [map_cons, hc3, hrest, if_pos hmore]
        congr 1
        cases o with
        | none => rfl
        | some q' =>
          refine congrArg some (BytePage.content_keeps hk3 hl2.owned fun r hr => ?_)
          simpa using Or.inl hr
    · refine hkeep.widen.cast pagesRefs_cons.symm ?_
      rw [pagesRefs_reduceOption]
      exact congrArg (_ + pagesRefs ·) (reduceOption_some 0 l).symm
    · rw [map_cons, if_neg hzero, ← hrest, map_map, map_map]
      rfl

lemma prepend_pages_spec (hs : Safe h (pagesRefs l + (wrt.refs + F))) (ho : Owned h (pagesRefs l + (wrt.refs + F))) :
    Outcome (prepend_pages l wrt) h E fun wrt' h' =>
      Keeps h (pagesRefs l + wrt.refs) F h' wrt'.refs ∧ wrt'.content h' = pagesContent h l ++ wrt.content h := by
  induction l generalizing F with
  | nil => exact outcome_pure.2 ⟨(Keeps.refl (by simpa using hs)).cast (by simp) rfl, by simp⟩
  | cons p l ih =>
    have hrefs : pagesRefs (p :: l) + (wrt.refs + F) = pagesRefs l + (wrt.refs + (p.refs + F)) := by
      rw [pagesRefs_cons]
      abel
    have hfold : prepend_pages (p :: l) wrt = prepend_pages l wrt >>= fun wrt => wrt.prepend p := by
      rw [prepend_pages, reverse_cons, foldlM_append]
      simp [prepend_pages]
    have ho' := ho.cast hrefs
    rw [hfold]
    refine (ih (hs.cast hrefs) ho').seq fun wrt1 h1 ⟨hk, hc⟩ => ?_
    have ho1 : Owned h1 (wrt1.refs + (p.refs + F)) := hk.owned (ho'.cast (add_assoc _ _ _).symm)
    refine (prepend_spec (hk.safe.cast (add_assoc _ _ _).symm)).mono fun wrt2 h2 ⟨hk2, hc2⟩ => ⟨?_, ?_⟩
    · refine (hk.widen.trans hk2).cast ?_ rfl
      rw [pagesRefs_cons]
      abel
    · have hp : p.content h1 = p.content h :=
        BytePage.content_keeps hk (ho'.cast (add_assoc _ _ _).symm) fun r hr => mem_add.2 (.inl hr)
      rw [(hc2 (ho1.cast (add_assoc _ _ _).symm)).1, hp, hc, pagesContent_cons, append_assoc]

/-! ## What is left in the write buffer -/

lemma pagesContent_eq : pagesContent h l = (l.map (BytePage.content h)).flatten := rfl

/-- Pages that came from the offered ones by a loop, and are put back. -/
lemma returned_of_prepend {unsent : List UInt8} (ho : Offered h pages (wrt.refs + F))
    (hk : Keeps h (pagesRefs pages) (wrt.refs + F) h' (pagesRefs l)) (hl : pagesContent h' l = unsent) :
    Outcome (prepend_pages l wrt) h' E (Returned h unsent wrt F) := by
  have ho' := hk.owned ho.owned
  refine (prepend_pages_spec hk.safe ho').mono fun wrt' h'' ⟨hk', hc⟩ => ⟨?_, fun r hr => ?_⟩
  · rw [hc, hl, BytePages.content_keeps hk ho.owned fun r hr => mem_add.2 (.inl hr)]
  · rw [hk'.frame (ho'.cast (add_assoc _ _ _).symm) r hr, hk.frame ho.owned r (mem_add.2 (.inr hr))]

lemma put_back_spec (ho : Offered h pages (wrt.refs + F)) :
    Outcome (put_back n pages wrt) h E (Returned h ((pagesContent h pages).drop n) wrt F) := by
  refine (advance_pages_spec ho).seq fun l h' ⟨hk, hc⟩ => returned_of_prepend ho hk ?_
  rw [pagesContent_eq, hc, Io.advance_flatten, pagesContent_eq]

lemma some_of_map {α β : Type} {f : α → β} {k : Nat} {opts : List (Option α)} {rest : List β}
    (hmap : opts.map (Option.map f) = replicate k none ++ rest.map some) :
    ∃ l : List α, opts = replicate k none ++ l.map some ∧ l.map f = rest := by
  induction k generalizing opts with
  | zero =>
    induction rest generalizing opts with
    | nil => exact ⟨[], map_eq_nil_iff.1 hmap, rfl⟩
    | cons b rest ih =>
      obtain ⟨o, opts, rfl, hb, hrest⟩ := map_eq_cons_iff.1 hmap
      obtain ⟨a, rfl, rfl⟩ := Option.map_eq_some_iff.1 hb
      obtain ⟨l, rfl, rfl⟩ := ih hrest
      exact ⟨a :: l, rfl, rfl⟩
  | succ k ih =>
    obtain ⟨o, opts, rfl, hb, hrest⟩ := map_eq_cons_iff.1 hmap
    obtain rfl := Option.map_eq_none_iff.1 hb
    obtain ⟨l, rfl, hl⟩ := ih hrest
    exact ⟨l, rfl, hl⟩

lemma return_unsent_eq (k : Nat) (l : List BytePage) (wrt : BytePages) :
    return_unsent (replicate k none ++ l.map some) wrt = prepend_pages l wrt := by
  have hwhile : ((replicate k none ++ l.map some).reverse.takeWhile Option.isSome).reduceOption = l.reverse := by
    rw [reverse_append, reverse_replicate, takeWhile_append_of_pos, takeWhile_replicate, if_neg nofun, append_nil,
      ← map_reverse]
    · exact reduceOption_some 0 l.reverse
    · intro o ho
      obtain ⟨p, -, rfl⟩ := mem_map.1 (mem_reverse.1 ho)
      rfl
  rw [return_unsent, hwhile]
  rfl

lemma put_back_sent_spec (ho : Offered h pages (wrt.refs + F)) :
    Outcome (put_back_sent n pages wrt) h E (Returned h ((pagesContent h pages).drop n) wrt F) := by
  refine (remove_sent_spec ho).seq fun opts h' ⟨hk, hc⟩ => ?_
  obtain ⟨k, rest, heq, hflat⟩ := Iocp.remove_sent_eq n (pages.map (BytePage.content h))
  obtain ⟨l, rfl, rfl⟩ := some_of_map (hc.trans heq)
  rw [reduceOption_some] at hk
  rw [return_unsent_eq]
  exact returned_of_prepend ho hk hflat

lemma requeue_unsent_spec (ho : Offered h [p] (wrt.refs + F)) :
    Outcome (requeue_unsent p n wrt) h E (Returned h ((p.content h).drop n) wrt F) := by
  simp only [requeue_unsent, outcome_bind]
  rw [BytePage.outcome_len ho.head_safe]
  refine Outcome.ite (fun hall => ?_) fun hpart => ?_
  · refine (BytePage.drop_spec ho.head_safe).seq fun _ h' hk => returned_of_prepend (l := []) ho (by simpa using hk) ?_
    exact (drop_of_length_le (by omega)).symm
  · rw [Nat.min_comm]
    refine (advance_page_spec ho).seq fun q h' ⟨hk, hc, _⟩ => ?_
    have hone : prepend_pages [q] wrt = wrt.prepend q := by simp [prepend_pages]
    rw [← hone]
    refine returned_of_prepend ho (by simpa using hk) ?_
    rw [pagesContent_eq, map_singleton, flatten_singleton, hc, drop_min_length]

end Geario.Net
