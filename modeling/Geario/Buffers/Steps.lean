import Geario.Buffers.World
/-!
# What a call of a program does

`Effect` collects the rules of all methods in one statement: memory stays safe;
a calm call leaves the other objects alone; the objects it is about show what
the model says; a queue with room keeps room. Everything about whole programs
is derived from `Op.exec_spec`.
-/
open Lib List Option

namespace Geario.Buffers

open BytePages View

/-- From the objects `os` to `os'`, all other handles being `F`. -/
structure Effect (h : Heap) (os : List Obj) (F : Multiset Ref) (calm spares : Prop) (post : List View → List View → Prop)
    (os' : List Obj) (h' : Heap) : Prop where
  short : os'.length ≤ 2
  safe : Safe h' (refsOf os' + F)
  leaves : calm → Leaves h (refsOf os) F h' (refsOf os')
  post : Owned h (refsOf os + F) → post (os.map (Obj.view h)) (os'.map (Obj.view h'))
  notFull : Owned h (refsOf os + F) → spares → (∀ o ∈ os, o.NotFull h) → ∀ o ∈ os', o.NotFull h'

section Lists

variable {o : Obj} {l : List Obj}

@[simp] lemma refsOf_nil : refsOf [] = 0 := rfl

@[simp] lemma refsOf_cons : refsOf (o :: l) = o.refs + refsOf l := by
  rw [refsOf, map_cons, sum_cons, refsOf]

@[simp] lemma refsOf_bytes {out : Option Storage} : refsOf (out.toList.map .bytes) = BytesOp.outRefs out := by
  cases out <;> simp [BytesOp.outRefs, Obj.refs]

@[simp] lemma refsOf_page {out : Option BytePage} : refsOf (out.toList.map .page) = PageOp.outRefs out := by
  cases out <;> simp [PageOp.outRefs, Obj.refs]

lemma view_bytes {h : Heap} {out : Option Storage} :
    (out.toList.map .bytes).map (Obj.view h) = (out.map (·.content h)).toList.map .bytes := by
  cases out <;> rfl

lemma view_page {h : Heap} {out : Option BytePage} :
    (out.toList.map .page).map (Obj.view h) = (out.map (·.content h)).toList.map .page := by
  cases out <;> rfl

end Lists

variable {h h' : Heap} {F : Multiset Ref} {E : Panic → Prop} {o o' : Obj} {os : List Obj}
  {post : List View → List View → Prop} {calm spares : Prop} {m : Mem (List Obj)}

lemma Effect.of_keeps {os os' : List Obj} (hl : os'.length ≤ 2) (hk : Keeps h (refsOf os) F h' (refsOf os'))
    (hp : Owned h (refsOf os + F) → post (os.map (Obj.view h)) (os'.map (Obj.view h')))
    (hn : Owned h (refsOf os + F) → spares → (∀ o ∈ os, o.NotFull h) → ∀ o ∈ os', o.NotFull h') :
    Effect h os F calm spares post os' h' := ⟨hl, hk.safe, fun _ => hk.leaves, hp, hn⟩

lemma Make.exec_spec {m : Make} (hs : Safe h F) (hfit : m.Fits) (hbad : ¬ m.Ok → E .assertion) :
    Outcome m.exec h E fun o h' =>
      Keeps h 0 F h' o.refs ∧ o.view h' = m.model ∧ o.NotFull h' := by
  have hs0 : Safe h (0 + F) := hs.cast (zero_add F).symm
  cases m with
  | buf_with_capacity cap =>
    exact (create_own_spec hs hfit (Nat.zero_le _) (by simp)).seq fun v h' ⟨_, hk, hc, _⟩ =>
      outcome_pure.2 ⟨hk, congrArg buf hc, trivial⟩
  | buf_new =>
    exact (create_own_spec hs (by decide) (Nat.zero_le _) (by simp)).seq fun v h' ⟨_, hk, hc, _⟩ =>
      outcome_pure.2 ⟨hk, congrArg buf hc, trivial⟩
  | buf_copy src =>
    exact (create_own_spec hs hfit (le_refl _) (by simp)).seq fun v h' ⟨_, hk, hc, _⟩ =>
      outcome_pure.2 ⟨hk, congrArg buf hc, trivial⟩
  | bytes_copy src =>
    exact (Storage.from_slice_spec hs hfit).seq fun st h' ⟨hk, hc, _⟩ => outcome_pure.2 ⟨hk, congrArg bytes hc, trivial⟩
  | bytes_static | bytes_stext | page_vec => exact outcome_pure.2 ⟨.refl hs0, rfl, trivial⟩
  | pages_new size =>
    simp only [exec, new, outcome_bind]
    refine Outcome.ite (fun hu => hbad fun hok => hok hu) fun _ => ?_
    exact outcome_pure.2 ⟨.refl hs0, rfl, size.capacity_pos⟩

variable {b b' : BytePages}

lemma Effect.of_pages
    (hk : Keeps h b.refs F h' b'.refs) (hp : Owned h (b.refs + F) → post [.pages (b.content h)] [.pages (b'.content h')])
    (hn : Owned h (b.refs + F) → spares → 0 < b.slack h → 0 < b'.slack h') :
    Effect h [.pages b] F calm spares post [.pages b'] h' := by
  have hone : ∀ c : BytePages, refsOf [.pages c] = c.refs := fun c => by simp [Obj.refs]
  refine .of_keeps (by simp) (by rw [hone, hone]; exact hk) (fun ho => hp (hone b ▸ ho)) fun ho hsp hb o hm => ?_
  obtain rfl := mem_singleton.1 hm
  exact hn (hone b ▸ ho) hsp (hb _ (mem_singleton_self _))

lemma QueueOp.exec_spec {op : QueueOp} (i j : Nat) (hs : Safe h (b.refs + F)) (hfit : op.Fits h b)
    (hbad : ¬ op.Ok h b → E .overflow ∧ E .bounds) :
    Outcome (op.exec b) h E (Effect h [.pages b] F True (op.Spares h b) (Op.Post (.one i j (.queue op)))) := by
  have hin : refsOf [.pages b] = b.refs := by simp [Obj.refs]
  cases op with
  | set_page_size size =>
    refine outcome_pure.2 (.of_pages (.refl hs) (fun _ => rfl) fun _ _ hpos => ?_)
    rw [slack] at hpos ⊢
    change 0 < b.current.elim size.capacity h.room
    cases hc : b.current with
    | none => exact size.capacity_pos
    | some v => rwa [hc] at hpos
  | put_slice src =>
    refine (put_slice_spec hs fun hu => (hbad fun hok => hok hu).2).seq ?_
    rintro b' h' ⟨hk, -, hsl, hc⟩
    exact outcome_pure.2
      (.of_pages hk (fun ho => congrArg (fun l => some [View.pages l]) (hc ho)) fun _ _ hpos => hsl (.inl hpos))
  | put_u8 n =>
    have hub : b.size = .Unset → E .bounds := fun hu => (hbad fun hok => hok.1 hu).2
    rcases Nat.eq_zero_or_pos (b.slack h) with h0 | hpos
    · exact outcome_bind.2 (put_u8_full hs hub h0 (hbad fun hok => ne_of_gt hok.2 h0).1)
    · refine (put_u8_spec hs hub hpos).seq ?_
      rintro b' h' ⟨hk, -, hsl, hc⟩
      exact outcome_pure.2 (.of_pages hk (fun ho => congrArg (fun l => some [View.pages l]) (hc ho)) fun _ _ _ => hsl)
  | take =>
    obtain ⟨hk, hc, -, hsl⟩ := take_spec hs
    have hout : refsOf (.pages b.take.1 :: b.take.2.toList.map .page) = b.take.1.refs + b.take.2.elim 0 BytePage.refs := by
      rw [refsOf_cons, refsOf_page]
      rfl
    refine outcome_pure.2 (.of_keeps ?_ (by rw [hin, hout]; exact hk) (fun _ => ?_) fun _ _ hb o hm => ?_)
    · cases b.take.2 <;> simp
    · cases ht : b.take.2 with
      | some p =>
        rw [ht] at hc
        exact .inl ⟨p.content h, b.take.1.content h, rfl, hc⟩
      | none =>
        rw [ht] at hc
        rw [take_none ht] at hc ⊢
        exact .inr ⟨rfl, hc⟩
    · rcases mem_cons.1 hm with rfl | hm
      · exact hsl (hb _ (mem_singleton_self _))
      · obtain ⟨p, -, rfl⟩ := mem_map.1 hm
        trivial
  | clear =>
    refine (clear_spec hs).seq ?_
    rintro _ h' ⟨rfl, hk⟩
    exact outcome_pure.2 (.of_pages hk (fun _ => rfl) fun _ _ _ => b.size.capacity_pos)
  | freeze =>
    refine (freeze_spec hs hfit.1 hfit.2).seq ?_
    rintro ⟨b', st⟩ h' ⟨hk, hc, hc', _, hsl⟩
    refine outcome_pure.2 (.of_keeps (by simp) (by simpa [Obj.refs] using hk) (fun _ => ?_) fun _ _ hb o hm => ?_)
    · change some [pages (b'.content h'), .bytes (st.content h')] = some [.pages [], .bytes (b.content h)]
      rw [hc, hc']
    · rcases mem_cons.1 hm with rfl | hm
      · exact hsl (hb _ (mem_singleton_self _))
      · obtain rfl := mem_singleton.1 hm
        trivial
  | into_mut =>
    refine (into_mut_spec hs hfit).seq ?_
    rintro v h' ⟨hk, hc⟩
    refine outcome_pure.2 (.of_keeps (by simp) (by simpa [Obj.refs] using hk) (fun _ => ?_) fun _ _ _ o hm => ?_)
    · exact congrArg (fun l => some [buf l]) hc
    · obtain rfl := mem_singleton.1 hm
      trivial
  | chunk_mut data =>
    have hub : b.size = .Unset → E .bounds := fun hu => (hbad fun hok => hok.1 hu).2
    refine (chunk_mut_spec hs hub fun hlt => (hbad fun hok => absurd hok.2 (not_le.2 hlt)).2).seq ?_
    rintro b' h' ⟨hk, -, hsl, hc⟩
    exact outcome_pure.2
      (.of_pages hk (fun ho => congrArg (fun l => some [View.pages l]) (hc ho)) fun _ _ hpos => hsl ▸ hpos)
  | advance_mut cnt =>
    refine (advance_mut_spec hs hfit.1 hfit.2).seq ?_
    rintro _ h' ⟨hk, hsl, hc⟩
    refine outcome_pure.2 (.of_pages hk (fun ho => ?_) fun _ hlt _ => ?_)
    · obtain ⟨d, hd, hc⟩ := hc ho
      exact ⟨d, hd, congrArg (fun l => [View.pages l]) hc⟩
    · have hlt : cnt < b.slack h := hlt
      omega
  | enter =>
    refine (enter_spec hs fun hu => (hbad fun hok => hok hu).2).seq ?_
    rintro ⟨_, v, cap⟩ h' ⟨rfl, hk, hc⟩
    refine outcome_pure.2 (.of_keeps (by simp) (by simpa [Obj.refs] using hk) (fun ho => ?_) fun _ _ _ o hm => ?_)
    · obtain ⟨hp, hcur⟩ := hc (hin ▸ ho)
      exact ⟨_, _, rfl, by rw [hp, hcur]; rfl⟩
    · obtain rfl := mem_singleton.1 hm
      trivial

lemma Effect.of_plain {os os' : List Obj} (hl : os'.length ≤ 2) (hk : Keeps h (refsOf os) F h' (refsOf os'))
    (hp : Owned h (refsOf os + F) → post (os.map (Obj.view h)) (os'.map (Obj.view h')))
    (hn : ∀ o ∈ os', ∀ b, o ≠ .pages b) : Effect h os F calm spares post os' h' := by
  refine .of_keeps hl hk hp fun _ _ _ o hm => ?_
  cases o with
  | pages b => exact absurd rfl (hn _ hm b)
  | _ => trivial

section

variable (i j : Nat)

section

variable {op : BufOp} {v : Nat} (hfit : METADATA_SIZE + op.request (Ref.content h (.own v)).length < 2 ^ 32) (hab : E .abort)
  (hbad : ¬ op.Ok (Ref.content h (.own v)).length → E .assertion ∧ E .overflow ∧ E .bounds)
include hfit hab hbad

lemma Unary.buf_spec (hs : Safe h ({.own v} + F)) :
    Outcome (do
        let (v, out) ← op.run v
        return .buf v :: out.toList.map .bytes) h E
      (Effect h [.buf v] F True True (Op.Post (.one i j (.buf op)))) := by
  refine (op.run_spec hs hfit hab hbad).seq ?_
  rintro ⟨v', out⟩ h' ⟨hk, hc⟩
  refine outcome_pure.2 (.of_plain ?_ (by simpa [Obj.refs] using hk) (fun _ r hr => ?_) ?_)
  · cases out <;> simp
  · obtain ⟨q, hq, rfl⟩ := of_map hr
    rw [← hc q hq, map_cons, view_bytes]
    rfl
  · rintro o hm b rfl
    simp at hm

lemma Unary.lent_spec {size : BytePageSize} {rest : List BytePage} {cap : Nat} (hs : Safe h (pagesRefs rest + {.own v} + F)) :
    Outcome (do
        let (v, out) ← op.run v
        return .lent size rest cap v :: out.toList.map .bytes) h E
      (Effect h [.lent size rest cap v] F True True (Op.Post (.one i j (.buf op)))) := by
  refine (op.run_spec hs.right hfit hab hbad).seq ?_
  rintro ⟨v', out⟩ h' ⟨hk, hc⟩
  refine outcome_pure.2 (.of_plain ?_ ?_ (fun ho r hr => ?_) ?_)
  · cases out <;> simp
  · refine hk.widen_left.cast (by simp [Obj.refs]) ?_
    simp only [refsOf_cons, refsOf_bytes, Obj.refs]
    abel
  · obtain ⟨q, hq, rfl⟩ := of_map hr
    have ho' : Owned h ({.own v} + (pagesRefs rest + F)) := ho.cast (by simp only [refsOf_cons, refsOf_nil, Obj.refs]; abel)
    rw [← hc q hq, map_cons, view_bytes, Obj.view, pagesContent_keeps hk ho' mem_left]
  · rintro o hm b rfl
    simp at hm

end

lemma Unary.bytes_spec {op : BytesOp} {st : Storage} (hs : Safe h (st.refs + F)) (hsm : st.Small)
    (hab : E .abort) (hbad : ¬ op.Ok h st → E .assertion ∧ E .overflow) :
    Outcome (do
        let (st, out) ← op.run st
        return .bytes st :: out.toList.map .bytes) h E
      (Effect h [.bytes st] F True True (Op.Post (.one i j (.bytes op)))) := by
  refine (op.run_spec hs hsm hab hbad).seq ?_
  rintro ⟨st', out⟩ h' ⟨hk, hc⟩
  refine outcome_pure.2 (.of_plain ?_ (by simpa [Obj.refs] using hk) (fun ho r hr => ?_) ?_)
  · cases out <;> simp
  · obtain ⟨q, hq, rfl⟩ := of_map hr
    rw [← hc (by simpa [Obj.refs] using ho) q hq, map_cons, view_bytes]
    rfl
  · rintro o hm b rfl
    simp at hm

lemma Unary.page_spec {op : PageOp} {p : BytePage} (hs : Safe h (p.refs + F)) (hsm : p.Small)
    (hab : E .abort) (hbad : ¬ op.Ok (p.content h).length → E .assertion ∧ E .bounds) :
    Outcome (do
        let (p, out) ← op.run p
        return .page p :: out.toList.map .page) h E
      (Effect h [.page p] F (op.Quiet (p.content h).length p F) True (Op.Post (.one i j (.page op)))) := by
  refine (op.run_spec hs hsm hab hbad).seq ?_
  rintro ⟨p', out⟩ h' ⟨hs', hk, hc⟩
  have hin : refsOf [.page p] = p.refs := by simp [Obj.refs]
  have hout : refsOf (.page p' :: out.toList.map .page) = p'.refs + PageOp.outRefs out := by simp [Obj.refs]
  refine outcome_pure.2 ⟨?_, hout ▸ hs', fun hq => ?_, fun ho r hr => ?_, fun _ _ _ o hm => ?_⟩
  · cases out <;> simp
  · rw [hin, hout]
    exact (hk hq).leaves
  · obtain ⟨q, hq, rfl⟩ := of_map hr
    rw [← hc (hin ▸ ho) q hq, map_cons, view_page]
    rfl
  · cases o with
    | pages b => simp at hm
    | _ => trivial

lemma Unary.drop_spec {m : Mem Unit} (hm : Outcome m h E fun _ h' => Keeps h o.refs F h' 0) :
    Outcome (do m; return []) h E (Effect h [o] F True True (Op.Post (.one i j .drop))) := by
  refine hm.seq fun _ h' hk => outcome_pure.2 (.of_plain (by simp) (by simpa using hk) (fun _ r hr => ?_) (by simp))
  cases o <;> exact some.inj hr

lemma Unary.exec_spec {u : Unary} (he : u.exec o = some m) (hs : Safe h (o.refs + F))
    (hfit : u.Fits h o) (hab : E .abort) (hbad : ¬ u.Ok h o → E .assertion ∧ E .overflow ∧ E .bounds) :
    Outcome m h E (Effect h [o] F (u.Calm h F o) (u.Spares h o) (Op.Post (.one i j u))) := by
  cases u with
  | buf op =>
    cases o with
    | buf v => exact some.inj he ▸ buf_spec i j hfit hab hbad hs
    | lent size rest cap v => exact some.inj he ▸ lent_spec i j hfit hab hbad hs
    | _ => cases he
  | buf_freeze =>
    cases o with
    | buf v =>
      cases he
      refine (StorageVec.freeze_spec (.inl rfl) hs).seq ?_
      rintro st h' ⟨hk, hc, -⟩
      refine outcome_pure.2 (.of_plain (by simp) (by simpa [Obj.refs] using hk) (fun _ r hr => ?_) (by simp))
      cases hr
      exact congrArg (fun l => [View.bytes l]) hc
    | _ => cases he
  | buf_page =>
    cases o with
    | buf v =>
      cases he
      obtain ⟨s, hv, -⟩ := Safe.live_own hs
      have hk : Keeps h {.own v} F h {.page v} := Keeps.convert hs hv rfl (fun _ => trivial) (by simp) fun hb => hb.elim
      refine outcome_pure.2 (.of_plain (by simp) (by simpa [Obj.refs, BytePage.refs] using hk) (fun _ r hr => ?_) (by simp))
      cases hr
      rfl
    | _ => cases he
  | bytes op =>
    cases o with
    | bytes st => exact some.inj he ▸ bytes_spec i j hs hfit hab fun hn => ⟨(hbad hn).1, (hbad hn).2.1⟩
    | _ => cases he
  | bytes_page =>
    cases o with
    | bytes st =>
      cases he
      refine outcome_pure.2 (.of_plain (by simp) ?_ (fun _ r hr => ?_) (by simp))
      · exact (Keeps.refl hs).cast (by simp [Obj.refs]) (by simp [Obj.refs, BytePage.refs])
      · cases hr
        rfl
    | _ => cases he
  | page op =>
    cases o with
    | page p => exact some.inj he ▸ page_spec i j hs hfit hab fun hn => ⟨(hbad hn).1, (hbad hn).2.2⟩
    | _ => cases he
  | page_freeze =>
    cases o with
    | page p =>
      cases he
      refine (BytePage.freeze_spec hs hfit).seq ?_
      rintro st h' ⟨hk, hc, -⟩
      refine outcome_pure.2 (.of_plain (by simp) (by simpa [Obj.refs] using hk) (fun _ r hr => ?_) (by simp))
      cases hr
      exact congrArg (fun l => [View.bytes l]) hc
    | _ => cases he
  | page_mut =>
    cases o with
    | page p =>
      cases he
      refine (BytePage.into_mut_spec hs hfit).seq ?_
      rintro v h' ⟨hs', hl, hc⟩
      rw [outcome_pure]
      have hin : refsOf [.page p] = p.refs := by simp [Obj.refs]
      have hout : refsOf [.buf v] = {.own v} := by simp [Obj.refs]
      refine ⟨by simp, hout ▸ hs', fun had => ?_, fun ho r hr => ?_, fun _ _ _ o hm => ?_⟩
      · rw [hin, hout]
        exact hl had
      · cases hr
        exact congrArg (fun l => [View.buf l]) (hc (hin ▸ ho))
      · obtain rfl := mem_singleton.1 hm
        trivial
    | _ => cases he
  | queue op =>
    cases o with
    | pages b => exact some.inj he ▸ op.exec_spec i j hs hfit fun hn => ⟨(hbad hn).2.1, (hbad hn).2.2⟩
    | _ => cases he
  | leave =>
    cases o with
    | lent size rest cap v =>
      cases he
      have hin : refsOf [.lent size rest cap v] = pagesRefs rest + {.own v} := by simp [Obj.refs]
      refine (leave_spec (b := ⟨size, rest, none⟩) rfl hs).seq ?_
      rintro b' h' ⟨hk, -, hc⟩
      refine outcome_pure.2 (.of_keeps (by simp) (by simpa [Obj.refs] using hk) (fun ho r hr => ?_) fun ho hsp _ o hm => ?_)
      · cases hr
        exact congrArg (fun l => [View.pages l]) (hc (hin ▸ ho)).1
      · obtain rfl := mem_singleton.1 hm
        exact (hc (hin ▸ ho)).2 hsp
    | _ => cases he
  | drop =>
    cases o with
    | bytes st => exact some.inj he ▸ drop_spec i j (Storage.drop_spec hs)
    | buf v => exact some.inj he ▸ drop_spec i j ((release_spec (r := .own v) hs).mono fun _ _ hk => hk.1)
    | page p => exact some.inj he ▸ drop_spec i j (BytePage.drop_spec hs)
    | pages b => exact some.inj he ▸ drop_spec i j (BytePages.drop_spec hs)
    | lent size rest cap v => cases he

end

lemma Effect.of_queues {d d' : BytePages} (hk : Keeps h (b.refs + d.refs) F h' (b'.refs + d'.refs))
    (hp : Owned h (b.refs + d.refs + F) →
      post [.pages (b.content h), .pages (d.content h)] [.pages (b'.content h'), .pages (d'.content h')])
    (hn : Owned h (b.refs + d.refs + F) → 0 < b.slack h → 0 < d.slack h → 0 < b'.slack h' ∧ 0 < d'.slack h') :
    Effect h [.pages b, .pages d] F calm spares post [.pages b', .pages d'] h' := by
  have hpair : ∀ x y : BytePages, refsOf [.pages x, .pages y] = x.refs + y.refs := fun x y => by simp [Obj.refs]
  refine .of_keeps (by simp) (by rw [hpair, hpair]; exact hk) (fun ho => hp (hpair b d ▸ ho)) fun ho _ hb o hm => ?_
  obtain ⟨hb', hd'⟩ := hn (hpair b d ▸ ho) (hb (.pages b) (by simp)) (hb (.pages d) (by simp))
  rcases mem_cons.1 hm with rfl | hm
  · exact hb'
  · obtain rfl := mem_singleton.1 hm
    exact hd'

lemma Effect.of_queue_page {p : BytePage} (hk : Keeps h (b.refs + p.refs) F h' b'.refs)
    (hp : Owned h (b.refs + p.refs + F) →
      post [.pages (b.content h), .page (p.content h)] [.pages (b'.content h')] ∧ (0 < b.slack h → 0 < b'.slack h')) :
    Effect h [.pages b, .page p] F calm spares post [.pages b'] h' := by
  have hin : refsOf [.pages b, .page p] = b.refs + p.refs := by simp [Obj.refs]
  refine .of_keeps (by simp) (by simpa [Obj.refs] using hk) (fun ho => (hp (hin ▸ ho)).1) fun ho _ hb o hm => ?_
  obtain rfl := mem_singleton.1 hm
  exact (hp (hin ▸ ho)).2 (hb (.pages b) (by simp))

lemma Binary.exec_spec {u : Binary} (i j : Nat) (he : u.exec o o' = some m)
    (hs : Safe h (o.refs + o'.refs + F)) (hfit : u.Fits o o') (hab : E .abort) (hbad : ¬ u.Ok o o' → E .bounds) :
    Outcome m h E (Effect h [o, o'] F True True (Op.Post (.two i j u))) := by
  have hview : ∀ {l l' r : List UInt8}, l = l' → some [pages r, .pages l] = some [pages r, .pages l'] := fun h => h ▸ rfl
  cases u with
  | append =>
    rcases o with _ | _ | _ | b | _ <;> rcases o' with _ | _ | p | _ | _ <;> try cases he
    refine (append_spec hs fun hu => hbad fun hok => hok hu).seq fun b' h' ⟨hk, _, hc⟩ => outcome_pure.2 ?_
    exact .of_queue_page hk fun ho => ⟨congrArg (fun l => some [View.pages l]) (hc ho).1, (hc ho).2⟩
  | prepend =>
    rcases o with _ | _ | _ | b | _ <;> rcases o' with _ | _ | p | _ | _ <;> try cases he
    refine (prepend_spec hs).seq fun b' h' ⟨hk, hc⟩ => outcome_pure.2 ?_
    exact .of_queue_page hk fun ho => ⟨congrArg (fun l => some [View.pages l]) (hc ho).1, fun hpos => (hc ho).2 ▸ hpos⟩
  | move_to =>
    rcases o with _ | _ | _ | b | _ <;> rcases o' with _ | _ | _ | d | _ <;> try cases he
    refine (move_to_spec hs fun hu => hbad fun hok => hok hu).seq ?_
    rintro ⟨_, d'⟩ h' ⟨rfl, hk, _, hc⟩
    exact outcome_pure.2 (.of_queues hk (fun ho => hview (hc ho).1) fun ho _ hpos => ⟨b.size.capacity_pos, (hc ho).2 hpos⟩)
  | copy_to =>
    rcases o with _ | _ | _ | b | _ <;> rcases o' with _ | _ | _ | d | _ <;> try cases he
    refine (copy_to_spec hs hfit hab fun hu => hbad fun hok => hok hu).seq fun d' h' ⟨hk, _, hc⟩ => outcome_pure.2 ?_
    refine .of_queues hk (fun ho => ?_) fun ho hb hd => ?_
    · change some [pages (b.content h'), .pages (d'.content h')] = some [.pages (b.content h), .pages _]
      rw [(hc ho).1, (hc ho).2.2.1]
    · rw [(hc ho).2.1]
      exact ⟨hb, (hc ho).2.2.2 hd⟩
  | split_into n =>
    rcases o with _ | _ | _ | b | _ <;> rcases o' with _ | _ | _ | d | _ <;> try cases he
    refine (split_into_spec hs hfit hab (fun hu => hbad fun hok => hok.1 hu) fun hu => hbad fun hok => hok.2 hu).seq ?_
    rintro ⟨b', d'⟩ h' ⟨hk, _, _, hc⟩
    refine outcome_pure.2 (.of_queues hk (fun ho => ?_) fun ho hb hd => ⟨(hc ho).2.2.1 hb, (hc ho).2.2.2 hd⟩)
    change some [pages (b'.content h'), .pages (d'.content h')] = some [.pages _, .pages _]
    rw [(hc ho).1, (hc ho).2.1]
  | try_get_current_from =>
    rcases o with _ | _ | _ | b | _ <;> rcases o' with _ | _ | _ | d | _ <;> try cases he
    obtain ⟨hk, -, -, hsl, hc⟩ := try_get_current_from_spec hs Prod.mk.eta.symm
    refine outcome_pure.2 (.of_queues hk (fun _ => ?_) fun _ hb hd => hsl hb hd)
    rcases hc with ⟨hb, hd⟩ | ⟨hnil, hd⟩
    · exact .inl (by rw [hb, hd])
    · exact .inr ⟨_, _, rfl, hnil, hd⟩
  | swap =>
    rcases o with _ | _ | _ | _ | ⟨size, rest, cap, v⟩ <;> rcases o' with _ | w | _ | _ | _ <;> try cases he
    refine outcome_pure.2 (.of_plain (by simp) ?_ (fun _ => rfl) (by simp))
    refine (Keeps.refl hs).cast (by simp [Obj.refs]) ?_
    simp only [refsOf_cons, refsOf_nil, Obj.refs]
    abel

/-- What a call does, whatever the other objects are. -/
lemma Op.exec_spec {op : Op} (he : op.exec os = some m) (hs : Safe h (refsOf os + F))
    (hfit : op.Fits h os) (hab : E .abort) (hbad : ¬ op.Ok h os → E .assertion ∧ E .overflow ∧ E .bounds) :
    Outcome m h E fun os' h' =>
      os'.length ≤ op.outs.length ∧ Effect h os F (op.Calm h F os) (op.Spares h os) op.Post os' h' := by
  cases op with
  | make j mk =>
    rcases os with _ | ⟨o, rest⟩ <;> try cases he
    refine (Make.exec_spec (F := F) (by simpa using hs) hfit fun hn => (hbad hn).1).seq fun o h' ⟨hk, hv, hn⟩ => outcome_pure.2 ?_
    refine ⟨le_refl _, .of_keeps (by simp) (by simpa using hk) (fun _ => congrArg (fun x => [x]) hv) fun _ _ _ o' hm => ?_⟩
    obtain rfl := mem_singleton.1 hm
    exact hn
  | one i j u =>
    rcases os with _ | ⟨o, _ | ⟨o', rest⟩⟩ <;> try cases he
    exact (Unary.exec_spec i j he (by simpa using hs) hfit hab hbad).mono fun os' h' hf => ⟨hf.short, hf⟩
  | two i j u =>
    rcases os with _ | ⟨o, _ | ⟨o', _ | ⟨o'', rest⟩⟩⟩ <;> try cases he
    refine (Binary.exec_spec i j he (hs.cast (by simp)) hfit hab fun hn => (hbad hn).2.2).mono fun os' h' hf => ⟨hf.short, hf⟩
  | set_pages_cache n =>
    rcases os with _ | ⟨o, rest⟩ <;> try cases he
    have hs' : Safe { h with cache_size := n } (refsOf [] + F) := { hs with }
    refine outcome_bind.2 (outcome_modify.2 (outcome_pure.2 ⟨le_refl _, by simp, hs', fun _ => ?_, fun _ => rfl, by simp⟩))
    exact ⟨fun ho => ⟨ho.sole, ho.before⟩, fun _ _ _ => rfl, fun _ _ _ => rfl⟩

end Geario.Buffers
