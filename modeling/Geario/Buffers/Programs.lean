import Geario.Buffers.Steps
/-!
# Programs keep memory safe and objects apart

`Sound` holds in every state a program reaches if no allocation it asks for is
too large for `u32` fields (`Fits`). `Apart`, that nobody writes what others
read, needs more: pages that share a header are not moved through it and not
taken over (`Calm`). `Roomy` is about queues: a current page is never full.
-/
open Lib List Option Multiset

namespace Geario.Buffers

/-! ## Objects under names -/

section Names

variable {s s' : Slab Obj} {k : Nat} {ks : List Nat} {o : Obj} {os : List Obj} {kos : List (Nat × Obj)}

lemma refsOf_remove (hk : s.get k = some o) : refsOf s.values = o.refs + refsOf (s.remove k).values := by
  have hp := ((Slab.values_perm hk).map Obj.refs).sum_eq
  rw [refsOf, hp, List.map_cons, List.sum_cons, refsOf]

lemma refsOf_insert (hk : s.get k = none) : refsOf (s.insert k o).values = o.refs + refsOf s.values := by
  rw [Slab.values_insert, Slab.remove_vacant hk, refsOf_cons]

lemma fetch_cons {r : List Obj × Slab Obj} (hf : fetch (k :: ks) s = some r) :
    ∃ o os, s.get k = some o ∧ fetch ks (s.remove k) = some (os, r.2) ∧ r.1 = o :: os := by
  rw [fetch] at hf
  split at hf
  · cases hf
  next o hk =>
    obtain ⟨r', hr', rfl⟩ := of_map hf
    exact ⟨o, r'.1, hk, hr', rfl⟩

section

variable (hf : fetch ks s = some (os, s'))
include hf

lemma fetch_refs : refsOf s.values = refsOf os + refsOf s'.values := by
  induction ks generalizing s os with
  | nil =>
    cases hf
    rw [refsOf_nil, zero_add]
  | cons k ks ih =>
    obtain ⟨o, os', hk, hf', rfl⟩ := fetch_cons hf
    rw [refsOf_remove hk, ih hf', refsOf_cons, add_assoc]

lemma fetch_get (j : Nat) : s'.get j = if j ∈ ks then none else s.get j := by
  induction ks generalizing s os with
  | nil =>
    cases hf
    simp
  | cons k ks ih =>
    obtain ⟨o, os', hk, hf', rfl⟩ := fetch_cons hf
    rw [ih hf', Slab.get_remove]
    by_cases hjk : j = k <;> by_cases hjs : j ∈ ks <;> simp [hjk, hjs]

lemma fetch_some (hk : k ∈ ks) : ∃ o, s.get k = some o := by
  induction ks generalizing s os with
  | nil => cases hk
  | cons j ks ih =>
    obtain ⟨o, os', hj, hf', rfl⟩ := fetch_cons hf
    rcases mem_cons.1 hk with rfl | hk
    · exact ⟨o, hj⟩
    · obtain ⟨o', hget⟩ := ih hf' hk
      rw [Slab.get_remove] at hget
      obtain ⟨-, hget⟩ := ite_none_left_eq_some.1 hget
      exact ⟨o', hget⟩

lemma fetch_mem (ho : o ∈ os) : ∃ k ∈ ks, s.get k = some o := by
  induction ks generalizing s os with
  | nil =>
    cases hf
    cases ho
  | cons k ks ih =>
    obtain ⟨o', os', hk, hf', rfl⟩ := fetch_cons hf
    rcases mem_cons.1 ho with rfl | ho
    · exact ⟨k, mem_cons_self, hk⟩
    · obtain ⟨j, hj, hget⟩ := ih hf' ho
      rw [Slab.get_remove] at hget
      obtain ⟨-, hget⟩ := ite_none_left_eq_some.1 hget
      exact ⟨j, mem_cons_of_mem _ hj, hget⟩

end

lemma store_cons (hst : store ((k, o) :: kos) s = some s') : s.get k = none ∧ store kos (s.insert k o) = some s' := by
  rw [store] at hst
  obtain ⟨-, hst⟩ := ite_none_left_eq_some.1 hst
  exact ⟨by simp_all, hst⟩

section

variable (hst : store kos s = some s')
include hst

lemma store_refs : refsOf s'.values = refsOf (kos.map (·.2)) + refsOf s.values := by
  induction kos generalizing s with
  | nil =>
    cases hst
    rw [map_nil, refsOf_nil, zero_add]
  | cons p kos ih =>
    obtain ⟨hk, hst⟩ := store_cons hst
    rw [ih hst, refsOf_insert hk, List.map_cons, refsOf_cons]
    abel

lemma store_kept (hk : s.get k = some o) : s'.get k = some o := by
  induction kos generalizing s with
  | nil => exact some.inj hst ▸ hk
  | cons p kos ih =>
    obtain ⟨hp, hst⟩ := store_cons hst
    refine ih hst ?_
    rw [Slab.get_insert, if_neg, hk]
    rintro rfl
    rw [hp] at hk
    cases hk

lemma store_mem (hk : (k, o) ∈ kos) : s'.get k = some o := by
  induction kos generalizing s with
  | nil => cases hk
  | cons p kos ih =>
    obtain ⟨-, hst⟩ := store_cons hst
    rcases mem_cons.1 hk with rfl | hk
    · exact store_kept hst (Slab.get_insert_self ..)
    · exact ih hst hk

lemma store_get (hk : s'.get k = some o) : (k, o) ∈ kos ∨ s.get k = some o := by
  induction kos generalizing s with
  | nil => exact .inr (some.inj hst ▸ hk)
  | cons p kos ih =>
    obtain ⟨-, hst⟩ := store_cons hst
    rcases ih hst with h | h
    · exact .inl (mem_cons_of_mem _ h)
    · rw [Slab.get_insert] at h
      split at h
      next hp => exact .inl (by rw [hp, ← some.inj h]; exact mem_cons_self)
      · exact .inr h

end

end Names

variable {h h' : Heap} {A A' F : Multiset Ref} {o : Obj} {w w' : World} {op : Op} {k : Nat}

/-! ## Bystanders -/

lemma BytePages.content_congr {b : BytePages} (hr : ∀ r ∈ b.refs, r.content h' = r.content h) : b.content h' = b.content h := by
  rw [content, content, pagesContent_congr fun r hm => hr r (mem_add.2 (.inl hm))]
  cases hc : b.current with
  | none => rfl
  | some v =>
    have hv : Ref.content h' (.own v) = Ref.content h (.own v) := hr _ (mem_add.2 (.inr (by simp [hc])))
    rw [curContent_some, curContent_some, hv]

lemma Obj.view_congr (hr : ∀ r ∈ o.refs, r.content h' = r.content h) : o.view h' = o.view h := by
  cases o with
  | bytes st => exact congrArg View.bytes (Storage.content_congr hr)
  | buf v => exact congrArg View.buf (hr _ (Multiset.mem_singleton_self _))
  | page p => exact congrArg View.page (BytePage.content_congr hr)
  | pages b => exact congrArg View.pages (BytePages.content_congr hr)
  | lent size rest cap v =>
    have hrest : ∀ r ∈ BytePages.pagesRefs rest, r.content h' = r.content h := fun r hm => hr r (mem_add.2 (.inl hm))
    have hv : Ref.content h' (.own v) = Ref.content h (.own v) := hr _ (mem_add.2 (.inr (Multiset.mem_singleton_self _)))
    rw [view, view, BytePages.pagesContent_congr hrest, hv]

section

variable (hl : Leaves h A F h' A') (ho : Owned h (A + F)) (hF : ∀ r ∈ o.refs, r ∈ F)
include hl ho hF

lemma Obj.view_leaves : o.view h' = o.view h :=
  view_congr fun r hr => hl.frame ho r (hF r hr)

lemma Obj.notFull_leaves (hn : o.NotFull h) : o.NotFull h' := by
  cases o with
  | pages b =>
    change 0 < b.slack h'
    have hn : 0 < b.slack h := hn
    rw [BytePages.slack] at hn ⊢
    cases hc : b.current with
    | none => exact b.size.capacity_pos
    | some v =>
      rw [hc] at hn
      have hv : h'.room v = h.room v := hl.room ho v (hF _ (mem_add.2 (.inr (by simp [hc]))))
      rwa [elim_some, hv]
  | _ => trivial

end

/-! ## One step -/

namespace World

/-- Memory is safe for the objects of the program. -/
def Sound (w : World) : Prop := Safe w.heap w.refs

def Apart (w : World) : Prop := Owned w.heap w.refs

def Roomy (w : World) : Prop := ∀ k o, w.objs.get k = some o → o.NotFull w.heap

def Fits (w : World) (op : Op) : Prop := ∀ os rest, fetch op.ins w.objs = some (os, rest) → op.Fits w.heap os

def Calm (w : World) (op : Op) : Prop :=
  ∀ os rest, fetch op.ins w.objs = some (os, rest) → op.Calm w.heap (refsOf rest.values) os

def Spares (w : World) (op : Op) : Prop := ∀ os rest, fetch op.ins w.objs = some (os, rest) → op.Spares w.heap os

def Ok (w : World) (op : Op) : Prop := ∀ os rest, fetch op.ins w.objs = some (os, rest) → op.Ok w.heap os

variable {rest : Slab Obj} {os : List Obj}

section

variable (hf : fetch op.ins w.objs = some (os, rest))
include hf

lemma fits_of_fetch (hfit : op.Fits w.heap os) : w.Fits op := by
  intro os' rest' hf'
  cases hf.symm.trans hf'
  exact hfit

lemma calm_of_fetch (hc : op.Calm w.heap (refsOf rest.values) os) : w.Calm op := by
  intro os' rest' hf'
  cases hf.symm.trans hf'
  exact hc

lemma spares_of_fetch (hsp : op.Spares w.heap os) : w.Spares op := by
  intro os' rest' hf'
  cases hf.symm.trans hf'
  exact hsp

end

/-- What a step took out, what it put back, and what it did to it. -/
lemma step_effect (hs : w.Sound) (hfit : w.Fits op) (hst : w.step op = some w') :
    ∃ os rest os', fetch op.ins w.objs = some (os, rest) ∧ store (op.outs.zip os') rest = some w'.objs ∧
      os'.length ≤ op.outs.length ∧ w.refs = refsOf os + refsOf rest.values ∧
      Effect w.heap os (refsOf rest.values) (op.Calm w.heap (refsOf rest.values) os) (op.Spares w.heap os) op.Post os' w'.heap := by
  rw [step] at hst
  split at hst
  · cases hst
  rename_i os rest hf
  split at hst
  · cases hst
  rename_i m he
  split at hst
  next os' h' hm =>
    obtain ⟨objs, hstore, rfl⟩ := of_map hst
    have hrefs : w.refs = refsOf os + refsOf rest.values := fetch_refs hf
    obtain ⟨hlen, heff⟩ := (Op.exec_spec (E := fun _ => True) he (hs.cast hrefs) (hfit os rest hf) trivial
      fun _ => ⟨trivial, trivial, trivial⟩).of_ok hm
    exact ⟨os, rest, os', hf, hstore, hlen, hrefs, heff⟩
  · cases hst

lemma refs_step {os' : List Obj} (hstore : store (op.outs.zip os') rest = some w'.objs)
    (hlen : os'.length ≤ op.outs.length) : w'.refs = refsOf os' + refsOf rest.values := by
  have := store_refs hstore
  rwa [map_snd_zip hlen] at this

lemma sound_step (hs : w.Sound) (hfit : w.Fits op) (hst : w.step op = some w') : w'.Sound := by
  obtain ⟨os, rest, os', -, hstore, hlen, -, heff⟩ := step_effect hs hfit hst
  rw [Sound, refs_step hstore hlen]
  exact heff.safe

lemma apart_step (hs : w.Sound) (ha : w.Apart) (hfit : w.Fits op) (hc : w.Calm op) (hst : w.step op = some w') : w'.Apart := by
  obtain ⟨os, rest, os', hf, hstore, hlen, hrefs, heff⟩ := step_effect hs hfit hst
  rw [Apart, refs_step hstore hlen]
  exact (heff.leaves (hc os rest hf)).owned (Owned.cast ha hrefs)

lemma mem_refsOf {s : Slab Obj} (hk : s.get k = some o) {r : Ref} (hr : r ∈ o.refs) : r ∈ refsOf s.values := by
  rw [refsOf_remove hk]
  exact mem_add.2 (.inl hr)

lemma view_bystander (hs : w.Sound) (ha : w.Apart) (hfit : w.Fits op) (hc : w.Calm op) (hst : w.step op = some w')
    (hin : k ∉ op.ins) (hk : w.objs.get k = some o) : w'.view k = w.view k := by
  obtain ⟨os, rest, os', hf, hstore, -, hrefs, heff⟩ := step_effect hs hfit hst
  have hrest : rest.get k = some o := by rw [fetch_get hf, if_neg hin, hk]
  have hview := Obj.view_leaves (heff.leaves (hc os rest hf)) (Owned.cast ha hrefs) fun r hr => mem_refsOf hrest hr
  rw [view, view, store_kept hstore hrest, hk, map_some, map_some, hview]

lemma roomy_step (hs : w.Sound) (ha : w.Apart) (hr : w.Roomy) (hfit : w.Fits op) (hc : w.Calm op) (hsp : w.Spares op)
    (hst : w.step op = some w') : w'.Roomy := by
  obtain ⟨os, rest, os', hf, hstore, -, hrefs, heff⟩ := step_effect hs hfit hst
  have ho : Owned w.heap (refsOf os + refsOf rest.values) := Owned.cast ha hrefs
  intro k o hk
  rcases store_get hstore hk with hm | hrest
  · refine heff.notFull ho (hsp os rest hf) (fun o' ho' => ?_) o (of_mem_zip hm).2
    obtain ⟨j, -, hj⟩ := fetch_mem hf ho'
    exact hr j o' hj
  · have hget := fetch_get hf k
    rw [hrest] at hget
    split at hget
    · cases hget
    · exact Obj.notFull_leaves (heff.leaves (hc os rest hf)) ho (fun r hr => mem_refsOf hrest hr) (hr k o hget.symm)

lemma panics_abort (hs : w.Sound) (hfit : w.Fits op) (hok : w.Ok op) {e : Panic} (hp : w.Panics op e) : e = .abort := by
  obtain ⟨os, rest, m, hf, he, hm⟩ := hp
  have hrefs : w.refs = refsOf os + refsOf rest.values := fetch_refs hf
  exact (Op.exec_spec (E := (· = .abort)) he (hs.cast hrefs) (hfit os rest hf) rfl
    fun hn => absurd (hok os rest hf) hn).of_error hm

/-! ## Whole programs -/

lemma sound_empty : World.empty.Sound where
  fresh := nofun
  wf := nofun
  counted := nofun
  within := fun hr => absurd hr (notMem_zero _)
  cached := fun hv => absurd hv not_mem_nil

lemma apart_empty : World.empty.Apart where
  sole := fun _ => Nat.zero_le _
  before := fun hm => absurd hm (notMem_zero _)

lemma roomy_empty : World.empty.Roomy := nofun

lemma sound_of_reach (hr : Reach step Fits .empty w) : w.Sound :=
  hr.inv Sound sound_empty fun _ _ _ hs hfit hst => sound_step hs hfit hst

lemma apart_of_reach (hr : Reach step (fun w op => w.Fits op ∧ w.Calm op) .empty w) : w.Sound ∧ w.Apart :=
  hr.inv (fun w => w.Sound ∧ w.Apart) ⟨sound_empty, apart_empty⟩ fun _ _ _ hi hok hst =>
    ⟨sound_step hi.1 hok.1 hst, apart_step hi.1 hi.2 hok.1 hok.2 hst⟩

lemma roomy_of_reach (hr : Reach step (fun w op => w.Fits op ∧ w.Calm op ∧ w.Spares op) .empty w) :
    w.Sound ∧ w.Apart ∧ w.Roomy :=
  hr.inv (fun w => w.Sound ∧ w.Apart ∧ w.Roomy) ⟨sound_empty, apart_empty, roomy_empty⟩ fun _ _ _ hi hok hst =>
    ⟨sound_step hi.1 hok.1 hst, apart_step hi.1 hi.2.1 hok.1 hok.2.1 hst, roomy_step hi.1 hi.2.1 hi.2.2 hok.1 hok.2.1 hok.2.2 hst⟩

/-- The bookkeeping of every program: the count of a block is the number of handles on it, and one if it is in the page
cache, where it is alone; and the block of a handle is allocated and has the part that the handle shows. -/
theorem counts_exact (hr : Reach step Fits .empty w) :
    (∀ v s, w.heap.vecs v = some s → s.ref_count = w.refs.countP (·.ptr = v) + w.heap.cached v) ∧
      (∀ r ∈ w.refs, (∃ s, w.heap.vecs r.ptr = some s ∧ r.Within s) ∧ ∀ size, r.ptr ∉ w.heap.cache size) ∧
      ∀ size, ∀ v ∈ w.heap.cache size, w.refs.countP (·.ptr = v) = 0 ∧ w.heap.cached v = 1 := by
  have hs := sound_of_reach hr
  refine ⟨fun v s => hs.counted, fun r hm => ⟨hs.within hm, hs.not_cached hm⟩, fun size v hc => ?_⟩
  obtain ⟨hu, s, hv, hsp⟩ := hs.cached hc
  have hcount := hs.counted hv
  have hpos := Safe.cached_pos hc hu
  rw [hsp.ref_count] at hcount
  omega

theorem counts_exact_buf : ∃ w : World, w.view 0 = some (.buf [7]) ∧
    ∀ v s, w.heap.vecs v = some s → s.ref_count = w.refs.countP (·.ptr = v) + w.heap.cached v :=
  ⟨_, rfl, (counts_exact (.step (i := .make 0 (.buf_copy [7])) .refl (fits_of_fetch rfl (show METADATA_SIZE + 1 < 2 ^ 32 by decide)) rfl)).1⟩

end World

end Geario.Buffers
