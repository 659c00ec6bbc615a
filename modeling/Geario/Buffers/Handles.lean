import Geario.Buffers.Programs
/-!
# Handles are independent values

The independent model: under each name a list of bytes, and each call acts on
the lists of the objects it is called on. `view_step` relates every calm step
of a program to it; the rest of this file is about programs on `BytesMut` and
`Bytes` alone, where every call is calm.
-/
open Lib List Option

namespace Geario.Buffers

open SharedVec

def seeAll (a : Nat → Option View) : List Nat → Option (List View)
  | [] => some []
  | k :: ks =>
    match a k with
    | none => none
    | some x => (seeAll a ks).map (x :: ·)

def rewire (a : Nat → Option View) (ins : List Nat) (outs : List (Nat × View)) (k : Nat) : Option View :=
  match outs.lookup k with
  | some y => some y
  | none => if k ∈ ins then none else a k

def modelStep (a : Nat → Option View) (op : Op) : Option (Nat → Option View) :=
  match seeAll a op.ins with
  | none => none
  | some xs => (op.model xs).map fun ys => rewire a op.ins (op.outs.zip ys)

lemma seeAll_congr {a a' : Nat → Option View} {ks : List Nat} (h : ∀ k ∈ ks, a k = a' k) : seeAll a ks = seeAll a' ks := by
  induction ks with
  | nil => rfl
  | cons k ks ih =>
    obtain ⟨hk, hks⟩ := forall_mem_cons.1 h
    rw [seeAll, seeAll, hk, ih hks]

variable {k v : Nat}

lemma mem_of_lookup {β : Type} {y : β} {l : List (Nat × β)} (h : l.lookup k = some y) : (k, y) ∈ l := by
  induction l with
  | nil => cases h
  | cons p l ih =>
    rw [lookup_cons] at h
    split at h
    next hp =>
      rw [eq_of_beq hp, ← some.inj h]
      exact mem_cons_self
    · exact mem_cons_of_mem _ (ih h)

lemma lookup_of_mem {β : Type} {y : β} {l : List (Nat × β)} (h : (k, y) ∈ l) : ∃ y', l.lookup k = some y' := by
  induction l with
  | nil => cases h
  | cons p l ih =>
    rw [lookup_cons]
    split
    · exact ⟨_, rfl⟩
    next hp =>
      rcases mem_cons.1 h with rfl | h
      · simp at hp
      · exact ih h

variable {h : Heap}

namespace World

variable {w w' : World} {op : Op}

lemma seeAll_fetch {ks : List Nat} {s rest : Slab Obj} {os : List Obj} (hf : fetch ks s = some (os, rest)) :
    seeAll (fun k => (s.get k).map (Obj.view h)) ks = some (os.map (Obj.view h)) := by
  induction ks generalizing s os with
  | nil =>
    cases hf
    rfl
  | cons k ks ih =>
    obtain ⟨o, os', hk, hf', rfl⟩ := fetch_cons hf
    have hks : ∀ j ∈ ks, (s.get j).map (Obj.view h) = ((s.remove k).get j).map (Obj.view h) := fun j hj => by
      obtain ⟨o', hj'⟩ := fetch_some hf' hj
      rw [Slab.get_remove] at hj' ⊢
      split at hj'
      · cases hj'
      next hne => rw [if_neg hne]
    rw [seeAll, hk, map_some]
    dsimp only
    rw [seeAll_congr hks, ih hf', map_some, map_cons]

/-- A calm step does to what is seen of its objects what `Post` says, and to no other object anything. -/
lemma view_step (hs : w.Sound) (ha : w.Apart) (hfit : w.Fits op) (hc : w.Calm op) (hst : w.step op = some w') :
    ∃ xs ys, seeAll w.view op.ins = some xs ∧ op.Post xs ys ∧ w'.view = rewire w.view op.ins (op.outs.zip ys) := by
  obtain ⟨os, rest, os', hf, hstore, hlen, hrefs, heff⟩ := step_effect hs hfit hst
  refine ⟨_, _, seeAll_fetch hf, heff.post (Owned.cast ha hrefs), funext fun k => ?_⟩
  have hzip : op.outs.zip (os'.map (Obj.view w'.heap)) = (op.outs.zip os').map fun p => (p.1, p.2.view w'.heap) := by
    rw [zip_map_right]
    rfl
  rw [rewire, hzip]
  cases hl : ((op.outs.zip os').map fun p => (p.1, p.2.view w'.heap)).lookup k with
  | some y =>
    obtain ⟨⟨k', o⟩, hm, he⟩ := mem_map.1 (mem_of_lookup hl)
    cases he
    rw [view, store_mem hstore hm]
    rfl
  | none =>
    have hnew : ∀ o, (k, o) ∉ op.outs.zip os' := fun o hm => by
      obtain ⟨y, hy⟩ := lookup_of_mem (mem_map.2 ⟨(k, o), hm, rfl⟩ :
        (k, o.view w'.heap) ∈ (op.outs.zip os').map fun p => (p.1, p.2.view w'.heap))
      rw [hl] at hy
      cases hy
    have hget := fetch_get hf k
    cases hk : w'.objs.get k with
    | some o =>
      have hrest : rest.get k = some o := (store_get hstore hk).resolve_left (hnew o)
      rw [hrest] at hget
      split at hget
      · cases hget
      next hin =>
        rw [if_neg hin]
        exact view_bystander hs ha hfit hc hst hin hget.symm
    | none =>
      have hrest : rest.get k = none := by
        cases hr : rest.get k with
        | none => rfl
        | some o =>
          rw [store_kept hstore hr] at hk
          cases hk
      rw [hrest] at hget
      rw [view, hk]
      dsimp only
      split
      · rfl
      next hin =>
        rw [if_neg hin] at hget
        rw [view, ← hget]
        rfl

/-! ## Programs on `BytesMut` and `Bytes` -/

end World

/-- The call makes a `BytesMut`, or is one of a `BytesMut` or `Bytes` that yields such. -/
def Op.Handles : Op → Bool
  | make _ (.buf_with_capacity _) | make _ .buf_new | make _ (.buf_copy _) => true
  | one _ _ (.buf _) | one _ _ .buf_freeze | one _ _ (.bytes _) | one _ _ .drop => true
  | _ => false

namespace World

variable {w w' : World} {op : Op} {s : World × (Nat → Option View)}

def bothStep (s : World × (Nat → Option View)) (op : Op) : Option (World × (Nat → Option View)) :=
  match s.1.step op, modelStep s.2 op with
  | some w, some a => some (w, a)
  | _, _ => none

lemma calm_of_handles (hh : op.Handles) : w.Calm op := by
  intro os rest _
  cases op with
  | one i j u =>
    rcases os with _ | ⟨o, _ | ⟨o', os⟩⟩ <;> try trivial
    cases u with
    | page_mut | page op => cases hh
    | _ => cases o <;> trivial
  | _ => trivial

lemma model_of_post {xs ys zs : List View} (hh : op.Handles) (hp : op.Post xs ys) (hm : op.model xs = some zs) : ys = zs := by
  cases op with
  | make j m =>
    rcases xs with _ | ⟨x, xs⟩
    · exact hp.trans (some.inj hm)
    · cases hm
  | one i j u =>
    rcases xs with _ | ⟨x, _ | ⟨y, xs⟩⟩ <;> try cases hm
    cases u with
    | queue op => cases hh
    | _ => cases x <;> exact hp zs hm
  | _ => cases hh

lemma bothStep_inv {a : Nat → Option View} (hi : w.Sound ∧ w.Apart ∧ w.view = a) (hh : op.Handles) (hfit : w.Fits op)
    (hst : bothStep (w, a) op = some s) : s.1.Sound ∧ s.1.Apart ∧ s.1.view = s.2 := by
  obtain ⟨hs, ha, rfl⟩ := hi
  rw [bothStep] at hst
  split at hst
  next w' a' hw hm =>
    cases hst
    have hc : w.Calm op := calm_of_handles hh
    refine ⟨sound_step hs hfit hw, apart_step hs ha hfit hc hw, ?_⟩
    obtain ⟨xs, ys, hxs, hpost, hview⟩ := view_step hs ha hfit hc hw
    rw [modelStep] at hm
    rw [hxs] at hm
    obtain ⟨zs, hzs, rfl⟩ := of_map hm
    rw [hview, model_of_post hh hpost hzs]
  · cases hst

/-- Every handle shows what it shows in the independent model, and what a `BytesMut` may write is apart from
what is frozen. -/
theorem handles_independent
    (hr : Reach bothStep (fun s op => op.Handles ∧ s.1.Fits op) (.empty, fun _ => none) s) :
    s.1.view = s.2 ∧
      ∀ i j v off len sv, s.1.objs.get i = some (.buf v) → s.1.objs.get j = some (.bytes (.vec v off len)) →
        s.1.heap.vecs v = some sv → ∀ x, off ≤ x → x < off + len → ¬ (sv.offset ≤ x ∧ x < sv.offset + sv.capacity) := by
  obtain ⟨-, ha, hview⟩ := hr.inv (fun s => s.1.Sound ∧ s.1.Apart ∧ s.1.view = s.2) ⟨sound_empty, apart_empty, rfl⟩
    fun s op s' hi hok hst => bothStep_inv hi hok.1 hok.2 hst
  refine ⟨hview, fun i j v off len sv hi hj hv x hx hx' hin => ?_⟩
  have hown : .own v ∈ s.1.refs := mem_refsOf hi (Multiset.mem_singleton_self _)
  have hwin : .win v off len ∈ s.1.refs := mem_refsOf hj (Multiset.mem_singleton_self _)
  rcases ha.before hown hv hwin rfl with h | h | h
  · cases h
  all_goals omega

/-- The bytes are too many for an inline copy: both handles have the buffer. -/
theorem handles_independent_after_split :
    ∃ (s : World × (Nat → Option View)) (off : Nat), s.1.objs.get 0 = some (.buf 0) ∧
      s.1.objs.get 1 = some (.bytes (.vec 0 off 24)) ∧ s.1.view = s.2 ∧ s.2 0 = some (.buf [7]) := by
  refine ⟨_, _, rfl, rfl, (handles_independent (.step (i := .one 0 1 (.buf (.split_to 24)))
    (.step (i := .make 0 (.buf_copy (List.replicate 25 7))) .refl ⟨rfl, fits_of_fetch rfl ?_⟩ rfl)
    ⟨rfl, fits_of_fetch rfl ?_⟩ rfl)).1, rfl⟩
  · change METADATA_SIZE + 25 < 2 ^ 32
    decide
  · change METADATA_SIZE + 0 < 2 ^ 32
    decide

end World

/-! ## Where the `u32` fields are too small -/

variable {E : Panic → Prop} {s : SharedVec} {Q : Nat → Heap → Prop}

lemma outcome_release_last {Q : Unit → Heap → Prop}
    (hv : h.vecs v = some s) (hwf : s.Wf) (h1 : s.ref_count = 1) (hu : s.size = .Unset) :
    Outcome (release_shared_vec v) h E Q ↔ Q () (h.free v) := by
  simp only [release_shared_vec, outcome_bind]
  rw [outcome_deref hv]
  simp only [h1, hu, ne_eq, not_true_eq_false, if_false, false_and, outcome_get, outcome_bind, add_u32, hwf.window, if_pos hwf.small,
    outcome_pure, outcome_set]

lemma outcome_create_empty {cap : Nat} (hmax : METADATA_SIZE + cap ≤ LAYOUT_MAX) :
    Outcome (create .Unset cap []) h E Q ↔ Q h.next (h.alloc (.init .Unset cap [])) := by
  simp only [create, outcome_bind, outcome_get, if_neg (not_lt.2 hmax), length_nil, Nat.zero_mod,
    Nat.not_lt_zero, if_false, outcome_set, outcome_pure]

lemma outcome_put_slice_moved {src : List UInt8}
    (hv : h.vecs v = some s) (h0 : s.len = 0) (hroom : s.remaining < src.length)
    (hfull : s.offset + s.capacity < src.length + METADATA_SIZE) (hmax : METADATA_SIZE + src.length ≤ LAYOUT_MAX) :
    Outcome (BytesMut.put_slice v src) h E Q ↔ Outcome (release_shared_vec v) (h.alloc (.init .Unset src.length [])) E fun _ h' =>
      Outcome (update h.next (put_slice src)) h' E fun _ h'' => Q h.next h'' := by
  have hnil : s.as_ref = [] := by rw [as_ref, h0, slice_zero]
  have husize : src.length < 2 ^ 64 := by
    rw [LAYOUT_MAX, METADATA_SIZE] at hmax
    omega
  simp only [BytesMut.put_slice, StorageVec.reserve, StorageVec.reserve_inner, StorageVec.reserve_capacity, outcome_bind]
  rw [outcome_deref hv, if_neg (not_le.2 hroom)]
  simp only [outcome_bind]
  rw [outcome_deref hv, h0, add_usize, zero_add, if_pos husize, outcome_pure, if_neg (by omega)]
  simp only [outcome_bind]
  rw [outcome_deref hv, hnil, outcome_create_empty hmax]
  simp only [outcome_pure]

lemma SharedVec.init_header (cap : Nat) :
    (init .Unset cap []).offset = METADATA_SIZE ∧ (init .Unset cap []).len = 0 ∧
      (init .Unset cap []).capacity = cap % 2 ^ 32 ∧ (init .Unset cap []).remaining = cap % 2 ^ 32 ∧
      (init .Unset cap []).mem.length = METADATA_SIZE + cap :=
  ⟨rfl, rfl, rfl, rfl, length_init (Nat.zero_le _)⟩

lemma put_slice_wraps_around {src : List UInt8} (hv : h.vecs v = some s)
    (hnew : v ≠ h.next) (hwf : s.Wf) (h1 : s.ref_count = 1) (hu : s.size = .Unset) (h0 : s.len = 0)
    (hsrc : src.length = 2 ^ 32 + 5) :
    Outcome (BytesMut.put_slice v src) h E fun v' h' => Ref.content h' (.own v') = src.take 5 := by
  have hw := hwf.window
  have hr := hwf.room
  have hsm := hwf.small
  have hmax : METADATA_SIZE + src.length ≤ LAYOUT_MAX := by
    rw [LAYOUT_MAX, METADATA_SIZE]
    omega
  rw [outcome_put_slice_moved hv h0 (by omega) (by omega) hmax]
  -- the old buffer goes, the new one has a header that describes five bytes
  obtain ⟨hoff, htl, hcap, -, hlen⟩ := init_header src.length
  generalize init .Unset src.length [] = t at hoff htl hcap hlen
  have hv0 : (h.alloc t).vecs v = some s := (Function.update_of_ne hnew ..).trans hv
  rw [outcome_release_last hv0 hwf h1 hu]
  have hv1 : ((h.alloc t).free v).vecs h.next = some t := by
    rw [Heap.free, Heap.alloc]
    dsimp only
    rw [Function.update_of_ne (Ne.symm hnew), Function.update_self]
  rw [outcome_update hv1]
  simp only [put_slice, outcome_bind, outcome_get]
  rw [outcome_write (by omega)]
  have h5 : src.length % 2 ^ 32 = 5 := by omega
  simp only [set_len, outcome_bind, outcome_get, htl, hcap, zero_add, le_refl, if_true, outcome_set]
  rw [Ref.content_own Heap.vecs_put_self]
  have hslice := slice_splice_self (l := t.mem) (d := src) (show t.offset + 0 ≤ t.mem.length by omega)
  rw [h5]
  change slice (splice t.mem (t.offset + 0) src) t.offset 5 = src.take 5
  rw [← take_slice (show 5 ≤ src.length by omega)]
  exact congrArg (take 5) hslice

namespace World

variable {w : World} {op : Op}

lemma step_eq {os os' : List Obj} {rest objs : Slab Obj} {m : Mem (List Obj)}
    (hf : fetch op.ins w.objs = some (os, rest)) (he : op.exec os = some m) (hm : m w.heap = .ok (os', h))
    (hst : store (op.outs.zip os') rest = some objs) : w.step op = some { heap := h, objs } := by
  simp only [step, hf, he, hm, hst, map_some]

/-- `BytesMut::new()`, then a slice of `2 ^ 32 + 5` bytes: five are seen. -/
theorem long_slice_is_cut : ∃ src : List UInt8, src.length = 2 ^ 32 + 5 ∧
    ∃ s, Reach bothStep (fun _ op => op.Handles) (.empty, fun _ => none) s ∧
      s.1.view 0 = some (.buf (src.take 5)) ∧ s.2 0 = some (.buf src) := by
  refine ⟨replicate (2 ^ 32 + 5) 0, length_replicate, ?_⟩
  generalize hsrc : replicate (2 ^ 32 + 5) (0 : UInt8) = src
  have hlen : src.length = 2 ^ 32 + 5 := hsrc ▸ length_replicate
  -- one empty buffer
  obtain ⟨w, hw, hobj, hfree, hv, hnext⟩ : ∃ w : World, World.empty.step (.make 0 .buf_new) = some w ∧
      w.objs.get 0 = some (.buf 0) ∧ (w.objs.remove 0).get 1 = none ∧
      w.heap.vecs 0 = some (init .Unset MIN_CAPACITY []) ∧ w.heap.next = 1 := ⟨_, rfl, rfl, rfl, rfl, rfl⟩
  have hwf : (init .Unset MIN_CAPACITY []).Wf := init_wf (by decide) (Nat.zero_le _) (by simp)
  have hput : Outcome (do
      let p ← (BufOp.put_slice src).run 0
      return Obj.buf p.1 :: p.2.toList.map .bytes) w.heap (fun _ => False) fun os h =>
        ∃ v, os = [.buf v] ∧ Ref.content h (.own v) = src.take 5 := by
    simp only [BufOp.run, outcome_bind, outcome_pure]
    exact (put_slice_wraps_around hv (by rw [hnext]; decide) hwf rfl rfl rfl hlen).mono fun v h hc => ⟨v, rfl, hc⟩
  obtain ⟨_, h, hm, v, rfl, hc⟩ := hput.total
  have hf : fetch [0] w.objs = some ([.buf 0], w.objs.remove 0) := by simp only [fetch, hobj, map_some]
  have hstore : store [(0, Obj.buf v)] (w.objs.remove 0) = some ((w.objs.remove 0).insert 0 (.buf v)) := by
    simp only [store, Slab.get_remove_self, isSome_none, Bool.false_eq_true, if_false]
  have hstep : w.step (.one 0 1 (.buf (.put_slice src))) = some ⟨h, (w.objs.remove 0).insert 0 (.buf v)⟩ :=
    step_eq hf rfl hm hstore
  have hmodel : modelStep (fun _ => none) (.make 0 .buf_new) = some (rewire (fun _ => none) [] [(0, .buf [])]) := rfl
  have hmodel' : modelStep (rewire (fun _ => none) [] [(0, .buf [])]) (.one 0 1 (.buf (.put_slice src))) =
      some (rewire (rewire (fun _ => none) [] [(0, .buf [])]) [0] [(0, .buf ([] ++ src))]) := rfl
  have hboth : bothStep (.empty, fun _ => none) (.make 0 .buf_new) = some (w, rewire (fun _ => none) [] [(0, .buf [])]) := by
    simp only [bothStep, hw, hmodel]
  have hboth' : bothStep (w, rewire (fun _ => none) [] [(0, .buf [])]) (.one 0 1 (.buf (.put_slice src))) =
      some (⟨h, (w.objs.remove 0).insert 0 (.buf v)⟩,
        rewire (rewire (fun _ => none) [] [(0, .buf [])]) [0] [(0, .buf ([] ++ src))]) := by
    simp only [bothStep, hstep, hmodel']
  refine ⟨_, .step (.step .refl rfl hboth) rfl hboth', ?_, rfl⟩
  rw [view, Slab.get_insert_self, map_some, Obj.view, hc]

end World

/-! ## Calls of `Bytes` within range -/

/-- The arguments are those the documentation allows. -/
def BytesOp.InRange (len : Nat) : BytesOp → Prop
  | slice first last => first ≤ last ∧ last ≤ len
  | split_to n | split_off n | advance_to n => n ≤ len
  | get_u8 => 1 ≤ len
  | clone | truncate _ | trimdown | clear => True

section Range

variable {h : Heap} {F : Multiset Ref} {st : Storage} {n : Nat}

section

variable (hs : Safe h (st.refs + F))
include hs

lemma Storage.truncate_fails (hi : INLINE_CAP ≤ n) (hn : n ≤ st.len) (hroom : ¬ st.Room h n) :
    Outcome (st.truncate n) h (· = .assertion) fun _ _ => False := by
  cases st with
  | vec v offset len =>
    obtain ⟨s, hv, -, -⟩ := Safe.live_win hs
    rw [Room, Heap.capacity_eq hv] at hroom
    simp only [truncate, set_len, if_pos hn, if_neg (not_lt.2 hi), outcome_bind]
    rw [outcome_deref hv, if_neg hroom]
    exact outcome_throw.2 rfl
  | _ => exact absurd trivial hroom

lemma Storage.trimdown_fails (hi : INLINE_CAP < st.len) (hroom : ¬ st.Room h st.len) :
    Outcome st.trimdown h (· = .overflow) fun _ _ => False := by
  cases st with
  | vec v offset len =>
    obtain ⟨s, hv, -, -⟩ := Safe.live_win hs
    rw [Room, Heap.capacity_eq hv] at hroom
    simp only [trimdown, capacity, outcome_bind]
    rw [as_ref_spec hs, if_neg (not_le.2 hi), outcome_bind, outcome_bind, outcome_deref hv, outcome_pure,
      outcome_bind, outcome_sub_underflow (lt_of_not_ge hroom)]
  | _ => exact absurd trivial hroom

lemma BytesOp.run_fails {op : BytesOp} (hin : op.InRange st.len) (hbad : ¬ op.Ok h st) :
    Outcome (op.run st) h (fun e => e = .assertion ∨ e = .overflow) fun _ _ => False := by
  cases op with
  | truncate n =>
    rw [Ok, Classical.not_imp, Classical.not_imp] at hbad
    refine Outcome.seq (Q := fun _ _ => False) ?_ fun _ _ h => h.elim
    exact (Storage.truncate_fails hs hbad.1 hbad.2.1 hbad.2.2).weaken fun e he => .inl he
  | trimdown =>
    rw [Ok, Classical.not_imp] at hbad
    refine Outcome.seq (Q := fun _ _ => False) ?_ fun _ _ h => h.elim
    exact (Storage.trimdown_fails hs hbad.1 hbad.2).weaken fun e he => .inr he
  | _ => exact absurd hin hbad

end

end Range

namespace World

variable {w : World} {i : Nat} {st : Storage}

/-- A call within range passes its checks exactly if the header leaves room where it is looked at. -/
theorem bytes_checks_iff (hr : Reach step Fits .empty w) (hi : w.objs.get i = some (.bytes st)) (hsm : st.Small) (op : BytesOp)
    (hin : op.InRange st.len) :
    (∀ e, op.run st w.heap = .error e → e ≠ .assertion ∧ e ≠ .overflow) ↔ op.Ok w.heap st := by
  have hs : Safe w.heap (st.refs + refsOf (w.objs.remove i).values) := (sound_of_reach hr).cast (refsOf_remove hi)
  constructor
  · intro hno
    by_contra hbad
    have hf := BytesOp.run_fails hs hin hbad
    unfold Outcome at hf
    split at hf
    · exact hf
    next e he => exact hf.elim (hno e he).1 (hno e he).2
  · intro hok e he
    have ha := (op.run_spec (E := (· = .abort)) hs hsm rfl fun hn => absurd hok hn).of_error he
    subst ha
    decide

theorem bytes_checks_frozen : ∃ w : World, w.view 0 = some (.bytes (List.replicate 30 7)) ∧
    ∀ e, (BytesOp.truncate 25).run (.vec 0 METADATA_SIZE 30) w.heap = .error e → e ≠ .assertion ∧ e ≠ .overflow := by
  refine ⟨_, rfl, (bytes_checks_iff (i := 0) (.step (i := .one 0 1 .buf_freeze)
    (.step (i := .make 0 (.buf_copy (replicate 30 7))) .refl (fits_of_fetch rfl ?_) rfl) (fits_of_fetch rfl trivial) rfl)
    rfl trivial (.truncate 25) trivial).2 ?_⟩
  · change METADATA_SIZE + 30 < 2 ^ 32
    decide
  · intro _ _
    change 25 ≤ 30
    decide

/-- 30 bytes are taken from a `BytesMut`, whose header then has no capacity left: `truncate(25)` on them fails. -/
theorem truncate_after_take : ∃ w, Reach step (fun _ _ => True) .empty w ∧
    w.view 1 = some (.bytes (List.replicate 30 7)) ∧ w.Panics (.one 1 2 (.bytes (.truncate 25))) .assertion := by
  have hreach : Reach step (fun _ _ => True) .empty _ := .of_steps
      [.make 0 (.buf_copy (replicate 30 7)), .one 0 1 (.buf .take)] rfl
  exact ⟨_, hreach, rfl, _, _, _, rfl, rfl, rfl⟩

end World

end Geario.Buffers
