import Geario.Buffers.Refs
/-!
# The rules of the heap

What each primitive step does to the handles: the owner of a tail changes its
buffer or hands out its front, a handle is copied or given up, a buffer is
made or taken from the cache.
-/
open Lib List Multiset Function

namespace Geario.Buffers

open Heap Ref

variable {h : Heap} {A F B : Multiset Ref} {v n : Nat} {s s' : SharedVec} {r : Ref} {E : Panic → Prop}

/-! ## The owner of the tail -/

lemma Ref.Before.mono (hb : r.Before s) (hle : s.offset ≤ s'.offset) : r.Before s' := by
  cases r with
  | win w off len => exact hb.imp_left (le_trans · hle)
  | _ => exact hb

lemma Ref.Before.not_own (hb : r.Before s) (v : Nat) : r ≠ .own v := by
  rintro rfl
  exact hb

lemma Ref.Before.read_eq (hb : r.Before s) (ht : s'.mem.take s.offset = s.mem.take s.offset) : r.read s' = r.read s := by
  cases r with
  | win w off len =>
    rcases hb with hb | rfl
    · exact slice_eq_of_take ht hb
    · rw [read, read, slice_zero, slice_zero]
  | _ => exact hb.elim

lemma Keeps.owner (hs : Safe h ({.own v} + F)) (hv : h.vecs v = some s) (hwf : s'.Wf)
    (hlen : s'.mem.length = s.mem.length) (hrc : s'.ref_count = s.ref_count + B.card)
    (hfront : s.ref_count = 1 ∨ s.offset ≤ s'.offset ∧ s'.mem.take s.offset = s.mem.take s.offset)
    (hB : ∀ r ∈ B, r.ptr = v ∧ r.Within s' ∧ r.Before s') : Keeps h {.own v} F (h.put v s') ({.own v} + B) := by
  -- what is on the same buffer is a window before the owner's, and then the front has not moved
  have hbefore : Owned h ({.own v} + F) → ∀ r ∈ F, r.ptr = v →
      r.Before s ∧ s.offset ≤ s'.offset ∧ s'.mem.take s.offset = s.mem.take s.offset := fun ho r hr hp =>
    ⟨ho.frame_before hv hr hp, hfront.resolve_left fun h1 => hs.unique hv h1 r hr hp⟩
  refine ⟨?_, fun ho => ⟨fun w => ?_, fun {w t r} hm hw hr hp => ?_⟩, fun ho r hr => ?_, fun ho w hw => ?_,
    fun r hr hn => ⟨content_put_ne fun hp => hn (hp ▸ Multiset.mem_singleton_self _), ?_⟩⟩
  · refine hs.put hv (by simp) (by simp [ptr]) (fun r hr => ?_) hwf hlen ?_
    · rcases mem_add.1 hr with hr | hr
      · obtain rfl := Multiset.mem_singleton.1 hr
        exact ⟨rfl, trivial⟩
      · exact ⟨(hB r hr).1, (hB r hr).2.1⟩
    · rw [card_add, card_singleton, hrc]
      omega
  · have hzero : B.count (.own w) = 0 := count_eq_zero.2 fun hm => (hB _ hm).2.2.not_own w rfl
    have := ho.sole w
    rw [count_add] at this
    rw [count_add, count_add, hzero]
    omega
  · have hm : .own w ∈ ({.own v} : Multiset Ref) + F := by
      rcases mem_add.1 hm with hm | hm
      · rcases mem_add.1 hm with hm | hm
        · exact mem_add.2 (.inl hm)
        · exact absurd rfl ((hB _ hm).2.2.not_own w)
      · exact mem_add.2 (.inr hm)
    by_cases hwv : w = v
    · subst hwv
      cases vecs_put_self.symm.trans hw
      rcases mem_add.1 hr with hr | hr
      · rcases mem_add.1 hr with hr | hr
        · exact .inl (Multiset.mem_singleton.1 hr)
        · exact .inr (hB r hr).2.2
      · obtain ⟨hb, hle, -⟩ := hbefore ho r hr hp
        exact .inr (hb.mono hle)
    · rw [vecs_put, if_neg hwv] at hw
      rcases mem_add.1 hr with hr | hr
      · rcases mem_add.1 hr with hr | hr
        · obtain rfl := Multiset.mem_singleton.1 hr
          exact absurd hp.symm hwv
        · exact absurd (hp.symm.trans (hB r hr).1) hwv
      · exact ho.before hm hw (mem_add.2 (.inr hr)) hp
  · refine content_put hv fun hp => ?_
    obtain ⟨hb, -, ht⟩ := hbefore ho r hr hp
    exact hb.read_eq ht
  · refine room_put_ne ?_
    rintro rfl
    exact ho.not_mem hw
  · rw [mem_add, not_or]
    exact ⟨hn, fun hm => (hB _ hm).2.2.not_own _ rfl⟩

lemma SharedVec.Mutates.keeps (hm : s.Mutates s') (hs : Safe h ({.own v} + F)) (hv : h.vecs v = some s) :
    Keeps h {.own v} F (h.put v s') {.own v} := by
  have := Keeps.owner (B := 0) hs hv hm.wf hm.length hm.ref_count hm.front (by simp)
  rwa [add_zero] at this

/-! ## Copies of a handle -/

lemma Keeps.recount {A' : Multiset Ref} (hv : h.vecs r.ptr = some s) (hs : Safe (h.put r.ptr { s with ref_count := n }) (A' + F))
    (ho : Owned h ({r} + F) → Owned h (A' + F)) (hA : ∀ w, .own w ∉ A') :
    Keeps h {r} F (h.put r.ptr { s with ref_count := n }) A' := by
  have hsame : ∀ x : Ref, x.content (h.put r.ptr { s with ref_count := n }) = x.content h := fun x =>
    content_put hv fun _ => by cases x <;> rfl
  refine ⟨hs, fun hown => Owned.congr (ho hown) fun w t _ ht => ?_, fun _ x _ => hsame x, fun _ w hw => ?_,
    fun x _ _ => ⟨hsame x, hA _⟩⟩
  · rw [vecs_put] at ht
    split at ht
    next hwr => exact ⟨s, hwr ▸ hv, (Option.some.inj ht) ▸ rfl⟩
    · exact ⟨t, ht, rfl⟩
  · by_cases hwr : w = r.ptr
    · subst hwr
      rw [room_eq vecs_put_self, room_eq hv]
    · exact room_put_ne hwr

lemma Keeps.retain (hs : Safe h ({r} + F)) (hr : ∀ w, r ≠ .own w) (hv : h.vecs r.ptr = some s) :
    Keeps h {r} F (h.put r.ptr { s with ref_count := s.ref_count + 1 }) ({r} + {r}) := by
  have hwf := hs.wf hv
  have hmem : ∀ {x}, x ∈ ({r} : Multiset Ref) + {r} → x = r := fun {x} hx => by simpa using hx
  have hwithin : r.Within s := by
    obtain ⟨t, ht, hw⟩ := hs.within (r := r) (by simp)
    exact Option.some.inj (hv.symm.trans ht) ▸ hw
  refine Keeps.recount hv ?_ (fun ho => ?_) fun w hm => hr _ (hmem hm).symm
  · refine hs.put hv (by simp) (by simp) (fun x hx => ?_) { hwf with } rfl ?_
    · obtain rfl := hmem hx
      exact ⟨rfl, by cases x <;> exact hwithin⟩
    · rw [card_add, card_singleton]
  · refine ho.replace (fun x hx => hmem hx ▸ hr) fun x hx ho' t ht => ?_
    obtain rfl := hmem hx
    exact (ho.before (mem_add.2 (.inr ho')) ht (mem_add.2 (.inl (Multiset.mem_singleton_self _))) rfl).resolve_left (hr _)

lemma Keeps.convert {r' : Ref} (hs : Safe h ({r} + F)) (hv : h.vecs r.ptr = some s) (hp : r'.ptr = r.ptr)
    (hw : r.Within s → r'.Within s) (ho : ∀ w, r' ≠ .own w) (hb : r.Before s → r'.Before s) :
    Keeps h {r} F h {r'} := by
  refine ⟨?_, fun hown => ?_, fun _ _ _ => rfl, fun _ _ _ => rfl,
    fun x _ _ => ⟨rfl, fun hm => ho _ (Multiset.mem_singleton.1 hm).symm⟩⟩
  · refine hs.convert hv (by simp) (by simp) (fun x hx => ?_) (by simp)
    obtain rfl := Multiset.mem_singleton.1 hx
    obtain ⟨t, ht, htw⟩ := hs.within (r := r) (by simp)
    exact ⟨hp, hw (Option.some.inj (hv.symm.trans ht) ▸ htw)⟩
  · refine hown.replace (fun x hx => Multiset.mem_singleton.1 hx ▸ ho) fun x hx hF t ht => ?_
    obtain rfl := Multiset.mem_singleton.1 hx
    rw [hp] at hF ht
    cases hv.symm.trans ht
    rcases hown.before (Multiset.mem_add.2 (.inr hF)) hv (Multiset.mem_add.2 (.inl (Multiset.mem_singleton_self r))) rfl
      with he | he
    · rw [he] at hown
      exact absurd hF hown.not_mem
    · exact hb he

/-! ## Giving a handle up -/

lemma Heap.cached_update {size : BytePageSize} (hu : size ≠ .Unset) (l : List Nat) (w : Nat) :
    (h.set_cache size l).cached w + (h.cache size).count w = h.cached w + l.count w := by
  cases size <;>
    simp only [cached, set_cache, BytePageSize.slots, List.map_cons, List.map_nil, List.sum_cons, List.sum_nil, Function.update_apply,
      reduceCtorEq, if_true, if_false] <;> first | omega | exact absurd rfl hu

lemma Owned.of_add (ho : Owned h (A + F)) : Owned h F := by
  have h0 : Owned h (0 + F) := ho.replace (by simp) (by simp)
  rwa [zero_add] at h0

lemma Keeps.last {h' : Heap} (hlast : ∀ x ∈ F, x.ptr ≠ r.ptr)
    (hsafe : Safe h' F) (hother : ∀ w, w ≠ r.ptr → h'.vecs w = h.vecs w) : Keeps h {r} F h' 0 := by
  have hvecs : ∀ x ∈ F, h'.vecs x.ptr = h.vecs x.ptr := fun x hx => hother _ (hlast x hx)
  have hsame : ∀ x ∈ F, x.content h' = x.content h := fun x hx => by rw [content, hvecs x hx, content]
  refine ⟨by rwa [zero_add], fun ho => ?_, fun _ => hsame, fun _ w hw => ?_, fun x hx _ => ⟨hsame x hx, by simp⟩⟩
  · rw [zero_add]
    exact Owned.congr ho.of_add fun w t hw ht => ⟨t, (hvecs _ hw).symm.trans ht, rfl⟩
  · rw [Heap.room, show h'.vecs w = h.vecs w from hvecs _ hw, Heap.room]

lemma Safe.free (hs : Safe h ({r} + F)) (hlast : ∀ x ∈ F, x.ptr ≠ r.ptr) : Safe (h.free r.ptr) F := by
  rw [← zero_add F]
  refine hs.change (by simp) (by simp) le_rfl (fun w hw => ⟨update_of_ne hw .., rfl⟩) (fun t ht => ?_)
    (fun x hx hp => absurd hp (hlast x (by simpa using hx))) fun size w hw => ?_
  · cases (update_self ..).symm.trans ht
  · rw [if_neg]
    · exact hw
    · rintro rfl; exact hs.not_cached (by simp) size hw

lemma Safe.recycle (hs : Safe h ({r} + F)) (hv : h.vecs r.ptr = some s) (h1 : s.ref_count = 1) (hu : s.size ≠ .Unset) :
    Safe ((h.put r.ptr (s.reset s.mem.length)).set_cache s.size (r.ptr :: h.cache s.size)) F := by
  have hwf := hs.wf hv
  have hlast := hs.unique hv h1
  have hdata : METADATA_SIZE ≤ s.mem.length := by have := hwf.window; have := hwf.data; omega
  have hcount := fun w => cached_update (h := h) hu (r.ptr :: h.cache s.size) w
  rw [← zero_add F]
  refine hs.change (by simp) (by simp) le_rfl (fun w hw => ⟨vecs_put_ne hw, ?_⟩) (fun t ht => ?_)
    (fun x hx hp => absurd hp (hlast x (by simpa using hx))) fun size w hw => ?_
  · have hc := hcount w
    rw [List.count_cons_of_ne (Ne.symm hw)] at hc
    exact add_right_cancel hc
  · cases vecs_put_self.symm.trans ht
    refine ⟨hs.fresh hv, ⟨le_rfl, Nat.add_sub_cancel' hdata, (zero_add _).symm, hwf.small, fun hn => absurd rfl hn⟩, ?_⟩
    have hold := hs.counted hv
    have hc := hcount r.ptr
    rw [countP_add, Safe.countP_self (by simp), card_singleton, h1] at hold
    rw [List.count_cons_self] at hc
    change 1 = 0 + _ + (h.set_cache _ _).cached _
    omega
  · change w ∈ Function.update h.cache s.size (r.ptr :: h.cache s.size) size at hw
    rw [update_apply] at hw
    split at hw <;> split
    next hz _ => exact ⟨hz ▸ hu, _, vecs_put_self, rfl, rfl, rfl, hz ▸ hwf.tagged hu, rfl⟩
    next hz hwr => exact hz ▸ (mem_cons.1 hw).resolve_left hwr
    next hwr => exact absurd (hwr ▸ hw) (hs.not_cached (by simp) size)
    · exact hw

lemma release_spec (hs : Safe h ({r} + F)) :
    Outcome (release_shared_vec r.ptr) h E fun _ h' =>
      Keeps h {r} F h' 0 ∧ ∀ w, w ≠ r.ptr → h'.vecs w = h.vecs w := by
  obtain ⟨s, hv, hwf, -⟩ := hs.live (r := r) (by simp)
  have hw := hwf.window
  have hsm := hwf.small
  simp only [release_shared_vec, outcome_bind]
  rw [outcome_deref hv, outcome_get]
  have hc := hs.counted hv
  rw [countP_add, Safe.countP_self (by simp), card_singleton] at hc
  by_cases h1 : s.ref_count = 1
  · have hlast := hs.unique hv h1
    rw [if_neg (by simpa using h1)]
    simp only [add_u32, outcome_bind]
    rw [hw, if_pos hsm, outcome_pure]
    split
    next hu =>
      exact ⟨Keeps.last hlast (hs.recycle hv h1 hu.1) fun w => vecs_put_ne, fun w => vecs_put_ne⟩
    · rw [if_neg (by simp), outcome_set]
      have hother : ∀ w, w ≠ r.ptr → (h.free r.ptr).vecs w = h.vecs w := fun w hw => update_of_ne hw ..
      exact ⟨Keeps.last hlast (hs.free hlast) hother, hother⟩
  · rw [if_pos h1, outcome_set]
    refine ⟨Keeps.recount hv ?_ (fun ho => ?_) (by simp), fun w => vecs_put_ne⟩
    · refine hs.put hv (by simp) (by simp) (by simp) { hwf with } rfl ?_
      rw [card_singleton, card_zero]
      dsimp only
      omega
    · rw [zero_add]
      exact ho.of_add

/-! ## New buffers -/

section Create

variable {size : BytePageSize} {cap : Nat} {src : List UInt8}

lemma SharedVec.length_init (hsrc : src.length ≤ cap) : (init size cap src).mem.length = METADATA_SIZE + cap := by
  exact (length_splice (by rw [length_replicate]; omega)).trans length_replicate

lemma SharedVec.init_wf (hfit : METADATA_SIZE + cap < 2 ^ 32) (hsrc : src.length ≤ cap)
    (htag : size ≠ .Unset → cap = size.capacity) : (init size cap src).Wf := by
  have hlen : (init size cap src).mem.length = METADATA_SIZE + cap := length_init hsrc
  have hc : cap % 2 ^ 32 = cap := Nat.mod_eq_of_lt (by omega)
  refine ⟨le_refl _, ?_, ?_, hlen ▸ hfit, fun hu => ?_⟩
  · rw [hlen]
    exact congrArg (METADATA_SIZE + ·) hc
  · change cap % 2 ^ 32 = src.length % 2 ^ 32 + (cap % 2 ^ 32 - src.length % 2 ^ 32)
    omega
  · rw [hlen, htag hu]
    rfl

lemma SharedVec.init_as_ref (hl : src.length < 2 ^ 32) : (init size cap src).as_ref = src := by
  change slice (splice _ _ _) METADATA_SIZE (src.length % 2 ^ 32) = src
  rw [Nat.mod_eq_of_lt hl]
  exact slice_splice_self (by rw [length_replicate]; omega)

lemma Keeps.fresh {h' : Heap} (hF : ∀ x ∈ F, x.ptr ≠ r.ptr) (hsafe : Safe h' ({r} + F))
    (hother : ∀ w, w ≠ r.ptr → h'.vecs w = h.vecs w) : Keeps h 0 F h' {r} := by
  have hvecs : ∀ x ∈ F, h'.vecs x.ptr = h.vecs x.ptr := fun x hx => hother _ (hF x hx)
  have hsame : ∀ x ∈ F, x.content h' = x.content h := fun x hx => by rw [content, hvecs x hx, content]
  refine ⟨hsafe, fun ho => ?_, fun _ => hsame, fun _ w hw => ?_, fun x hx _ => ⟨hsame x hx, fun hm => ?_⟩⟩
  · rw [zero_add] at ho
    refine ⟨fun w => ?_, fun {w t x} hm ht hx hxp => ?_⟩
    · rw [count_add, Multiset.count_singleton]
      have := ho.sole w
      split
      next hwr => rw [count_eq_zero.2 fun hm => hF _ hm (congrArg ptr hwr)]
      · omega
    · by_cases hwr : w = r.ptr
      · -- at the new address there is only the new handle
        have hnew : ∀ y ∈ {r} + F, y.ptr = w → y = r := fun y hy hyp => by
          rcases mem_add.1 hy with hy | hy
          · exact Multiset.mem_singleton.1 hy
          · exact absurd (hyp.trans hwr) (hF y hy)
        exact .inl ((hnew x hx hxp).trans (hnew _ hm rfl).symm)
      · have hold : ∀ y ∈ {r} + F, y.ptr = w → y ∈ F := fun y hy hyp =>
          (mem_add.1 hy).resolve_left fun hy =>
            hwr (hyp.symm.trans (congrArg ptr (Multiset.mem_singleton.1 hy)))
        exact ho.before (hold _ hm rfl) (hother w hwr ▸ ht) (hold x hx hxp) hxp
  · rw [Heap.room, show h'.vecs w = h.vecs w from hvecs _ hw, Heap.room]
  · have hp := congrArg ptr (Multiset.mem_singleton.1 hm)
    exact hF x hx hp

section

variable (hs : Safe h F)
include hs

lemma Keeps.alloc (hwf : s.Wf) (h1 : s.ref_count = 1) (hp : r.ptr = h.next) (hw : r.Within s) :
    Keeps h 0 F (h.alloc s) {r} := by
  have hvecs : ∀ {w}, (h.alloc s).vecs w = if w = h.next then some s else h.vecs w := update_apply ..
  have hF : ∀ x ∈ F, x.ptr ≠ h.next := fun x hx => by
    obtain ⟨t, ht, -⟩ := hs.within hx
    exact ne_of_lt (hs.fresh ht)
  have hcache : h.cached h.next = 0 := by
    refine Nat.eq_zero_of_not_pos fun hpos => ?_
    obtain ⟨x, hx, hxp⟩ := List.sum_pos_iff_exists_pos_nat.1 hpos
    obtain ⟨size, -, rfl⟩ := mem_map.1 hx
    obtain ⟨-, t, ht, -⟩ := hs.cached (count_pos_iff.1 hxp)
    exact lt_irrefl _ (hs.fresh ht)
  have hsafe := (zero_add F).symm ▸ hs
  refine Keeps.fresh (fun x hx => hp ▸ hF x hx) (hsafe.change (v := h.next) (by simp) (by simpa using hp) (Nat.le_succ _)
    (fun w hw => ⟨hvecs.trans (if_neg hw), rfl⟩) (fun t ht => ?_) (fun x hx hxp => ⟨s, hvecs.trans (if_pos rfl), ?_⟩)
    fun size w hw => ?_) fun w hw => hvecs.trans (if_neg (hp ▸ hw))
  · cases (hvecs.trans (if_pos rfl)).symm.trans ht
    refine ⟨Nat.lt_succ_self _, hwf, ?_⟩
    rw [countP_eq_zero.2 hF, card_singleton, h1]
    change 1 = 1 + 0 + h.cached h.next
    omega
  · rcases mem_add.1 hx with hx | hx
    · exact Multiset.mem_singleton.1 hx ▸ hw
    · exact absurd hxp (hF x hx)
  · obtain ⟨-, t, ht, -⟩ := hs.cached hw
    rw [if_neg (ne_of_lt (hs.fresh ht))]
    exact hw

section

variable (hfit : METADATA_SIZE + cap < 2 ^ 32) (hsrc : src.length ≤ cap) (htag : size ≠ .Unset → cap = size.capacity)
include hfit hsrc htag

lemma create_spec :
    Outcome (SharedVec.create size cap src) h E fun v h' =>
      h.vecs v = none ∧ h'.vecs v = some (.init size cap src) ∧
        ∀ r : Ref, r.ptr = v → r.Within (.init size cap src) → Keeps h 0 F h' {r} := by
  have hmax : ¬ LAYOUT_MAX < METADATA_SIZE + cap := by rw [LAYOUT_MAX]; omega
  simp only [SharedVec.create, outcome_bind, outcome_get]
  rw [if_neg hmax, if_neg (by rw [Nat.mod_eq_of_lt (by omega), Nat.mod_eq_of_lt (by omega)]; omega), if_neg (by omega)]
  have hnew : h.vecs h.next = none := by
    rcases hv : h.vecs h.next with _ | t
    · rfl
    · exact absurd (hs.fresh hv) (lt_irrefl _)
  exact ⟨hnew, update_self .., fun r hp hw => Keeps.alloc hs (SharedVec.init_wf hfit hsrc htag) rfl hp hw⟩

lemma create_own_spec :
    Outcome (SharedVec.create size cap src) h E fun v h' =>
      h.vecs v = none ∧ Keeps h 0 F h' {.own v} ∧ content h' (.own v) = src ∧ h'.room v = cap - src.length := by
  refine (create_spec hs hfit hsrc htag).mono fun v h' ⟨hnew, hv, hk⟩ => ⟨hnew, hk _ rfl trivial, ?_, ?_⟩
  · rw [content_own hv]
    exact SharedVec.init_as_ref (by omega)
  · rw [room_eq hv]
    change cap % 2 ^ 32 - src.length % 2 ^ 32 = _
    rw [Nat.mod_eq_of_lt (by omega), Nat.mod_eq_of_lt (by omega)]

end

lemma Keeps.reuse {rest : List Nat} (hc : h.cache size = v :: rest) (hv : h.vecs v = some s) :
    Keeps h 0 F ((h.set_cache size rest).put v { s with size := size }) {.own v} := by
  obtain ⟨hu, t, ht, hsp⟩ := hs.cached (hc ▸ List.mem_cons_self : v ∈ h.cache size)
  cases hv.symm.trans ht
  have hwf := hs.wf hv
  have hcount := fun w => cached_update (h := h) hu rest w
  rw [hc] at hcount
  have hrc := hs.counted hv
  have hcv := hcount v
  rw [List.count_cons_self] at hcv
  rw [hsp.ref_count] at hrc
  have hF : ∀ x ∈ F, x.ptr ≠ v := fun x hx hp => by
    have : 0 < F.countP (·.ptr = v) := hp ▸ Safe.countP_pos hx
    omega
  have hvecs : ∀ {w}, ((h.set_cache size rest).put v { s with size := size }).vecs w =
      if w = v then some { s with size := size } else h.vecs w := vecs_put
  have hsafe := (zero_add F).symm ▸ hs
  refine Keeps.fresh (r := .own v) hF (hsafe.change (v := v) (by simp) (by simp [ptr]) le_rfl
    (fun w hw => ⟨hvecs.trans (if_neg hw), ?_⟩) (fun t ht => ?_) (fun x hx hxp => ⟨_, hvecs.trans (if_pos rfl), ?_⟩)
    fun size' w hw => ?_) fun w hw => hvecs.trans (if_neg hw)
  · have hcw := hcount w
    rw [List.count_cons_of_ne (Ne.symm hw)] at hcw
    exact Nat.add_right_cancel hcw
  · cases (hvecs.trans (if_pos rfl)).symm.trans ht
    refine ⟨hs.fresh hv, { hwf with tagged := fun _ => hsp.length }, ?_⟩
    change s.ref_count = 1 + _ + (h.set_cache size rest).cached v
    rw [hsp.ref_count]
    omega
  · rcases Multiset.mem_add.1 hx with hx | hx
    · exact Multiset.mem_singleton.1 hx ▸ trivial
    · exact absurd hxp (hF x hx)
  · have hold : w ∈ h.cache size' := by
      change w ∈ Function.update h.cache size rest size' at hw
      rw [Function.update_apply] at hw
      split at hw
      next hz =>
        rw [hz, hc]
        exact List.mem_cons_of_mem _ hw
      · exact hw
    rw [if_neg]
    · exact hold
    · -- it was in the cache once only
      rintro rfl
      have hpos : 0 < (h.set_cache size rest).cached w := Safe.cached_pos hw (hs.cached hold).1
      omega

lemma sized_spec (hu : size ≠ .Unset) :
    Outcome (StorageVec.sized size) h E fun v h' =>
      Keeps h 0 F h' {.own v} ∧ content h' (.own v) = [] ∧ h'.room v = size.capacity := by
  simp only [StorageVec.sized, outcome_bind, outcome_get, if_neg hu]
  cases hc : h.cache size with
  | nil =>
    refine (create_own_spec hs ?_ (Nat.zero_le _) fun _ => rfl).mono fun v h' ⟨_, hk⟩ => hk
    have := size.capacity_le
    rw [METADATA_SIZE]
    omega
  | cons v rest =>
    obtain ⟨-, s, hv, hsp⟩ := hs.cached (hc ▸ mem_cons_self : v ∈ h.cache size)
    have hwf := hs.wf hv
    have hw := hwf.window
    have hr := hwf.room
    rw [hsp.length, hsp.offset] at hw
    rw [hsp.len] at hr
    simp only [outcome_bind, outcome_set, outcome_pure]
    rw [outcome_update (show (h.set_cache size rest).vecs v = some s from hv), outcome_modify]
    refine ⟨Keeps.reuse hs hc hv, ?_, ?_⟩
    · rw [content_own vecs_put_self]
      change slice s.mem s.offset s.len = []
      rw [hsp.len, slice_zero]
    · rw [room_eq vecs_put_self]
      change s.remaining = size.capacity
      omega

end

end Create

end Geario.Buffers
