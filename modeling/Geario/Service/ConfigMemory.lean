import Geario.Lib.Run
import Geario.Service.Config
/-!
# Memory of the shared configuration

Contexts count for nothing, so a storage is there only for as long as handles
hold it. That is enough if contexts are followed only then (`Respects`): the
counts are those of the handles, whatever is cloned, moved and dropped in whatever
order, and nothing is read after it was freed.
-/
open Lib List Option

namespace Geario.Service.Config

open Owner

namespace World

/-- Counts are exact, with `ss` and `ds` for handles that are being made or dropped. -/
structure Valid (w : World) (ss ds : List Nat) : Prop where
  storages : Counted w.storages (ss ++ w.owners.map Owner.storage)
  defaults : Counted w.defaults (ds ++ (w.mapping.map Entry.value ++ w.owners.filterMap Owner.arc))
  ctx {o : Owner} (h : o ∈ w.owners) : o.ctx = o.storage
  built {o : Owner} {c : Cell Storage} (h : o ∈ w.owners) (hb : o.built = true) (hc : w.storages[o.storage]? = some c) :
    c.val.building = false
  data {s : Nat} {c : Cell Storage} (h : w.storages[s]? = some c) {p : Nat × Nat} (hp : p ∈ c.val.data) : p.2 = s
  entry {e : Entry} {c : Cell Nat} (h : e ∈ w.mapping) (hc : w.defaults[e.value]? = some c) : c.val = e.storage
  home {v : Value} {t : Nat} (h : v ∈ w.values) (ht : v.home = some t) (hr : ¬ w.ended t) : ⟨.tls t, v.ctx⟩ ∈ w.owners
  safe : w.dangling = false

variable {w w' : World} {ss ds : List Nat} {s d t j : Nat} {o : Owner} {v : Value} {tp ctx : Nat}

lemma valid_init : Valid init [] [] :=
  ⟨Counted.nil, Counted.nil, nofun, nofun, nofun, nofun, nofun, rfl⟩

/-! ## Counts stay exact -/

section

variable (h : Valid w ss ds)
include h

lemma Valid.touch (hs : s ∈ ss ++ w.owners.map storage) : Valid (touch s w) ss ds :=
  { h with
    safe := by
      show (w.dangling || freed w.storages s) = false
      rw [h.safe, h.storages.alive hs]
      rfl }

lemma Valid.touch_default (hd : d ∈ ds ++ (w.mapping.map Entry.value ++ w.owners.filterMap arc)) :
    Valid (touch_default d w) ss ds :=
  { h with
    safe := by
      show (w.dangling || freed w.defaults d) = false
      rw [h.safe, h.defaults.alive hd]
      rfl }

lemma Valid.retain (hs : s ∈ ss ++ w.owners.map storage) : Valid (retain s w) (s :: ss) ds :=
  { h.touch hs with
    storages := h.storages.retain hs
    built := fun ho hb hc => by
      obtain ⟨c', hc', heq⟩ := val_of_retain hc
      exact heq ▸ h.built ho hb hc'
    data := fun hc p hp => by
      obtain ⟨c', hc', heq⟩ := val_of_retain hc
      exact h.data hc' (heq ▸ hp) }

lemma Valid.retain_default (hd : d ∈ ds ++ (w.mapping.map Entry.value ++ w.owners.filterMap arc)) :
    Valid (retain_default d w) ss (d :: ds) :=
  { h.touch_default hd with
    defaults := h.defaults.retain hd
    entry := fun he hc => by
      obtain ⟨c', hc', heq⟩ := val_of_retain hc
      exact heq ▸ h.entry he hc' }

end

lemma home_of_dying (h : v ∈ w.dying s) : v.home = none := by
  unfold dying at h
  split at h
  · split at h
    · obtain ⟨p, -, rfl⟩ := mem_map.1 h
      rfl
    · cases h
  · cases h

lemma home_of_dying_default (h : v ∈ w.dying_default d) : v.home = none := by
  unfold dying_default at h
  split at h
  · split at h
    · obtain rfl := mem_singleton.1 h
      rfl
    · cases h
  · cases h

lemma Valid.append (h : Valid w ss ds) {vs : List Value} (hvs : ∀ v ∈ vs, v.home = none) :
    Valid { w with values := w.values ++ vs } ss ds :=
  { h with
    home := fun hv ht => by
      rcases mem_append.1 hv with hv | hv
      · exact h.home hv ht
      · cases (hvs _ hv).symm.trans ht }

lemma Valid.release (h : Valid w (s :: ss) ds) : Valid (release s w) ss ds :=
  { (h.touch mem_cons_self).append fun _ => home_of_dying with
    storages := h.storages.release
    built := fun ho hb hc => by
      obtain ⟨c', hc', heq⟩ := val_of_release hc
      exact heq ▸ h.built ho hb hc'
    data := fun hc p hp => by
      obtain ⟨c', hc', heq⟩ := val_of_release hc
      exact h.data hc' (heq ▸ hp) }

lemma Valid.release_default (h : Valid w ss (d :: ds)) : Valid (release_default d w) ss ds :=
  { (h.touch_default mem_cons_self).append fun _ => home_of_dying_default with
    defaults := h.defaults.release
    entry := fun he hc => by
      obtain ⟨c', hc', heq⟩ := val_of_release hc
      exact heq ▸ h.entry he hc' }

/-! ## Handles -/

lemma Valid.push (h : Valid w (o.storage :: ss) (o.arc.toList ++ ds)) (hctx : o.ctx = o.storage)
    (hb : ∀ c, o.built → w.storages[o.storage]? = some c → c.val.building = false) : Valid (push o w) ss ds :=
  { h with
    storages := by
      refine h.storages.perm ?_
      show (o.storage :: (ss ++ w.owners.map storage)).Perm (ss ++ (w.owners ++ [o]).map storage)
      rw [map_append, ← append_assoc]
      exact (perm_append_singleton _ _).symm
    defaults := by
      refine h.defaults.perm ?_
      show (o.arc.toList ++ ds ++ (w.mapping.map Entry.value ++ w.owners.filterMap arc)).Perm
        (ds ++ (w.mapping.map Entry.value ++ (w.owners ++ [o]).filterMap arc))
      rw [filterMap_append, ← append_assoc (w.mapping.map _), ← append_assoc ds, append_assoc o.arc.toList]
      exact perm_append_comm
    ctx := fun ho => by
      rcases mem_append.1 ho with ho | ho
      · exact h.ctx ho
      · exact mem_singleton.1 ho ▸ hctx
    built := fun ho hbo hc => by
      rcases mem_append.1 ho with ho | ho
      · exact h.built ho hbo hc
      · obtain rfl := mem_singleton.1 ho
        exact hb _ hbo hc
    home := fun hv ht hr => mem_append_left _ (h.home hv ht hr) }

lemma Valid.take (h : Valid w ss ds) (hj : w.owners[j]? = some o) (htls : ∀ t, o.kind = .tls t → w.ended t) :
    Valid (take j w) (o.storage :: ss) (o.arc.toList ++ ds) := by
  have hperm := perm_eraseIdx hj
  exact { h with
    storages := by
      refine h.storages.perm ?_
      exact ((hperm.map storage).append_left ss).trans perm_middle
    defaults := by
      refine h.defaults.perm ?_
      have harcs : (w.owners.filterMap arc).Perm (o.arc.toList ++ (w.owners.eraseIdx j).filterMap arc) := by
        refine (hperm.filterMap arc).trans (.of_eq ?_)
        cases ho : o.arc <;> simp [ho]
      rw [← append_assoc ds, append_assoc o.arc.toList, ← append_assoc ds]
      exact (harcs.append_left _).trans (perm_append_comm_assoc _ _ _)
    ctx := fun ho => h.ctx (mem_of_mem_eraseIdx ho)
    built := fun ho => h.built (mem_of_mem_eraseIdx ho)
    home := fun hv ht hr => by
      rcases mem_cons.1 (hperm.mem_iff.1 (h.home hv ht hr)) with heq | hm
      · exact absurd (htls _ (heq ▸ rfl)) hr
      · exact hm }

lemma Valid.move {k : Kind} (k' : Kind) (h : Valid w ss ((Owner.mk k' s).arc.toList ++ ds)) (hj : w.owners[j]? = some ⟨k, s⟩)
    (hk : (Owner.mk k s).arc = none) (htls : ∀ t, k = .tls t → w.ended t) (hctx : (Owner.mk k' s).ctx = s)
    (hb : ∀ c, (Owner.mk k' s).built → w.storages[s]? = some c → c.val.building = false) :
    Valid (World.push ⟨k', s⟩ (World.take j w)) ss ds := by
  have ht := h.take hj htls
  rw [hk] at ht
  exact Valid.push ht hctx hb

section

variable (h : Valid w ss ds)
include h

lemma Valid.alloc {st : Storage} (hst : st.data = []) : Valid (alloc st w) (w.storages.length :: ss) ds :=
  { h with
    storages := h.storages.alloc st
    built := fun {o c} ho hb hc => by
      rcases at_of_append hc with hc | ⟨heq, -⟩
      · exact h.built ho hb hc
      · have hlt := h.storages.lt (mem_append_right ss (mem_map_of_mem ho))
        exact absurd heq (Nat.ne_of_lt hlt)
    data := fun hc p hp => by
      rcases at_of_append hc with hc | ⟨-, rfl⟩
      · exact h.data hc hp
      · rw [hst] at hp
        cases hp }

lemma Valid.put {f : Storage → Storage} (hb : ∀ st, st.building = false → (f st).building = false)
    (hd : ∀ st, (∀ p ∈ st.data, p.2 = s) → ∀ p ∈ (f st).data, p.2 = s) :
    Valid { w with storages := w.storages.modify s (Cell.put f) } ss ds :=
  { h with
    storages := h.storages.put f
    built := fun ho hbo hc => by
      rcases at_of_modify hc with ⟨heq, c', hc', rfl⟩ | ⟨-, hc⟩
      · exact hb _ (h.built ho hbo (heq ▸ hc'))
      · exact h.built ho hbo hc
    data := fun hc p hp => by
      rcases at_of_modify hc with ⟨rfl, c', hc', rfl⟩ | ⟨-, hc⟩
      · exact hd _ (fun p hp => h.data hc' hp) p hp
      · exact h.data hc hp }

lemma Valid.value (hv : ∀ t, v.home = some t → ⟨.tls t, v.ctx⟩ ∈ w.owners) : Valid (value v w) ss ds :=
  { h with
    home := fun {v' t} hv' ht hr => by
      rcases mem_append.1 hv' with hv' | hv'
      · exact h.home hv' ht hr
      · obtain rfl := mem_singleton.1 hv'
        exact hv t ht }

lemma Valid.value_drop (c : Nat) : Valid { w with values := w.values.eraseIdx c } ss ds :=
  { h with home := fun hv => h.home (mem_of_mem_eraseIdx hv) }

lemma Valid.unmapped {m : Nat} {e : Entry} (hm : w.mapping[m]? = some e) :
    Valid { w with mapping := w.mapping.eraseIdx m } ss (e.value :: ds) :=
  { h with
    defaults := by
      refine h.defaults.perm ?_
      have hperm := ((perm_eraseIdx hm).map Entry.value).append_right (w.owners.filterMap arc)
      exact (hperm.append_left ds).trans perm_middle
    entry := fun he => h.entry (mem_of_mem_eraseIdx he) }

end

lemma storage_mem (h : o ∈ w.owners) : o.storage ∈ [] ++ w.owners.map storage := mem_map_of_mem h

/-! ## Steps -/

lemma Valid.default_cfg (h : Valid w [] []) (t : Nat) :
    Valid (default_cfg t w).1 [] [] ∧ ⟨.tls t, (default_cfg t w).2⟩ ∈ (default_cfg t w).1.owners := by
  unfold World.default_cfg
  split
  case h_1 o ho =>
    have hkind : o.kind = .tls t := by simpa using find?_some ho
    obtain ⟨kind, s⟩ := o
    obtain rfl : kind = .tls t := hkind
    exact ⟨h, mem_of_find?_eq_some ho⟩
  case h_2 =>
    refine ⟨(h.alloc rfl).push rfl nofun, ?_⟩
    exact mem_append_right _ (mem_singleton_self _)

lemma Valid.touch_value (h : Valid w ss ds) (hs : o.storage ∈ ss ++ w.owners.map storage)
    (hd : ∀ d ∈ o.arc, d ∈ ds ++ (w.mapping.map Entry.value ++ w.owners.filterMap arc)) : Valid (touch_value o w) ss ds := by
  obtain ⟨kind, s⟩ := o
  cases kind with
  | cfg ctx arc =>
    cases arc with
    | none => exact h.touch hs
    | some d => exact h.touch_default (hd d rfl)
  | shared | tls | builder | adding | getting => exact h

lemma touch_value_owners (o : Owner) (w : World) : (touch_value o w).owners = w.owners := by
  obtain ⟨kind, s⟩ := o
  cases kind with
  | cfg ctx arc => cases arc <;> rfl
  | shared | tls | builder | adding | getting => rfl

lemma Valid.touch_own (h : Valid w [] []) (ho : o ∈ w.owners) : Valid (World.touch_value o w) [] [] := by
  refine h.touch_value (storage_mem ho) fun d hd => ?_
  exact mem_append_right (w.mapping.map Entry.value) (mem_filterMap.2 ⟨o, ho, hd⟩)

lemma Valid.clone (h : Valid w [] []) (hs : s ∈ [] ++ w.owners.map storage) : Valid (clone s w) [] [] :=
  (h.retain hs).push rfl nofun

lemma Valid.mapped (h : Valid w ss ds) (hm : w.mapped t s tp = some (d, ctx)) :
    ctx = s ∧ d ∈ w.mapping.map Entry.value := by
  obtain ⟨e, he, hc⟩ := of_bind hm
  obtain ⟨c, hdef, heq⟩ := of_map hc
  cases heq
  have hmem := mem_of_find?_eq_some he
  have hkey : e.thread = t ∧ e.storage = s ∧ e.tp = tp := by simpa using find?_some he
  exact ⟨(h.entry hmem hdef).trans hkey.2.1, mem_map_of_mem hmem⟩

lemma mem_of_lookup {data : List (Nat × Nat)} (h : data.lookup tp = some ctx) : (tp, ctx) ∈ data := by
  obtain ⟨before, after, rfl, -⟩ := lookup_eq_some_iff.1 h
  exact mem_append_right _ mem_cons_self

lemma Valid.get (h : Valid w [] []) (hs : s ∈ [] ++ w.owners.map storage) {tp : Nat} {context : Bool}
    (hb : context → w.building s = false) : Valid (get t s tp context w) [] [] := by
  have hr := (h.touch hs).retain hs
  unfold World.get
  dsimp only
  split
  case h_1 => exact h.touch hs
  case h_2 c hc =>
    have hc : w.storages[s]? = some c := hc
    split
    case isTrue hbuild =>
      split
      case isTrue hctx =>
        have hnot := hb hctx
        rw [World.building, hc] at hnot
        exact absurd (hnot.symm.trans hbuild) (by decide)
      case isFalse => exact h.touch hs
    case isFalse hbuild =>
      -- the assertion has passed, so a handle can come out
      have hbuilt : ∀ c, (World.retain s (World.touch s w)).storages[s]? = some c → c.val.building = false := by
        intro c1 hc1
        obtain ⟨c2, hc2, heq⟩ := val_of_retain hc1
        cases hc2.symm.trans hc
        rw [heq]
        exact Bool.eq_false_iff.2 hbuild
      split
      case h_1 ctx hdata =>
        have hctx : ctx = s := h.data hc (mem_of_lookup hdata)
        exact hr.push hctx fun c _ => hbuilt c
      case h_2 =>
        split
        case h_1 d ctx hm =>
          obtain ⟨rfl, hd⟩ := hr.mapped hm
          refine Valid.push (hr.retain_default ?_) rfl fun c _ => hbuilt c
          exact mem_append_left (w.owners.filterMap arc) hd
        case h_2 => exact hr.push rfl fun c _ => hbuilt c

lemma Valid.unmap (h : Valid w ss ds) (t s tp : Nat) : Valid (unmap t s tp w) ss ds := by
  unfold World.unmap
  split
  · exact h
  · split
    · exact h
    · exact (h.unmapped ‹_›).release_default

lemma unmap_owners (w : World) (t s tp : Nat) : (unmap t s tp w).owners = w.owners := by
  unfold unmap
  split
  · rfl
  · split <;> rfl

lemma unmap_storages (w : World) (t s tp : Nat) : (unmap t s tp w).storages = w.storages := by
  unfold unmap
  split
  · rfl
  · split <;> rfl

lemma Valid.map (h : Valid w ss ds) (t s tp : Nat) :
    Valid { w with defaults := w.defaults ++ [⟨1, 0, s⟩], mapping := w.mapping ++ [⟨t, s, tp, w.defaults.length⟩] } ss ds :=
  { h with
    defaults := by
      refine (h.defaults.alloc s).perm ?_
      rw [map_append, append_assoc (w.mapping.map _)]
      refine perm_middle.symm.trans (List.Perm.append_left ds ?_)
      exact perm_middle.symm
    entry := fun {e c} he hc => by
      rcases mem_append.1 he with he | he
      · have hlt := h.defaults.lt (mem_append_right ds (mem_append_left _ (mem_map_of_mem he)))
        rcases at_of_append hc with hc | ⟨heq, -⟩
        · exact h.entry he hc
        · exact absurd heq (Nat.ne_of_lt hlt)
      · obtain rfl := mem_singleton.1 he
        rcases at_of_append hc with hc | ⟨-, rfl⟩
        · exact absurd (at_lt hc) (Nat.lt_irrefl _)
        · rfl }

lemma Valid.get_default (h : Valid w [] []) {context : Bool} (hj : w.owners[j]? = some ⟨.getting t tp context, s⟩) :
    Valid (get_default j t s tp ctx true w) [] [] := by
  have hmem := mem_of_getElem? hj
  have hu := (h.touch (storage_mem hmem)).unmap t s tp
  have howners := unmap_owners (World.touch s w) t s tp
  have hstorages := unmap_storages (World.touch s w) t s tp
  show Valid (World.push _ (World.take j (World.retain_default (World.unmap t s tp (World.touch s w)).defaults.length _))) [] []
  generalize World.unmap t s tp (World.touch s w) = u at hu howners hstorages ⊢
  have hentry : (⟨t, s, tp, u.defaults.length⟩ : Entry) ∈ u.mapping ++ [⟨t, s, tp, u.defaults.length⟩] :=
    mem_append_right _ (mem_singleton_self _)
  have hr := (hu.map t s tp).retain_default (mem_append_left (u.owners.filterMap arc) (mem_map_of_mem hentry))
  have hj' : u.owners[j]? = some ⟨.getting t tp context, s⟩ := (congrArg (·[j]?) howners).trans hj
  refine Valid.move (.cfg s (some u.defaults.length)) hr hj' rfl nofun rfl fun c _ hc => ?_
  rw [hstorages] at hc
  exact h.built hmem rfl hc

lemma Valid.dropped (ht : Valid (World.take j w) [o.storage] (o.arc.toList ++ [])) (hctx : o.ctx = o.storage) :
    Valid (drop j o w) [] [] := by
  have htouch := ht.touch_value (o := o) mem_cons_self fun d hd =>
    mem_append_left _ (mem_append_left _ (mem_toList.2 hd))
  have hrel : Valid (World.release o.ctx (World.touch_value o (World.take j w))) [] (o.arc.toList ++ []) := by
    rw [hctx]
    exact htouch.release
  obtain ⟨kind, s⟩ := o
  cases kind with
  | cfg ctx arc =>
    cases arc with
    | none => exact hrel
    | some d => exact hrel.release_default
  | adding tp ctx => exact hrel.value nofun
  | shared | tls | builder | getting => exact hrel

section

variable (h : Valid w [] [])
include h

lemma Valid.drop (hj : w.owners[j]? = some o) (htls : ∀ t, o.kind = .tls t → w.ended t) :
    Valid (drop j o w) [] [] :=
  (h.take hj htls).dropped (h.ctx (mem_of_getElem? hj))

lemma Valid.added (hj : w.owners[j]? = some ⟨.adding tp ctx, s⟩) : Valid (added j s tp ctx true w) [] [] := by
  unfold World.added
  simp only [World.set_ctx, if_true]
  split
  · have hput := h.put (s := s) (f := insert tp s) (fun _ hb => hb) fun st hd p hp => by
      rcases mem_cons.1 hp with rfl | hp
      · rfl
      · exact hd p (mem_of_mem_filter hp)
    have hnone : ∀ v ∈ w.replaced s tp, v.home = none := by
      intro v hv
      unfold replaced at hv
      split at hv
      · obtain ⟨ctx, -, rfl⟩ := mem_map.1 hv
        rfl
      · cases hv
    exact Valid.move .builder (hput.append hnone) hj rfl nofun rfl nofun
  · exact Valid.dropped (o := ⟨.adding tp s, s⟩) (h.take (o := ⟨.adding tp ctx, s⟩) hj nofun) rfl

lemma Valid.build (hj : w.owners[j]? = some ⟨.builder, s⟩) : Valid (build j s w) [] [] := by
  unfold World.build
  split
  · have hput := h.put (s := s) (f := fun st => { st with building := false }) (fun _ _ => rfl) fun _ hd => hd
    exact Valid.move .shared hput hj rfl nofun rfl nofun
  · exact h.drop hj nofun

lemma Valid.held (hv : v ∈ w.values) (hheld : w.held v) : v.ctx ∈ [] ++ w.owners.map storage := by
  rcases Bool.or_eq_true_iff.1 hheld with hhome | hany
  · cases hhome' : v.home with
    | none =>
      rw [hhome'] at hhome
      cases hhome
    | some t =>
      rw [hhome'] at hhome
      have hr : w.running t := of_decide_eq_true hhome
      exact storage_mem (h.home hv hhome' fun he => by cases he.symm.trans hr)
  · obtain ⟨o, ho, heq⟩ := any_eq_true.1 hany
    exact of_decide_eq_true heq ▸ storage_mem ho

lemma Valid.building (ho : o ∈ w.owners) (hb : o.built) : w.building o.storage = false := by
  unfold World.building
  split
  · exact h.built ho hb ‹_›
  · rfl

lemma Valid.step {i : Step} (hok : w.Respects i) (hst : w.step i = some w') : Valid w' [] [] := by
  cases i with
  | spawn =>
    cases hst
    refine { h with home := fun hv ht hr => h.home hv ht fun he => hr ?_ }
    exact at_append he
  | exit t =>
    obtain ⟨hrun, rfl⟩ := of_ite hst
    refine { h with home := fun {v t'} hv ht hr => h.home hv ht fun he => hr ?_ }
    rcases eq_or_ne t t' with rfl | hne
    · exact at_set hrun false
    · exact (getElem?_set_ne hne).trans he
  | value t =>
    obtain ⟨-, rfl⟩ := of_ite hst
    obtain ⟨hd, htls⟩ := h.default_cfg t
    exact hd.value fun t' ht' => some.inj ht' ▸ htls
  | value_use c =>
    obtain ⟨v, hv, rfl⟩ := of_map hst
    exact h.touch (h.held (mem_of_getElem? hv) (hok v hv))
  | value_shared c =>
    obtain ⟨v, hv, rfl⟩ := of_map hst
    exact h.clone (h.held (mem_of_getElem? hv) (hok v hv))
  | value_get t c tp =>
    obtain ⟨-, hst⟩ := of_guard hst
    obtain ⟨v, hv, rfl⟩ := of_map hst
    obtain ⟨hheld, hb⟩ := hok v hv
    exact h.get (h.held (mem_of_getElem? hv) hheld) fun _ => hb
  | value_drop c =>
    obtain ⟨v, -, rfl⟩ := of_map hst
    exact h.value_drop c
  | shared_default t =>
    obtain ⟨-, rfl⟩ := of_ite hst
    obtain ⟨hd, htls⟩ := h.default_cfg t
    exact hd.clone (storage_mem htls)
  | new t =>
    obtain ⟨-, rfl⟩ := of_ite hst
    exact ((h.default_cfg t).1.alloc rfl).push rfl nofun
  | add j c tp =>
    simp only [World.step] at hst
    split at hst
    case h_1 s ctx home hj hc =>
      cases hst
      exact Valid.move (.adding tp ctx) (h.value_drop c) hj rfl nofun rfl nofun
    case h_2 => cases hst
  | added j stores =>
    obtain rfl : stores = true := hok
    simp only [World.step] at hst
    split at hst
    case h_1 tp ctx s hj =>
      cases hst
      exact h.added hj
    case h_2 => cases hst
  | build j =>
    simp only [World.step] at hst
    split at hst
    case h_1 s hj =>
      cases hst
      exact h.build hj
    case h_2 => cases hst
  | use j =>
    obtain ⟨o, hj, hst⟩ := of_bind hst
    obtain ⟨-, rfl⟩ := of_ite hst
    have ho := mem_of_getElem? hj
    rw [h.ctx ho]
    exact (h.touch_own ho).touch (touch_value_owners o w ▸ storage_mem ho)
  | shared j =>
    obtain ⟨o, hj, hst⟩ := of_bind hst
    obtain ⟨-, rfl⟩ := of_ite hst
    have ho := mem_of_getElem? hj
    rw [h.ctx ho]
    exact (h.touch_own ho).clone (touch_value_owners o w ▸ storage_mem ho)
  | get t j tp =>
    obtain ⟨o, hj, hst⟩ := of_bind hst
    obtain ⟨⟨hu, -⟩, rfl⟩ := of_ite hst
    have ho := mem_of_getElem? hj
    have howners := touch_value_owners o w
    rw [h.ctx ho]
    refine (h.touch_own ho).get (howners ▸ storage_mem ho) fun hctx => (h.touch_own ho).building (howners.symm ▸ ho) ?_
    obtain ⟨kind, s⟩ := o
    cases kind with
    | cfg | getting => rfl
    | adding => cases hok _ hj
    | shared => exact absurd rfl (of_decide_eq_true hctx)
    | tls | builder => cases hu
  | get_default j c stores =>
    obtain rfl : stores = true := hok
    simp only [World.step] at hst
    split at hst
    case h_1 t tp context s ctx home hj hc =>
      cases hst
      exact (h.value_drop c).get_default hj
    case h_2 => cases hst
  | get_panic j =>
    simp only [World.step] at hst
    split at hst
    case h_1 t tp context s hj =>
      cases hst
      cases context with
      | true => exact (h.take hj nofun).release
      | false => cases hok _ hj
    case h_2 => cases hst
  | drop j =>
    obtain ⟨o, hj, hst⟩ := of_bind hst
    obtain ⟨hd, rfl⟩ := of_ite hst
    refine h.drop hj fun t ht => ?_
    rw [droppable, ht] at hd
    exact of_decide_eq_true hd
  | mapping_drop m =>
    obtain ⟨e, hm, hst⟩ := of_bind hst
    obtain ⟨-, rfl⟩ := of_ite hst
    exact (h.unmapped hm).release_default

end

lemma valid_of_reach (h : Reach step Respects init w) : Valid w [] [] :=
  h.inv (Valid · [] []) valid_init fun _ _ _ hv hok hst => hv.step hok hst

/-- No context leads to a freed storage, the counts of storages and default values are those of their handles, and what
nothing holds any more was freed once. -/
theorem configuration_memory_safe (h : Reach step Respects init w) :
    w.dangling = false ∧
    (∀ s c, w.storages[s]? = some c →
      c.strong = w.owners.countP (fun o => o.storage = s) ∧ c.frees = if c.strong = 0 then 1 else 0) ∧
    ∀ d c, w.defaults[d]? = some c →
      c.strong = w.mapping.countP (fun e => e.value = d) + w.owners.countP (fun o => o.arc = some d) ∧
      c.frees = if c.strong = 0 then 1 else 0 := by
  have hv := valid_of_reach h
  refine ⟨hv.safe, fun s c hc => ⟨?_, hv.storages.frees hc⟩, fun d c hc => ⟨?_, hv.defaults.frees hc⟩⟩
  · rw [hv.storages.count hc, nil_append, count_eq_countP, countP_map]
    rfl
  · rw [hv.defaults.count hc, nil_append, count_append, count_filterMap, count_eq_countP, countP_map]
    refine congrArg (_ + ·) (countP_congr fun o _ => ?_)
    rw [beq_iff_eq, decide_eq_true_iff]

/-- A value goes into a storage, another type has its default there, and what is left when the handles are dropped
is the default storage. -/
theorem configuration_memory_safe_two :
    ∃ w, Reach step Respects init w ∧ w.storages.map Cell.frees = [0, 1] ∧ w.defaults.map Cell.frees = [1] ∧ w.dangling = false := by
  have hreach : Reach step Respects init _ := .of_steps
      [.spawn, .value 0, .value_shared 0, .drop 1, .new 0, .add 1 0 7, .added 1 true, .build 1, .get 0 1 7, .get 0 2 8, .value 0,
        .get_default 3 0 true, .spawn, .shared 3, .drop 1, .use 1, .drop 1, .get 1 2 7, .drop 2, .exit 0, .mapping_drop 0, .drop 2,
        .drop 1] rfl
  exact ⟨_, hreach, rfl, rfl, (configuration_memory_safe hreach).1⟩

/-- A value of a thread that has ended leads to its default storage; `inner` is dropped when `set_ctx` calls `get`; the
`Cfg` of a value that does not store its context lets go of another storage; and a clone stays when `T::default()` panics.
-/
theorem freed_while_held :
    ((Lib.run step (fun _ _ => True) init [.spawn, .spawn, .value 0, .exit 0, .drop 0, .value_use 0]).map dangling = some true) ∧
    ((Lib.run step (fun _ _ => True) init [.spawn, .value 0, .new 0, .add 1 0 7, .get 0 1 7, .drop 1]).map dangling = some true) ∧
    ((Lib.run step (fun _ _ => True) init
      [.spawn, .value 0, .new 0, .add 1 0 7, .added 1 false, .build 1, .get 0 1 7, .drop 2, .shared_default 0]).map dangling =
        some true) ∧
    (Lib.run step (fun _ _ => True) init [.spawn, .shared_default 0, .get 0 1 7, .get_panic 2, .drop 1]).map
      (fun w => (w.storages.map Cell.strong, w.owners.length)) = some ([2], 1) :=
  ⟨rfl, rfl, rfl, rfl⟩

end World

end Geario.Service.Config
