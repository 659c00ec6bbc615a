import Geario.Wheel.Timer
/-!
# Buckets and timers point at each other

A timer in the wheel carries its slot, a bucket and a key in that bucket's slab;
the bucket holds the timer's number under that key; and bit `j` of
`occupied[lvl]` says whether bucket `lvl * 64 + j` holds anything. `Linked`
states the three facts for an arbitrary assignment of slots, because in the
middle of an operation the buckets are already changed while the timer still
carries its old slot. Every operation on the wheel is then described by what it
does to the assignment.
-/
open Lib List Option Function

namespace Geario.Wheel

open TimerEntry

/-! ## Occupied bits -/

lemma bit_getLsbD {i j : Nat} (hj : j < 64) : (1#64 <<< j).getLsbD i = decide (i = j) := by
  rw [← BitVec.twoPow_eq, BitVec.getLsbD_twoPow, decide_eq_true hj, Bool.true_and, decide_eq_decide]
  exact eq_comm

lemma occupied_set (o : Nat → BitVec 64) {idx lvl j : Nat} (hj : j < 64) :
    (update o (idx / 64) (o (idx / 64) ||| 1#64 <<< (idx % 64)) lvl).getLsbD j ↔
      (lvl * 64 + j = idx ∨ (o lvl).getLsbD j) := by
  have hm : idx % 64 < 64 := Nat.mod_lt _ (by omega)
  by_cases h : lvl = idx / 64
  · subst h
    rw [update_self, BitVec.getLsbD_or, Bool.or_eq_true, bit_getLsbD hm, decide_eq_true_iff]
    have : j = idx % 64 ↔ idx / 64 * 64 + j = idx := by omega
    rw [this, or_comm]
  · rw [update_of_ne h]
    have : lvl * 64 + j ≠ idx := by omega
    simp [this]

lemma occupied_clear (o : Nat → BitVec 64) {idx lvl j : Nat} (hj : j < 64) :
    (update o (idx / 64) (o (idx / 64) &&& ~~~(1#64 <<< (idx % 64))) lvl).getLsbD j ↔
      (lvl * 64 + j ≠ idx ∧ (o lvl).getLsbD j) := by
  have hm : idx % 64 < 64 := Nat.mod_lt _ (by omega)
  by_cases h : lvl = idx / 64
  · subst h
    rw [update_self, BitVec.getLsbD_and, BitVec.getLsbD_not, Bool.and_eq_true, bit_getLsbD hm,
      decide_eq_true hj, Bool.true_and, Bool.not_eq_true', decide_eq_false_iff_not]
    have : ¬ j = idx % 64 ↔ idx / 64 * 64 + j ≠ idx := by omega
    rw [this, and_comm]
  · rw [update_of_ne h]
    have : lvl * 64 + j ≠ idx := by omega
    simp [this]

/-! ## Slots -/

/-- The bucket a timer is in and its key there, for the timers in the wheel. -/
abbrev Slots := Nat → Option (Nat × Nat)

def TimerEntry.slot (e : TimerEntry) : Option (Nat × Nat) := e.bucket.map (·, e.bucket_entry)

def TimerMod.slot (m : TimerMod) : Slots := fun h => (m.timers.get h).bind TimerEntry.slot

/-- Buckets and occupied words agree with an assignment of slots. -/
structure Linked (buckets : Nat → Bucket) (occupied : Nat → BitVec 64) (slot : Slots) : Prop where
  lvl : ∀ idx, (buckets idx).lvl = idx / 64
  bit : ∀ idx, (buckets idx).bit = 1#64 <<< (idx % 64)
  bit_n : ∀ idx, (buckets idx).bit_n = ~~~(1#64 <<< (idx % 64))
  entries : ∀ {idx k h}, (buckets idx).entries.get k = some h ↔ slot h = some (idx, k)
  occupied : ∀ {lvl j}, j < 64 → ((occupied lvl).getLsbD j = true ↔ (buckets (lvl * 64 + j)).entries.is_empty = false)

/-- The wheel agrees with the slots its timers carry. -/
def TimerMod.Wired (m : TimerMod) : Prop := Linked m.buckets m.occupied m.slot

namespace Linked

variable {b : Nat → Bucket} {o o' : Nat → BitVec 64} {slot slot' : Slots} {idx k h : Nat}

section

variable (hl : Linked b o slot)
include hl

lemma set_bucket (es : Slab Nat) (hes : ∀ {k h}, es.get k = some h ↔ slot' h = some (idx, k))
    (hother : ∀ {j k h}, j ≠ idx → (slot' h = some (j, k) ↔ slot h = some (j, k)))
    (hocc : ∀ {lvl j}, j < 64 → ((o' lvl).getLsbD j ↔
      if lvl * 64 + j = idx then es.is_empty = false else (o lvl).getLsbD j)) :
    Linked (update b idx { b idx with entries := es }) o' slot' where
  lvl j := by
    by_cases h : j = idx
    · subst h; rw [update_self]; exact hl.lvl j
    · rw [update_of_ne h]; exact hl.lvl j
  bit j := by
    by_cases h : j = idx
    · subst h; rw [update_self]; exact hl.bit j
    · rw [update_of_ne h]; exact hl.bit j
  bit_n j := by
    by_cases h : j = idx
    · subst h; rw [update_self]; exact hl.bit_n j
    · rw [update_of_ne h]; exact hl.bit_n j
  entries {j k h} := by
    by_cases hj : j = idx
    · subst hj; rw [update_self]; exact hes
    · rw [update_of_ne hj, hother hj]; exact hl.entries
  occupied {lvl j} hj := by
    rw [hocc hj]
    split
    · rename_i he; rw [he, update_self]
    · rename_i he; rw [update_of_ne he]; exact hl.occupied hj

lemma link (hh : slot h = none) (hk : (b idx).entries.get k = none) :
    Linked (update b idx { b idx with entries := (b idx).entries.insert k h })
      (update o (b idx).lvl (o (b idx).lvl ||| (b idx).bit)) (update slot h (some (idx, k))) := by
  apply hl.set_bucket
  · intro k' h'
    rw [Slab.get_insert, update_apply]
    by_cases hk' : k' = k <;> by_cases hh' : h' = h
    · simp [hk', hh']
    · simp only [hk', hh', if_true, if_false, some.injEq]
      exact ⟨fun e => absurd e.symm hh', fun e => absurd (hl.entries.2 e) (by simp [hk])⟩
    · simp only [hk', hh', if_true, if_false, some.injEq, Prod.mk.injEq, true_and]
      exact ⟨fun e => absurd (hl.entries.1 e) (by simp [hh]), fun e => absurd e.symm hk'⟩
    · simp only [hk', hh', if_false]
      exact hl.entries
  · intro j k' h' hj
    rw [update_apply]
    split
    next e =>
      subst e
      simp [hh, Ne.symm hj]
    · rfl
  · intro lvl j hj
    rw [hl.lvl, hl.bit, occupied_set o hj]
    split
    next he =>
      simp only [he, true_or, true_iff]
      exact Slab.is_empty_false_iff.2 ⟨k, h, Slab.get_insert_self _ _ _⟩
    next he => simp [he]

lemma clear_occupied (es : Slab Nat)
    (hne : es.is_empty = false → (b idx).entries.is_empty = false) {lvl j : Nat} (hj : j < 64) :
    ((if es.is_empty then update o (b idx).lvl (o (b idx).lvl &&& (b idx).bit_n) else o) lvl).getLsbD j ↔
      if lvl * 64 + j = idx then es.is_empty = false else (o lvl).getLsbD j := by
  by_cases he : es.is_empty = true
  · rw [if_pos he, hl.lvl, hl.bit_n, occupied_clear o hj]
    by_cases hi : lvl * 64 + j = idx
    · simp [hi, he]
    · simp [hi]
  · rw [if_neg he]
    by_cases hi : lvl * 64 + j = idx
    · rw [if_pos hi, hl.occupied hj, hi, hne (Bool.eq_false_iff.2 he)]
      simp [he]
    · rw [if_neg hi]

lemma unlink (hh : slot h = some (idx, k)) :
    Linked (update b idx { b idx with entries := (b idx).entries.remove k })
      (if ((b idx).entries.remove k).is_empty then update o (b idx).lvl (o (b idx).lvl &&& (b idx).bit_n) else o)
      (update slot h none) := by
  have hget := hl.entries.2 hh
  apply hl.set_bucket
  · intro k' h'
    rw [Slab.get_remove, update_apply]
    by_cases hk' : k' = k <;> by_cases hh' : h' = h
    · simp [hk', hh']
    · simp only [hk', hh', if_true, if_false]
      refine ⟨fun e => by simp at e, fun e => absurd (hl.entries.2 e) ?_⟩
      rw [hget, some.injEq]
      exact Ne.symm hh'
    · simp only [hk', hh', if_true, if_false]
      refine ⟨fun e => absurd (hl.entries.1 e) ?_, fun e => by simp at e⟩
      rw [hh]
      simp [Ne.symm hk']
    · simp only [hk', hh', if_false]
      exact hl.entries
  · intro j k' h' hj
    rw [update_apply]
    split
    next e =>
      subst e
      simp [hh, Ne.symm hj]
    · rfl
  · intro lvl j hj
    exact hl.clear_occupied _ (fun _ => Slab.is_empty_false_iff.2 ⟨k, h, hget⟩) hj

lemma drain (idx : Nat) :
    Linked (update b idx { b idx with entries := .empty })
      (update o (b idx).lvl (o (b idx).lvl &&& (b idx).bit_n))
      (fun h => (slot h).filter (·.1 ≠ idx)) := by
  apply hl.set_bucket
  · intro k' h'
    simp [filter_eq_some_iff]
  · intro j k' h' hj
    simp only [filter_eq_some_iff, decide_eq_true_iff]
    exact ⟨fun h => h.1, fun h => ⟨h, hj⟩⟩
  · intro lvl j hj
    exact hl.clear_occupied .empty nofun hj

end

end Linked

/-! ## Operations on the wheel -/

namespace TimerMod

variable {m : TimerMod} {h idx k : Nat} {en : TimerEntry} {m' : TimerMod}

lemma slot_insert (en : TimerEntry) (ht : m'.timers = m.timers.insert h en) : m'.slot = update m.slot h en.slot := by
  funext h'
  simp only [slot, ht, Slab.get_insert, update_apply]
  split <;> rfl

lemma slot_congr (ht : m'.timers = m.timers) : m'.slot = m.slot := by
  unfold slot
  rw [ht]

lemma Wired.congr (hw : m.Wired) (ht : m'.timers = m.timers) (hb : m'.buckets = m.buckets)
    (ho : m'.occupied = m.occupied) : m'.Wired := by
  unfold Wired
  rw [hb, ho, slot_congr ht]
  exact hw

lemma slot_remove (m : TimerMod) (h : Nat) : { m with timers := m.timers.remove h }.slot = update m.slot h none := by
  funext h'
  simp only [slot, Slab.get_remove, update_apply]
  split <;> rfl

lemma slot_of_get (hen : m.timers.get h = some en) : m.slot h = en.slot := by
  simp only [slot, hen, bind_some]

lemma unlink_eq (hw : Linked m.buckets m.occupied m.slot) (hs : m.slot h = some (idx, k)) :
    m.unlink idx k = some { m with
      buckets := update m.buckets idx { m.buckets idx with entries := (m.buckets idx).entries.remove k }
      occupied := if ((m.buckets idx).entries.remove k).is_empty then
        update m.occupied (m.buckets idx).lvl (m.occupied (m.buckets idx).lvl &&& (m.buckets idx).bit_n)
        else m.occupied } := by
  have hget := hw.entries.2 hs
  unfold unlink
  simp only [hget, isNone_some, Bool.false_eq_true, if_false]
  split <;> rfl

lemma remove_timer_bucket_spec (hw : m.Wired) (hen : m.timers.get h = some en) (rm : Bool) :
    ∃ b o, Linked b o (update m.slot h none) ∧
      m.remove_timer_bucket h rm =
        some { m with buckets := b, occupied := o, timers := if rm then m.timers.remove h else m.timers } := by
  unfold remove_timer_bucket
  simp only [hen, bind_eq_bind, bind_some]
  have hs := slot_of_get hen
  cases hb : en.bucket with
  | none =>
    have hn : m.slot h = none := by rw [hs, TimerEntry.slot, hb]; rfl
    refine ⟨m.buckets, m.occupied, ?_, ?_⟩
    · rw [update_eq_self_iff.2 hn.symm]
      exact hw
    · cases rm <;> rfl
  | some idx =>
    have hn : m.slot h = some (idx, en.bucket_entry) := by rw [hs, TimerEntry.slot, hb]; rfl
    refine ⟨_, _, Linked.unlink hw hn, ?_⟩
    simp only [unlink_eq hw hn, bind_some]
    cases rm <;> rfl

lemma wired_link {b : Nat → Bucket} {o : Nat → BitVec 64}
    (hl : Linked b o (update m.slot h none)) (hk : (b idx).entries.get k = none) (task : Option Waker) :
    ({ m with buckets := b, occupied := o }.link h idx k task).Wired ∧
      ({ m with buckets := b, occupied := o }.link h idx k task).slot = update m.slot h (some (idx, k)) := by
  have hslot : ({ m with buckets := b, occupied := o }.link h idx k task).slot =
      update m.slot h (some (idx, k)) := slot_insert ⟨some idx, k, task⟩ rfl
  refine ⟨?_, hslot⟩
  have := hl.link (h := h) (update_self ..) hk
  rw [update_idem] at this
  unfold Wired
  rw [hslot]
  exact this

lemma update_entry_spec (hw : m.Wired) (hen : m.timers.get h = some en) (hk : (m.buckets idx).entries.get k = none) :
    ∃ m', m.update_entry h idx k = some m' ∧ m'.Wired ∧
      m' = { m with timers := m'.timers, buckets := m'.buckets, occupied := m'.occupied } ∧
      (en.bucket = some idx ∧ m' = m ∨ en.bucket ≠ some idx ∧ m'.timers = m.timers.insert h ⟨some idx, k, en.task⟩) := by
  have hs := slot_of_get hen
  unfold update_entry
  simp only [hen, bind_eq_bind, bind_some]
  cases hb : en.bucket with
  | none =>
    have hn : m.slot h = none := by rw [hs, TimerEntry.slot, hb]; rfl
    obtain ⟨h1, -⟩ := wired_link (b := m.buckets) (o := m.occupied) (h := h)
      (by rw [update_eq_self_iff.2 hn.symm]; exact hw) hk en.task
    exact ⟨_, rfl, h1, rfl, .inr ⟨by simp, rfl⟩⟩
  | some bucket =>
    by_cases hi : idx = bucket
    · exact ⟨m, if_pos hi, hw, rfl, .inl ⟨by rw [hi], rfl⟩⟩
    · have hn : m.slot h = some (bucket, en.bucket_entry) := by rw [hs, TimerEntry.slot, hb]; rfl
      have hk' : ∀ b', (update m.buckets bucket b' idx).entries.get k = none := fun b' => by
        rw [update_of_ne hi]; exact hk
      obtain ⟨h1, -⟩ := wired_link (Linked.unlink hw hn) (hk' _) en.task
      refine ⟨_, ?_, h1, rfl, .inr ⟨fun e => hi (some.inj e).symm, rfl⟩⟩
      simp only [if_neg hi, unlink_eq hw hn, bind_some]

end TimerMod

/-! ## Draining buckets -/

def TimerEntry.isIn (e : TimerEntry) (D : List Nat) : Bool := e.bucket.any (D.contains ·)

def TimerEntry.drained (e : TimerEntry) (D : List Nat) : TimerEntry := if e.isIn D then e.complete else e

lemma TimerEntry.complete_bucket (e : TimerEntry) : e.complete.bucket = none := by
  unfold complete
  cases h : e.bucket <;> simp [h]

lemma TimerEntry.complete_idem (e : TimerEntry) : e.complete.complete = e.complete := by
  rw [complete, complete_bucket]
  rfl

lemma TimerEntry.mem_wakes {e : TimerEntry} {wk : Waker} : wk ∈ e.wakes ↔ e.bucket.isSome ∧ e.task = some wk := by
  unfold wakes
  split <;> simp_all

section

variable (e : TimerEntry) (D D' : List Nat)

lemma TimerEntry.isIn_append : e.isIn (D ++ D') = (e.isIn D || e.isIn D') := by
  unfold isIn
  cases e.bucket <;> simp

lemma TimerEntry.isIn_drained : (e.drained D).isIn D' = (!e.isIn D && e.isIn D') := by
  unfold drained
  cases h : e.isIn D
  · simp
  · simp [isIn, complete_bucket]

lemma TimerEntry.drained_append : (e.drained D).drained D' = e.drained (D ++ D') := by
  rw [drained, isIn_drained]
  cases h : e.isIn D
  all_goals simp [drained, isIn_append, h]

end

lemma TimerEntry.slot_drained (e : TimerEntry) (D : List Nat) :
    (e.drained D).slot = e.slot.filter fun s => !D.contains s.1 := by
  cases hb : e.bucket with
  | none => simp [drained, isIn, slot, hb]
  | some idx => by_cases hc : idx ∈ D <;> simp [drained, isIn, slot, complete_bucket, Option.filter, hb, hc]

lemma TimerMod.slot_of_drained {m m' : TimerMod} {D : List Nat}
    (h : ∀ h, m'.timers.get h = (m.timers.get h).map (·.drained D)) (hnd : Nat) :
    m'.slot hnd = (m.slot hnd).filter fun s => !D.contains s.1 := by
  unfold slot
  rw [h]
  cases m.timers.get hnd with
  | none => rfl
  | some e => exact e.slot_drained D

/-- `m'` is `m` with exactly the timers of the buckets in `D` completed: they
have left the wheel and their tasks were woken. -/
structure Drained (m m' : TimerMod) (D : List Nat) : Prop where
  wired : m'.Wired
  timers : ∀ h, m'.timers.get h = (m.timers.get h).map (·.drained D)
  woken : ∃ l, m'.woken = m.woken ++ l ∧ ∀ wk, wk ∈ l ↔ ∃ h e, m.timers.get h = some e ∧ e.isIn D ∧ e.task = some wk
  frame : m' = { m with timers := m'.timers, buckets := m'.buckets, occupied := m'.occupied, woken := m'.woken }

namespace Drained

variable {m m' m'' : TimerMod} {D D' : List Nat}

lemma refl (hw : m.Wired) (hD : ∀ h e, m.timers.get h = some e → e.isIn D = false) : Drained m m D where
  wired := hw
  timers h := by
    cases he : m.timers.get h with
    | none => rfl
    | some e => simp [drained, hD h e he]
  woken := ⟨[], by simp, fun wk => by
    constructor
    · intro h; cases h
    · rintro ⟨h, e, he, hin, -⟩
      rw [hD h e he] at hin
      cases hin⟩
  frame := rfl

lemma trans (h : Drained m m' D) (h' : Drained m' m'' D') : Drained m m'' (D ++ D') where
  wired := h'.wired
  timers hnd := by
    rw [h'.timers, h.timers, Option.map_map]
    congr 1
    funext e
    exact e.drained_append D D'
  woken := by
    obtain ⟨l, hl, hmem⟩ := h.woken
    obtain ⟨l', hl', hmem'⟩ := h'.woken
    refine ⟨l ++ l', by rw [hl', hl, List.append_assoc], fun wk => ?_⟩
    rw [List.mem_append, hmem, hmem']
    constructor
    · rintro (⟨hnd, e, he, hin, ht⟩ | ⟨hnd, e', he', hin, ht⟩)
      · exact ⟨hnd, e, he, by rw [isIn_append, hin]; rfl, ht⟩
      · rw [h.timers] at he'
        obtain ⟨e, he, rfl⟩ := Option.map_eq_some_iff.1 he'
        rw [isIn_drained, Bool.and_eq_true, Bool.not_eq_true'] at hin
        refine ⟨hnd, e, he, by rw [isIn_append, hin.2, Bool.or_true], ?_⟩
        simpa [drained, hin.1] using ht
    · rintro ⟨hnd, e, he, hin, ht⟩
      cases hD : e.isIn D
      · refine .inr ⟨hnd, e.drained D, by rw [h.timers, he]; rfl, ?_, ?_⟩
        · rw [isIn_drained, hD]
          simpa [isIn_append, hD] using hin
        · simpa [drained, hD] using ht
      · exact .inl ⟨hnd, e, he, hD, ht⟩
  frame := by rw [h'.frame, h.frame]

lemma slot_eq (h : Drained m m' D) (hnd : Nat) : m'.slot hnd = (m.slot hnd).filter fun s => !D.contains s.1 :=
  TimerMod.slot_of_drained h.timers hnd

end Drained

namespace TimerMod

variable {m : TimerMod} {h idx k : Nat} {e : TimerEntry}

lemma complete_get (m : TimerMod) (no h : Nat) :
    (m.complete no).timers.get h = (m.timers.get h).map fun e => if h = no then e.complete else e := by
  unfold complete
  cases hn : m.timers.get no with
  | none =>
    by_cases he : h = no
    · rw [he, hn]; rfl
    · simp [he]
  | some e =>
    by_cases he : h = no
    · simp [he, hn]
    · simp [Slab.get_insert, he]

lemma complete_frame (m : TimerMod) (no : Nat) :
    m.complete no = { m with timers := (m.complete no).timers, woken := (m.complete no).woken } := by
  unfold complete
  cases m.timers.get no <;> rfl

lemma slot_complete (m : TimerMod) (no : Nat) : (m.complete no).slot = update m.slot no none := by
  funext h
  unfold slot
  rw [complete_get, update_apply]
  by_cases he : h = no
  · cases m.timers.get h <;> simp [he, TimerEntry.slot, complete_bucket]
  · simp [he]

lemma complete_all (l : List Nat) (m : TimerMod) :
    (∀ h, (l.foldl complete m).timers.get h = (m.timers.get h).map fun e => if h ∈ l then e.complete else e) ∧
      (∃ w, (l.foldl complete m).woken = m.woken ++ w ∧
        ∀ wk, wk ∈ w ↔ ∃ h e, h ∈ l ∧ m.timers.get h = some e ∧ wk ∈ e.wakes) ∧
      l.foldl complete m = { m with timers := (l.foldl complete m).timers, woken := (l.foldl complete m).woken } := by
  induction l generalizing m with
  | nil => exact ⟨by simp, ⟨[], by simp⟩, rfl⟩
  | cons no l ih =>
    obtain ⟨hget, ⟨w, hw, hmem⟩, hframe⟩ := ih (m.complete no)
    refine ⟨fun h => ?_, ?_, ?_⟩
    · rw [foldl_cons, hget, complete_get, Option.map_map]
      congr 1
      funext e
      -- a timer listed twice is completed once
      by_cases h1 : h = no <;> by_cases h2 : h ∈ l <;> simp [h1, h2, complete_idem]
    · obtain ⟨w0, hw0, hmem0⟩ : ∃ w0, (m.complete no).woken = m.woken ++ w0 ∧
          ∀ wk, wk ∈ w0 ↔ ∃ e, m.timers.get no = some e ∧ wk ∈ e.wakes := by
        unfold complete
        cases m.timers.get no with
        | none => exact ⟨[], by simp⟩
        | some e => exact ⟨e.wakes, by simp⟩
      refine ⟨w0 ++ w, by rw [foldl_cons, hw, hw0, append_assoc], fun wk => ?_⟩
      rw [mem_append, hmem0, hmem]
      constructor
      · rintro (⟨e, he, hk⟩ | ⟨h, e', hl, he', hk⟩)
        · exact ⟨no, e, mem_cons_self, he, hk⟩
        · rw [complete_get] at he'
          obtain ⟨e, he, rfl⟩ := map_eq_some_iff.1 he'
          refine ⟨h, e, mem_cons_of_mem _ hl, he, ?_⟩
          split at hk
          · simp [mem_wakes, complete_bucket] at hk
          · exact hk
      · rintro ⟨h, e, hl, he, hk⟩
        by_cases hno : h = no
        · exact .inl ⟨e, hno ▸ he, hk⟩
        · refine .inr ⟨h, e, (mem_cons.1 hl).resolve_left hno, ?_, hk⟩
          rw [complete_get, he]
          simp [hno]
    · rw [foldl_cons, hframe, complete_frame]

lemma expire_bucket_drained (hw : m.Wired) (idx : Nat) : Drained m (m.expire_bucket idx) [idx] := by
  have hin : ∀ h e, m.timers.get h = some e → (e.isIn [idx] = true ↔ h ∈ (m.buckets idx).entries.values) := by
    intro h e he
    rw [Slab.mem_values]
    have hs := slot_of_get he
    cases hb : e.bucket with
    | none =>
      simp only [isIn, hb, any_none, Bool.false_eq_true, false_iff, not_exists]
      intro k hk
      have := hw.entries.1 hk
      rw [hs, TimerEntry.slot, hb] at this
      cases this
    | some j =>
      have hj : m.slot h = some (j, e.bucket_entry) := by rw [hs, TimerEntry.slot, hb]; rfl
      simp only [isIn, hb, any_some, contains_cons, contains_nil, Bool.or_false, beq_iff_eq]
      constructor
      · rintro rfl
        exact ⟨_, hw.entries.2 hj⟩
      · rintro ⟨k, hk⟩
        have := hw.entries.1 hk
        rw [hj] at this
        exact congrArg Prod.fst (some.inj this)
  unfold expire_bucket
  simp only
  split
  next hemp =>
    apply Drained.refl hw
    intro h e he
    rw [Bool.eq_false_iff]
    intro hi
    obtain ⟨k, hk⟩ := Slab.mem_values.1 ((hin h e he).1 hi)
    rw [Slab.is_empty_iff.1 hemp k] at hk
    cases hk
  · generalize hm0 : ({ m with
      occupied := update m.occupied (m.buckets idx).lvl (m.occupied (m.buckets idx).lvl &&& (m.buckets idx).bit_n)
      buckets := update m.buckets idx { m.buckets idx with entries := .empty } } : TimerMod) = m0
    have ht : m0.timers = m.timers := by rw [← hm0]
    have hwk : m0.woken = m.woken := by rw [← hm0]
    obtain ⟨hget, ⟨w, hwoken, hmem⟩, hframe⟩ := complete_all (m.buckets idx).entries.values m0
    generalize (m.buckets idx).entries.values.foldl complete m0 = m1 at *
    rw [ht] at hget hmem
    have htimers : ∀ h, m1.timers.get h = (m.timers.get h).map (·.drained [idx]) := by
      intro h
      rw [hget]
      cases he : m.timers.get h with
      | none => rfl
      | some e => simp only [map_some, drained, hin h e he]
    refine ⟨?_, htimers, ⟨w, by rw [hwoken, hwk], fun wk => ?_⟩, by rw [hframe, ← hm0]⟩
    · have hl := Linked.drain hw idx
      have hslot : m1.slot = fun h => (m.slot h).filter (·.1 ≠ idx) := by
        funext h
        rw [slot_of_drained htimers]
        congr 1
        funext p
        simp
      unfold Wired
      rw [hslot, hframe, ← hm0]
      exact hl
    · rw [hmem]
      constructor
      · rintro ⟨h, e, hl, he, hk⟩
        exact ⟨h, e, he, (hin h e he).2 hl, (mem_wakes.1 hk).2⟩
      · rintro ⟨h, e, he, hi, hk⟩
        refine ⟨h, e, (hin h e he).1 hi, he, mem_wakes.2 ⟨?_, hk⟩⟩
        unfold isIn at hi
        cases hb : e.bucket
        · rw [hb] at hi; cases hi
        · rfl

def visited : Nat → Nat → Nat → List Nat
  | 0, _, _ => []
  | n + 1, lvl, clk => (clk % 64 + lvl * 64) :: if clk % 8 ≠ 0 then [] else visited n (lvl + 1) (clk / 8)

lemma execute_levels_drained (hw : m.Wired) (n lvl clk : Nat) :
    Drained m (execute_levels n lvl clk m) (visited n lvl clk) := by
  induction n generalizing m lvl clk with
  | zero => exact Drained.refl hw fun h e _ => by cases hb : e.bucket <;> simp [visited, isIn, hb]
  | succ n ih =>
    have h1 := expire_bucket_drained hw (clk % 64 + lvl * 64)
    simp only [execute_levels, visited, and_lvl_mask, and_clk_mask]
    rw [show LVL_SIZE = 64 from rfl, show clk >>> LVL_CLK_SHIFT = clk / 8 from Nat.shiftRight_eq_div_pow clk 3]
    split
    · exact h1
    · exact h1.trans (ih h1.wired (lvl + 1) (clk / 8))

lemma mem_visited {n lvl clk idx : Nat} :
    idx ∈ visited n lvl clk ↔ ∃ i, i < n ∧ 8 ^ i ∣ clk ∧ idx = (lvl + i) * 64 + clk / 8 ^ i % 64 := by
  induction n generalizing lvl clk with
  | zero => simp [visited]
  | succ n ih =>
    rw [visited, mem_cons]
    constructor
    · rintro (rfl | h)
      · exact ⟨0, by omega, by simp, by simp [add_comm]⟩
      · split at h
        · cases h
        next h8 =>
          obtain ⟨i, hi, hd, rfl⟩ := ih.1 h
          refine ⟨i + 1, by omega, ?_, ?_⟩
          · rw [pow_succ]
            obtain ⟨c, hc⟩ : 8 ∣ clk := by omega
            rw [hc, Nat.mul_div_cancel_left _ (by omega)] at hd
            rw [hc, mul_comm (8 ^ i) 8]
            exact mul_dvd_mul_left 8 hd
          · rw [Nat.div_div_eq_div_mul, Nat.pow_succ, mul_comm 8, Nat.add_assoc, add_comm 1 i]
    · rintro ⟨i, hi, hd, rfl⟩
      cases i with
      | zero => left; simp [add_comm]
      | succ i =>
        right
        have h8 : 8 ∣ clk := dvd_trans (dvd_mul_left _ _) hd
        rw [if_neg (by omega)]
        refine ih.2 ⟨i, by omega, ?_, ?_⟩
        · exact (Nat.dvd_div_iff_mul_dvd h8).2 (by rwa [mul_comm])
        · rw [Nat.div_div_eq_div_mul, Nat.pow_succ, mul_comm 8, Nat.add_assoc, add_comm 1 i]

end TimerMod

end Geario.Wheel
