import Geario.Lib.Ring
import Geario.Wheel.Buckets
/-!
# The wheel as a queue of timers

What a wheel is for: it holds timers with the tick each one is due at, finds the
earliest tick, and completes the timers of that tick. `Queue` says this without
levels or buckets. `Scheduled` relates the wheel to it: every timer in the wheel
is in the bucket that stands for its tick, within the window of its level.
-/
open Lib

namespace Geario.Wheel

open Nat TimerMod

/-- The tick each pending timer is due at. -/
abbrev Queue := Nat → Option Nat

namespace Queue

def ticks (q : Queue) : Set Nat := { E | ∃ h, q h = some E }

def expire (q : Queue) (t : Nat) : Queue := fun h => (q h).filter (· ≠ t)

lemma expire_eq_some {q : Queue} {t h E : Nat} : q.expire t h = some E ↔ q h = some E ∧ E ≠ t := by
  simp [expire, Option.filter_eq_some_iff]

end Queue

def TimerMod.queue (m : TimerMod) (expiry : Nat → Nat) : Queue := fun h => (m.slot h).map fun _ => expiry h

variable {expiry : Nat → Nat} {m : TimerMod}

lemma TimerMod.queue_eq_some {h E : Nat} :
    m.queue expiry h = some E ↔ (∃ idx k, m.slot h = some (idx, k)) ∧ expiry h = E := by
  unfold queue
  cases m.slot h with
  | none => simp
  | some p => simpa using fun _ => ⟨p.1, p.2, rfl⟩

/-- Every timer in the wheel is in the bucket of its tick. -/
structure Scheduled (m : TimerMod) (elapsed : Nat) (expiry : Nat → Nat) : Prop where
  wired : m.Wired
  placed : ∀ {h idx k}, m.slot h = some (idx, k) → Placed elapsed idx (expiry h)

/-! ## Placement -/

lemma bucket_of_div (lvl E : Nat) : bucket_of lvl E / 64 = lvl := by
  rw [bucket_of]
  omega

lemma bucket_of_mod (lvl E : Nat) : bucket_of lvl E % 64 = E / 8 ^ lvl % 64 := by
  rw [bucket_of]
  omega

namespace Placed

variable {e t idx E F : Nat}

section

variable (h : Placed e idx E)
include h

lemma ahead : e < E := by
  obtain ⟨lvl, -, -, hw⟩ := h.level
  exact hw.ahead

lemma near : E ≤ e + 2 ^ 27 := by
  obtain ⟨lvl, hl, -, hw⟩ := h.level
  have h1 := hw.lt_add (Nat.pow_pos (by omega))
  have h2 : 8 ^ lvl ≤ 8 ^ 7 := Nat.pow_le_pow_right (by omega) (by omega)
  omega

lemma mono (het : e ≤ t) (ht : t < E) : Placed t idx E := by
  obtain ⟨lvl, hl, hi, hw⟩ := h.level
  exact ⟨⟨lvl, hl, hi, hw.mono (Nat.pow_pos (by omega)) het ht⟩, h.bound⟩

lemma unique (h' : Placed e idx F) : E = F := by
  obtain ⟨lvl, -, hi, hw⟩ := h.level
  obtain ⟨lvl', -, hi', hw'⟩ := h'.level
  have hl : lvl = lvl' := by rw [← bucket_of_div lvl E, ← hi, hi', bucket_of_div]
  subst hl
  refine hw.unique (Nat.pow_pos (by omega)) hw' ?_
  rw [← bucket_of_mod, ← bucket_of_mod, ← hi, hi']

lemma mem_visited_iff (het : e < t) (htE : t ≤ E) : idx ∈ visited LVL_DEPTH 0 t ↔ E = t := by
  obtain ⟨lvl, hl, hi, hw⟩ := h.level
  rw [mem_visited]
  constructor
  · rintro ⟨i, -, hd, hi'⟩
    rw [zero_add] at hi'
    have hil : i = lvl := by rw [← bucket_of_div lvl E, ← hi, hi', ← bucket_of, bucket_of_div]
    subst hil
    refine hw.eq_of_slot (Nat.pow_pos (by omega)) het htE hd ?_
    rw [← bucket_of_mod, ← bucket_of_mod, ← hi, hi', bucket_of]
  · rintro rfl
    exact ⟨lvl, hl, hw.dvd, by rw [hi, bucket_of, zero_add]⟩

end

end Placed

/-! ## Firing -/

namespace Scheduled

variable {m : TimerMod} {e t : Nat} {expiry : Nat → Nat}

section

variable (hs : Scheduled m e expiry)
include hs

lemma ahead : ∀ E ∈ (m.queue expiry).ticks, e < E := by
  rintro E ⟨h, hq⟩
  obtain ⟨⟨idx, k, hsl⟩, rfl⟩ := queue_eq_some.1 hq
  exact (hs.placed hsl).ahead

lemma drained :
    Drained m (m.execute_expired_timers t) (visited LVL_DEPTH 0 t) :=
  execute_levels_drained hs.wired _ _ _

section

variable (het : e < t) (ht : ∀ E ∈ (m.queue expiry).ticks, t ≤ E)
include het ht

lemma visited_iff
    {h idx k : Nat} (hsl : m.slot h = some (idx, k)) :
    idx ∈ visited LVL_DEPTH 0 t ↔ expiry h = t :=
  (hs.placed hsl).mem_visited_iff het (ht _ ⟨h, queue_eq_some.2 ⟨⟨idx, k, hsl⟩, rfl⟩⟩)

lemma execute_expired_queue : (m.execute_expired_timers t).queue expiry = (m.queue expiry).expire t := by
  funext h
  apply Option.ext
  intro E
  rw [Queue.expire_eq_some, queue_eq_some, queue_eq_some, hs.drained.slot_eq]
  simp only [Option.filter_eq_some_iff, Bool.not_eq_true', List.contains_eq_mem, decide_eq_false_iff_not]
  constructor
  · rintro ⟨⟨idx, k, hsl, hnv⟩, rfl⟩
    exact ⟨⟨⟨idx, k, hsl⟩, rfl⟩, mt (hs.visited_iff het ht hsl).2 hnv⟩
  · rintro ⟨⟨⟨idx, k, hsl⟩, rfl⟩, hne⟩
    exact ⟨⟨idx, k, hsl, mt (hs.visited_iff het ht hsl).1 hne⟩, rfl⟩

lemma execute_expired : Scheduled (m.execute_expired_timers t) t expiry where
  wired := hs.drained.wired
  placed {h idx k} hsl := by
    rw [hs.drained.slot_eq, Option.filter_eq_some_iff] at hsl
    obtain ⟨hsl, hnv⟩ := hsl
    have hv := hs.visited_iff het ht hsl
    have hne : expiry h ≠ t := fun hE => by simp [hv.2 hE] at hnv
    have hle := ht _ ⟨h, queue_eq_some.2 ⟨⟨idx, k, hsl⟩, rfl⟩⟩
    exact (hs.placed hsl).mono het.le (by omega)

end

end

end Scheduled

/-! ## The earliest tick -/

/-- The ticks of the timers in the buckets of one level. -/
def TimerMod.level (m : TimerMod) (expiry : Nat → Nat) (lvl : Nat) : Set Nat :=
  { E | ∃ h k, m.slot h = some (bucket_of lvl E, k) ∧ expiry h = E }

namespace Scheduled

variable {m : TimerMod} {e lvl : Nat} {expiry : Nat → Nat}

section

variable (hs : Scheduled m e expiry)
include hs

lemma level_window {E : Nat} (hE : E ∈ m.level expiry lvl) : Window (8 ^ lvl) 64 e E ∧ E < U64_MAX := by
  obtain ⟨h, k, hsl, rfl⟩ := hE
  have hp := hs.placed hsl
  obtain ⟨lvl', -, hi, hw⟩ := hp.level
  have hl : lvl = lvl' := by rw [← bucket_of_div lvl, hi, bucket_of_div]
  exact ⟨hl ▸ hw, hp.bound⟩

lemma occupied_iff {j : Nat} (hj : j < 64) :
    (m.occupied lvl).getLsbD j ↔ ∃ E ∈ m.level expiry lvl, E / 8 ^ lvl % 64 = j := by
  rw [hs.wired.occupied hj, Slab.is_empty_false_iff]
  constructor
  · rintro ⟨k, h, hk⟩
    have hsl := hs.wired.entries.1 hk
    obtain ⟨lvl', -, hi, -⟩ := (hs.placed hsl).level
    have hl : lvl' = lvl := by rw [← bucket_of_div lvl' (expiry h), ← hi]; omega
    subst hl
    refine ⟨expiry h, ⟨h, k, by rw [hsl, hi], rfl⟩, ?_⟩
    rw [← bucket_of_mod, ← hi]
    omega
  · rintro ⟨E, ⟨h, k, hsl, -⟩, rfl⟩
    exact ⟨k, h, hs.wired.entries.2 hsl⟩

lemma level_empty (h0 : m.occupied lvl = 0) : m.level expiry lvl = ∅ := by
  apply Set.eq_empty_of_forall_notMem
  intro E hE
  have := (hs.occupied_iff (mod_lt _ (by omega))).2 ⟨E, hE, rfl⟩
  rw [h0] at this
  simp at this

lemma level_least (h0 : m.occupied lvl ≠ 0) :
    let pos := ((m.occupied lvl).rotateRight (e ⌈/⌉ 8 ^ lvl % 64)).ctz.toNat
    wrap64 (wrap64 (e ⌈/⌉ 8 ^ lvl + pos) <<< lvl_shift lvl) = (e ⌈/⌉ 8 ^ lvl + pos) * 8 ^ lvl ∧
      IsLeast (m.level expiry lvl) ((e ⌈/⌉ 8 ^ lvl + pos) * 8 ^ lvl) := by
  intro pos
  have hg : 0 < 8 ^ lvl := Nat.pow_pos (by omega)
  have hle : IsLeast (m.level expiry lvl) ((e ⌈/⌉ 8 ^ lvl + pos) * 8 ^ lvl) :=
    ring_least hg h0 (fun E hE => (hs.level_window hE).1) (fun j hj => hs.occupied_iff hj)
  have hb := (hs.level_window hle.1).2
  have hu : U64_MAX = 2 ^ 64 - 1 := rfl
  have h1 : e ⌈/⌉ 8 ^ lvl + pos ≤ (e ⌈/⌉ 8 ^ lvl + pos) * 8 ^ lvl := Nat.le_mul_of_pos_right _ hg
  refine ⟨?_, hle⟩
  rw [shiftLeft_lvl, wrap64_of_lt (n := e ⌈/⌉ 8 ^ lvl + pos) (by omega), wrap64_of_lt (by omega)]

lemma level_ge {l E : Nat} (hl : lvl < l) (hE : E ∈ m.level expiry l) :
    (e ⌈/⌉ 8 ^ lvl + (8 - e ⌈/⌉ 8 ^ lvl % 8) % 8) * 8 ^ lvl ≤ E := by
  have hg : 0 < 8 ^ lvl := Nat.pow_pos (by omega)
  obtain ⟨hw, -⟩ := hs.level_window hE
  have hd : 8 ^ lvl * 8 ∣ E := dvd_trans (pow_dvd_pow 8 (show lvl + 1 ≤ l from hl)) hw.dvd
  obtain ⟨c, rfl⟩ := hd
  have hc : e ⌈/⌉ 8 ^ lvl ≤ 8 * c := by
    rw [ceilDiv_le_iff_le_mul hg, ← mul_assoc]
    exact hw.ahead.le
  rw [mul_comm, mul_assoc]
  apply Nat.mul_le_mul_left
  omega

end

end Scheduled

lemma ceil_up (c : Nat) : (c >>> LVL_CLK_SHIFT) + (if c % 8 ≠ 0 then 1 else 0) = c ⌈/⌉ 8 := by
  rw [show c >>> LVL_CLK_SHIFT = c / 8 from shiftRight_eq_div_pow c 3, ceilDiv_eq_add_pred_div]
  split <;> omega

lemma least_insert {A B : Set Nat} {a next r : Nat} (ha : IsLeast A a)
    (hr : IsLeast (insert (if a < next then a else next) B) r) : IsLeast (insert next (A ∪ B)) r := by
  constructor
  · rcases hr.1 with h | h
    · split at h
      · exact .inr (.inl (h ▸ ha.1))
      · exact .inl h
    · exact .inr (.inr h)
  · have hr0 := hr.2 (Set.mem_insert _ _)
    rintro x (rfl | hx | hx)
    · split at hr0 <;> omega
    · have := ha.2 hx
      split at hr0 <;> omega
    · exact hr.2 (.inr hx)

lemma Scheduled.next_pending_levels_least {e : Nat} (hs : Scheduled m e expiry)
    (n lvl next : Nat) (hn : lvl + n = LVL_DEPTH) :
    IsLeast (insert next { E | ∃ l, lvl ≤ l ∧ l < LVL_DEPTH ∧ E ∈ m.level expiry l })
      (next_pending_levels m.occupied n lvl (e ⌈/⌉ 8 ^ lvl) next) := by
  induction n generalizing lvl next with
  | zero =>
    refine ⟨Set.mem_insert _ _, ?_⟩
    rintro x (rfl | ⟨l, h1, h2, -⟩)
    · exact le_rfl
    · omega
  | succ n ih =>
    have hsplit : { E | ∃ l, lvl ≤ l ∧ l < LVL_DEPTH ∧ E ∈ m.level expiry l } =
        m.level expiry lvl ∪ { E | ∃ l, lvl + 1 ≤ l ∧ l < LVL_DEPTH ∧ E ∈ m.level expiry l } := by
      ext E
      constructor
      · rintro ⟨l, h1, h2, hE⟩
        rcases Nat.eq_or_lt_of_le h1 with rfl | h1
        · exact .inl hE
        · exact .inr ⟨l, h1, h2, hE⟩
      · rintro (hE | ⟨l, h1, h2, hE⟩)
        · exact ⟨lvl, le_rfl, by omega, hE⟩
        · exact ⟨l, by omega, h2, hE⟩
    rw [hsplit]
    simp only [next_pending_levels, and_lvl_mask, and_clk_mask, ceil_up]
    rw [ceilDiv_mul (Nat.pow_pos (by omega)) (by omega), ← Nat.pow_succ]
    split
    next h0 =>
      rw [hs.level_empty h0, Set.empty_union]
      exact ih (lvl + 1) next (by omega)
    next h0 =>
      obtain ⟨htmp, hleast⟩ := hs.level_least h0
      rw [htmp]
      split
      · -- the early exit: no coarser level has an earlier tick
        rename_i hpos
        refine least_insert hleast ⟨Set.mem_insert _ _, ?_⟩
        rintro x (rfl | ⟨l, h1, -, hE⟩)
        · exact le_rfl
        · have hge := hs.level_ge (Nat.lt_of_succ_le h1) hE
          have hmul := Nat.mul_le_mul_right (8 ^ lvl) (Nat.add_le_add_left hpos (e ⌈/⌉ 8 ^ lvl))
          rw [show LVL_CLK_DIV = 8 from rfl] at hmul
          split <;> omega
      · exact least_insert hleast (ih (lvl + 1) _ (by omega))

lemma Scheduled.ticks_eq {e : Nat} (hs : Scheduled m e expiry) :
    (m.queue expiry).ticks = { E | ∃ l, 0 ≤ l ∧ l < LVL_DEPTH ∧ E ∈ m.level expiry l } := by
  ext E
  constructor
  · rintro ⟨h, hq⟩
    obtain ⟨⟨idx, k, hsl⟩, rfl⟩ := queue_eq_some.1 hq
    obtain ⟨lvl, hl, hi, -⟩ := (hs.placed hsl).level
    exact ⟨lvl, zero_le _, hl, h, k, hi ▸ hsl, rfl⟩
  · rintro ⟨l, -, -, h, k, hsl, rfl⟩
    exact ⟨h, queue_eq_some.2 ⟨⟨_, k, hsl⟩, rfl⟩⟩

/-- What an answer of the search must be: the earliest tick, or none when the
queue is empty. -/
def Queue.Earliest (q : Queue) : Option Nat → Prop
  | none => q.ticks = ∅
  | some E => IsLeast q.ticks E

lemma next_pending_bucket_earliest {s : TimerInner}
    (hs : Scheduled s.inner s.elapsed expiry) : (s.inner.queue expiry).Earliest s.next_pending_bucket := by
  have hb : ∀ E ∈ (s.inner.queue expiry).ticks, E < U64_MAX := by
    rintro E ⟨h, hq⟩
    obtain ⟨⟨idx, k, hsl⟩, rfl⟩ := queue_eq_some.1 hq
    exact (hs.placed hsl).bound
  have hleast := hs.next_pending_levels_least LVL_DEPTH 0 U64_MAX rfl
  rw [← hs.ticks_eq, show s.elapsed ⌈/⌉ 8 ^ 0 = s.elapsed by rw [pow_zero, ceilDiv_eq_add_pred_div, Nat.div_one]; rfl] at hleast
  unfold TimerInner.next_pending_bucket
  simp only
  generalize next_pending_levels s.inner.occupied LVL_DEPTH 0 s.elapsed U64_MAX = r at hleast
  split
  next hlt =>
    refine ⟨hleast.1.resolve_left (by omega), fun E hE => hleast.2 (.inr hE)⟩
  next hge =>
    apply Set.eq_empty_of_forall_notMem
    intro E hE
    have := hleast.2 (.inr hE)
    have := hb E hE
    omega

end Geario.Wheel
