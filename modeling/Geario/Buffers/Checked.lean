import Geario.Buffers.Programs
/-!
# Checked slicing

The bounds of a range are turned into offsets with `n + 1`, which overflows for
`usize::MAX` although such a range is only out of bounds.
-/
open Lib Outcome

namespace Geario.Buffers

inductive Bound
  | included (n : Nat)
  | excluded (n : Nat)
  | unbounded
  deriving DecidableEq

namespace Bytes

def start_bound : Bound → Mem Nat
  | .included n => pure n
  | .excluded n => add_usize n 1
  | .unbounded => pure 0

def end_bound (len : Nat) : Bound → Mem Nat
  | .included n => add_usize n 1
  | .excluded n => pure n
  | .unbounded => pure len

/-- The model's `slice` takes the offsets; its assertion is the `expect` on `None`. -/
def slice_checked (st : Storage) (start stop : Bound) : Mem (Option Storage) := do
  let first ← start_bound start
  let last ← end_bound st.len stop
  if first ≤ last ∧ last ≤ st.len then return some (← slice st first last) else return none

/-- The addresses of the two slices, and the length of the second. -/
def slice_ref_checked (st : Storage) (bytes_p sub_p sub_len : Nat) : Mem (Option Storage) := do
  if sub_p ≥ bytes_p ∧ sub_p + sub_len ≤ bytes_p + st.len then
    return some (← slice st (sub_p - bytes_p) (sub_p - bytes_p + sub_len))
  else return none

def split_off_checked (st : Storage) (at_ : Nat) : Mem (Storage × Option Storage) := do
  if at_ ≤ st.len then
    let (st, other) ← split_off st at_
    return (st, some other)
  else return (st, none)

def split_to_checked (st : Storage) (at_ : Nat) : Mem (Storage × Option Storage) := do
  if at_ ≤ st.len then
    let (st, other) ← split_to st at_
    return (st, some other)
  else return (st, none)

end Bytes

namespace Bound

def lower : Bound → Nat
  | included n => n
  | excluded n => n + 1
  | unbounded => 0

def upper (len : Nat) : Bound → Nat
  | included n => n + 1
  | excluded n => n
  | unbounded => len

/-- The bound is a `usize`. -/
def Usize : Bound → Prop
  | included n | excluded n => n < 2 ^ 64
  | unbounded => True

end Bound

/-- The part `first..last` of the content if it is one, and the handle as it was. -/
def Sliced (h : Heap) (st : Storage) (first last : Nat) (r : Option Storage) (h' : Heap) : Prop :=
  (r.isSome = true ↔ first ≤ last ∧ last ≤ st.len) ∧ st.content h' = st.content h ∧
    ∀ other ∈ r, other.content h' = ((st.content h).take last).drop first

/-- What the checked methods promise; only the abort of a full reference count is left. -/
structure Exact (h : Heap) (st : Storage) (start stop : Bound) : Prop where
  slice : Outcome (Bytes.slice_checked st start stop) h (· = .abort) (Sliced h st start.lower (stop.upper st.len))
  slice_ref (bytes_p sub_p sub_len : Nat) : Outcome (Bytes.slice_ref_checked st bytes_p sub_p sub_len) h (· = .abort) fun r h' =>
    (r.isSome = true ↔ bytes_p ≤ sub_p ∧ sub_p + sub_len ≤ bytes_p + st.len) ∧ st.content h' = st.content h ∧
      ∀ other ∈ r, other.content h' = ((st.content h).drop (sub_p - bytes_p)).take sub_len
  split_off (n : Nat) : Outcome (Bytes.split_off_checked st n) h (· = .abort) fun p h' =>
    (p.2.isSome = true ↔ n ≤ st.len) ∧ p.1.content h' ++ p.2.elim [] (·.content h') = st.content h
  split_to (n : Nat) : Outcome (Bytes.split_to_checked st n) h (· = .abort) fun p h' =>
    (p.2.isSome = true ↔ n ≤ st.len) ∧ p.2.elim [] (·.content h') ++ p.1.content h' = st.content h

section

variable {h : Heap} {st : Storage} {E : Panic → Prop} {Q : Option Storage → Heap → Prop} {f : Nat → Mem (Option Storage)}

lemma outcome_add_usize {n : Nat} (hn : n < 2 ^ 64) :
    Outcome (add_usize n 1 >>= f) h E Q ↔ if n = 2 ^ 64 - 1 then E .overflow else Outcome (f (n + 1)) h E Q := by
  rw [add_usize, outcome_bind]
  by_cases heq : n = 2 ^ 64 - 1
  · rw [if_neg (by omega), if_pos heq, outcome_throw]
  · rw [if_pos (by omega), if_neg heq, outcome_pure]

lemma outcome_start {start : Bound} (ha : start.Usize) :
    Outcome (Bytes.start_bound start >>= f) h E Q ↔
      if start = .excluded (2 ^ 64 - 1) then E .overflow else Outcome (f start.lower) h E Q := by
  cases start with
  | excluded n => simpa only [Bytes.start_bound, Bound.lower, Bound.excluded.injEq] using outcome_add_usize ha
  | _ => simp [Bytes.start_bound, Bound.lower]

lemma outcome_end {stop : Bound} (hz : stop.Usize) :
    Outcome (Bytes.end_bound st.len stop >>= f) h E Q ↔
      if stop = .included (2 ^ 64 - 1) then E .overflow else Outcome (f (stop.upper st.len)) h E Q := by
  cases stop with
  | included n => simpa only [Bytes.end_bound, Bound.upper, Bound.included.injEq] using outcome_add_usize hz
  | _ => simp [Bytes.end_bound, Bound.upper]

end

section

variable {h : Heap} {st : Storage} {F : Multiset Ref} (hs : Safe h (st.refs + F)) (hsm : st.Small) (ho : Owned h (st.refs + F))
include hs hsm ho

lemma outcome_sliced (first last : Nat) :
    Outcome (if first ≤ last ∧ last ≤ st.len then do return some (← Bytes.slice st first last) else return none) h (· = .abort)
      (Sliced h st first last) := by
  refine ite (fun hin => ?_) fun hout => outcome_pure.2 ⟨by simp [hout], rfl, nofun⟩
  refine (Bytes.slice_spec (E := (· = .abort)) hs hsm rfl fun hn => absurd hin hn).seq fun other h' ⟨_, hc⟩ => outcome_pure.2 ?_
  refine ⟨by simp [hin], (hc ho).1, fun o heq => ?_⟩
  cases heq
  exact (hc ho).2

lemma slice_checked_spec {start stop : Bound} (ha : start.Usize) (hz : stop.Usize) :
    Outcome (Bytes.slice_checked st start stop) h (· = .abort) (Sliced h st start.lower (stop.upper st.len)) ↔
      start ≠ .excluded (2 ^ 64 - 1) ∧ stop ≠ .included (2 ^ 64 - 1) := by
  rw [Bytes.slice_checked, outcome_start ha, outcome_end hz]
  split
  next heq => simp [heq]
  · split
    next heq => simp [heq]
    next hne hne' => exact iff_of_true (outcome_sliced hs hsm ho _ _) ⟨hne, hne'⟩

lemma exact_iff {start stop : Bound} (ha : start.Usize) (hz : stop.Usize) :
    Exact h st start stop ↔ start ≠ .excluded (2 ^ 64 - 1) ∧ stop ≠ .included (2 ^ 64 - 1) := by
  refine ⟨fun hex => (slice_checked_spec hs hsm ho ha hz).1 hex.slice, fun hin =>
    ⟨(slice_checked_spec hs hsm ho ha hz).2 hin, fun bytes_p sub_p sub_len => ?_, fun n => ?_, fun n => ?_⟩⟩
  · refine ite (fun hin => ?_) fun hout => outcome_pure.2 ⟨by simpa using hout, rfl, nofun⟩
    have hsl := outcome_sliced hs hsm ho (sub_p - bytes_p) (sub_p - bytes_p + sub_len)
    rw [if_pos (by omega)] at hsl
    refine hsl.mono fun r h' ⟨hr, hst, hc⟩ => ⟨by rw [hr]; omega, hst, fun other heq => ?_⟩
    rw [hc other heq, List.drop_take]
    congr 1
    omega
  · refine ite (fun hin => ?_) fun hout => outcome_pure.2 ⟨by simpa using hout, List.append_nil _⟩
    refine (Bytes.split_off_spec (E := (· = .abort)) hs hsm rfl fun hn => absurd hin (by omega)).seq fun p h' ⟨_, hc⟩ =>
      outcome_pure.2 ⟨by simp [hin], ?_⟩
    rw [(hc ho).1, Option.elim_some, (hc ho).2, List.take_append_drop]
  · refine ite (fun hin => ?_) fun hout => outcome_pure.2 ⟨by simpa using hout, rfl⟩
    refine (Bytes.split_to_spec (E := (· = .abort)) hs hsm rfl fun hn => absurd hin (by omega)).seq fun p h' ⟨_, hc⟩ =>
      outcome_pure.2 ⟨by simp [hin], ?_⟩
    rw [(hc ho).1, Option.elim_some, (hc ho).2, List.take_append_drop]

end

namespace World

variable {w : World} {i : Nat} {st : Storage} {start stop : Bound}

theorem checked_iff (hr : Reach step (fun w op => w.Fits op ∧ w.Calm op) .empty w) (hi : w.objs.get i = some (.bytes st))
    (hsm : st.Small) (ha : start.Usize) (hz : stop.Usize) :
    Exact w.heap st start stop ↔ start ≠ .excluded (2 ^ 64 - 1) ∧ stop ≠ .included (2 ^ 64 - 1) := by
  obtain ⟨hs, ho⟩ := apart_of_reach hr
  exact exact_iff (hs.cast (refsOf_remove hi)) hsm (ho.cast (refsOf_remove hi)) ha hz

theorem checked_static : ∃ w : World, w.view 0 = some (.bytes [1, 2]) ∧ Exact w.heap (.static [1, 2]) .unbounded (.included 0) :=
  ⟨_, rfl, (checked_iff (i := 0) (.step (i := .make 0 (.bytes_static [1, 2])) .refl
    ⟨fits_of_fetch rfl trivial, calm_of_fetch rfl trivial⟩ rfl) rfl trivial
    (show Bound.Usize .unbounded from trivial) (show Bound.Usize (.included 0) from Nat.two_pow_pos 64)).2 ⟨nofun, by decide⟩⟩

/-- `..=usize::MAX` of two bytes. -/
theorem slice_checked_overflows : ∃ w : World, Reach step (fun _ _ => True) .empty w ∧ w.view 0 = some (.bytes [1, 2]) ∧
    (Bytes.slice_checked (.static [1, 2]) .unbounded (.included (2 ^ 64 - 1))) w.heap = .error .overflow :=
  ⟨_, .of_steps [.make 0 (.bytes_static [1, 2])] rfl, rfl, rfl⟩

end World

end Geario.Buffers
