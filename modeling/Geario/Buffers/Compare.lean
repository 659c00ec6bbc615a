import Geario.Buffers.Storage
/-!
# Comparing `Bytes` with other types

The impls with a `Bytes` on the left compare byte slices: `as_ref` shows the
content of the handle, whatever its kind (`Storage.as_ref_spec`). Those with a
`Bytes` on the right call the former with the two exchanged, and `partial_cmp`
does not reverse the answer.
-/
namespace Geario.Buffers

/-- `<[u8] as Ord>::cmp`. -/
def slice_cmp : List UInt8 → List UInt8 → Ordering
  | [], [] => .eq
  | [], _ :: _ => .lt
  | _ :: _, [] => .gt
  | a :: s, b :: t => if a < b then .lt else if b < a then .gt else slice_cmp s t

/-- What a `Bytes` is compared with; a reference compares as what it points to. -/
inductive Other
  | slice (s : List UInt8) | array (s : List UInt8) | vec (s : List UInt8) | slice_ref (s : List UInt8)
  | str (s : String) | string (s : String) | str_ref (s : String)
  | bytes (b : Storage)

def Other.as_ref (h : Heap) : Other → List UInt8
  | slice s | array s | vec s | slice_ref s => s
  | str s | string s | str_ref s => s.toUTF8.toList
  | bytes b => b.content h

section

variable (h : Heap)

def Bytes.eq (b : Storage) (x : Other) : Bool := b.content h = x.as_ref h

def Bytes.partial_cmp (b : Storage) (x : Other) : Option Ordering := some (slice_cmp (b.content h) (x.as_ref h))

/-- `feed` is `<[u8] as Hash>::hash`. -/
def Bytes.hash {σ : Type} (feed : List UInt8 → σ → σ) (b : Storage) : σ → σ := feed (b.content h)

def Other.eq (x : Other) (b : Storage) : Bool :=
  match x with
  | bytes x => Bytes.eq h x (.bytes b)
  | x => Bytes.eq h b x

def Other.partial_cmp (x : Other) (b : Storage) : Option Ordering :=
  match x with
  | bytes x => Bytes.partial_cmp h x (.bytes b)
  | x => Bytes.partial_cmp h b x

end

lemma slice_cmp_eq (s t : List UInt8) : slice_cmp s t = compareOfLessAndEq s t := by
  induction s, t using slice_cmp.induct with
  | case1 | case2 | case3 => simp [slice_cmp, compareOfLessAndEq]
  | case4 a s b t h => simp [slice_cmp, compareOfLessAndEq, h, List.cons_lt_cons_iff]
  | case5 a s b t h h' =>
    have hne : a ≠ b := fun he => UInt8.lt_irrefl b (he ▸ h')
    simp [slice_cmp, compareOfLessAndEq, h, h', List.cons_lt_cons_iff, hne]
  | case6 a s b t h h' ih =>
    obtain rfl : a = b := UInt8.le_antisymm (UInt8.not_lt.1 h') (UInt8.not_lt.1 h)
    simp [slice_cmp, compareOfLessAndEq, ih, UInt8.lt_irrefl]

lemma slice_cmp_swap (s t : List UInt8) : slice_cmp t s = (slice_cmp s t).swap := by
  induction s, t using slice_cmp.induct with
  | case1 | case2 | case3 => rfl
  | case4 a s b t h => simp [slice_cmp, h, UInt8.lt_asymm h]
  | case5 a s b t h h' => simp [slice_cmp, h, h']
  | case6 a s b t h h' ih => simp [slice_cmp, h, h', ih]

lemma slice_cmp_comm_iff (s t : List UInt8) : slice_cmp s t = slice_cmp t s ↔ s = t := by
  refine ⟨fun h => ?_, fun h => h ▸ rfl⟩
  rw [slice_cmp_swap s t, slice_cmp_eq, compareOfLessAndEq] at h
  split at h
  · cases h
  · split at h
    next heq => exact heq
    · cases h

/-- A `Bytes` on the left is compared by content, and so are hashes. On the right, the answer is the reverse just when the
other is a `Bytes` too or the contents are equal. -/
theorem compare_iff {σ : Type} (feed : List UInt8 → σ → σ) (h : Heap) (b : Storage) (x : Other) :
    Bytes.partial_cmp h b x = some (compareOfLessAndEq (b.content h) (x.as_ref h)) ∧
    (Bytes.eq h b x = true ↔ b.content h = x.as_ref h) ∧ (x.eq h b = true ↔ b.content h = x.as_ref h) ∧
    (∀ c, Bytes.eq h b (.bytes c) = true → Bytes.hash h feed b = Bytes.hash h feed c) ∧
    Bytes.hash h feed b = feed (b.content h) ∧
    (x.partial_cmp h b = some (compareOfLessAndEq (b.content h) (x.as_ref h)).swap ↔
      (∃ y, x = .bytes y) ∨ b.content h = x.as_ref h) := by
  refine ⟨congrArg some (slice_cmp_eq _ _), decide_eq_true_iff, ?_, fun c hc => ?_, rfl, ?_⟩
  · cases x with
    | bytes y => exact decide_eq_true_iff.trans eq_comm
    | _ => exact decide_eq_true_iff
  · exact congrArg feed (of_decide_eq_true hc)
  · rw [← slice_cmp_eq, ← slice_cmp_swap]
    cases x with
    | bytes y => exact iff_of_true rfl (.inl ⟨y, rfl⟩)
    | _ => simp [Other.partial_cmp, Bytes.partial_cmp, slice_cmp_comm_iff]

/-- The `Bytes` `1 2 3` is greater than the slice `1 2`, which is greater than the `Bytes`. -/
theorem compare_not_reversed : ∃ b : Storage, Bytes.partial_cmp .empty b (.slice [1, 2]) = some .gt ∧
    (Other.slice [1, 2]).partial_cmp .empty b = some .gt :=
  ⟨.inline [1, 2, 3] (by decide), rfl, rfl⟩

end Geario.Buffers
