import Mathlib
/-!
# Integers in buffers

A `Buf` is read chunk by chunk. The readers of `nbytes` bytes fill the rest of the
eight with zeros whatever the sign.
-/
open List

namespace Geario.Buffers

/-- The chunks of a `Buf`; `chunk` never gives an empty one while bytes remain. -/
abbrev Chunks := List (List UInt8)

namespace Chunks

def chunk : Chunks → List UInt8
  | [] => []
  | [] :: cs => chunk cs
  | c :: _ => c

def advance : Chunks → Nat → Chunks
  | [], _ => []
  | c :: cs, cnt => if cnt < c.length then c.drop cnt :: cs else advance cs (cnt - c.length)

/-- The loop of `copy_to_slice` with `n` bytes to go; `fuel` bounds its rounds. -/
def copy : Nat → Nat → Chunks → Option (List UInt8 × Chunks)
  | _, 0, cs => some ([], cs)
  | 0, _, _ => none
  | fuel + 1, n, cs => do
    let cnt := min (chunk cs).length n
    let (dst, rest) ← copy fuel (n - cnt) (cs.advance cnt)
    return ((chunk cs).take cnt ++ dst, rest)

/-- `none` is the failed assertion. -/
def copy_to_slice (cs : Chunks) (n : Nat) : Option (List UInt8 × Chunks) :=
  if n ≤ cs.flatten.length then copy n n cs else none

end Chunks

inductive Kind
  | unsigned | signed

/-- The value of the bits of `size` bytes, in two's complement if signed. -/
def Kind.value (size n : Nat) : Kind → Int
  | unsigned => n
  | signed => Int.bmod n (256 ^ size)

inductive Order
  | be | le

def Order.arrange : Order → List UInt8 → List UInt8
  | be => reverse
  | le => id

def to_le_bytes : Nat → Nat → List UInt8
  | 0, _ => []
  | size + 1, n => UInt8.ofNat n :: to_le_bytes size (n / 256)

def from_le_bytes : List UInt8 → Nat
  | [] => 0
  | b :: bs => b.toNat + 256 * from_le_bytes bs

def to_bytes (o : Order) (size : Nat) (n : Int) : List UInt8 := o.arrange (to_le_bytes size (n % 256 ^ size).toNat)

def from_bytes (k : Kind) (o : Order) (buf : List UInt8) : Int := k.value buf.length (from_le_bytes (o.arrange buf))

/-- What the writers below append. -/
def put_fixed (o : Order) (size : Nat) (n : Int) : List UInt8 := to_bytes o size n

/-- The direct path where the first chunk has them all, and the copy. -/
def buf_get_impl (k : Kind) (o : Order) (size : Nat) (cs : Chunks) : Option (Int × Chunks) :=
  if size ≤ (Chunks.chunk cs).length then some (from_bytes k o ((Chunks.chunk cs).take size), Chunks.advance cs size)
  else do
    let (buf, cs) ← Chunks.copy_to_slice cs size
    return (from_bytes k o buf, cs)

def put_u16 := put_fixed .be 2
def put_u16_le := put_fixed .le 2
def put_i16 := put_fixed .be 2
def put_i16_le := put_fixed .le 2
def put_u32 := put_fixed .be 4
def put_u32_le := put_fixed .le 4
def put_i32 := put_fixed .be 4
def put_i32_le := put_fixed .le 4
def put_u64 := put_fixed .be 8
def put_u64_le := put_fixed .le 8
def put_i64 := put_fixed .be 8
def put_i64_le := put_fixed .le 8
def put_u128 := put_fixed .be 16
def put_u128_le := put_fixed .le 16
def put_i128 := put_fixed .be 16
def put_i128_le := put_fixed .le 16
def get_u16 := buf_get_impl .unsigned .be 2
def get_u16_le := buf_get_impl .unsigned .le 2
def get_i16 := buf_get_impl .signed .be 2
def get_i16_le := buf_get_impl .signed .le 2
def get_u32 := buf_get_impl .unsigned .be 4
def get_u32_le := buf_get_impl .unsigned .le 4
def get_i32 := buf_get_impl .signed .be 4
def get_i32_le := buf_get_impl .signed .le 4
def get_u64 := buf_get_impl .unsigned .be 8
def get_u64_le := buf_get_impl .unsigned .le 8
def get_i64 := buf_get_impl .signed .be 8
def get_i64_le := buf_get_impl .signed .le 8
def get_u128 := buf_get_impl .unsigned .be 16
def get_u128_le := buf_get_impl .unsigned .le 16
def get_i128 := buf_get_impl .signed .be 16
def get_i128_le := buf_get_impl .signed .le 16

def put_some (o : Order) (n : Int) (nbytes : Nat) : List UInt8 :=
  match o with
  | .be => (to_bytes .be 8 n).drop (8 - nbytes)
  | .le => (to_bytes .le 8 n).take nbytes

def get_some (k : Kind) (o : Order) (nbytes : Nat) (cs : Chunks) : Option (Int × Chunks) := do
  let (buf, cs) ← Chunks.copy_to_slice cs nbytes
  let zeros := replicate (8 - nbytes) 0
  return (from_bytes k o (match o with | .be => zeros ++ buf | .le => buf ++ zeros), cs)

def put_uint := put_some .be
def put_uint_le := put_some .le
def put_int := put_some .be
def put_int_le := put_some .le
def get_uint := get_some .unsigned .be
def get_uint_le := get_some .unsigned .le
def get_int := get_some .signed .be
def get_int_le := get_some .signed .le

def Kind.put : Kind → Order → Int → Nat → List UInt8
  | unsigned, .be => put_uint
  | unsigned, .le => put_uint_le
  | signed, .be => put_int
  | signed, .le => put_int_le

def Kind.get : Kind → Order → Nat → Chunks → Option (Int × Chunks)
  | unsigned, .be => get_uint
  | unsigned, .le => get_uint_le
  | signed, .be => get_int
  | signed, .le => get_int_le

def Kind.Fits (size : Nat) (n : Int) : Kind → Prop
  | unsigned => 0 ≤ n ∧ n < 256 ^ size
  | signed => -256 ^ size ≤ 2 * n ∧ 2 * n < 256 ^ size

namespace Chunks

lemma chunk_append (cs : Chunks) : ∃ rest, cs.flatten = chunk cs ++ rest := by
  fun_induction chunk cs with
  | case1 => exact ⟨[], rfl⟩
  | case2 cs ih => exact ih
  | case3 c cs => exact ⟨cs.flatten, rfl⟩

lemma chunk_ne_nil {cs : Chunks} (h : cs.flatten ≠ []) : chunk cs ≠ [] := by
  fun_induction chunk cs with
  | case1 => exact absurd rfl h
  | case2 cs ih => exact ih h
  | case3 c cs hne => exact fun heq => hne heq

lemma flatten_advance (cs : Chunks) (cnt : Nat) : (cs.advance cnt).flatten = cs.flatten.drop cnt := by
  fun_induction advance cs cnt with
  | case1 => simp
  | case2 c cs cnt hlt => simp [drop_append, Nat.sub_eq_zero_of_le hlt.le]
  | case3 c cs cnt hge ih => simp [ih, drop_append, Nat.le_of_not_lt hge]

lemma take_chunk {cs : Chunks} {n : Nat} (h : n ≤ (chunk cs).length) : (chunk cs).take n = cs.flatten.take n := by
  obtain ⟨rest, heq⟩ := chunk_append cs
  rw [heq, take_append_of_le_length h]

lemma copy_spec {fuel n : Nat} {cs : Chunks} (hf : n ≤ fuel) (hn : n ≤ cs.flatten.length) :
    ∃ rest, copy fuel n cs = some (cs.flatten.take n, rest) ∧ rest.flatten = cs.flatten.drop n := by
  induction fuel generalizing n cs with
  | zero => exact ⟨cs, by simp [copy, Nat.le_zero.1 hf]⟩
  | succ fuel ih =>
    cases n with
    | zero => exact ⟨cs, by simp [copy]⟩
    | succ n =>
      -- A round copies at least one byte, because bytes remain.
      have hpos : 0 < (chunk cs).length := length_pos_iff.2 (chunk_ne_nil (ne_nil_of_length_pos (by omega)))
      obtain ⟨cnt, hcnt⟩ : ∃ cnt, cnt = min (chunk cs).length (n + 1) := ⟨_, rfl⟩
      have hlen : (cs.advance cnt).flatten.length = cs.flatten.length - cnt := by
        rw [flatten_advance, length_drop]
      obtain ⟨rest, hcopy, hrest⟩ := @ih (n + 1 - cnt) (cs.advance cnt) (by omega) (by omega)
      refine ⟨rest, ?_, ?_⟩
      · simp only [copy, ← hcnt, hcopy, Option.bind_eq_bind, Option.bind_some, Option.pure_def]
        rw [take_chunk (by omega), flatten_advance, ← take_add, Nat.add_sub_of_le (by omega)]
      · rw [hrest, flatten_advance, drop_drop]
        congr 1
        omega

lemma copy_to_slice_spec {cs : Chunks} {bytes rest : List UInt8} {n : Nat} (hc : cs.flatten = bytes ++ rest)
    (hn : bytes.length = n) : ∃ cs', copy_to_slice cs n = some (bytes, cs') ∧ cs'.flatten = rest := by
  have hle : n ≤ cs.flatten.length := by simp [hc, hn]
  obtain ⟨cs', hcopy, hrest⟩ := copy_spec le_rfl hle
  rw [hc, take_left' hn] at hcopy
  rw [hc, drop_left' hn] at hrest
  exact ⟨cs', by rw [copy_to_slice, if_pos hle, hcopy], hrest⟩

end Chunks

lemma length_to_le_bytes (size n : Nat) : (to_le_bytes size n).length = size := by
  induction size generalizing n with
  | zero => rfl
  | succ size ih => rw [to_le_bytes, length_cons, ih]

lemma take_to_le_bytes {k size : Nat} (n : Nat) (h : k ≤ size) : (to_le_bytes size n).take k = to_le_bytes k n := by
  induction k generalizing size n with
  | zero => rfl
  | succ k ih =>
    cases size with
    | zero => omega
    | succ size => rw [to_le_bytes, to_le_bytes, take_succ_cons, ih _ (by omega)]

lemma from_to_le_bytes (size n : Nat) : from_le_bytes (to_le_bytes size n) = n % 256 ^ size := by
  induction size generalizing n with
  | zero => exact (Nat.mod_one n).symm
  | succ size ih => rw [to_le_bytes, from_le_bytes, ih, UInt8.toNat_ofNat', pow_succ' 256, Nat.mod_mul (a := 256)]

lemma from_le_bytes_zeros (bytes : List UInt8) (k : Nat) :
    from_le_bytes (bytes ++ replicate k 0) = from_le_bytes bytes := by
  induction bytes with
  | nil =>
    induction k with
    | zero => rfl
    | succ k ih => simpa [replicate_succ, from_le_bytes] using ih
  | cons b bytes ih => simp only [cons_append, from_le_bytes, ih]

lemma length_arrange (o : Order) (bytes : List UInt8) : (o.arrange bytes).length = bytes.length := by
  cases o <;> simp [Order.arrange]

lemma arrange_arrange (o : Order) (bytes : List UInt8) : o.arrange (o.arrange bytes) = bytes := by
  cases o <;> simp [Order.arrange]

lemma Kind.put_eq (k : Kind) (o : Order) : k.put o = put_some o := by
  cases k <;> cases o <;> rfl

lemma Kind.get_eq (k : Kind) (o : Order) : k.get o = get_some k o := by
  cases k <;> cases o <;> rfl

lemma put_some_eq (o : Order) (n : Int) {nbytes : Nat} (h : nbytes ≤ 8) :
    put_some o n nbytes = o.arrange (to_le_bytes nbytes (n % 256 ^ 8).toNat) := by
  rw [← take_to_le_bytes _ h]
  cases o with
  | le => rfl
  | be => rw [Order.arrange, reverse_take, length_to_le_bytes]; rfl

lemma emod_nonneg_lt (n : Int) (size : Nat) : 0 ≤ n % (256 : Int) ^ size ∧ n % 256 ^ size < 256 ^ size :=
  ⟨Int.emod_nonneg n (by positivity), Int.emod_lt_of_pos n (by positivity)⟩

lemma from_to_truncated (n : Int) {nbytes size : Nat} (h : nbytes ≤ size) :
    from_le_bytes (to_le_bytes nbytes (n % 256 ^ size).toNat) = (n % 256 ^ nbytes).toNat := by
  rw [from_to_le_bytes, ← Int.emod_emod_of_dvd n (pow_dvd_pow 256 h), Int.toNat_emod (emod_nonneg_lt n size).1 (by positivity)]
  norm_cast

section

variable (k : Kind) (o : Order) {n : Int} {size nbytes : Nat} {cs : Chunks} {rest : List UInt8}

lemma buf_get_impl_put (hc : cs.flatten = put_fixed o size n ++ rest) :
    ∃ cs', buf_get_impl k o size cs = some (k.value size (n % 256 ^ size).toNat, cs') ∧ cs'.flatten = rest := by
  have hlen : (put_fixed o size n).length = size := by rw [put_fixed, to_bytes, length_arrange, length_to_le_bytes]
  have hval : from_bytes k o (put_fixed o size n) = k.value size (n % 256 ^ size).toNat := by
    rw [from_bytes, hlen, put_fixed, to_bytes, arrange_arrange, from_to_truncated n le_rfl]
  rw [buf_get_impl]
  split
  next hdirect =>
    rw [Chunks.take_chunk hdirect, hc, take_left' hlen, hval]
    exact ⟨_, rfl, by rw [Chunks.flatten_advance, hc, drop_left' hlen]⟩
  · obtain ⟨cs', hcopy, hrest⟩ := Chunks.copy_to_slice_spec hc hlen
    exact ⟨cs', by rw [hcopy, ← hval]; rfl, hrest⟩

lemma get_some_put (hle : nbytes ≤ 8) (hc : cs.flatten = put_some o n nbytes ++ rest) :
    ∃ cs', get_some k o nbytes cs = some (k.value 8 (n % 256 ^ nbytes).toNat, cs') ∧ cs'.flatten = rest := by
  rw [put_some_eq o n hle] at hc
  obtain ⟨cs', hcopy, hrest⟩ := Chunks.copy_to_slice_spec hc (by rw [length_arrange, length_to_le_bytes])
  refine ⟨cs', ?_, hrest⟩
  rw [get_some, hcopy]
  cases o <;> simp [from_bytes, Order.arrange, from_le_bytes_zeros, ← from_to_truncated n hle, length_to_le_bytes, hle]

end

lemma value_of_fits {k : Kind} {size : Nat} {n : Int} (hf : k.Fits size n) : k.value size (n % 256 ^ size).toNat = n := by
  have hpos := (emod_nonneg_lt n size).1
  cases k with
  | unsigned => rw [Kind.value, Int.toNat_of_nonneg hpos, Int.emod_eq_of_lt hf.1 hf.2]
  | signed =>
    have hmod := Int.emod_bmod n (256 ^ size)
    push_cast at hmod
    rw [Kind.value, Int.toNat_of_nonneg hpos, hmod]
    refine Int.bmod_eq_of_le_mul_two ?_ ?_
    · push_cast
      linarith [hf.1]
    · push_cast
      linarith [hf.2]

/-- Eight bytes of which only `nbytes` were written: the sign is lost. -/
lemma value_eight_iff {k : Kind} {nbytes : Nat} {n : Int} (hle : nbytes ≤ 8) (hf : k.Fits nbytes n) :
    k.value 8 (n % 256 ^ nbytes).toNat = n ↔ k = .unsigned ∨ 0 ≤ n ∨ nbytes = 8 := by
  rcases hle.eq_or_lt with rfl | hlt
  · exact iff_of_true (value_of_fits hf) (.inr (.inr rfl))
  cases k with
  | unsigned => exact iff_of_true (value_of_fits hf) (.inl rfl)
  | signed =>
    obtain ⟨hpos, hlast⟩ := emod_nonneg_lt n nbytes
    have hpow : (256 : Int) ^ nbytes ≤ 256 ^ 7 := pow_le_pow_right₀ (by decide) (by omega)
    rw [Kind.value, Int.toNat_of_nonneg hpos, Int.bmod_eq_of_le_mul_two (by omega) (by omega)]
    have hup := hf.2
    refine ⟨fun heq => .inr (.inl (heq ▸ hpos)), fun h => Int.emod_eq_of_lt ?_ ?_⟩ <;> simp_all <;> omega

/-- Reading back what was written, however the buffer is split. -/
theorem integer_round_trip_iff {k : Kind} {o : Order} {n : Int} {nbytes : Nat} {cs : Chunks} {rest : List UInt8} (hle : nbytes ≤ 8)
    (hf : k.Fits nbytes n) (hc : cs.flatten = k.put o n nbytes ++ rest) :
    ((∃ cs', k.get o nbytes cs = some (n, cs') ∧ cs'.flatten = rest) ↔ k = .unsigned ∨ 0 ≤ n ∨ nbytes = 8) ∧
      ∀ size m cs rest, k.Fits size m → cs.flatten = put_fixed o size m ++ rest →
        ∃ cs', buf_get_impl k o size cs = some (m, cs') ∧ cs'.flatten = rest := by
  refine ⟨?_, fun size m cs rest hm hcs => ?_⟩
  · rw [k.put_eq] at hc
    obtain ⟨cs', hget, hrest⟩ := get_some_put k o hle hc
    rw [k.get_eq, hget, ← value_eight_iff hle hf]
    simp [hrest]
  · obtain ⟨cs', hget, hrest⟩ := buf_get_impl_put k o hcs
    exact ⟨cs', by rw [hget, value_of_fits hm], hrest⟩

/-- `0x01ff` in two chunks. -/
theorem integer_round_trip_chunks : ∃ cs', get_int 2 [[1], [], [255, 7]] = some (511, cs') ∧ cs'.flatten = [7] :=
  (integer_round_trip_iff (k := .signed) (o := .be) (n := 511) (by decide) ⟨by decide, by decide⟩ rfl).1.2 (.inr (.inl (by decide)))

theorem negative_reads_positive : get_int 2 [put_int (-1) 2] = some (65535, []) := by
  decide

end Geario.Buffers
