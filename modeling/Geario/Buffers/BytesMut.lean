import Geario.Buffers.Bytes
/-!
# `BytesMut`

A `BytesMut` owns the tail of a shared buffer. It writes behind its content,
hands out the front as `Bytes`, and asks for more room: by moving its content
to the front of the allocation when nobody else points there, otherwise by
copying it to a new one.

`BufOp` is the list of its methods and `BufOp.model` their meaning on lists.
The rule `BufOp.run_spec` asks that no allocation of `2 ^ 32` bytes or more,
header included, is requested: `u32` fields do not describe a larger one.
-/
open Lib List Option

namespace Geario.Buffers

open SharedVec Ref StorageVec Heap Outcome

namespace StorageVec

/-- `other` of `split_to`: a copy of a short front, another window of a long one. -/
def split_to_other (v at_ : Nat) : Mem Storage := do
  let s ← deref v
  if at_ ≤ INLINE_CAP then
    if s.offset + at_ ≤ s.mem.length then Storage.from_ptr_inline (slice s.mem s.offset at_) else throw .memory
  else do
    update v SharedVec.retain
    return .vec v s.offset at_

def split_to (v at_ : Nat) : Mem Storage := do
  let other ← split_to_other v at_
  update v (SharedVec.set_start (at_ % 2 ^ 32))
  return other

def freeze (v : Nat) : Mem Storage := do
  let s ← deref v
  if s.len ≤ INLINE_CAP then
    let st ← Storage.from_ptr_inline s.as_ref
    release_shared_vec v
    return st
  else return .vec v s.offset s.len

end StorageVec

namespace BytesMut

def with_capacity (capacity : Nat) : Mem Nat := StorageVec.with_capacity capacity

def new : Mem Nat := StorageVec.with_capacity MIN_CAPACITY

def copy_from_slice (src : List UInt8) : Mem Nat := StorageVec.from_slice src.length src

def split_to (v at_ : Nat) : Mem Storage := do
  let s ← deref v
  if at_ ≤ s.len then StorageVec.split_to v at_ else throw .assertion

def take (v : Nat) : Mem Storage := do
  let s ← deref v
  StorageVec.split_to v s.len

def advance_to (v cnt : Nat) : Mem Unit := update v (SharedVec.set_start (cnt % 2 ^ 32))

def put_slice (v : Nat) (src : List UInt8) : Mem Nat := do
  let v ← StorageVec.reserve v src.length
  update v (SharedVec.put_slice src)
  return v

def put_u8 (v : Nat) (n : UInt8) : Mem Nat := do
  let v ← StorageVec.reserve v 1
  update v (SharedVec.put_u8 n)
  return v

/-- The bytes of an iterator one by one, from the `idx`-th on. -/
def extend_loop (lower : Nat) : Nat → Nat → List UInt8 → Mem Nat
  | v, _, [] => pure v
  | v, idx, b :: rest => do
    let v ← (if idx ≥ lower then StorageVec.reserve v 1 else pure v)
    let v ← put_u8 v b
    extend_loop lower v (idx + 1) rest

/-- `extend` with an iterator that yields `items` and announced at least `lower` of them. -/
def extend (v lower : Nat) (items : List UInt8) : Mem Nat := do
  let v ← StorageVec.reserve v lower
  extend_loop lower v 0 items

end BytesMut

/-! ## Rules -/

variable {h : Heap} {F : Multiset Ref} {E : Panic → Prop} {v n : Nat} {s : SharedVec}

section

variable (hs : Safe h ({.own v} + F)) (hv : h.vecs v = some s)
include hs hv

lemma Safe.length_own : (content h (.own v)).length = s.len := by
  rw [content_own hv, (hs.wf hv).length_as_ref]

lemma update_own_spec {m : SharedVec.Upd Unit} {l : List UInt8}
    (hm : Outcome m s E fun _ s' => s.Mutates s' ∧ s'.as_ref = l) :
    Outcome (update v m) h E fun _ h' => Keeps h {.own v} F h' {.own v} ∧ content h' (.own v) = l := by
  rw [outcome_update hv]
  refine hm.mono fun _ s' ⟨hmut, hp⟩ => ⟨hmut.keeps hs hv, ?_⟩
  rwa [content_own vecs_put_self]

end

namespace StorageVec

section

variable (hs : Safe h ({.own v} + F))
include hs

lemma reserve_capacity_spec (hfit : METADATA_SIZE + n < 2 ^ 32)
    (hof : n < (content h (.own v)).length → E .overflow) :
    Outcome (reserve_capacity v n) h E fun v' h' =>
      Keeps h {.own v} F h' {.own v'} ∧ content h' (.own v') = content h (.own v) ∧
        h'.room v' = n - (content h (.own v)).length := by
  obtain ⟨s, hv, hwf⟩ := hs.live_own
  have hlen := hs.length_own hv
  have hsm := hwf.small
  have hw := hwf.window
  have hr := hwf.room
  simp only [reserve_capacity, outcome_bind]
  rw [outcome_deref hv, ← content_own hv]
  rcases lt_or_ge n (content h (.own v)).length with hlt | hge
  · -- too small a request stops in `create`
    have hmax : ¬ LAYOUT_MAX < METADATA_SIZE + n := by rw [LAYOUT_MAX]; omega
    simp only [create, outcome_bind, outcome_get]
    rw [if_neg hmax, if_pos (by rw [Nat.mod_eq_of_lt (by omega), Nat.mod_eq_of_lt (by omega)]; exact hlt)]
    exact hof hlt
  · refine (create_own_spec hs hfit hge (by simp)).mono ?_
    rintro v' h' ⟨hnew, hk, hc, hroom⟩
    refine (release_spec (r := .own v) hk.safe.swap).mono ?_
    rintro _ h'' ⟨hk', ho⟩
    have hne : v' ≠ v := by
      rintro rfl
      rw [hv] at hnew
      cases hnew
    have hsame := ho v' hne
    refine ⟨hk.exchange hk', ?_, ?_⟩
    · rw [content, show h''.vecs (own v').ptr = h'.vecs v' from hsame]
      exact hc
    · rw [room, hsame]
      exact hroom

lemma reserve_spec (hfit : METADATA_SIZE + ((content h (.own v)).length + n) < 2 ^ 32) :
    Outcome (reserve v n) h E fun v' h' =>
      Keeps h {.own v} F h' {.own v'} ∧ content h' (.own v') = content h (.own v) ∧ n ≤ h'.room v' := by
  obtain ⟨s, hv, hwf⟩ := hs.live_own
  have hlen := hs.length_own hv
  have hw := hwf.window
  simp only [reserve, outcome_bind]
  rw [outcome_deref hv]
  refine ite (fun hle => ?_) fun hgt => ?_
  · exact ⟨.refl hs, rfl, by rwa [room_eq hv]⟩
  simp only [reserve_inner, add_usize, outcome_bind]
  rw [outcome_deref hv, if_pos (by omega), outcome_pure]
  refine ite (fun hc => ?_) fun hc => ?_
  · rw [outcome_bind, outcome_update hv]
    refine (reclaim_spec hwf hc.1).mono fun _ s' ⟨hm, href, hrem⟩ => ⟨hm.keeps hs hv, ?_, ?_⟩
    · rw [content_own vecs_put_self, content_own hv, href]
    · rw [room_eq vecs_put_self, hrem]
      omega
  · refine (reserve_capacity_spec hs (hlen ▸ hfit) fun hlt => absurd hlt (by omega)).mono fun v' h' ⟨hk, hc, hroom⟩ => ?_
    exact ⟨hk, hc, by omega⟩

lemma resize_spec {value : UInt8} (hfit : METADATA_SIZE + n < 2 ^ 32) :
    Outcome (resize v n value) h E fun v' h' =>
      Keeps h {.own v} F h' {.own v'} ∧ content h' (.own v') =
        (content h (.own v)).take n ++ replicate (n - (content h (.own v)).length) value := by
  obtain ⟨s, hv, hwf⟩ := hs.live_own
  have hlen := hs.length_own hv
  simp only [resize, outcome_bind]
  rw [outcome_deref hv, hlen]
  refine ite (fun hgt => ?_) fun hle => ?_
  · refine (reserve_spec hs (by rw [hlen]; omega)).seq fun v' h' ⟨hk, hc, hroom⟩ => ?_
    obtain ⟨s', hv', hwf'⟩ := hk.safe.live_own
    rw [room_eq hv'] at hroom
    refine (update_own_spec hk.safe hv' (fill_spec hwf' hroom)).seq fun _ h'' ⟨hk', hc'⟩ => ?_
    refine outcome_pure.2 ⟨hk.trans hk', ?_⟩
    rw [hc', ← content_own hv', hc, take_of_length_le (by omega)]
  · refine (update_own_spec hs hv (truncate_spec hwf)).seq fun _ h' ⟨hk, hc⟩ => outcome_pure.2 ⟨hk, ?_⟩
    rw [hc, ← content_own hv, Nat.sub_eq_zero_of_le (by omega), replicate_zero, append_nil]

lemma split_to_spec (hab : E .abort) (hn : n ≤ (content h (.own v)).length) :
    Outcome (split_to v n) h E fun other h' =>
      Keeps h {.own v} F h' ({.own v} + other.refs) ∧ content h' (.own v) = (content h (.own v)).drop n ∧
        other.content h' = (content h (.own v)).take n := by
  obtain ⟨s, hv, hwf⟩ := hs.live_own
  have hlen := hs.length_own hv
  have hw := hwf.window
  have hr := hwf.room
  have hsm := hwf.small
  have hn' : n ≤ s.len := hlen ▸ hn
  have hfront : slice s.mem s.offset n = (content h (.own v)).take n := by
    rw [content_own hv, as_ref, take_slice hn']
  have hmod : n % 2 ^ 32 = n := Nat.mod_eq_of_lt (by omega)
  simp only [split_to, split_to_other, outcome_bind, hmod]
  rw [outcome_deref hv]
  refine ite (fun hi => ?_) fun hi => ?_
  · rw [if_pos (by omega)]
    refine (Storage.from_ptr_inline_spec (by rw [length_slice (by omega)]; exact hi)).mono ?_
    rintro _ _ ⟨rfl, rfl⟩
    refine (update_own_spec hs hv ((set_start_spec hwf (by omega)).mono fun _ _ h => ⟨h.1, h.2.1⟩)).mono ?_
    rintro _ h' ⟨hk, hc⟩
    refine outcome_pure.2 ⟨?_, by rw [hc, content_own hv], hfront⟩
    rwa [show (Storage.inline _ _).refs = 0 from rfl, add_zero]
  · -- the window is counted first and the start moved behind it
    simp only [outcome_bind]
    rw [outcome_update hv]
    simp only [retain, outcome_bind, outcome_get]
    refine ite (fun _ => hab) fun _ => ?_
    have hwf1 : SharedVec.Wf { s with ref_count := s.ref_count + 1 } := ⟨hwf.data, hw, hr, hsm, hwf.tagged⟩
    rw [outcome_set, outcome_pure, outcome_update vecs_put_self]
    refine (set_start_spec hwf1 (show n ≤ s.capacity by omega)).mono ?_
    rintro _ s' ⟨hm, hc, hoff, hmem⟩
    have hmem : s'.mem = s.mem := hmem
    have hoff : s'.offset = s.offset + n := hoff
    rw [put_put]
    refine ⟨Keeps.owner hs hv hm.wf hm.length ?_ (.inr ⟨by omega, by rw [hmem]⟩) fun r hr => ?_, ?_, ?_⟩
    · rw [hm.ref_count]
      rfl
    · obtain rfl := Multiset.mem_singleton.1 hr
      exact ⟨rfl, .inl (by rw [hmem]; omega), .inl (by omega)⟩
    · rw [content_own vecs_put_self, hc, content_own hv]
      rfl
    · rw [Storage.content, content_win vecs_put_self, hmem, hfront]

end

lemma freeze_spec {r : Ref} (hr : r = .own v ∨ r = .page v) (hs : Safe h ({r} + F)) :
    Outcome (freeze v) h E fun st h' => Keeps h {r} F h' st.refs ∧ st.content h' = r.content h ∧ st.Small := by
  obtain ⟨s, hv, hwf, -⟩ := hs.live (r := r) (by simp)
  have hp : r.ptr = v := by rcases hr with rfl | rfl <;> rfl
  have hread : r.content h = s.as_ref := by rw [content_eq hv]; rcases hr with rfl | rfl <;> rfl
  have hb : ¬ r.Before s := by rcases hr with rfl | rfl <;> exact id
  have hw := hwf.window
  have hroom := hwf.room
  rw [hp] at hv
  simp only [freeze, outcome_bind]
  rw [outcome_deref hv]
  refine ite (fun hi => ?_) fun hi => ?_
  · simp only [outcome_bind]
    refine (Storage.from_ptr_inline_spec (by rwa [hwf.length_as_ref])).mono ?_
    rintro _ _ ⟨rfl, rfl⟩
    rw [← hp]
    exact (release_spec hs).mono fun _ h' hk => outcome_pure.2 ⟨hk.1, hread.symm, trivial⟩
  · refine outcome_pure.2 ⟨Keeps.convert hs (hp ▸ hv) hp.symm (fun _ => .inl (by omega)) (by simp) fun h => absurd h hb, ?_,
      trivial⟩
    rw [Storage.content, content_win hv, hread]
    rfl

end StorageVec

namespace BytesMut

lemma put_slice_spec {src : List UInt8} (hs : Safe h ({.own v} + F))
    (hfit : METADATA_SIZE + ((content h (.own v)).length + src.length) < 2 ^ 32) :
    Outcome (put_slice v src) h E fun v' h' =>
      Keeps h {.own v} F h' {.own v'} ∧ content h' (.own v') = content h (.own v) ++ src := by
  refine (reserve_spec hs hfit).seq fun v' h' ⟨hk, hc, hroom⟩ => ?_
  obtain ⟨s', hv', hwf'⟩ := hk.safe.live_own
  rw [room_eq hv'] at hroom
  refine (update_own_spec hk.safe hv' ((SharedVec.put_slice_spec hwf' hroom).mono fun _ _ h => ⟨h.1, h.2.1⟩)).seq
    fun _ h'' ⟨hk', hc'⟩ => outcome_pure.2 ⟨hk.trans hk', ?_⟩
  rw [hc', ← content_own hv', hc]

lemma put_u8_spec {b : UInt8} (hs : Safe h ({.own v} + F))
    (hfit : METADATA_SIZE + ((content h (.own v)).length + 1) < 2 ^ 32) :
    Outcome (put_u8 v b) h E fun v' h' =>
      Keeps h {.own v} F h' {.own v'} ∧ content h' (.own v') = content h (.own v) ++ [b] := by
  refine (reserve_spec hs hfit).seq fun v' h' ⟨hk, hc, hroom⟩ => ?_
  obtain ⟨s', hv', hwf'⟩ := hk.safe.live_own
  rw [room_eq hv'] at hroom
  refine (update_own_spec hk.safe hv' (SharedVec.put_u8_spec hwf' hroom)).seq
    fun _ h'' ⟨hk', hc'⟩ => outcome_pure.2 ⟨hk.trans hk', ?_⟩
  rw [hc', ← content_own hv', hc]

variable {items : List UInt8}

lemma extend_loop_spec {lower : Nat} (idx : Nat) (hs : Safe h ({.own v} + F))
    (hfit : METADATA_SIZE + ((content h (.own v)).length + items.length) < 2 ^ 32) :
    Outcome (extend_loop lower v idx items) h E fun v' h' =>
      Keeps h {.own v} F h' {.own v'} ∧ content h' (.own v') = content h (.own v) ++ items := by
  induction items generalizing h v idx with
  | nil => exact ⟨.refl hs, (append_nil _).symm⟩
  | cons b rest ih =>
    rw [length_cons] at hfit
    have hres : Outcome (if idx ≥ lower then reserve v 1 else pure v) h E fun v' h' =>
        Keeps h {.own v} F h' {.own v'} ∧ content h' (.own v') = content h (.own v) := by
      refine ite (fun _ => ?_) fun _ => ⟨.refl hs, rfl⟩
      exact (reserve_spec hs (by omega)).mono fun _ _ h => ⟨h.1, h.2.1⟩
    refine hres.seq fun v1 h1 ⟨hk1, hc1⟩ => ?_
    refine (put_u8_spec hk1.safe (by rw [hc1]; omega)).seq fun v2 h2 ⟨hk2, hc2⟩ => ?_
    have hlen : (content h2 (.own v2)).length = (content h (.own v)).length + 1 := by
      rw [hc2, hc1, length_append, length_singleton]
    refine (ih (idx + 1) hk2.safe (by omega)).mono fun v3 h3 ⟨hk3, hc3⟩ => ⟨(hk1.trans hk2).trans hk3, ?_⟩
    rw [hc3, hc2, hc1, append_assoc, singleton_append]

lemma extend_spec {lower : Nat} (hs : Safe h ({.own v} + F))
    (hlow : METADATA_SIZE + ((content h (.own v)).length + lower) < 2 ^ 32)
    (hfit : METADATA_SIZE + ((content h (.own v)).length + items.length) < 2 ^ 32) :
    Outcome (extend v lower items) h E fun v' h' =>
      Keeps h {.own v} F h' {.own v'} ∧ content h' (.own v') = content h (.own v) ++ items := by
  refine (reserve_spec hs hlow).seq fun v' h' ⟨hk, hc, _⟩ => ?_
  refine (extend_loop_spec 0 hk.safe (by rwa [hc])).mono fun v'' h'' ⟨hk', hc'⟩ => ⟨hk.trans hk', ?_⟩
  rw [hc', hc]

lemma advance_to_spec (hs : Safe h ({.own v} + F)) (hass : (content h (.own v)).length < n → E .assertion) :
    Outcome (advance_to v n) h E fun _ h' =>
      Keeps h {.own v} F h' {.own v} ∧
        (n ≤ (content h (.own v)).length → content h' (.own v) = (content h (.own v)).drop n) := by
  obtain ⟨s, hv, hwf⟩ := hs.live_own
  have hlen := hs.length_own hv
  have hw := hwf.window
  have hr := hwf.room
  have hsm := hwf.small
  rcases lt_or_ge s.capacity (n % 2 ^ 32) with hlt | hge
  · rw [advance_to, outcome_update hv]
    refine ((set_start_beyond hlt).weaken ?_)
    rintro _ rfl
    refine hass (Nat.lt_of_not_le fun hle => ?_)
    omega
  · refine (update_own_spec hs hv ((set_start_spec hwf hge).mono fun _ _ h => ⟨h.1, h.2.1⟩)).mono
      fun _ h' ⟨hk, hc⟩ => ⟨hk, fun hn => ?_⟩
    rw [hc, content_own hv, Nat.mod_eq_of_lt (by omega)]

end BytesMut

/-! ## All of them -/

inductive BufOp
  | put_slice (src : List UInt8)
  | put_u8 (n : UInt8)
  | extend (lower : Nat) (items : List UInt8)
  | reserve (additional : Nat)
  | reserve_capacity (cap : Nat)
  | resize (new_len : Nat) (value : UInt8)
  | truncate (len : Nat)
  | clear
  | advance_to (cnt : Nat)
  /-- bytes written through `as_mut` -/
  | write (pos : Nat) (src : List UInt8)
  | split_to (at_ : Nat)
  | take
  deriving DecidableEq

namespace BufOp

def run (v : Nat) : BufOp → Mem (Nat × Option Storage)
  | put_slice src => do return (← BytesMut.put_slice v src, none)
  | put_u8 n => do return (← BytesMut.put_u8 v n, none)
  | extend lower items => do return (← BytesMut.extend v lower items, none)
  | reserve additional => do return (← StorageVec.reserve v additional, none)
  | reserve_capacity cap => do return (← StorageVec.reserve_capacity v cap, none)
  | resize new_len value => do return (← StorageVec.resize v new_len value, none)
  | truncate len => do
    update v (SharedVec.truncate len)
    return (v, none)
  | clear => do
    update v (SharedVec.truncate 0)
    return (v, none)
  | advance_to cnt => do
    BytesMut.advance_to v cnt
    return (v, none)
  | write pos src => do
    update v (SharedVec.write_at pos src)
    return (v, none)
  | split_to at_ => do return (v, some (← BytesMut.split_to v at_))
  | take => do return (v, some (← BytesMut.take v))

def model (l : List UInt8) : BufOp → Option (List UInt8 × Option (List UInt8))
  | put_slice src => some (l ++ src, none)
  | put_u8 n => some (l ++ [n], none)
  | extend _ items => some (l ++ items, none)
  | reserve _ => some (l, none)
  | reserve_capacity cap => if l.length ≤ cap then some (l, none) else none
  | resize new_len value => some (l.take new_len ++ List.replicate (new_len - l.length) value, none)
  | truncate len => some (l.take len, none)
  | clear => some ([], none)
  | advance_to cnt => if cnt ≤ l.length then some (l.drop cnt, none) else none
  | write pos src => if pos + src.length ≤ l.length then some (splice l pos src, none) else none
  | split_to at_ => if at_ ≤ l.length then some (l.drop at_, some (l.take at_)) else none
  | take => some ([], some l)

def request (len : Nat) : BufOp → Nat
  | put_slice src => len + src.length
  | put_u8 _ => len + 1
  | extend lower items => len + max lower items.length
  | reserve additional => len + additional
  | reserve_capacity cap => cap
  | resize new_len _ => new_len
  | _ => 0

def Ok (len : Nat) : BufOp → Prop
  | reserve_capacity cap => len ≤ cap
  | advance_to n | split_to n => n ≤ len
  | write pos src => pos + src.length ≤ len
  | _ => True

lemma run_spec (op : BufOp) (hs : Safe h ({.own v} + F))
    (hfit : METADATA_SIZE + op.request (content h (.own v)).length < 2 ^ 32) (hab : E .abort)
    (hbad : ¬ op.Ok (content h (.own v)).length → E .assertion ∧ E .overflow ∧ E .bounds) :
    Outcome (op.run v) h E fun p h' =>
      Keeps h {.own v} F h' ({.own p.1} + BytesOp.outRefs p.2) ∧
        ∀ r, op.model (content h (.own v)) = some r → (content h' (.own p.1), p.2.map (·.content h')) = r := by
  obtain ⟨s, hv, hwf⟩ := hs.live_own
  have hlen := hs.length_own hv
  -- most methods return nothing and give the new content outright
  have hplain : ∀ {v' h' l}, Keeps h {.own v} F h' {.own v'} ∧ content h' (.own v') = l →
      Keeps h {.own v} F h' ({.own v'} + BytesOp.outRefs none) ∧ ∀ r, some (l, none) = some r →
        (content h' (.own v'), (none : Option Storage).map (·.content h')) = r := by
    rintro v' h' l ⟨hk, rfl⟩
    refine ⟨by rwa [BytesOp.outRefs, elim_none, add_zero], fun r hr => ?_⟩
    rw [← some.inj hr, map_none]
  cases op with
  | put_slice src => exact (BytesMut.put_slice_spec hs hfit).seq fun v' h' hk => hplain hk
  | put_u8 b => exact (BytesMut.put_u8_spec hs hfit).seq fun v' h' hk => hplain hk
  | extend lower items =>
    rw [request] at hfit
    exact (BytesMut.extend_spec hs (by omega) (by omega)).seq fun v' h' hk => hplain hk
  | reserve n => exact (reserve_spec hs hfit).seq fun v' h' hk => hplain ⟨hk.1, hk.2.1⟩
  | reserve_capacity n =>
    refine (reserve_capacity_spec hs hfit fun hlt => (hbad (not_le.2 hlt)).2.1).seq fun v' h' hk => ?_
    have := hplain ⟨hk.1, hk.2.1⟩
    refine ⟨this.1, fun r hr => this.2 r ?_⟩
    obtain ⟨-, hr⟩ := ite_none_right_eq_some.1 hr
    exact hr
  | resize n value => exact (resize_spec hs hfit).seq fun v' h' hk => hplain hk
  | truncate n =>
    rw [model, content_own hv]
    exact (update_own_spec hs hv (truncate_spec hwf)).seq fun _ h' hk => hplain hk
  | clear =>
    refine (update_own_spec hs hv (truncate_spec hwf)).seq fun _ h' hk => hplain ⟨hk.1, ?_⟩
    rw [hk.2, take_zero]
  | advance_to n =>
    refine (BytesMut.advance_to_spec hs fun hlt => (hbad (not_le.2 hlt)).1).seq ?_
    rintro _ h' ⟨hk, hc⟩
    refine ⟨(hplain ⟨hk, rfl⟩).1, fun r hr => ?_⟩
    obtain ⟨hn, hr⟩ := ite_none_right_eq_some.1 hr
    exact (hplain ⟨hk, hc hn⟩).2 r hr
  | write pos src =>
    by_cases hok : pos + src.length ≤ s.len
    · refine (update_own_spec hs hv (write_at_spec hwf hok)).seq fun _ h' hk => ?_
      rw [model, if_pos (hlen ▸ hok), content_own hv]
      exact hplain hk
    · rw [run, outcome_bind, outcome_update hv]
      refine (write_at_beyond hok).weaken ?_
      rintro _ rfl
      exact (hbad fun h => hok (hlen ▸ h)).2.2
  | split_to n =>
    simp only [run, BytesMut.split_to, outcome_bind]
    rw [outcome_deref hv]
    refine ite (fun hn => ?_) fun hn => (hbad fun h => hn (hlen ▸ h)).1
    refine (split_to_spec hs hab (hlen ▸ hn)).mono ?_
    rintro other h' ⟨hk, hc, hc'⟩
    refine outcome_pure.2 ⟨hk, fun r hr => ?_⟩
    rw [model, if_pos (hlen ▸ hn)] at hr
    rw [← some.inj hr, hc, map_some, hc']
  | take =>
    simp only [run, BytesMut.take, outcome_bind]
    rw [outcome_deref hv]
    refine (split_to_spec hs hab (le_of_eq hlen.symm)).mono ?_
    rintro other h' ⟨hk, hc, hc'⟩
    refine outcome_pure.2 ⟨hk, fun r hr => ?_⟩
    rw [← some.inj hr, hc, map_some, hc', drop_of_length_le (le_of_eq hlen), take_of_length_le (le_of_eq hlen)]

end BufOp

end Geario.Buffers
