import Geario.Buffers.Forward
/-!
# Read buffers

A driver reads into a buffer from its thread's pool, or into the one that holds
what was not consumed yet. `set_read_buf` takes any watermarks, and buffers are
shared by configurations with one index, so one may have been cached under other
watermarks than those it is taken out with.
-/
open Lib

namespace Geario.Buffers

open SharedVec

/-- With `high = 0` the loop of `resize_min` would not end. -/
structure BufConfig where
  high : Nat
  low : Nat
  cache_size : Nat
  pos : 1 ≤ high

namespace BufConfig

variable (c : BufConfig)

/-- The loop of `resize_min`; `none` is an overflow. -/
def new_cap (size avail cap : Nat) : Option Nat :=
  if avail < size then
    if avail + c.high < 2 ^ 64 ∧ cap + c.high < 2 ^ 64 then new_cap size (avail + c.high) (cap + c.high) else none
  else some cap
termination_by size - avail
decreasing_by have := c.pos; omega

def resize_min (v size : Nat) : Mem Nat := do
  let avail ← BytesMut.remaining_mut v
  if avail < size then
    match c.new_cap size avail (← deref v).capacity with
    | some cap => StorageVec.reserve_capacity v cap
    | none => throw .overflow
  else return v

def resize (v : Nat) : Mem Nat := do
  if (← BytesMut.remaining_mut v) < c.low then c.resize_min v c.high else return v

/-- The pool's last buffer, which is popped, or a new one. -/
def get : List Nat → Mem Nat
  | v :: _ => return v
  | [] => BytesMut.with_capacity c.high

def release (cache : List Nat) (v : Nat) : Mem (List Nat) := do
  let cap := (← deref v).capacity
  if (cap > c.low ∧ cap ≤ c.high) ∧ cache.length < c.cache_size then
    update v (truncate 0)
    return v :: cache
  else
    release_shared_vec v
    return cache

/-- `IoContext::get_read_buf`, with the flag and the stored buffer it looks at. -/
def get_read_buf (read_ready : Bool) (stored : Option Nat) (cache : List Nat) : Mem Nat :=
  match read_ready, stored with
  | false, some v => c.resize v
  | _, _ => c.get cache

/-- How often `high` has to be added to `avail` free bytes until there are `size`. -/
def rounds (size avail : Nat) : Nat := (size - avail + (c.high - 1)) / c.high

/-- A buffer of `len` bytes with `avail` free ones can be grown for `size`: the capacity that takes can be allocated, and one
that does not fit the header still leaves `n` bytes free. -/
def Grows (len avail size n : Nat) : Prop :=
  METADATA_SIZE + (len + avail + c.rounds size avail * c.high) ≤ LAYOUT_MAX ∧
    (len + avail + c.rounds size avail * c.high < 2 ^ 32 ∨ len + n ≤ (len + avail + c.rounds size avail * c.high) % 2 ^ 32)

end BufConfig

/-- The pool over a run. The other calls leave the buffers in it alone, whose only handles these are (`Keeps`). -/
inductive Pooled : Heap → List Nat → Prop
  | empty {h} : Pooled h []
  | call {h h' cache} (before : Pooled h cache)
      (same : ∀ v ∈ cache, Ref.content h' (.own v) = Ref.content h (.own v) ∧ h'.room v = h.room v) : Pooled h' cache
  | get {h h' cache v} (c : BufConfig) (before : Pooled h cache) (run : c.get cache h = .ok (v, h')) : Pooled h' cache.tail
  | release {h h' cache cache' v s} (c : BufConfig) (before : Pooled h cache) (other : v ∉ cache) (live : h.vecs v = some s)
      (wf : s.Wf) (run : c.release cache v h = .ok (cache', h')) : Pooled h' cache'

/-- Empty, with a free byte. -/
def Spare (h : Heap) (v : Nat) : Prop := Ref.content h (.own v) = [] ∧ 1 ≤ h.room v

variable {c : BufConfig} {h h' : Heap} {F : Multiset Ref} {E : Panic → Prop} {v w cap size n : Nat} {s : SharedVec} {cache : List Nat}

lemma Spare.congr (hw : Spare h w) (hv : h'.vecs w = h.vecs w) : Spare h' w := by
  unfold Spare Heap.room Ref.content at hw ⊢
  rwa [show h'.vecs (Ref.own w).ptr = h.vecs w from hv, hv]

lemma clear_room (hs : s.Wf) : Outcome (truncate 0) s E fun _ s' => s.capacity ≤ s'.remaining := by
  have hw := hs.window
  have hr := hs.room
  have hsm := hs.small
  have hd := hs.data
  simp only [truncate, outcome_bind, outcome_get]
  refine Outcome.ite (fun _ => ?_) fun _ => Outcome.ite (fun hlt => ?_) fun hge => ?_
  · rw [outcome_set, Nat.mod_eq_of_lt (by omega)]
    dsimp only
    omega
  · rw [outcome_set_len hs (Nat.zero_le _)]
    exact le_rfl
  · rw [outcome_pure]
    omega

lemma release_other (hv : h.vecs v = some s) (hwf : s.Wf) :
    Outcome (release_shared_vec v) h E fun _ h' => ∀ w, w ≠ v → h'.vecs w = h.vecs w := by
  simp only [release_shared_vec, outcome_bind, add_u32]
  rw [outcome_deref hv, outcome_get]
  refine Outcome.ite (fun _ w hw => Heap.vecs_put_ne hw) fun _ => ?_
  rw [hwf.window, if_pos hwf.small, outcome_bind, outcome_pure]
  refine Outcome.ite (fun _ w hw => Heap.vecs_put_ne hw) fun _ => ?_
  rw [if_neg (by simp), outcome_set]
  exact fun w hw => Function.update_of_ne hw ..

lemma Pooled.spare (hp : Pooled h cache) : ∀ v ∈ cache, Spare h v := by
  induction hp with
  | empty => nofun
  | call _ hsame ih =>
    intro v hv
    rw [Spare, (hsame v hv).1, (hsame v hv).2]
    exact ih v hv
  | @get _ _ cache _ c _ hm ih =>
    cases cache with
    | nil => nofun
    | cons v cache =>
      cases hm
      exact fun w hw => ih w (List.mem_cons_of_mem _ hw)
  | @release h _ cache _ v s c _ hnot hv hwf hm ih =>
    have hother : ∀ {h'}, (∀ w, w ≠ v → h'.vecs w = h.vecs w) → ∀ w ∈ cache, Spare h' w :=
      fun hsame w hw => (ih w hw).congr (hsame w (ne_of_mem_of_not_mem hw hnot))
    have hrel : Outcome (c.release cache v) h (fun _ => True) fun cache' h' => ∀ w ∈ cache', Spare h' w := by
      simp only [BufConfig.release, outcome_bind]
      rw [outcome_deref hv]
      refine Outcome.ite (fun hc => ?_) fun _ => ?_
      · rw [outcome_bind, outcome_update hv]
        refine ((truncate_spec hwf).both (clear_room (E := fun _ => True) hwf)).mono fun _ s' ⟨⟨_, hnil⟩, hroom⟩ => ?_
        refine List.forall_mem_cons.2 ⟨⟨?_, ?_⟩, hother fun w hw => Heap.vecs_put_ne hw⟩
        · rw [Ref.content_own Heap.vecs_put_self, hnil, List.take_zero]
        · rw [Heap.room_eq Heap.vecs_put_self]
          omega
      · exact (release_other hv hwf).seq fun _ _ hsame => outcome_pure.2 (hother hsame)
    exact hrel.of_ok hm

/-! ## Room -/

lemma rounds_of_le {avail : Nat} (h : size ≤ avail) : c.rounds size avail = 0 := by
  have hpos := c.pos
  rw [BufConfig.rounds, Nat.sub_eq_zero_of_le h]
  exact Nat.div_eq_of_lt (by omega)

lemma rounds_of_lt {avail : Nat} (h : avail < size) : c.rounds size avail = c.rounds size (avail + c.high) + 1 := by
  have hpos := c.pos
  rw [BufConfig.rounds, BufConfig.rounds, ← Nat.add_div_right _ hpos]
  rcases Nat.le_total size (avail + c.high) with hle | hle
  · have hone : (size - avail + (c.high - 1)) / c.high = 1 := Nat.div_eq_of_lt_le (by omega) (by omega)
    rw [hone, Nat.sub_eq_zero_of_le hle]
    exact (Nat.div_eq_of_lt_le (by omega) (by omega)).symm
  · congr 1
    omega

lemma le_rounds (size avail : Nat) : size ≤ avail + c.rounds size avail * c.high := by
  have hpos := c.pos
  have hdiv := Nat.div_add_mod (size - avail + (c.high - 1)) c.high
  have hmod := Nat.mod_lt (size - avail + (c.high - 1)) hpos
  rw [Nat.mul_comm] at hdiv
  unfold BufConfig.rounds
  omega

/-- The loop in one step: it fails only when the capacity it would end with does not fit a `usize`. -/
lemma new_cap_eq {avail : Nat} (hle : avail ≤ cap) : c.new_cap size avail cap =
    if size ≤ avail ∨ cap + c.rounds size avail * c.high < 2 ^ 64 then some (cap + c.rounds size avail * c.high) else none := by
  fun_induction BufConfig.new_cap c size avail cap with
  | case1 avail cap hlt hfit ih =>
    have hsum : cap + c.high + c.rounds size (avail + c.high) * c.high = cap + c.rounds size avail * c.high := by
      rw [rounds_of_lt hlt, Nat.add_mul]
      omega
    rw [ih (by omega), hsum]
    refine if_congr ⟨?_, fun h => .inr (h.resolve_left (by omega))⟩ rfl rfl
    rintro (hend | h)
    · rw [← hsum, rounds_of_le hend]
      exact .inr (by omega)
    · exact .inr h
  | case2 avail cap hlt hover =>
    rw [rounds_of_lt hlt, Nat.add_mul, if_neg (by omega)]
  | case3 avail cap hge => rw [if_pos (.inl (Nat.not_lt.1 hge)), rounds_of_le (Nat.not_lt.1 hge), Nat.zero_mul, Nat.add_zero]

lemma outcome_create {tag : BytePageSize} {src : List UInt8} {R : Nat → Heap → Prop} :
    Outcome (create tag cap src) h (fun _ => False) R ↔
      METADATA_SIZE + cap ≤ LAYOUT_MAX ∧ src.length % 2 ^ 32 ≤ cap % 2 ^ 32 ∧ src.length ≤ cap ∧
        R h.next (h.alloc (.init tag cap src)) := by
  simp only [create, outcome_bind, outcome_get]
  split
  next hmax => exact iff_of_false id fun hq => absurd hq.1 (Nat.not_le.2 hmax)
  next hmax =>
    split
    next hlt => exact iff_of_false id fun hq => absurd hq.2.1 (Nat.not_le.2 hlt)
    next hle =>
      split
      next hlt => exact iff_of_false id fun hq => absurd hq.2.2.1 (Nat.not_le.2 hlt)
      next hge => exact ⟨fun hq => ⟨Nat.not_lt.1 hmax, Nat.not_lt.1 hle, Nat.not_lt.1 hge, hq⟩, fun hq => hq.2.2.2⟩

lemma reserve_capacity_iff (hs : Safe h ({.own v} + F)) :
    Outcome (StorageVec.reserve_capacity v cap) h (fun _ => False) (fun v' h' =>
      Ref.content h' (.own v') = Ref.content h (.own v) ∧ n ≤ h'.room v') ↔
      METADATA_SIZE + cap ≤ LAYOUT_MAX ∧ (Ref.content h (.own v)).length + n ≤ cap % 2 ^ 32 := by
  obtain ⟨s, hv, hwf⟩ := hs.live_own
  have hlen := hs.length_own hv
  have hw := hwf.window
  have hr := hwf.room
  have hsm := hwf.small
  have hmod : s.len % 2 ^ 32 = s.len := Nat.mod_eq_of_lt (by omega)
  -- the new buffer is at `h.next` and stays as it was made when the old one is released
  have hne : v ≠ h.next := ne_of_lt (hs.fresh hv)
  obtain ⟨⟨⟩, h', hm, hother⟩ := (release_other (E := fun _ => False)
    (h := h.alloc (.init .Unset cap (Ref.content h (.own v)))) ((Function.update_of_ne hne ..).trans hv) hwf).total
  have hnew : h'.vecs h.next = some (.init .Unset cap (Ref.content h (.own v))) :=
    (hother _ hne.symm).trans (Function.update_self ..)
  simp only [StorageVec.reserve_capacity, outcome_bind]
  rw [outcome_deref hv, ← Ref.content_own hv, outcome_create, Outcome, hm]
  dsimp only
  rw [outcome_pure, Heap.room_eq hnew, init, Ref.content_own hnew, init_as_ref (by omega), hlen, hmod]
  dsimp only
  have hle := Nat.mod_le cap (2 ^ 32)
  exact ⟨fun hq => ⟨hq.1, by omega⟩, fun hq => ⟨hq.1, by omega, by omega, rfl, by omega⟩⟩

namespace BufConfig

section

variable (hs : Safe h ({.own v} + F))
include hs

lemma resize_min_iff (hn : n ≤ size) :
    Outcome (c.resize_min v size) h (fun _ => False) (fun v' h' =>
      Ref.content h' (.own v') = Ref.content h (.own v) ∧ n ≤ h'.room v') ↔ size ≤ h.room v ∨ c.Grows (Ref.content h (.own v)).length (h.room v) size n := by
  obtain ⟨s, hv, hwf⟩ := hs.live_own
  rw [resize_min, outcome_bind, outcome_remaining hs]
  split
  next hlt =>
    rw [or_iff_right (Nat.not_le.2 hlt), outcome_bind, outcome_deref hv, hwf.room, ← Heap.room_eq hv, ← hs.length_own hv, Grows,
      new_cap_eq (Nat.le_add_left ..)]
    have henough := le_rounds (c := c) size (h.room v)
    split_ifs with hcap
    · rw [reserve_capacity_iff hs]
      refine and_congr_right fun _ => ⟨.inr, fun hfit => ?_⟩
      omega
    · exact iff_of_false id fun hq => by
        have := hq.1.trans (show LAYOUT_MAX ≤ 2 ^ 63 by decide)
        omega
  next hge => exact iff_of_true ⟨rfl, hn.trans (Nat.not_lt.1 hge)⟩ (.inl (Nat.not_lt.1 hge))

lemma resize_iff :
    Outcome (c.resize v) h (fun _ => False) (fun v' h' => Ref.content h' (.own v') = Ref.content h (.own v) ∧ 1 ≤ h'.room v') ↔
      if c.low ≤ h.room v then 1 ≤ h.room v else c.high ≤ h.room v ∨ c.Grows (Ref.content h (.own v)).length (h.room v) c.high 1 := by
  rw [resize, outcome_bind, outcome_remaining hs]
  split
  next hlt => rw [if_neg (Nat.not_le.2 hlt), resize_min_iff hs c.pos]
  next hge => rw [if_pos (Nat.not_lt.1 hge), outcome_pure, and_iff_right rfl]

end

lemma get_iff (hp : Pooled h cache) :
    Outcome (c.get cache) h (fun _ => False) (fun v' h' => Spare h' v') ↔
      (cache = [] → METADATA_SIZE + c.high ≤ LAYOUT_MAX ∧ c.high % 2 ^ 32 ≠ 0) := by
  cases cache with
  | cons v cache => exact iff_of_true (hp.spare v List.mem_cons_self) nofun
  | nil =>
    have hv : (h.alloc (.init .Unset c.high [])).vecs h.next = some (.init .Unset c.high []) := Function.update_self ..
    simp only [get, BytesMut.with_capacity, StorageVec.with_capacity, outcome_create, Spare]
    have hlen : ([] : List UInt8).length < 2 ^ 32 := Nat.two_pow_pos 32
    rw [Ref.content_own hv, init_as_ref hlen, Heap.room_eq hv, init]
    refine ⟨fun hq _ => ⟨hq.1, ?_⟩, fun hq => ⟨(hq trivial).1, Nat.zero_le _, Nat.zero_le _, rfl, ?_⟩⟩
    · exact Nat.one_le_iff_ne_zero.1 hq.2.2.2.2
    · exact Nat.one_le_iff_ne_zero.2 (hq trivial).2

/-- What a driver relies on, with a buffer `v` of any content. -/
structure Serves (c : BufConfig) (h : Heap) (cache : List Nat) (v size : Nat) : Prop where
  resize_min : Outcome (c.resize_min v size) h (fun _ => False) fun v' h' =>
    Ref.content h' (.own v') = Ref.content h (.own v) ∧ size ≤ h'.room v'
  get : Outcome (c.get cache) h (fun _ => False) fun v' h' => Spare h' v'
  resize_read_buf : Outcome (c.resize v) h (fun _ => False) fun v' h' =>
    Ref.content h' (.own v') = Ref.content h (.own v) ∧ 1 ≤ h'.room v'
  get_read_buf : ∀ read_ready, ∀ stored ∈ [none, some v],
    Outcome (c.get_read_buf read_ready stored cache) h (fun _ => False) fun v' h' => 1 ≤ h'.room v'

/-- In every heap and for every pool: what is grown must fit, and what is not grown must have a free byte. -/
theorem read_buf_room_iff (hp : Pooled h cache) (hs : Safe h ({.own v} + F)) :
    c.Serves h cache v size ↔ (size ≤ h.room v ∨ c.Grows (Ref.content h (.own v)).length (h.room v) size size) ∧
      (cache = [] → METADATA_SIZE + c.high ≤ LAYOUT_MAX ∧ c.high % 2 ^ 32 ≠ 0) ∧
      if c.low ≤ h.room v then 1 ≤ h.room v else c.high ≤ h.room v ∨ c.Grows (Ref.content h (.own v)).length (h.room v) c.high 1 := by
  rw [← resize_min_iff hs le_rfl, ← get_iff hp, ← resize_iff hs]
  refine ⟨fun h => ⟨h.resize_min, h.get, h.resize_read_buf⟩, fun ⟨hmin, hget, hres⟩ => ⟨hmin, hget, hres, ?_⟩⟩
  intro read_ready stored hm
  rcases List.mem_pair.1 hm with rfl | rfl <;> cases read_ready
  case inr.false => exact hres.mono fun _ _ hq => hq.2
  all_goals exact hget.mono fun _ _ hq => hq.2

theorem read_buf_room_new : ∃ w : World, w.view 0 = some (.buf []) ∧ Serves ⟨16384, 1024, 16, by decide⟩ w.heap [] 0 4096 := by
  have hreach : Reach World.step World.Fits .empty _ := .step (i := .make 0 (.buf_with_capacity 4096)) .refl
    (World.fits_of_fetch rfl (show METADATA_SIZE + 4096 < 2 ^ 32 by decide)) rfl
  have hs := (World.sound_of_reach hreach).cast (refsOf_remove (k := 0) rfl)
  refine ⟨_, rfl, (read_buf_room_iff .empty hs).2 ⟨.inl le_rfl, fun _ => by decide, ?_⟩⟩
  rw [if_pos (by decide)]
  decide

/-- With a low watermark of 0 a full buffer is handed to the read as it is. -/
theorem full_read_buf : ∃ w : World, Reach World.step (fun _ _ => True) .empty w ∧ w.view 0 = some (.buf [7]) ∧
    Outcome (get_read_buf ⟨16384, 0, 16, by decide⟩ false (some 0) []) w.heap (fun _ => False) fun v h => h.room v = 0 :=
  ⟨_, .of_steps [.make 0 (.buf_copy [7])] rfl, rfl, rfl⟩

end BufConfig

end Geario.Buffers
