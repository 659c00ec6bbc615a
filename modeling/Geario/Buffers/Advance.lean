import Geario.Buffers.Programs
/-!
# Moving the start

`advance_to(cnt)` promises the content from `cnt` on, and a panic beyond it. A
static or external slice, and a page that is a `Vec`, compare `cnt` with the
length. An inline handle compares it with 23 and a `BytesMut` the low 32 bits of
it with its capacity. A window of a shared buffer is not checked at all.
-/
open Lib Outcome

namespace Geario.Buffers

/-- The check that fails for a `cnt` beyond the content. -/
def Storage.Refuses (cnt : Nat) : Storage → Prop
  | inline _ _ => INLINE_CAP < cnt
  | vec _ _ _ => False
  | static _ | stext _ _ => True

lemma Storage.set_start_panics {h : Heap} {st : Storage} {n : Nat} (hn : st.len < n) :
    Outcome (st.set_start n) h (fun _ => True) (fun _ _ => False) ↔ st.Refuses n := by
  have h0 : n ≠ 0 := by omega
  cases st with
  | inline data fits =>
    by_cases hc : n ≤ INLINE_CAP
    · have hd : data.length ≤ INLINE_CAP + n := by omega
      simp [set_start, from_ptr_inline, outcome_pure, h0, hc, hd, Refuses]
    · simp [set_start, outcome_throw, h0, hc, Refuses, lt_of_not_ge hc]
  | vec v offset len => simp [set_start, outcome_pure, h0, Refuses]
  | static data | stext data shares =>
    have hle : ¬ n ≤ data.length := not_le.2 hn
    simp [set_start, outcome_throw, h0, hle, Refuses]

lemma set_start_panics {h : Heap} {v cnt : Nat} {s : SharedVec} (hv : h.vecs v = some s) (hwf : s.Wf) :
    Outcome (update v (SharedVec.set_start (cnt % 2 ^ 32))) h (fun _ => True) (fun _ _ => False) ↔
      h.capacity v < cnt % 2 ^ 32 := by
  rw [outcome_update hv, Heap.capacity_eq hv]
  rcases lt_or_ge s.capacity (cnt % 2 ^ 32) with hlt | hge
  · exact iff_of_true ((SharedVec.set_start_beyond hlt).weaken fun _ _ => trivial) hlt
  · refine iff_of_false (fun hp => ?_) (not_lt.2 hge)
    have hok := SharedVec.set_start_spec (E := fun _ => False) hwf hge
    unfold Outcome at hp hok
    split at hp
    · exact hp
    next e he => rwa [he] at hok

namespace Obj

def bytes_of (h : Heap) : Obj → List UInt8
  | bytes st => st.content h
  | buf v => Ref.content h (.own v)
  | page p => p.content h
  | _ => []

/-- `Buf::advance` is the same. Queues have no such method. -/
def advance_to (cnt : Nat) : Obj → Mem Obj
  | bytes st => do return bytes (← Bytes.advance_to st cnt)
  | buf v => do
    BytesMut.advance_to v cnt
    return buf v
  | page p => do return page (← p.advance_to cnt)
  | o => pure o

def Small : Obj → Prop
  | bytes st => st.Small
  | page p => p.Small
  | _ => True

/-- A `Bytes`, a `BytesMut` or a `BytePage`. -/
def Handle : Obj → Prop
  | bytes _ | buf _ | page _ => True
  | _ => False

/-- The call drops `cnt` bytes from the front, and panics only past the end. -/
def Advances (h : Heap) (cnt : Nat) (o : Obj) : Prop :=
  Outcome (o.advance_to cnt) h (fun _ => (o.bytes_of h).length < cnt) fun o' h' =>
    cnt ≤ (o.bytes_of h).length ∧ o'.bytes_of h' = (o.bytes_of h).drop cnt

/-- The assertion of the kind of handle fails at `cnt`. -/
def Refuses (h : Heap) (cnt : Nat) : Obj → Prop
  | bytes st | page (.bytes st) => st.Refuses cnt
  | buf v | page (.storage v) => h.capacity v < cnt % 2 ^ 32
  | _ => True

variable {h : Heap} {F : Multiset Ref} {o : Obj} {cnt : Nat}

lemma advances_in_range (hs : Safe h (o.refs + F)) (hsm : o.Small) (hh : o.Handle) (hn : cnt ≤ (o.bytes_of h).length) :
    o.Advances h cnt := by
  cases o with
  | bytes st =>
    have hlen := Storage.length_content hs
    refine (Storage.set_start_spec hs hsm fun hlt => ?_).seq fun st' h' ⟨_, hc, _⟩ => outcome_pure.2 ⟨hn, hc⟩
    rwa [bytes_of, hlen]
  | buf v => exact (BytesMut.advance_to_spec hs id).seq fun _ h' ⟨_, hc⟩ => outcome_pure.2 ⟨hn, hc hn⟩
  | page p =>
    exact (BytePage.advance_to_spec hs hsm fun hlt => ⟨hlt, hlt⟩).seq fun q h' ⟨_, _, hc⟩ => outcome_pure.2 ⟨hn, hc hn⟩
  | pages | lent => exact hh.elim

lemma advances_beyond (hs : Safe h (o.refs + F)) (hh : o.Handle) (hn : (o.bytes_of h).length < cnt) :
    o.Advances h cnt ↔ o.Refuses h cnt := by
  unfold Advances
  simp only [hn, not_le.2 hn, false_and]
  cases o with
  | bytes st =>
    simp only [advance_to, outcome_bind, outcome_pure]
    exact Storage.set_start_panics (Storage.length_content hs ▸ hn)
  | buf v =>
    obtain ⟨s, hv, hwf⟩ := hs.live_own
    simp only [advance_to, outcome_bind, outcome_pure]
    exact set_start_panics hv hwf
  | page p =>
    cases p with
    | bytes st =>
      simp only [advance_to, BytePage.advance_to, outcome_bind, outcome_pure]
      exact Storage.set_start_panics (Storage.length_content hs ▸ hn)
    | storage v =>
      obtain ⟨s, hv, hwf⟩ := BytePage.live_page hs
      simp only [advance_to, BytePage.advance_to, outcome_bind, outcome_pure]
      exact set_start_panics hv hwf
    | vec data =>
      have hle : ¬ cnt ≤ data.length := not_le.2 hn
      simp only [advance_to, BytePage.advance_to, if_neg hle, outcome_bind, outcome_throw, Refuses]
  | pages | lent => exact hh.elim

end Obj

namespace World

variable {w : World} {i cnt : Nat} {o : Obj}

/-- The promise is kept up to the end of the content, and beyond it where the check fails. -/
theorem advance_to_iff (hr : Reach step Fits .empty w) (hi : w.objs.get i = some o) (hsm : o.Small) (hh : o.Handle) (cnt : Nat) :
    o.Advances w.heap cnt ↔ cnt ≤ (o.bytes_of w.heap).length ∨ o.Refuses w.heap cnt := by
  have hs : Safe w.heap (o.refs + refsOf (w.objs.remove i).values) := (sound_of_reach hr).cast (refsOf_remove hi)
  rcases lt_or_ge (o.bytes_of w.heap).length cnt with hlt | hge
  · rw [Obj.advances_beyond hs hh hlt, or_iff_right (not_le.2 hlt)]
  · exact iff_of_true (Obj.advances_in_range hs hsm hh hge) (.inl hge)

theorem advance_to_static : ∃ w : World, w.view 0 = some (.bytes [1, 2]) ∧ (Obj.bytes (.static [1, 2])).Advances w.heap 3 :=
  ⟨_, rfl, (advance_to_iff (i := 0) (.step (i := .make 0 (.bytes_static [1, 2])) .refl (fits_of_fetch rfl trivial) rfl) rfl trivial
    trivial 3).2 (.inr trivial)⟩

/-- Two bytes inline and two in a `BytesMut`: the start moves by three without a panic. -/
theorem advance_to_unchecked : ∃ (w : World) (st : Storage) (v : Nat), Reach step (fun _ _ => True) .empty w ∧
    w.objs.get 0 = some (.bytes st) ∧ w.objs.get 1 = some (.buf v) ∧ ¬ (Obj.bytes st).Advances w.heap 3 ∧
    ¬ (Obj.buf v).Advances w.heap 3 := by
  have hreach : Reach step (fun _ _ => True) .empty _ := .of_steps
      [.make 0 (.bytes_copy [1, 2]), .make 1 (.buf_with_capacity 8), .one 1 2 (.buf (.put_slice [1, 2]))] rfl
  exact ⟨_, _, _, hreach, rfl, rfl, fun h => absurd (And.left h) (by decide), fun h => absurd (And.left h) (by decide)⟩

end World

end Geario.Buffers
