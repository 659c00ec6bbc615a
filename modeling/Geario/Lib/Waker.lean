import Mathlib
/-!
# Wakers

A slot for the waker of one task. A poll that is pending registers its waker
there, and `wake` takes the waker out and calls it. What is asked of a source of
wake-ups is about the last poll: when it was pending, whether its waker has been
called since.
-/

namespace Lib

structure Waker (ω : Type) where
  slot : Option ω
  /-- the waker of the last poll, if it was pending, and whether it has been called since -/
  last : Option (ω × Bool)

namespace Waker

variable {ω : Type} {x : Waker ω}

def new : Waker ω := { slot := none, last := none }

def register (_ : Waker ω) (w : ω) : Waker ω := { slot := some w, last := some (w, false) }

def ready (x : Waker ω) : Waker ω := { x with last := none }

def wake [DecidableEq ω] (x : Waker ω) : Waker ω :=
  match x.slot with
  | some w => { slot := none, last := x.last.map fun l => (l.1, l.2 || l.1 == w) }
  | none => x

def waits (x : Waker ω) : Bool :=
  match x.last with
  | some (_, called) => !called
  | none => false

def Sound (x : Waker ω) : Prop := ∀ w, x.last = some (w, false) → x.slot = some w

lemma sound_new : (new : Waker ω).Sound := nofun

lemma sound_register (x : Waker ω) (w : ω) : (x.register w).Sound := by
  intro w' h
  cases h
  rfl

lemma sound_ready (x : Waker ω) : x.ready.Sound := nofun

lemma waits_iff : x.waits ↔ ∃ w, x.last = some (w, false) := by
  unfold waits
  split
  case h_1 w called h =>
    rw [h]
    cases called with
    | true => exact ⟨nofun, fun ⟨_, h⟩ => nomatch h⟩
    | false => exact ⟨fun _ => ⟨w, rfl⟩, fun _ => rfl⟩
  case h_2 h =>
    rw [h]
    exact ⟨nofun, fun ⟨_, h⟩ => nomatch h⟩

lemma called_of_not_waits {w : ω} {called : Bool} (h : x.last = some (w, called)) (hw : x.waits = false) : called := by
  unfold waits at hw
  rw [h] at hw
  exact (Bool.not_eq_false' _).mp hw

lemma Sound.waits_wake [DecidableEq ω] (h : x.Sound) : x.wake.waits = false := by
  refine Bool.eq_false_iff.2 fun hw => ?_
  obtain ⟨w, hw⟩ := waits_iff.1 hw
  unfold wake at hw
  cases hs : x.slot with
  | none =>
    rw [hs] at hw
    cases hs.symm.trans (h w hw)
  | some w' =>
    rw [hs] at hw
    obtain ⟨⟨w₀, called⟩, hl, heq⟩ := Option.map_eq_some_iff.1 hw
    obtain ⟨rfl, hcalled⟩ := Prod.mk.inj heq
    obtain ⟨rfl, hne⟩ := Bool.or_eq_false_iff.1 hcalled
    cases hs.symm.trans (h _ hl)
    cases (beq_self_eq_true w').symm.trans hne

lemma Sound.wake [DecidableEq ω] (h : x.Sound) : x.wake.Sound := by
  intro w hw
  have hwaits := waits_iff.2 ⟨w, hw⟩
  cases hwaits.symm.trans h.waits_wake

end Waker

end Lib
