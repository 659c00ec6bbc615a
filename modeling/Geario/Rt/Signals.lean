import Geario.Lib.Run
import Geario.Lib.Parties
/-!
# Signals

`handle_signal` runs in the context of a signal, on whatever thread it was
delivered to. It puts the signal in the first free one of ten slots and wakes the
task `signals`, which takes all slots and sends what it finds to the handlers
that are registered. A handler is a oneshot; the signal loop of the server calls
`signal` again after each list it has received, and `signal` registers the
handler from a task on the thread of the system.

A signal is lost when the slots are full, when two threads find the same slot
free, and when the slots are taken while the handler of the loop is not
registered yet.
-/
open Lib List Option Bool

namespace Geario.Rt

inductive Signal
  | Hup | Int | Term | Quit | Panic
  deriving DecidableEq

structure Sig where
  no : Nat
  kind : Signal
  deriving DecidableEq

inductive Exec
  | scan (k : Nat) (sig : Sig)
  | write (k : Nat) (sig : Sig)
  | wake
  | done
  deriving DecidableEq

def Exec.sig : Exec → Option Sig
  | .scan _ sig | .write _ sig => some sig
  | .wake | .done => none

def Exec.left : Exec → Nat
  | .scan k _ => 10 - k + 3
  | .write _ _ => 2
  | .wake => 1
  | .done => 0

structure Signals where
  slots : List (Option Sig)
  execs : List Exec
  registered : Bool
  scheduled : Bool
  /-- the task is being polled: the slot it is at, and the signals it has taken -/
  task : Option (Nat × List Sig)
  handlers : List Nat
  spawned : List Nat
  /-- the oneshot of the server's loop, and what was sent to it -/
  rx : Nat
  value : Option (List Sig)
  next : Nat
  received : List (List Sig)
  delivered : List Sig

namespace Signals

inductive Step
  | handle_signal (kind : Signal)
  | exec (j : Nat)
  /-- the task `signals` is polled: its waker is registered, the slots are taken one after the other, the list is sent -/
  | poll
  | take
  | send
  | signal
  | register (j : Nat)
  | recv
  deriving DecidableEq

def Step.is_task : Step → Bool
  | .handle_signal _ | .signal => false
  | .exec _ | .poll | .take | .send | .register _ | .recv => true

def new : Signals :=
  { slots := List.replicate 10 none, execs := [], registered := false, scheduled := true, task := none, handlers := []
    spawned := [0], rx := 0, value := none, next := 1, received := [], delivered := [] }

def set_exec (s : Signals) (j : Nat) (e : Exec) : Signals := { s with execs := s.execs.set j e }

def scanned (s : Signals) (k : Nat) (sig : Sig) : Exec :=
  match s.slots[k]? with
  | some none => .write k sig
  | some (some _) => .scan (k + 1) sig
  | none => .wake

def send (s : Signals) (sigs : List Sig) : Signals :=
  if sigs = [] then { s with task := none }
  else { s with task := none, handlers := [], value := if s.rx ∈ s.handlers then some sigs else s.value }

def step (s : Signals) : Step → Option Signals
  | .handle_signal kind =>
    let sig := ⟨s.delivered.length, kind⟩
    some { s with delivered := s.delivered ++ [sig], execs := s.execs ++ [.scan 0 sig] }
  | .exec j =>
    match s.execs[j]? with
    | some (.scan k sig) => some (s.set_exec j (s.scanned k sig))
    | some (.write k sig) => some { s.set_exec j .wake with slots := s.slots.set k (some sig) }
    | some .wake => some { s.set_exec j .done with scheduled := s.scheduled || s.registered, registered := false }
    | some .done | none => none
  | .poll =>
    if s.scheduled ∧ s.task = none then some { s with scheduled := false, registered := true, task := some (0, []) } else none
  | .take =>
    match s.task with
    | some (k, sigs) =>
      if k < 10 then some { s with slots := s.slots.set k none, task := some (k + 1, sigs ++ s.slots[k]?.join.toList) } else none
    | none => none
  | .send =>
    match s.task with
    | some (k, sigs) => if k < 10 then none else some (s.send sigs)
    | none => none
  | .signal => some { s with next := s.next + 1, spawned := s.spawned ++ [s.next] }
  | .register j =>
    -- on the thread of the task
    if s.task = none then
      s.spawned[j]?.map fun c => { s with spawned := s.spawned.eraseIdx j, handlers := s.handlers ++ [c] }
    else none
  | .recv =>
    s.value.map fun sigs =>
      { s with received := s.received ++ [sigs], value := none, rx := s.next, next := s.next + 1, spawned := s.spawned ++ [s.next] }

/-- A signal is delivered when the one before has been handled and a slot is free; and the task does not find a signal while the
handler of the loop is not registered. -/
def Orderly (s : Signals) : Step → Prop
  | .handle_signal _ => (∀ e ∈ s.execs, e = .done) ∧ none ∈ s.slots
  | .exec j =>
    match s.execs[j]? with
    | some (.write _ _) => s.task = none ∨ s.rx ∈ s.handlers
    | _ => True
  | .poll => (∀ x ∈ s.slots, x = none) ∨ s.rx ∈ s.handlers
  | .take | .send | .signal | .register _ | .recv => True

instance (s : Signals) (i : Step) : Decidable (s.Orderly i) := by
  unfold Orderly
  split
  · infer_instance
  · split <;> infer_instance
  all_goals infer_instance

variable {s s' : Signals} {sig : Sig} {c j k m : Nat} {e : Exec} {sigs : List Sig} {handlers spawned : List Nat}
  {value : Option (List Sig)} {slots : List (Option Sig)} {rx next : Nat}

/-! ## Where a signal is -/

inductive Located (slots : List (Option Sig)) (execs : List Exec) (task : Option (Nat × List Sig)) (value : Option (List Sig))
    (lists : List (List Sig)) (sig : Sig) : Prop
  | exec {j : Nat} {e : Exec} (h : execs[j]? = some e) (hs : e.sig = some sig)
  | slot {m : Nat} (h : slots[m]? = some (some sig))
  | taken {k : Nat} {sigs : List Sig} (h : task = some (k, sigs)) (hs : sig ∈ sigs)
  | sent {sigs : List Sig} (h : value = some sigs) (hs : sig ∈ sigs)
  | received {sigs : List Sig} (h : sigs ∈ lists) (hs : sig ∈ sigs)

/-! ## The invariant -/

/-- One signal is handled at a time, and it finds a slot. -/
structure Handling (slots : List (Option Sig)) (execs : List Exec) : Prop where
  len : slots.length = 10
  alone {i j : Nat} {e e' : Exec} (h : execs[i]? = some e) (h' : execs[j]? = some e') (hd : e ≠ .done) (hd' : e' ≠ .done) : i = j
  free {j k : Nat} {sig : Sig} (h : execs[j]? = some (.scan k sig)) : ∃ m, k ≤ m ∧ slots[m]? = some none
  hole {j k : Nat} {sig : Sig} (h : execs[j]? = some (.write k sig)) : slots[k]? = some none

/-- The handler of the loop is registered or will be, or the loop has a list to receive. -/
structure Listening (handlers spawned : List Nat) (rx next : Nat) (value : Option (List Sig)) : Prop where
  nodup : (handlers ++ spawned).Nodup
  lt {c : Nat} (h : c ∈ handlers ++ spawned) : c < next
  rx_lt : rx < next
  sent (h : value ≠ none) : rx ∉ handlers ++ spawned
  waits (h : value = none) : rx ∈ handlers ++ spawned

structure Inv (s : Signals) : Prop where
  handling : Handling s.slots s.execs
  listening : Listening s.handlers s.spawned s.rx s.next s.value
  wakes : s.registered ∨ s.scheduled
  pending {m : Nat} {sig : Sig} (h : s.slots[m]? = some (some sig)) :
    s.scheduled ∨ (∃ j : Nat, s.execs[j]? = some .wake) ∨ ∃ k sigs, s.task = some (k, sigs) ∧ k ≤ m
  at_most {k : Nat} {sigs : List Sig} (h : s.task = some (k, sigs)) : k ≤ 10
  held {k : Nat} {sigs : List Sig} (h : s.task = some (k, sigs)) (hne : sigs ≠ []) : s.rx ∈ s.handlers
  ahead {k m : Nat} {sigs : List Sig} {sig : Sig} (h : s.task = some (k, sigs)) (hle : k ≤ m)
    (hm : s.slots[m]? = some (some sig)) : s.rx ∈ s.handlers
  located {sig : Sig} (h : sig ∈ s.delivered) : Located s.slots s.execs s.task s.value s.received sig

lemma inv_new : Inv new where
  handling := ⟨rfl, nofun, nofun, nofun⟩
  listening := ⟨nodup_singleton 0, fun h => mem_singleton.1 h ▸ Nat.zero_lt_one, Nat.zero_lt_one,
    fun h => absurd rfl h, fun _ => mem_singleton_self 0⟩
  wakes := .inr rfl
  pending h := nomatch eq_of_mem_replicate (mem_of_getElem? h)
  at_most := nofun
  held := nofun
  ahead := nofun
  located := nofun

/-! ### A signal is delivered and handled -/

lemma Handling.deliver (h : Handling s.slots s.execs) (hd : ∀ e ∈ s.execs, e = .done) (hf : none ∈ s.slots) (sig : Sig) :
    Handling s.slots (s.execs ++ [.scan 0 sig]) where
  len := h.len
  alone {i j e e'} hi hj hne hne' := by
    -- the new one is the only one that is not done
    have last : ∀ {i : Nat} {e : Exec}, (s.execs ++ [.scan 0 sig])[i]? = some e → e ≠ .done → i = s.execs.length := by
      intro i e hi hne
      rcases at_of_append hi with hi | ⟨hi, -⟩
      · exact absurd (hd e (mem_of_getElem? hi)) hne
      · exact hi
    exact (last hi hne).trans (last hj hne').symm
  free {j k sig'} hj := by
    rcases at_of_append hj with hj | ⟨-, heq⟩
    · exact h.free hj
    · obtain ⟨m, hm⟩ := mem_iff_getElem?.1 hf
      cases heq
      exact ⟨m, Nat.zero_le m, hm⟩
  hole {j k sig'} hj := by
    rcases at_of_append hj with hj | ⟨-, heq⟩
    · exact h.hole hj
    · cases heq

lemma inv_deliver (h : Inv s) (hd : ∀ e ∈ s.execs, e = .done) (hf : none ∈ s.slots) (sig : Sig) :
    Inv { s with delivered := s.delivered ++ [sig], execs := s.execs ++ [.scan 0 sig] } where
  handling := h.handling.deliver hd hf sig
  listening := h.listening
  wakes := h.wakes
  pending hm := by
    rcases h.pending hm with hs | ⟨j, hj⟩ | ht
    · exact .inl hs
    · exact nomatch hd _ (mem_of_getElem? hj)
    · exact .inr (.inr ht)
  at_most := h.at_most
  held := h.held
  ahead := h.ahead
  located {sig'} hsig := by
    rcases mem_append.1 hsig with hsig | hsig
    · cases h.located hsig with
      | exec hj hs =>
        rw [hd _ (mem_of_getElem? hj)] at hs
        cases hs
      | slot hm => exact .slot hm
      | taken ht hs => exact .taken ht hs
      | sent hv hs => exact .sent hv hs
      | received hr hs => exact .received hr hs
    · obtain rfl := mem_singleton.1 hsig
      exact .exec (getElem?_concat_length (l := s.execs)) rfl

variable {e' : Exec}

lemma Handling.set (h : Handling s.slots s.execs) (hj : s.execs[j]? = some e) (hne : e ≠ .done)
    (hlen : slots.length = 10) (hfree : ∀ {k sig}, e' = .scan k sig → ∃ m, k ≤ m ∧ slots[m]? = some none)
    (hhole : ∀ {k sig}, e' = .write k sig → slots[k]? = some none) : Handling slots (s.execs.set j e') := by
  have only : ∀ {i : Nat} {x : Exec}, (s.execs.set j e')[i]? = some x → x ≠ .done → i = j ∧ x = e' := by
    intro i x hi hx
    rcases at_of_set hi with hi | ⟨hij, hi⟩
    · exact hi
    · exact absurd (h.alone hi hj hx hne) hij
  exact
    { len := hlen
      alone := fun hi hj hne hne' => (only hi hne).1.trans (only hj hne').1.symm
      free := fun hi => hfree (only hi nofun).2.symm
      hole := fun hi => hhole (only hi nofun).2.symm }

lemma Inv.located_set (h : Inv s) (hj : s.execs[j]? = some e) (e' : Exec) (he : e.sig = some sig → e'.sig = some sig)
    (hsig : sig ∈ s.delivered) : Located s.slots (s.execs.set j e') s.task s.value s.received sig := by
  cases h.located hsig with
  | @exec i x hi hs =>
    rcases eq_or_ne i j with rfl | hij
    · cases hj.symm.trans hi
      exact .exec (at_set hj e') (he hs)
    · exact .exec ((getElem?_set_ne hij.symm).trans hi) hs
  | slot hm => exact .slot hm
  | taken ht hs => exact .taken ht hs
  | sent hv hs => exact .sent hv hs
  | received hr hs => exact .received hr hs

lemma Inv.pending_set (h : Inv s) (hj : s.execs[j]? = some e) (hne : e ≠ .wake) (e' : Exec) (hm : s.slots[m]? = some (some sig)) :
    s.scheduled ∨ (∃ i : Nat, (s.execs.set j e')[i]? = some .wake) ∨ ∃ k sigs, s.task = some (k, sigs) ∧ k ≤ m := by
  rcases h.pending hm with hs | ⟨i, hi⟩ | ht
  · exact .inl hs
  · exact .inr (.inl ⟨i, at_set_other hj hi hne.symm e'⟩)
  · exact .inr (.inr ht)

lemma scanned_cases (h : Handling s.slots s.execs) (hj : s.execs[j]? = some (.scan k sig)) :
    (s.slots[k]? = some none ∧ s.scanned k sig = .write k sig) ∨
      (k < 10 ∧ (∃ m, k + 1 ≤ m ∧ s.slots[m]? = some none) ∧ s.scanned k sig = .scan (k + 1) sig) := by
  obtain ⟨m, hkm, hm⟩ := h.free hj
  have hlt : m < s.slots.length := at_lt hm
  have hlt' : k < s.slots.length := by omega
  cases hk : s.slots[k] with
  | none =>
    have hk' : s.slots[k]? = some none := List.getElem?_eq_some_iff.2 ⟨hlt', hk⟩
    exact .inl ⟨hk', by rw [scanned, hk']⟩
  | some x =>
    have hk' : s.slots[k]? = some (some x) := List.getElem?_eq_some_iff.2 ⟨hlt', hk⟩
    have hne : k ≠ m := by
      rintro rfl
      exact nomatch hm.symm.trans hk'
    exact .inr ⟨h.len ▸ hlt', ⟨m, by omega, hm⟩, by rw [scanned, hk']⟩

lemma inv_scan (h : Inv s) (hj : s.execs[j]? = some (.scan k sig)) : Inv (s.set_exec j (s.scanned k sig)) where
  handling := by
    rcases scanned_cases h.handling hj with ⟨hk, heq⟩ | ⟨-, hf, heq⟩
    · rw [heq]
      refine h.handling.set hj nofun h.handling.len nofun fun hw => ?_
      cases hw
      exact hk
    · rw [heq]
      refine h.handling.set hj nofun h.handling.len (fun hw => ?_) nofun
      cases hw
      exact hf
  listening := h.listening
  wakes := h.wakes
  pending := h.pending_set hj nofun _
  at_most := h.at_most
  held := h.held
  ahead := h.ahead
  located hsig := by
    refine h.located_set hj _ (fun hs => ?_) hsig
    rcases scanned_cases h.handling hj with ⟨-, heq⟩ | ⟨-, -, heq⟩
    all_goals
      rw [heq]
      exact hs

lemma inv_write (h : Inv s) (hj : s.execs[j]? = some (.write k sig)) (hok : s.task = none ∨ s.rx ∈ s.handlers) :
    Inv { s.set_exec j .wake with slots := s.slots.set k (some sig) } where
  handling := h.handling.set hj nofun (length_set.trans h.handling.len) nofun nofun
  listening := h.listening
  wakes := h.wakes
  pending _ := .inr (.inl ⟨j, at_set hj _⟩)
  at_most := h.at_most
  held := h.held
  ahead ht _ _ := by
    rcases hok with hok | hok
    · exact nomatch hok.symm.trans ht
    · exact hok
  located {sig'} hsig := by
    have hk : (s.slots.set k (some sig))[k]? = some (some sig) := at_set (h.handling.hole hj) _
    cases h.located hsig with
    | @exec i x hi hs =>
      rcases eq_or_ne i j with rfl | hij
      · cases hj.symm.trans hi
        cases hs
        exact .slot hk
      · exact .exec ((getElem?_set_ne hij.symm).trans hi) hs
    | @slot m hm =>
      -- the slot it writes was free
      exact .slot (at_set_other (h.handling.hole hj) hm nofun _)
    | taken ht hs => exact .taken ht hs
    | sent hv hs => exact .sent hv hs
    | received hr hs => exact .received hr hs

lemma inv_wake (h : Inv s) (hj : s.execs[j]? = some .wake) :
    Inv { s.set_exec j .done with scheduled := s.scheduled || s.registered, registered := false } := by
  have hs : (s.scheduled || s.registered) := by
    rw [Bool.or_comm, or_eq_true]
    exact h.wakes
  exact
    { handling := h.handling.set hj nofun h.handling.len nofun nofun
      listening := h.listening
      wakes := .inr hs
      pending := fun _ => .inl hs
      at_most := h.at_most
      held := h.held
      ahead := h.ahead
      located := h.located_set hj .done nofun }

/-! ### The task -/

lemma inv_poll (h : Inv s) (ht : s.task = none) (hok : (∀ x ∈ s.slots, x = none) ∨ s.rx ∈ s.handlers) :
    Inv { s with scheduled := false, registered := true, task := some (0, []) } where
  handling := h.handling
  listening := h.listening
  wakes := .inl rfl
  pending _ := .inr (.inr ⟨0, [], rfl, Nat.zero_le _⟩)
  at_most heq := by
    cases heq
    exact Nat.zero_le 10
  held heq hne := by
    cases heq
    exact absurd rfl hne
  ahead _ _ hm := by
    rcases hok with hok | hok
    · exact nomatch hok _ (mem_of_getElem? hm)
    · exact hok
  located hsig := by
    cases h.located hsig with
    | exec hi hs => exact .exec hi hs
    | slot hm => exact .slot hm
    | taken ht' _ => exact nomatch ht.symm.trans ht'
    | sent hv hs => exact .sent hv hs
    | received hr hs => exact .received hr hs

lemma slot_of_set_none (h : (slots.set k none)[m]? = some (some sig)) : m ≠ k ∧ slots[m]? = some (some sig) := by
  rcases at_of_set h with ⟨-, heq⟩ | h
  · cases heq
  · exact h

lemma set_none_of_free (h : slots[m]? = some none) : (slots.set k none)[m]? = some none := by
  rcases eq_or_ne k m with rfl | hne
  · exact at_set h none
  · exact (getElem?_set_ne hne).trans h

lemma mem_join_toList {x : Option (Option Sig)} : sig ∈ x.join.toList ↔ x = some (some sig) := by
  rw [mem_toList, join_eq_some_iff]

lemma inv_take (h : Inv s) (ht : s.task = some (k, sigs)) (hk : k < 10) :
    Inv { s with slots := s.slots.set k none, task := some (k + 1, sigs ++ s.slots[k]?.join.toList) } where
  handling :=
    { len := length_set.trans h.handling.len
      alone := h.handling.alone
      free := fun hj => by
        obtain ⟨m, hkm, hm⟩ := h.handling.free hj
        exact ⟨m, hkm, set_none_of_free hm⟩
      hole := fun hj => set_none_of_free (h.handling.hole hj) }
  listening := h.listening
  wakes := h.wakes
  pending hm := by
    obtain ⟨hne, hm⟩ := slot_of_set_none hm
    rcases h.pending hm with hs | hw | ⟨k', sigs', ht', hle⟩
    · exact .inl hs
    · exact .inr (.inl hw)
    · cases ht.symm.trans ht'
      exact .inr (.inr ⟨_, _, rfl, by omega⟩)
  at_most heq := by
    cases heq
    exact hk
  held heq hne := by
    cases heq
    cases hx : s.slots[k]?.join with
    | none =>
      rw [hx, toList_none, append_nil] at hne
      exact h.held ht hne
    | some x => exact h.ahead ht (Nat.le_refl k) (join_eq_some_iff.1 hx)
  ahead heq hle hm := by
    cases heq
    exact h.ahead ht (Nat.le_of_succ_le hle) (slot_of_set_none hm).2
  located {sig} hsig := by
    cases h.located hsig with
    | exec hi hs => exact .exec hi hs
    | @slot m hm =>
      rcases eq_or_ne k m with rfl | hne
      · exact .taken rfl (mem_append_right _ (mem_join_toList.2 hm))
      · exact .slot ((getElem?_set_ne hne).trans hm)
    | taken ht' hs =>
      cases ht.symm.trans ht'
      exact .taken rfl (mem_append_left _ hs)
    | sent hv hs => exact .sent hv hs
    | received hr hs => exact .received hr hs

lemma send_cases (h : Inv s) (ht : s.task = some (k, sigs)) :
    (sigs = [] ∧ s.send sigs = { s with task := none }) ∨
      (s.rx ∈ s.handlers ∧ s.value = none ∧ s.send sigs = { s with task := none, handlers := [], value := some sigs }) := by
  rw [send]
  split
  case isTrue he => exact .inl ⟨he, rfl⟩
  case isFalse hne =>
    have hrx := h.held ht hne
    refine .inr ⟨hrx, ?_, by rw [if_pos hrx]⟩
    by_cases hv : s.value = none
    · exact hv
    · exact absurd (mem_append_left _ hrx) (h.listening.sent hv)

lemma Listening.drain (h : Listening handlers spawned rx next value) (hrx : rx ∈ handlers) (sigs : List Sig) :
    Listening [] spawned rx next (some sigs) where
  nodup := (nodup_append.1 h.nodup).2.1
  lt hc := h.lt (mem_append_right _ hc)
  rx_lt := h.rx_lt
  sent _ hmem := (nodup_append.1 h.nodup).2.2 rx hrx rx hmem rfl
  waits := nofun

lemma inv_send (h : Inv s) (ht : s.task = some (k, sigs)) (hk : ¬ k < 10) : Inv (s.send sigs) := by
  -- the slots that are filled now were filled behind the task
  have pending : ∀ {m : Nat} {sig : Sig}, s.slots[m]? = some (some sig) → s.scheduled ∨ ∃ j : Nat, s.execs[j]? = some .wake := by
    intro m sig hm
    rcases h.pending hm with hs | hw | ⟨k', sigs', ht', hle⟩
    · exact .inl hs
    · exact .inr hw
    · cases ht.symm.trans ht'
      have hlt : m < s.slots.length := at_lt hm
      rw [h.handling.len] at hlt
      omega
  have hlocated : ∀ {value : Option (List Sig)}, (∀ {sig}, sig ∈ sigs → Located s.slots s.execs none value s.received sig) →
      (∀ {sigs}, s.value = some sigs → value = some sigs) →
      ∀ {sig}, sig ∈ s.delivered → Located s.slots s.execs none value s.received sig := by
    intro value htaken hsent sig hsig
    cases h.located hsig with
    | exec hi hs => exact .exec hi hs
    | slot hm => exact .slot hm
    | taken ht' hs =>
      cases ht.symm.trans ht'
      exact htaken hs
    | sent hv hs => exact .sent (hsent hv) hs
    | received hr hs => exact .received hr hs
  rcases send_cases h ht with ⟨rfl, heq⟩ | ⟨hrx, hv, heq⟩ <;> rw [heq]
  · exact ⟨h.handling, h.listening, h.wakes, fun hm => (pending hm).imp id .inl, nofun, nofun, nofun, hlocated nofun id⟩
  · have hsent : ∀ {sigs'}, s.value = some sigs' → some sigs = some sigs' := fun hv' => nomatch hv.symm.trans hv'
    exact ⟨h.handling, h.listening.drain hrx sigs, h.wakes, fun hm => (pending hm).imp id .inl, nofun, nofun, nofun,
      hlocated (.sent rfl) hsent⟩

/-! ### The handlers -/

lemma Listening.lt_succ
    (h : Listening handlers spawned rx next value) (hc : c ∈ handlers ++ (spawned ++ [next])) : c < next + 1 := by
  rw [← append_assoc] at hc
  rcases mem_append.1 hc with hc | hc
  · exact Nat.lt_succ_of_lt (h.lt hc)
  · exact mem_singleton.1 hc ▸ Nat.lt_succ_self _

lemma Listening.nodup_succ (h : Listening handlers spawned rx next value) : (handlers ++ (spawned ++ [next])).Nodup := by
  rw [← append_assoc]
  refine nodup_append.2 ⟨h.nodup, nodup_singleton _, ?_⟩
  rintro c hc _ hn rfl
  exact Nat.lt_irrefl next (mem_singleton.1 hn ▸ h.lt hc)

lemma Inv.not_registered (h : Inv s) (hv : s.value = some sigs) : s.rx ∉ s.handlers := by
  intro hrx
  refine h.listening.sent ?_ (mem_append_left _ hrx)
  rw [hv]
  exact some_ne_none sigs

lemma inv_recv (h : Inv s) (hv : s.value = some sigs) :
    Inv { s with received := s.received ++ [sigs], value := none, rx := s.next, next := s.next + 1, spawned := s.spawned ++ [s.next] } where
  handling := h.handling
  listening :=
    { nodup := h.listening.nodup_succ
      lt := h.listening.lt_succ
      rx_lt := Nat.lt_succ_self _
      sent := fun hne => absurd rfl hne
      waits := fun _ => mem_append_right _ (mem_append_right _ (mem_singleton_self _)) }
  wakes := h.wakes
  pending := h.pending
  at_most := h.at_most
  held ht hne := absurd (h.held ht hne) (h.not_registered hv)
  ahead ht hle hm := absurd (h.ahead ht hle hm) (h.not_registered hv)
  located hsig := by
    cases h.located hsig with
    | exec hi hs => exact .exec hi hs
    | slot hm => exact .slot hm
    | taken ht hs => exact .taken ht hs
    | sent hv' hs =>
      cases hv.symm.trans hv'
      exact .received (mem_append_right _ (mem_singleton_self _)) hs
    | received hr hs => exact .received (mem_append_left _ hr) hs

lemma Inv.elsewhere (h : Inv s) {next : Nat}
    (hl : Listening handlers spawned s.rx next s.value) (hrx : s.rx ∈ s.handlers → s.rx ∈ handlers) :
    Inv { s with next, handlers, spawned } where
  handling := h.handling
  listening := hl
  wakes := h.wakes
  pending := h.pending
  at_most := h.at_most
  held ht hne := hrx (h.held ht hne)
  ahead ht hle hm := hrx (h.ahead ht hle hm)
  located := h.located

lemma inv_signal (h : Inv s) : Inv { s with next := s.next + 1, spawned := s.spawned ++ [s.next] } := by
  refine h.elsewhere ⟨h.listening.nodup_succ, h.listening.lt_succ, Nat.lt_succ_of_lt h.listening.rx_lt, fun hv hc => ?_, fun hv => ?_⟩ id
  · rw [← append_assoc] at hc
    rcases mem_append.1 hc with hc | hc
    · exact h.listening.sent hv hc
    · exact Nat.ne_of_lt h.listening.rx_lt (mem_singleton.1 hc)
  · rw [← append_assoc]
    exact mem_append_left _ (h.listening.waits hv)

lemma inv_register (h : Inv s) (hj : s.spawned[j]? = some c) :
    Inv { s with spawned := s.spawned.eraseIdx j, handlers := s.handlers ++ [c] } := by
  -- the handler moves from one list to the other
  have hperm : ((s.handlers ++ [c]) ++ s.spawned.eraseIdx j).Perm (s.handlers ++ s.spawned) := by
    obtain ⟨hlt, rfl⟩ := List.getElem?_eq_some_iff.1 hj
    rw [append_assoc]
    exact (getElem_cons_eraseIdx_perm hlt).append_left _
  refine h.elsewhere ⟨hperm.nodup_iff.2 h.listening.nodup, fun hc => h.listening.lt (hperm.mem_iff.1 hc), h.listening.rx_lt, fun hv hc => ?_,
    fun hv => hperm.mem_iff.2 (h.listening.waits hv)⟩ (mem_append_left _)
  exact h.listening.sent hv (hperm.mem_iff.1 hc)

lemma inv_step (i : Step) (h : Inv s) (hok : s.Orderly i) (hst : s.step i = some s') : Inv s' := by
  cases i with
  | handle_signal kind =>
    cases hst
    exact inv_deliver h hok.1 hok.2 _
  | exec j =>
    rw [step] at hst
    split at hst
    case h_1 k sig hj =>
      cases hst
      exact inv_scan h hj
    case h_2 k sig hj =>
      cases hst
      rw [Orderly, hj] at hok
      exact inv_write h hj hok
    case h_3 hj =>
      cases hst
      exact inv_wake h hj
    case h_4 | h_5 => cases hst
  | poll =>
    obtain ⟨hp, rfl⟩ := of_ite hst
    exact inv_poll h hp.2 hok
  | take =>
    rw [step] at hst
    split at hst
    case h_1 k sigs ht =>
      obtain ⟨hk, rfl⟩ := of_ite hst
      exact inv_take h ht hk
    case h_2 => cases hst
  | send =>
    rw [step] at hst
    split at hst
    case h_1 k sigs ht =>
      obtain ⟨hk, rfl⟩ := of_ite_not hst
      exact inv_send h ht hk
    case h_2 => cases hst
  | signal =>
    cases hst
    exact inv_signal h
  | register j =>
    obtain ⟨-, hst⟩ := of_guard hst
    obtain ⟨c, hj, rfl⟩ := of_map hst
    exact inv_register h hj
  | recv =>
    obtain ⟨sigs, hv, rfl⟩ := of_map hst
    exact inv_recv h hv

/-! ## What is left to do -/

def left : Option (Nat × List Sig) → Nat
  | some (k, _) => 14 - k
  | none => 0

@[simp] lemma left_none : left none = 0 := rfl

@[simp] lemma left_some : left (some (k, sigs)) = 14 - k := rfl

def rank (s : Signals) : Nat :=
  16 * (s.execs.map Exec.left).sum + (if s.scheduled then 15 else 0) + left s.task + (if s.value.isSome then 2 else 0) + s.spawned.length

lemma sum_left_set (hj : s.execs[j]? = some e) (h : e'.left < e.left) :
    ((s.execs.set j e').map Exec.left).sum < (s.execs.map Exec.left).sum := by
  have := sum_set (f := Exec.left) hj e'
  omega

lemma rank_exec (hj : s.execs[j]? = some e) (hs : s'.execs = s.execs.set j e') (h : e'.left < e.left) (ht : s'.task = s.task)
    (hv : s'.value = s.value) (hp : s'.spawned = s.spawned) : s'.rank < s.rank := by
  have hlt := sum_left_set hj h
  have hle : (if s'.scheduled then 15 else 0) ≤ 15 := by
    split
    · exact Nat.le_refl 15
    · exact Nat.zero_le 15
  rw [rank, rank, hs, ht, hv, hp]
  omega

lemma rank_send (h : Inv s) (ht : s.task = some (k, sigs)) : (s.send sigs).rank < s.rank := by
  have hle := h.at_most ht
  rcases send_cases h ht with ⟨-, heq⟩ | ⟨-, hv, heq⟩
  · rw [heq]
    simp only [rank, ht, left_none, left_some]
    omega
  · rw [heq]
    simp only [rank, ht, left_none, left_some, hv, isSome_some, isSome_none, if_true, false_eq_true, if_false]
    omega

lemma rank_step (i : Step) (hi : i.is_task) (h : Inv s) (hst : s.step i = some s') : s'.rank < s.rank := by
  cases i with
  | handle_signal kind => cases hi
  | exec j =>
    rw [step] at hst
    split at hst
    case h_1 k sig hj =>
      cases hst
      refine rank_exec hj (rfl : _ = s.execs.set j (s.scanned k sig)) ?_ rfl rfl rfl
      rcases scanned_cases h.handling hj with ⟨-, heq⟩ | ⟨hlt, -, heq⟩
      all_goals
        rw [heq, Exec.left, Exec.left]
        omega
    case h_2 k sig hj =>
      cases hst
      exact rank_exec hj (rfl : _ = s.execs.set j .wake) (Nat.lt_succ_self 1) rfl rfl rfl
    case h_3 hj =>
      cases hst
      exact rank_exec hj (rfl : _ = s.execs.set j .done) (Nat.lt_succ_self 0) rfl rfl rfl
    case h_4 | h_5 => cases hst
  | poll =>
    obtain ⟨hp, rfl⟩ := of_ite hst
    simp only [rank, left_none, left_some, hp.1, hp.2, if_true, false_eq_true, if_false]
    omega
  | take =>
    rw [step] at hst
    split at hst
    case h_1 k sigs ht =>
      obtain ⟨hk, rfl⟩ := of_ite hst
      simp only [rank, ht, left_some]
      omega
    case h_2 => cases hst
  | send =>
    rw [step] at hst
    split at hst
    case h_1 k sigs ht =>
      obtain ⟨hk, rfl⟩ := of_ite_not hst
      exact rank_send h ht
    case h_2 => cases hst
  | signal => cases hi
  | register j =>
    obtain ⟨-, hst⟩ := of_guard hst
    obtain ⟨c, hj, rfl⟩ := of_map hst
    have hlt : j < s.spawned.length := at_lt hj
    simp only [rank, length_eraseIdx_of_lt hlt]
    omega
  | recv =>
    obtain ⟨sigs, hv, rfl⟩ := of_map hst
    simp only [rank, hv, isSome_some, isSome_none, if_true, false_eq_true, if_false, length_append, length_singleton]
    omega

/-- No task has a step left to take. -/
def Quiet (s : Signals) : Prop := ∀ i : Step, i.is_task → s.Orderly i → s.step i = none

section

variable (h : s.Quiet)
include h

lemma Quiet.execs_done (ht : s.task = none) (hj : s.execs[j]? = some e) : e = .done := by
  have hok : s.Orderly (.exec j) := by
    rw [Orderly, hj]
    cases e with
    | write => exact .inl ht
    | scan | wake | done => trivial
  have hnone := h (.exec j) rfl hok
  rw [step, hj] at hnone
  cases e with
  | done => rfl
  | scan | write | wake => cases hnone

lemma Quiet.task_none : s.task = none := by
  cases ht : s.task with
  | none => rfl
  | some p =>
    obtain ⟨k, sigs⟩ := p
    by_cases hk : k < 10
    · have := h .take rfl trivial
      rw [step, ht] at this
      exact nomatch (if_pos hk).symm.trans this
    · have := h .send rfl trivial
      rw [step, ht] at this
      exact nomatch (if_neg hk).symm.trans this

lemma Quiet.value_none : s.value = none := map_eq_none_iff.1 (h .recv rfl trivial)

lemma Quiet.registered (hi : Inv s) : s.rx ∈ s.handlers := by
  rcases mem_append.1 (hi.listening.waits h.value_none) with hrx | hrx
  · exact hrx
  · obtain ⟨j, hj⟩ := mem_iff_getElem?.1 hrx
    have := h (.register j) rfl trivial
    rw [step, if_pos h.task_none, hj] at this
    cases this

lemma Quiet.received (hi : Inv s) (hsig : sig ∈ s.delivered) : ∃ sigs ∈ s.received, sig ∈ sigs := by
  cases hi.located hsig with
  | exec hj hs =>
    rw [h.execs_done h.task_none hj] at hs
    cases hs
  | slot hm =>
    -- the task is scheduled, and may be polled as the handler is registered
    rcases hi.pending hm with hs | ⟨j, hj⟩ | ⟨k, sigs, ht, -⟩
    · have := h .poll rfl (.inr (h.registered hi))
      rw [step, if_pos ⟨hs, h.task_none⟩] at this
      cases this
    · exact nomatch h.execs_done h.task_none hj
    · exact nomatch h.task_none.symm.trans ht
  | taken ht _ => exact nomatch h.task_none.symm.trans ht
  | sent hv _ => exact nomatch h.value_none.symm.trans hv
  | received hr hs => exact ⟨_, hr, hs⟩

end

lemma send_delivered (s : Signals) (sigs : List Sig) : (s.send sigs).delivered = s.delivered := by
  rw [send]
  split <;> rfl

lemma delivered_step (i : Step) (hi : i.is_task) (hst : s.step i = some s') : s'.delivered = s.delivered := by
  cases i with
  | handle_signal kind => cases hi
  | exec j =>
    rw [step] at hst
    split at hst
    case h_1 | h_2 | h_3 =>
      cases hst
      rfl
    case h_4 | h_5 => cases hst
  | poll =>
    obtain ⟨-, rfl⟩ := of_ite hst
    rfl
  | take =>
    rw [step] at hst
    split at hst
    case h_1 =>
      obtain ⟨-, rfl⟩ := of_ite hst
      rfl
    case h_2 => cases hst
  | send =>
    rw [step] at hst
    split at hst
    case h_1 =>
      obtain ⟨-, rfl⟩ := of_ite_not hst
      exact send_delivered s _
    case h_2 => cases hst
  | signal => cases hi
  | register j =>
    obtain ⟨-, hst⟩ := of_guard hst
    obtain ⟨c, hj, rfl⟩ := of_map hst
    rfl
  | recv =>
    obtain ⟨sigs, hv, rfl⟩ := of_map hst
    rfl

/-- Whatever the order of the executions and the tasks, they come to an end after so many steps, and then the loop has received
every signal that was delivered. -/
theorem signals_received {is : List Step} (h : Reach step Orderly new s) (his : ∀ i ∈ is, i.is_task)
    (hrun : Lib.run step Orderly s is = some s') :
    is.length ≤ s.rank ∧ (s'.Quiet → ∀ sig ∈ s.delivered, ∃ sigs ∈ s'.received, sig ∈ sigs) := by
  have hi : Inv s := h.inv Inv inv_new fun s i s' hI hok hst => inv_step i hI hok hst
  have hs : ∀ t i t', Step.is_task i → (Inv t ∧ t.delivered = s.delivered) → t.Orderly i → t.step i = some t' →
      (Inv t' ∧ t'.delivered = s.delivered) ∧ t'.rank < t.rank := by
    rintro t i t' hp ⟨hI, hd⟩ hok hst
    exact ⟨⟨inv_step i hI hok hst, (delivered_step i hp hst).trans hd⟩, rank_step i hp hI hst⟩
  obtain ⟨⟨hi', hd⟩, hle⟩ := length_add_rank_le rank hs his ⟨hi, rfl⟩ hrun
  refine ⟨by omega, fun hq sig hsig => ?_⟩
  exact hq.received hi' (hd ▸ hsig)

def polled : List Step := .poll :: List.replicate 10 .take ++ [.send]

def two : List Step :=
  .register 0 :: polled ++ .handle_signal .Hup :: List.replicate 3 (.exec 0) ++ .handle_signal .Term :: List.replicate 4 (.exec 1)

theorem signals_received_two : ∃ s s', Reach step Orderly new s ∧ Lib.run step Orderly s (polled ++ [.recv, .register 0]) = some s' ∧
    s.delivered = [⟨0, .Hup⟩, ⟨1, .Term⟩] ∧ (s'.Quiet → ∀ sig ∈ s.delivered, ∃ sigs ∈ s'.received, sig ∈ sigs) ∧
    s'.received = [[⟨0, .Hup⟩, ⟨1, .Term⟩]] := by
  have hreach : Reach step Orderly new _ := .of_steps two rfl
  have htasks : ∀ i ∈ polled ++ [.recv, .register 0], i.is_task := by decide
  exact ⟨_, _, hreach, rfl, rfl, (signals_received hreach htasks rfl).2, rfl⟩

/-! ## Signals that are lost -/

/-- Nothing more happens until the next event from outside, and the loop has not received this signal. -/
structure Lost (s : Signals) (sig : Sig) : Prop where
  rest (i : Step) (hi : i.is_task) : s.step i = none
  delivered : sig ∈ s.delivered
  not_received (sigs : List Sig) (h : sigs ∈ s.received) : sig ∉ sigs

def at_rest (s : Signals) : Bool :=
  s.execs.all (· == .done) && s.task.isNone && s.value.isNone && s.spawned.isEmpty && !s.scheduled

lemma step_at_rest (h : s.at_rest) (i : Step) (hi : i.is_task) : s.step i = none := by
  simp only [at_rest, Bool.and_eq_true, List.all_eq_true, beq_iff_eq, Option.isNone_iff_eq_none, List.isEmpty_iff,
    Bool.not_eq_true'] at h
  obtain ⟨⟨⟨⟨he, ht⟩, hv⟩, hp⟩, hs⟩ := h
  cases i with
  | handle_signal kind => cases hi
  | exec j =>
    rw [step]
    split
    case h_1 hj => exact nomatch he _ (List.mem_of_getElem? hj)
    case h_2 hj => exact nomatch he _ (List.mem_of_getElem? hj)
    case h_3 hj => exact nomatch he _ (List.mem_of_getElem? hj)
    case h_4 | h_5 => rfl
  | poll => rw [step, hs, if_neg fun hp => Bool.false_ne_true hp.1]
  | take | send => rw [step, ht]
  | signal => cases hi
  | register j => rw [step, if_pos ht, hp, List.getElem?_nil, Option.map_none]
  | recv => rw [step, hv, Option.map_none]

def unheard : List Step :=
  .register 0 :: polled ++ .handle_signal .Hup :: List.replicate 3 (.exec 0) ++ polled ++
    .handle_signal .Term :: List.replicate 3 (.exec 1) ++ polled ++ [.recv, .register 0]

def overlapping : List Step :=
  .register 0 :: polled ++ [.handle_signal .Hup, .handle_signal .Term, .exec 0, .exec 1, .exec 1, .exec 0, .exec 0, .exec 1] ++ polled ++
    [.recv, .register 0]

def full : List Step :=
  .register 0 :: polled ++ ((List.range 10).flatMap fun j => .handle_signal .Hup :: List.replicate (j + 3) (.exec j)) ++
    .handle_signal .Term :: List.replicate 12 (.exec 10) ++ polled ++ [.recv, .register 0]

lemma lost_of_run {is : List Step} (h : ((Lib.run step (fun _ _ => True) new is).map fun s =>
    s.at_rest && s.delivered.contains sig && s.received.all (!·.contains sig)) = some true) :
    ∃ s, Lib.run step (fun _ _ => True) new is = some s ∧ Lost s sig := by
  obtain ⟨s, hr, hs⟩ := of_map h
  simp only [Bool.and_eq_true, List.all_eq_true, Bool.not_eq_true', List.contains_eq_mem, decide_eq_true_eq, decide_eq_false_iff_not] at hs
  obtain ⟨⟨hq, hd⟩, hn⟩ := hs
  exact ⟨s, hr, step_at_rest hq, hd, hn⟩

theorem signals_lost : (∃ s, Lib.run step (fun _ _ => True) new unheard = some s ∧ Lost s ⟨1, .Term⟩) ∧
    (∃ s, Lib.run step (fun _ _ => True) new overlapping = some s ∧ Lost s ⟨1, .Term⟩) ∧
    ∃ s, Lib.run step (fun _ _ => True) new full = some s ∧ Lost s ⟨10, .Term⟩ :=
  ⟨lost_of_run (by decide +kernel), lost_of_run (by decide +kernel), lost_of_run (by decide +kernel)⟩

end Signals

end Geario.Rt
