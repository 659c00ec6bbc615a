import Geario.Lib.Fallible
import Geario.Lib.Parties
/-!
# Services of the listeners

A listener is known by its token. `configure` collects the listeners under their
names; on each worker `on_worker_start` callbacks register services for the
names, and the worker keeps, for each token, the service and the configuration.

`into_factory` numbers the calls of `bind` and `listen` but keeps one entry for
each name, and the services of a worker are as many as there are names. A name
that is used twice leaves an entry whose number is too large.
-/
open Lib (Holds at_lt at_append at_of_append)
open List Option

namespace Geario.Server.Net

variable {κ σ : Type}

/-! ## Configuration -/

structure Socket (κ : Type) where
  name : String
  tokens : List (Nat × κ)
  deriving DecidableEq

structure Reg (κ σ : Type) where
  name : String
  cfg : κ
  svc : σ
  deriving DecidableEq

/-- What an `on_worker_start` callback does on a worker, and whether it returns `Ok`. -/
structure Callback (κ σ : Type) where
  services : List (Reg κ σ)
  result : Bool
  deriving DecidableEq

structure ServiceConfig (κ σ : Type) where
  token : Nat
  on_start_set : Bool
  on_start : List (Callback κ σ)
  sockets : List (Socket κ)
  deriving DecidableEq

inductive Call (κ σ : Type)
  /-- the number of listeners, unless `bind_addr` fails -/
  | bind (name : String) (listeners : Option Nat)
  | listen (name : String)
  | on_worker_start (f : Callback κ σ)

namespace ServiceConfig

/-- The callback only logs an error. -/
def new (token : Nat) : ServiceConfig κ σ := { token, on_start_set := false, on_start := [⟨[], true⟩], sockets := [] }

def add [Inhabited κ] (c : ServiceConfig κ σ) (name : String) (listeners : Nat) : ServiceConfig κ σ :=
  { c with
    token := c.token + listeners
    sockets := c.sockets ++ [⟨name, (List.range' c.token listeners).map fun token => (token, default)⟩] }

def call [Inhabited κ] (c : ServiceConfig κ σ) : Call κ σ → ServiceConfig κ σ
  | .bind name (some listeners) => c.add name listeners
  | .bind _ none => c
  | .listen name => c.add name 1
  | .on_worker_start f => { c with on_start_set := true, on_start := (if c.on_start_set then c.on_start else []) ++ [f] }

end ServiceConfig

structure Entry (κ : Type) where
  idx : Nat
  name : String
  tokens : List (Nat × κ)

def insert (names : List (Entry κ)) (entry : Entry κ) : List (Entry κ) := entry :: names.filter (·.name ≠ entry.name)

def ServiceConfig.names (c : ServiceConfig κ σ) : List (Entry κ) :=
  c.sockets.zipIdx.foldl (fun names s => insert names ⟨s.2, s.1.name, s.1.tokens⟩) []

/-! ## On a worker -/

/-- An index out of bounds, a service with an unknown name, and a callback that returned an error. -/
inductive Fail
  | Index | Unknown | Io
  deriving DecidableEq

structure ServiceRuntime (κ σ : Type) where
  names : List (Entry κ)
  services : List (Option σ)

structure Created (κ σ : Type) where
  svc : σ
  name : String
  tokens : List (Nat × κ)

/-- The order in which the values of a map are visited. -/
structure Order (κ : Type) where
  values : List (Entry κ) → List (Entry κ)
  perm (l : List (Entry κ)) : (values l).Perm l

namespace ServiceRuntime

def new (names : List (Entry κ)) : ServiceRuntime κ σ := ⟨names, List.replicate names.length none⟩

def service (rt : ServiceRuntime κ σ) (reg : Reg κ σ) : Except Fail (ServiceRuntime κ σ) :=
  match rt.names.find? (·.name = reg.name) with
  | some entry =>
    if entry.idx < rt.services.length then
      .ok
        { names := rt.names.map fun e =>
            if e.name = reg.name then { e with tokens := e.tokens.map fun token => (token.1, reg.cfg) } else e
          services := rt.services.set entry.idx (some reg.svc) }
    else .error .Index
  | none => .error .Unknown

def run (rt : ServiceRuntime κ σ) (f : Callback κ σ) : Except Fail (ServiceRuntime κ σ) := do
  let rt ← f.services.foldlM service rt
  if f.result then .ok rt else .error .Io

def validate (rt : ServiceRuntime κ σ) : Except Fail (ServiceRuntime κ σ) :=
  if ∀ e ∈ rt.names, e.idx < rt.services.length then .ok rt else .error .Index

end ServiceRuntime

/-- The services are popped from the end; the length of the rest is the index of the one that was popped. -/
def pops (names : List (Entry κ)) : List (Option σ) → List (Created κ σ)
  | [] => []
  | some svc :: services =>
    match names.find? (·.idx = services.length) with
    | some entry => ⟨svc, entry.name, entry.tokens⟩ :: pops names services
    | none => pops names services
  | none :: services => pops names services

def ServiceConfig.create (order : Order κ) (c : ServiceConfig κ σ) : Except Fail (List (Created κ σ)) := do
  let rt ← c.on_start.foldlM ServiceRuntime.run (.new c.names)
  let rt ← rt.validate
  .ok (pops (order.values rt.names) rt.services.reverse)

/-! ## The server -/

/-- A factory of the server: made by `configure`, or by the builder's own `bind` and `listen`. -/
inductive Factory (κ σ : Type)
  | configured (config : ServiceConfig κ σ)
  | direct (created : Created κ σ)

def Factory.create (order : Order κ) : Factory κ σ → Except Fail (List (Created κ σ))
  | .configured config => config.create order
  | .direct created => .ok [created]

structure ServerBuilder (κ σ : Type) where
  token : Nat
  services : List (Factory κ σ)

inductive Build (κ σ : Type)
  | configure (calls : List (Call κ σ))
  | bind (name : String) (listeners : Nat) (cfg : κ) (svc : σ)
  | listen (name : String) (cfg : κ) (svc : σ)

namespace ServerBuilder

def new : ServerBuilder κ σ := ⟨0, []⟩

def direct (b : ServerBuilder κ σ) (name : String) (listeners : Nat) (cfg : κ) (svc : σ) : ServerBuilder κ σ :=
  ⟨b.token + listeners, b.services ++ [.direct ⟨svc, name, (List.range' b.token listeners).map fun token => (token, cfg)⟩]⟩

def build [Inhabited κ] (b : ServerBuilder κ σ) : Build κ σ → ServerBuilder κ σ
  | .configure calls =>
    let config := calls.foldl ServiceConfig.call (.new b.token)
    ⟨config.token, b.services ++ [.configured config]⟩
  | .bind name listeners cfg svc => b.direct name listeners cfg svc
  | .listen name cfg svc => b.direct name 1 cfg svc

end ServerBuilder

structure StreamService (κ σ : Type) where
  services : List σ
  tokens : Nat → Option (Nat × κ)

namespace StreamService

def insert (idx : Nat) (tokens : Nat → Option (Nat × κ)) (t : Nat × κ) (token : Nat) : Option (Nat × κ) :=
  if token = t.1 then some (idx, t.2) else tokens token

def push (s : StreamService κ σ) (c : Created κ σ) : StreamService κ σ where
  services := s.services ++ [c.svc]
  tokens := c.tokens.foldl (insert s.services.length) s.tokens

def call (s : StreamService κ σ) (token : Nat) : Except Fail (Option (σ × κ)) :=
  match s.tokens token with
  | some (idx, cfg) =>
    match s.services[idx]? with
    | some svc => .ok (some (svc, cfg))
    | none => .error .Index
  | none => .ok none

end StreamService

def ServerBuilder.create (order : Order κ) (b : ServerBuilder κ σ) : Except Fail (StreamService κ σ) :=
  b.services.foldlM (fun s info => (info.create order).map fun created => created.foldl StreamService.push s) ⟨[], fun _ => none⟩

/-! ## What the listeners are for -/

def last (regs : List (Reg κ σ)) (name : String) : Option (Reg κ σ) := (regs.filter (·.name = name)).getLast?

def ServiceConfig.regs (c : ServiceConfig κ σ) : List (Reg κ σ) := c.on_start.flatMap Callback.services

def ServiceConfig.listeners (c : ServiceConfig κ σ) : List (Nat × Option (σ × κ)) :=
  c.sockets.flatMap fun s => s.tokens.map fun token => (token.1, (last c.regs s.name).map fun r => (r.svc, r.cfg))

def Factory.listeners : Factory κ σ → List (Nat × Option (σ × κ))
  | .configured config => config.listeners
  | .direct created => created.tokens.map fun token => (token.1, some (created.svc, token.2))

/-- No worker or connection indexes out of bounds, and every connection gets to the service its listener is for. -/
structure Routed (order : Order κ) (b : ServerBuilder κ σ) : Prop where
  starts : b.create order ≠ .error .Index
  calls {s : StreamService κ σ} (h : b.create order = .ok s) {token : Nat} {svc : Option (σ × κ)}
    (hl : (token, svc) ∈ b.services.flatMap Factory.listeners) : s.call token = .ok svc

/-- A configuration names each socket once. -/
def Factory.Distinct : Factory κ σ → Prop
  | .configured config => (config.sockets.map Socket.name).Nodup
  | .direct _ => True

/-- The callbacks register services for names of their configuration, and return `Ok`. -/
def Factory.Known : Factory κ σ → Prop
  | .configured config =>
    ∀ f ∈ config.on_start, f.result ∧ ∀ reg ∈ f.services, ∃ s ∈ config.sockets, s.name = reg.name
  | .direct _ => True

variable {c : ServiceConfig κ σ} {regs : List (Reg κ σ)} {reg : Reg κ σ} {rt : ServiceRuntime κ σ} {name : String} {i token : Nat}
  {e : Entry κ} {order : Order κ} {b : ServerBuilder κ σ} {s : StreamService κ σ} {names : List (Entry κ)}
  {tokens : Nat → Option (Nat × κ)} {created : List (Created κ σ)}

/-! ## Registrations -/

lemma last_concat (regs : List (Reg κ σ)) (reg : Reg κ σ) (name : String) :
    last (regs ++ [reg]) name = if reg.name = name then some reg else last regs name := by
  rw [last, filter_append]
  split
  case isTrue h => rw [filter_singleton, decide_eq_true h, cond_true, getLast?_concat]
  case isFalse h => rw [filter_singleton, decide_eq_false h, cond_false, append_nil, last]

def tokens_of (regs : List (Reg κ σ)) (s : Socket κ) : List (Nat × κ) :=
  match last regs s.name with
  | some r => s.tokens.map fun token => (token.1, r.cfg)
  | none => s.tokens

lemma tokens_of_some {s : Socket κ} (h : last regs s.name = some reg) :
    tokens_of regs s = s.tokens.map fun token => (token.1, reg.cfg) := by
  rw [tokens_of, h]

lemma tokens_of_concat_self {s : Socket κ} (h : s.name = reg.name) :
    tokens_of (regs ++ [reg]) s = (tokens_of regs s).map fun token => (token.1, reg.cfg) := by
  rw [tokens_of_some ((last_concat regs reg s.name).trans (if_pos h.symm)), tokens_of]
  split
  · rw [List.map_map]
    rfl
  · rfl

lemma tokens_of_concat_ne {s : Socket κ} (h : s.name ≠ reg.name) : tokens_of (regs ++ [reg]) s = tokens_of regs s := by
  rw [tokens_of, last_concat, if_neg fun hn => h hn.symm, tokens_of]

def entries (c : ServiceConfig κ σ) (regs : List (Reg κ σ)) : List (Entry κ) :=
  c.sockets.zipIdx.map fun s => ⟨s.2, s.1.name, tokens_of regs s.1⟩

lemma mem_entries : e ∈ entries c regs ↔ ∃ s, c.sockets[e.idx]? = some s ∧ e.name = s.name ∧ e.tokens = tokens_of regs s := by
  rw [entries, List.mem_map]
  constructor
  · rintro ⟨⟨s, i⟩, hs, rfl⟩
    exact ⟨s, mem_zipIdx_iff_getElem?.1 hs, rfl, rfl⟩
  · rintro ⟨s, hs, hn, ht⟩
    refine ⟨(s, e.idx), mem_zipIdx_iff_getElem?.2 hs, ?_⟩
    rw [← hn, ← ht]

lemma entries_concat (c : ServiceConfig κ σ) (regs : List (Reg κ σ)) (reg : Reg κ σ) :
    entries c (regs ++ [reg]) = (entries c regs).map fun e =>
      if e.name = reg.name then { e with tokens := e.tokens.map fun token => (token.1, reg.cfg) } else e := by
  rw [entries, entries, List.map_map]
  refine List.map_congr_left fun s _ => ?_
  rw [Function.comp_apply]
  split
  case isTrue h => rw [tokens_of_concat_self h]
  case isFalse h => rw [tokens_of_concat_ne h]

lemma foldl_insert {l : List (Socket κ × Nat)} (hd : (l.map fun s => s.1.name).Nodup)
    (hn : ∀ s ∈ l, ∀ e ∈ names, e.name ≠ s.1.name) :
    l.foldl (fun names s => insert names ⟨s.2, s.1.name, s.1.tokens⟩) names =
      (l.map fun s => ⟨s.2, s.1.name, s.1.tokens⟩).reverse ++ names := by
  induction l generalizing names with
  | nil => rfl
  | cons s l ih =>
    rw [map_cons, nodup_cons] at hd
    have hins : insert names ⟨s.2, s.1.name, s.1.tokens⟩ = ⟨s.2, s.1.name, s.1.tokens⟩ :: names := by
      rw [insert, filter_eq_self.2]
      exact fun e he => decide_eq_true (hn s mem_cons_self e he)
    rw [foldl_cons, hins, ih hd.2, map_cons, reverse_cons, append_assoc]
    · rfl
    · intro s' hs' e he heq
      rcases mem_cons.1 he with rfl | he
      · exact hd.1 (mem_map.2 ⟨s', hs', heq.symm⟩)
      · exact hn s' (mem_cons_of_mem _ hs') e he heq

lemma names_perm (hd : (c.sockets.map Socket.name).Nodup) : c.names.Perm (entries c []) := by
  have hz : c.sockets.zipIdx.map (fun s => s.1.name) = c.sockets.map Socket.name := by
    rw [← zipIdx_map_fst 0 c.sockets, List.map_map, zipIdx_map_fst]
    rfl
  rw [ServiceConfig.names, foldl_insert (hz ▸ hd) (fun _ _ _ he => absurd he not_mem_nil), append_nil]
  exact reverse_perm _

structure Registered (c : ServiceConfig κ σ) (regs : List (Reg κ σ)) (rt : ServiceRuntime κ σ) : Prop where
  names : rt.names.Perm (entries c regs)
  services : rt.services = c.sockets.map fun s => (last regs s.name).map Reg.svc

lemma Registered.service_at (h : Registered c regs rt) {s : Socket κ} (hi : c.sockets[i]? = some s) :
    rt.services[i]? = some ((last regs s.name).map Reg.svc) := by
  rw [h.services, getElem?_map, hi, map_some]

lemma Registered.idx_lt (h : Registered c regs rt) (he : e ∈ rt.names) : e.idx < rt.services.length := by
  obtain ⟨s, hs, -, -⟩ := mem_entries.1 (h.names.mem_iff.1 he)
  exact at_lt (h.service_at hs)

section

variable (hd : (c.sockets.map Socket.name).Nodup)
include hd

lemma registered_new : Registered c [] (.new c.names) where
  names := names_perm hd
  services := by
    have hlen : c.names.length = c.sockets.length := by
      rw [(names_perm hd).length_eq, entries, length_map, length_zipIdx]
    show replicate c.names.length none = _
    rw [hlen]
    exact map_const'.symm

lemma name_ne {j : Nat} {s s' : Socket κ} (hi : c.sockets[i]? = some s)
    (hj : c.sockets[j]? = some s') (hij : i ≠ j) : s.name ≠ s'.name := by
  intro heq
  have hmap : ∀ {k : Nat} {s : Socket κ}, c.sockets[k]? = some s → (c.sockets.map Socket.name)[k]? = some s.name := by
    intro k s hk
    rw [getElem?_map, hk, map_some]
  obtain ⟨hlt, -⟩ := List.getElem?_eq_some_iff.1 (hmap hi)
  exact hij ((getElem?_inj hlt hd).1 ((hmap hi).trans (heq ▸ (hmap hj).symm)))

lemma Registered.service (h : Registered c regs rt) (reg : Reg κ σ) :
    Holds (Registered c (regs ++ [reg])) (· ≠ Fail.Index) (rt.service reg) := by
  rw [ServiceRuntime.service]
  split
  case h_1 entry hf =>
    have hmem := mem_of_find?_eq_some hf
    have hname : entry.name = reg.name := by simpa using find?_some hf
    obtain ⟨s, hs, hn, -⟩ := mem_entries.1 (h.names.mem_iff.1 hmem)
    rw [if_pos (h.idx_lt hmem)]
    refine ⟨entries_concat c regs reg ▸ h.names.map _, ?_⟩
    -- the service is put at the position of its name
    refine ext_getElem? fun j => ?_
    rw [getElem?_map]
    rcases eq_or_ne entry.idx j with rfl | hij
    · rw [getElem?_set_self (h.idx_lt hmem), hs, map_some, last_concat, if_pos (hname.symm.trans hn), map_some]
    · rw [getElem?_set_ne hij, h.services, getElem?_map]
      cases hj : c.sockets[j]? with
      | none => rfl
      | some s' =>
        have hne : reg.name ≠ s'.name := fun heq => name_ne hd hs hj hij (hn.symm.trans (hname.trans heq))
        rw [map_some, map_some, last_concat, if_neg hne]
  case h_2 => exact nofun

lemma Registered.run (h : Registered c regs rt) (f : Callback κ σ) :
    Holds (Registered c (regs ++ f.services)) (· ≠ Fail.Index) (rt.run f) := by
  have hreg : Holds (Registered c (regs ++ f.services)) (· ≠ Fail.Index) (f.services.foldlM ServiceRuntime.service rt) :=
    Holds.foldlM (fun done => Registered c (regs ++ done)) ((append_nil regs).symm ▸ h)
      fun done reg rt _ hrt => append_assoc regs done [reg] ▸ hrt.service hd reg
  refine hreg.bind fun rt' hrt => ?_
  split
  · exact hrt
  · exact nofun

end

/-! ## The services of a configuration -/

/-- These are the services, and the tokens, that the listeners are for. -/
def Offers (created : List (Created κ σ)) (listeners : List (Nat × Option (σ × κ))) : Prop :=
  ∀ token svc cfg, (∃ c ∈ created, c.svc = svc ∧ (token, cfg) ∈ c.tokens) ↔ (token, some (svc, cfg)) ∈ listeners

lemma mem_pops {services : List (Option σ)} {cr : Created κ σ} :
    cr ∈ pops names services.reverse ↔
      ∃ i svc e, services[i]? = some (some svc) ∧ names.find? (·.idx = i) = some e ∧ cr = ⟨svc, e.name, e.tokens⟩ := by
  induction services using reverseRecOn with
  | nil =>
    constructor
    · intro h
      cases h
    · rintro ⟨i, svc, e, hi, -, -⟩
      cases hi
  | append_singleton services svc ih =>
    -- the last one is popped first
    have hrest : (∃ i svc' e, (services ++ [svc])[i]? = some (some svc') ∧ names.find? (·.idx = i) = some e ∧
        cr = ⟨svc', e.name, e.tokens⟩) ↔ cr ∈ pops names services.reverse ∨ ∃ svc' e, svc = some svc' ∧
          names.find? (·.idx = services.length) = some e ∧ cr = ⟨svc', e.name, e.tokens⟩ := by
      rw [ih]
      constructor
      · rintro ⟨i, svc', e, hi, hf, rfl⟩
        rcases at_of_append hi with hi | ⟨rfl, hsvc⟩
        · exact .inl ⟨i, svc', e, hi, hf, rfl⟩
        · exact .inr ⟨svc', e, hsvc.symm, hf, rfl⟩
      · rintro (⟨i, svc', e, hi, hf, rfl⟩ | ⟨svc', e, rfl, hf, rfl⟩)
        · refine ⟨i, svc', e, ?_, hf, rfl⟩
          rw [at_append hi]
        · exact ⟨services.length, svc', e, getElem?_concat_length, hf, rfl⟩
    rw [hrest, reverse_append, reverse_singleton, singleton_append]
    cases svc with
    | none =>
      refine ⟨.inl, fun h => h.resolve_right ?_⟩
      rintro ⟨_, _, heq, -⟩
      cases heq
    | some svc =>
      rw [pops, length_reverse]
      cases hf : names.find? (·.idx = services.length) with
      | none =>
        refine ⟨.inl, fun h => h.resolve_right ?_⟩
        rintro ⟨_, _, -, heq, -⟩
        cases heq
      | some e =>
        rw [mem_cons]
        constructor
        · rintro (rfl | h)
          · exact .inr ⟨svc, e, rfl, rfl, rfl⟩
          · exact .inl h
        · rintro (h | ⟨_, _, heq, heq', rfl⟩)
          · exact .inr h
          · cases heq
            cases heq'
            exact .inl rfl

lemma Registered.find_idx (h : Registered c regs rt) (hp : names.Perm rt.names) {s : Socket κ}
    (hi : c.sockets[i]? = some s) : ∃ e, names.find? (·.idx = i) = some e ∧ e.name = s.name ∧ e.tokens = tokens_of regs s := by
  have hmem : ∀ {e : Entry κ}, e ∈ names ↔ e ∈ entries c regs := (hp.trans h.names).mem_iff
  cases hf : names.find? (·.idx = i) with
  | none =>
    have hnot := find?_eq_none.1 hf ⟨i, s.name, tokens_of regs s⟩ (hmem.2 (mem_entries.2 ⟨s, hi, rfl, rfl⟩))
    exact absurd (decide_eq_true rfl) hnot
  | some e =>
    obtain ⟨s', hs', hn, ht⟩ := mem_entries.1 (hmem.1 (mem_of_find?_eq_some hf))
    obtain rfl : e.idx = i := by simpa using find?_some hf
    cases hi.symm.trans hs'
    exact ⟨e, rfl, hn, ht⟩

lemma Registered.offers (h : Registered c c.regs rt) (order : Order κ) :
    Offers (pops (order.values rt.names) rt.services.reverse) c.listeners := by
  intro token svc cfg
  constructor
  · rintro ⟨cr, hcr, rfl, ht⟩
    obtain ⟨i, svc, e, hi, hf, rfl⟩ := mem_pops.1 hcr
    obtain ⟨s, hs, hsvc⟩ : ∃ s, c.sockets[i]? = some s ∧ (last c.regs s.name).map Reg.svc = some svc := by
      rw [h.services, getElem?_map, map_eq_some_iff] at hi
      exact hi
    obtain ⟨e', hf', -, ht'⟩ := h.find_idx (order.perm _) hs
    cases hf.symm.trans hf'
    obtain ⟨reg, hreg, rfl⟩ := map_eq_some_iff.1 hsvc
    rw [ht', tokens_of_some hreg] at ht
    obtain ⟨t, hts, heq⟩ := mem_map.1 ht
    cases heq
    refine mem_flatMap.2 ⟨s, mem_of_getElem? hs, mem_map.2 ⟨t, hts, ?_⟩⟩
    rw [hreg, map_some]
  · intro hl
    obtain ⟨s, hs, hl⟩ := mem_flatMap.1 hl
    obtain ⟨i, hi⟩ := mem_iff_getElem?.1 hs
    obtain ⟨t, ht, heq⟩ := mem_map.1 hl
    obtain ⟨rfl, hsvc⟩ := Prod.mk.inj heq
    obtain ⟨reg, hreg, heq⟩ := map_eq_some_iff.1 hsvc
    cases heq
    obtain ⟨e, hf, -, het⟩ := h.find_idx (order.perm _) hi
    refine ⟨_, mem_pops.2 ⟨i, reg.svc, e, ?_, hf, rfl⟩, rfl, ?_⟩
    · rw [h.service_at hi, hreg, map_some]
    · rw [het, tokens_of_some hreg]
      exact mem_map.2 ⟨t, ht, rfl⟩

lemma ServiceConfig.create_offers (order : Order κ) (hd : (c.sockets.map Socket.name).Nodup) :
    Holds (Offers · c.listeners) (· ≠ Fail.Index) (c.create order) := by
  have hruns : Holds (fun rt => Registered c (c.on_start.flatMap Callback.services) rt) (· ≠ Fail.Index)
      (c.on_start.foldlM ServiceRuntime.run (.new c.names)) := by
    refine Holds.foldlM (fun done => Registered c (done.flatMap Callback.services)) (registered_new hd) ?_
    intro done f rt _ hrt
    rw [flatMap_append, flatMap_singleton]
    exact hrt.run hd f
  refine hruns.bind fun rt hrt => ?_
  have hval : rt.validate = .ok rt := if_pos fun e he => hrt.idx_lt he
  rw [hval]
  exact hrt.offers order

variable {info : Factory κ σ}

lemma Factory.create_offers (order : Order κ) (hd : info.Distinct) :
    Holds (Offers · info.listeners) (· ≠ Fail.Index) (info.create order) := by
  cases info with
  | configured config => exact config.create_offers order hd
  | direct created =>
    intro token svc cfg
    constructor
    · rintro ⟨cr, hcr, rfl, ht⟩
      obtain rfl := mem_singleton.1 hcr
      exact mem_map.2 ⟨(token, cfg), ht, rfl⟩
    · intro hl
      obtain ⟨t, ht, heq⟩ := mem_map.1 hl
      cases heq
      exact ⟨created, mem_singleton_self _, rfl, ht⟩

/-! ## The tokens of a worker -/

/-- A token leads to a service that was created for it, and every token for which one was created leads to one. -/
structure Served (created : List (Created κ σ)) (s : StreamService κ σ) : Prop where
  services : s.services = created.map Created.svc
  sound {token idx : Nat} {cfg : κ} (h : s.tokens token = some (idx, cfg)) :
    ∃ c, created[idx]? = some c ∧ (token, cfg) ∈ c.tokens
  complete {c : Created κ σ} (hc : c ∈ created) {token : Nat} {cfg : κ} (h : (token, cfg) ∈ c.tokens) : s.tokens token ≠ none

lemma foldl_tokens {idx j : Nat} {cfg : κ} {l : List (Nat × κ)}
    (h : l.foldl (StreamService.insert j) tokens token = some (idx, cfg)) :
    (idx = j ∧ (token, cfg) ∈ l) ∨ tokens token = some (idx, cfg) := by
  induction l generalizing tokens with
  | nil => exact .inr h
  | cons t l ih =>
    rcases ih h with ⟨hj, hl⟩ | h
    · exact .inl ⟨hj, mem_cons_of_mem _ hl⟩
    · rw [StreamService.insert] at h
      split at h
      case isTrue heq =>
        cases h
        exact .inl ⟨rfl, heq ▸ mem_cons_self⟩
      case isFalse => exact .inr h

lemma foldl_tokens_ne {j : Nat} {l : List (Nat × κ)} (h : tokens token ≠ none ∨ ∃ cfg, (token, cfg) ∈ l):
    l.foldl (StreamService.insert j) tokens token ≠ none := by
  induction l generalizing tokens with
  | nil =>
    rcases h with h | ⟨cfg, h⟩
    · exact h
    · cases h
  | cons t l ih =>
    refine ih ?_
    rw [StreamService.insert]
    by_cases heq : token = t.1
    · rw [if_pos heq]
      exact .inl nofun
    · rw [if_neg heq]
      rcases h with h | ⟨cfg, h⟩
      · exact .inl h
      · rcases mem_cons.1 h with rfl | h
        · exact absurd rfl heq
        · exact .inr ⟨cfg, h⟩

lemma Served.push (h : Served created s) (cr : Created κ σ) : Served (created ++ [cr]) (s.push cr) where
  services := by rw [StreamService.push, h.services, map_append, map_singleton]
  sound ht := by
    rcases foldl_tokens ht with ⟨rfl, hl⟩ | ht
    · refine ⟨cr, ?_, hl⟩
      rw [h.services, length_map]
      exact getElem?_concat_length
    · obtain ⟨c, hc, hl⟩ := h.sound ht
      exact ⟨c, at_append hc, hl⟩
  complete {c} hc {token cfg} ht := by
    refine foldl_tokens_ne ?_
    rcases mem_append.1 hc with hc | hc
    · exact .inl (h.complete hc ht)
    · obtain rfl := mem_singleton.1 hc
      exact .inr ⟨cfg, ht⟩

lemma Served.pushes {created l : List (Created κ σ)} (h : Served created s) : Served (created ++ l) (l.foldl StreamService.push s) := by
  induction l generalizing created s with
  | nil =>
    rw [append_nil]
    exact h
  | cons cr l ih =>
    rw [append_cons]
    exact ih (h.push cr)

lemma Offers.append {created created' : List (Created κ σ)} {ls ls' : List (Nat × Option (σ × κ))} (h : Offers created ls)
    (h' : Offers created' ls') : Offers (created ++ created') (ls ++ ls') := by
  intro token svc cfg
  rw [mem_append, ← h token svc cfg, ← h' token svc cfg]
  constructor
  · rintro ⟨c, hc, hs⟩
    exact (mem_append.1 hc).imp (⟨c, ·, hs⟩) (⟨c, ·, hs⟩)
  · rintro (⟨c, hc, hs⟩ | ⟨c, hc, hs⟩)
    · exact ⟨c, mem_append_left _ hc, hs⟩
    · exact ⟨c, mem_append_right _ hc, hs⟩

lemma Served.call {ls : List (Nat × Option (σ × κ))} (h : Served created s) (ho : Offers created ls)
    (hd : (ls.map Prod.fst).Nodup) {svc : Option (σ × κ)} (hl : (token, svc) ∈ ls) : s.call token = .ok svc := by
  have once : ∀ {svc'}, (token, svc') ∈ ls → svc' = svc := fun hl' => congrArg Prod.snd (inj_on_of_nodup_map hd hl' hl rfl)
  rw [StreamService.call]
  cases ht : s.tokens token with
  | none =>
    cases svc with
    | none => rfl
    | some p =>
      obtain ⟨c, hc, -, hct⟩ := (ho token p.1 p.2).2 hl
      exact absurd ht (h.complete hc hct)
  | some p =>
    obtain ⟨idx, cfg⟩ := p
    obtain ⟨c, hc, hct⟩ := h.sound ht
    have hsvc : s.services[idx]? = some c.svc := by rw [h.services, getElem?_map, hc, map_some]
    rw [← once ((ho token c.svc cfg).1 ⟨c, mem_of_getElem? hc, rfl, hct⟩)]
    show (match s.services[idx]? with | some svc => Except.ok (some (svc, cfg)) | none => .error Fail.Index) = _
    rw [hsvc]

lemma create_served (order : Order κ) (hd : ∀ info ∈ b.services, info.Distinct) :
    Holds (fun s => ∃ created, Served created s ∧ Offers created (b.services.flatMap Factory.listeners)) (· ≠ Fail.Index)
      (b.create order) := by
  refine Holds.foldlM (fun done s => ∃ created, Served created s ∧ Offers created (done.flatMap Factory.listeners)) ?_ ?_
  · refine ⟨[], ⟨rfl, nofun, nofun⟩, fun token svc cfg => ⟨?_, nofun⟩⟩
    rintro ⟨c, hc, -⟩
    cases hc
  · rintro done info s hinfo ⟨created, hs, ho⟩
    refine (Factory.create_offers order (hd info hinfo)).map fun l hl => ?_
    rw [flatMap_append, flatMap_singleton]
    exact ⟨created ++ l, hs.pushes, ho.append hl⟩

/-! ## Tokens are not used twice -/

lemma listeners_tokens (c : ServiceConfig κ σ) :
    c.listeners.map Prod.fst = c.sockets.flatMap fun s => s.tokens.map Prod.fst := by
  rw [ServiceConfig.listeners, List.map_flatMap]
  refine List.flatMap_congr fun s _ => ?_
  rw [List.map_map]
  rfl

section

variable [Inhabited κ]

lemma call_tokens (calls : List (Call κ σ)) (start : Nat) :
    ∃ n, (calls.foldl ServiceConfig.call (.new start)).token = start + n ∧
      ((calls.foldl ServiceConfig.call (.new start)).sockets.flatMap fun s => s.tokens.map Prod.fst) = range' start n := by
  induction calls using reverseRecOn with
  | nil => exact ⟨0, rfl, rfl⟩
  | append_singleton calls call ih =>
    rw [foldl_append]
    obtain ⟨n, htoken, htokens⟩ := ih
    generalize calls.foldl ServiceConfig.call (.new start) = c at htoken htokens
    have hadd : ∀ name listeners, (c.add name listeners).token = start + (n + listeners) ∧
        ((c.add name listeners).sockets.flatMap fun s => s.tokens.map Prod.fst) = range' start (n + listeners) := by
      intro name listeners
      constructor
      · rw [ServiceConfig.add, htoken, add_assoc]
      · rw [ServiceConfig.add, flatMap_append, htokens, flatMap_singleton, List.map_map, htoken]
        refine Eq.trans (congrArg _ (map_id' _)) ?_
        exact range'_append_1
    cases call with
    | bind name listeners =>
      cases listeners with
      | some listeners => exact ⟨n + listeners, hadd name listeners⟩
      | none => exact ⟨n, htoken, htokens⟩
    | listen name => exact ⟨n + 1, hadd name 1⟩
    | on_worker_start f => exact ⟨n, htoken, htokens⟩

lemma build_tokens (steps : List (Build κ σ)) :
    ((steps.foldl ServerBuilder.build .new).services.flatMap Factory.listeners).map Prod.fst =
      range' 0 (steps.foldl ServerBuilder.build .new).token := by
  induction steps using reverseRecOn with
  | nil => rfl
  | append_singleton steps step ih =>
    rw [foldl_append]
    generalize steps.foldl ServerBuilder.build .new = b at ih
    have hadd : ∀ info n, info.listeners.map Prod.fst = range' b.token n →
        ((b.services ++ [info]).flatMap Factory.listeners).map Prod.fst = range' 0 (b.token + n) := by
      intro info n hinfo
      rw [flatMap_append, map_append, ih, flatMap_singleton, hinfo]
      have happ := range'_append_1 (s := 0) (m := b.token) (n := n)
      rw [zero_add] at happ
      exact happ
    have hdirect : ∀ name listeners cfg svc, ((b.direct name listeners cfg svc).services.flatMap Factory.listeners).map Prod.fst =
        range' 0 (b.direct name listeners cfg svc).token := by
      intro name listeners cfg svc
      refine hadd _ listeners ?_
      rw [Factory.listeners, List.map_map, List.map_map]
      exact map_id' _
    cases step with
    | configure calls =>
      obtain ⟨n, htoken, htokens⟩ := call_tokens calls b.token
      show (_ : List Nat) = range' 0 (calls.foldl ServiceConfig.call (.new b.token)).token
      rw [htoken]
      exact hadd _ n ((listeners_tokens _).trans htokens)
    | bind name listeners cfg svc => exact hdirect name listeners cfg svc
    | listen name cfg svc => exact hdirect name 1 cfg svc

end

lemma routed_of_distinct (order : Order κ) (hd : ∀ info ∈ b.services, info.Distinct)
    (ht : ((b.services.flatMap Factory.listeners).map Prod.fst).Nodup) : Routed order b := by
  have h := create_served order hd
  constructor
  · intro heq
    rw [heq] at h
    exact h rfl
  · intro s heq token svc hl
    rw [heq] at h
    obtain ⟨created, hs, ho⟩ := h
    exact hs.call ho ht hl

/-! ## A name that is used twice -/

structure Keyed (sockets : List (Socket κ)) (names : List (Entry κ)) : Prop where
  nodup : (names.map Entry.name).Nodup
  mem {name : String} : (∃ e ∈ names, e.name = name) ↔ ∃ s ∈ sockets, s.name = name

lemma Keyed.insert {sockets : List (Socket κ)} (h : Keyed sockets names) {s : Socket κ} (hn : e.name = s.name) :
    Keyed (sockets ++ [s]) (insert names e) where
  nodup := by
    rw [Net.insert, map_cons, nodup_cons]
    refine ⟨fun hmem => ?_, h.nodup.sublist (filter_sublist.map _)⟩
    obtain ⟨e', he', heq⟩ := mem_map.1 hmem
    exact of_decide_eq_true (mem_filter.1 he').2 heq
  mem {name} := by
    constructor
    · rintro ⟨e', he', rfl⟩
      rcases mem_cons.1 he' with rfl | he'
      · exact ⟨s, mem_append_right _ (mem_singleton_self s), hn.symm⟩
      · obtain ⟨s', hs', heq⟩ := h.mem.1 ⟨e', (mem_filter.1 he').1, rfl⟩
        exact ⟨s', mem_append_left _ hs', heq⟩
    · rintro ⟨s', hs', rfl⟩
      by_cases heq : e.name = s'.name
      · exact ⟨e, mem_cons_self, heq⟩
      · rcases mem_append.1 hs' with hs' | hs'
        · obtain ⟨e', he', hn'⟩ := h.mem.2 ⟨s', hs', rfl⟩
          refine ⟨e', mem_cons_of_mem _ (mem_filter.2 ⟨he', decide_eq_true fun h => heq ?_⟩), hn'⟩
          exact h.symm.trans hn'
        · exact absurd (mem_singleton.1 hs' ▸ hn) heq

lemma foldl_names_concat (l : List (Socket κ)) (s : Socket κ) :
    (l ++ [s]).zipIdx.foldl (fun names s => insert names ⟨s.2, s.1.name, s.1.tokens⟩) [] =
      insert (l.zipIdx.foldl (fun names s => insert names ⟨s.2, s.1.name, s.1.tokens⟩) []) ⟨l.length, s.name, s.tokens⟩ := by
  rw [zipIdx_append, foldl_append, zero_add]
  rfl

lemma keyed (c : ServiceConfig κ σ) : Keyed c.sockets c.names := by
  rw [ServiceConfig.names]
  induction c.sockets using reverseRecOn with
  | nil => exact ⟨.nil, by simp⟩
  | append_singleton l s ih =>
    rw [foldl_names_concat]
    exact ih.insert rfl

lemma names_length_lt (hd : ¬ (c.sockets.map Socket.name).Nodup) : c.names.length < c.sockets.length := by
  have hk := keyed c
  have hsub : (c.names.map Entry.name).Subperm (c.sockets.map Socket.name) := by
    refine subperm_of_subset hk.nodup fun name hname => ?_
    obtain ⟨e, he, rfl⟩ := mem_map.1 hname
    obtain ⟨s, hs, heq⟩ := hk.mem.1 ⟨e, he, rfl⟩
    exact mem_map.2 ⟨s, hs, heq⟩
  by_contra hle
  refine hd ((hsub.perm_of_length_le ?_).nodup_iff.1 hk.nodup)
  rw [length_map, length_map]
  exact Nat.le_of_not_lt hle

lemma idx_too_large (hd : ¬ (c.sockets.map Socket.name).Nodup) : ∃ e ∈ c.names, c.names.length ≤ e.idx := by
  have hlt := names_length_lt hd
  rcases eq_nil_or_concat c.sockets with hnil | ⟨l, s, hl⟩
  · rw [hnil] at hlt
    cases hlt
  · rw [concat_eq_append] at hl
    refine ⟨⟨l.length, s.name, s.tokens⟩, ?_, ?_⟩
    · rw [ServiceConfig.names, hl, foldl_names_concat]
      exact mem_cons_self
    · rw [hl, length_append] at hlt
      exact Nat.le_of_lt_succ hlt

/-- Registrations do not change which entries there are. -/
structure Shape (c : ServiceConfig κ σ) (rt : ServiceRuntime κ σ) : Prop where
  names : (rt.names.map fun e => (e.idx, e.name)) = c.names.map fun e => (e.idx, e.name)
  services : rt.services.length = c.names.length

lemma Shape.mem (h : Shape c rt) (he : e ∈ c.names) : ∃ e' ∈ rt.names, e'.idx = e.idx ∧ e'.name = e.name := by
  have hmem : (e.idx, e.name) ∈ rt.names.map fun e => (e.idx, e.name) := h.names ▸ mem_map_of_mem he
  obtain ⟨e', he', heq⟩ := mem_map.1 hmem
  exact ⟨e', he', Prod.mk.inj heq⟩

lemma Shape.service (h : Shape c rt) (hk : ∃ s ∈ c.sockets, s.name = reg.name) :
    Holds (Shape c) (· = Fail.Index) (rt.service reg) := by
  rw [ServiceRuntime.service]
  split
  case h_1 entry hf =>
    split
    case isTrue =>
      refine ⟨?_, length_set.trans h.services⟩
      rw [List.map_map, ← h.names]
      refine map_congr_left fun e _ => ?_
      rw [Function.comp_apply]
      split <;> rfl
    case isFalse => rfl
  case h_2 hf =>
    obtain ⟨e, he, hn⟩ := (keyed c).mem.2 hk
    obtain ⟨e', he', -, hn'⟩ := h.mem he
    exact absurd (decide_eq_true (hn'.trans hn)) (find?_eq_none.1 hf e' he')

lemma Shape.run (h : Shape c rt) {f : Callback κ σ} (hf : f.result ∧ ∀ reg ∈ f.services, ∃ s ∈ c.sockets, s.name = reg.name) :
    Holds (Shape c) (· = Fail.Index) (rt.run f) := by
  have hregs : Holds (Shape c) (· = Fail.Index) (f.services.foldlM ServiceRuntime.service rt) :=
    Holds.foldlM (fun _ => Shape c) h fun _ reg rt hreg hrt => hrt.service (hf.2 reg hreg)
  refine hregs.bind fun rt' hrt => ?_
  rw [if_pos hf.1]
  exact hrt

lemma Factory.create_known (order : Order κ) (hk : info.Known) :
    Holds (fun _ => info.Distinct) (· = Fail.Index) (info.create order) := by
  cases info with
  | direct created => trivial
  | configured c =>
    have hruns : Holds (Shape c) (· = Fail.Index) (c.on_start.foldlM ServiceRuntime.run (.new c.names)) :=
      Holds.foldlM (fun _ => Shape c) ⟨rfl, length_replicate⟩ fun _ f rt hf hrt => hrt.run (hk f hf)
    refine hruns.bind fun rt hrt => ?_
    rw [ServiceRuntime.validate]
    split
    case isTrue hall =>
      by_contra hd
      obtain ⟨e, he, hle⟩ := idx_too_large hd
      obtain ⟨e', he', hidx, -⟩ := hrt.mem he
      have hlt := hall e' he'
      rw [hidx, hrt.services] at hlt
      exact Nat.lt_irrefl _ (Nat.lt_of_lt_of_le hlt hle)
    case isFalse => rfl

lemma create_known (order : Order κ) (hk : ∀ info ∈ b.services, info.Known) :
    Holds (fun _ => ∀ info ∈ b.services, info.Distinct) (· = Fail.Index) (b.create order) := by
  refine Holds.foldlM (fun done _ => ∀ info ∈ done, Factory.Distinct info) nofun fun done info s hinfo hdone => ?_
  refine (Factory.create_known order (hk info hinfo)).map fun _ hd => ?_
  intro info' h
  rcases mem_append.1 h with h | h
  · exact hdone info' h
  · exact mem_singleton.1 h ▸ hd

/-- Without a name that is used twice in one configuration, connections get to their services whatever the callbacks do; and
unless a callback fails, only then. -/
theorem connections_routed [Inhabited κ] (order : Order κ) (steps : List (Build κ σ)) :
    ((∀ info ∈ (steps.foldl ServerBuilder.build .new).services, info.Distinct) → Routed order (steps.foldl ServerBuilder.build .new)) ∧
    ((∀ info ∈ (steps.foldl ServerBuilder.build .new).services, info.Known) →
      (Routed order (steps.foldl ServerBuilder.build .new) ↔
        ∀ info ∈ (steps.foldl ServerBuilder.build .new).services, info.Distinct)) := by
  have htokens : (((steps.foldl ServerBuilder.build .new).services.flatMap Factory.listeners).map Prod.fst).Nodup := by
    rw [build_tokens]
    exact nodup_range'
  have hrouted := fun hd => routed_of_distinct order hd htokens
  refine ⟨hrouted, fun hk => ⟨fun hr => ?_, hrouted⟩⟩
  have h := create_known order hk
  cases hc : (steps.foldl ServerBuilder.build .new).create order with
  | ok s =>
    rw [hc] at h
    exact h
  | error e =>
    rw [hc] at h
    exact absurd (h ▸ hc) hr.starts

def two : List (Build Nat Nat) :=
  [.configure [.bind "a" (some 2), .listen "b", .on_worker_start ⟨[⟨"b", 1, 10⟩, ⟨"a", 2, 20⟩], true⟩,
    .on_worker_start ⟨[⟨"b", 3, 30⟩], true⟩]]

theorem connections_routed_two : Routed ⟨id, List.Perm.refl⟩ (two.foldl ServerBuilder.build .new) ∧
    (two.foldl ServerBuilder.build .new).services.flatMap Factory.listeners = [(0, some (20, 2)), (1, some (20, 2)), (2, some (30, 3))] := by
  refine ⟨(connections_routed _ two).1 ?_, rfl⟩
  intro info h
  obtain rfl := mem_singleton.1 h
  show ["a", "b"].Nodup
  decide

def twice : List (Build Nat Nat) := [.configure [.listen "a", .listen "a", .on_worker_start ⟨[⟨"a", 1, 10⟩], true⟩]]

theorem twice_index : (twice.foldl ServerBuilder.build .new).create ⟨id, List.Perm.refl⟩ = .error .Index := rfl

end Geario.Server.Net
