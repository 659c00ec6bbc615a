import Geario.Lib.Counted
/-!
# Shared configuration

`SharedCfg`, `SharedCfgBuilder` and `Cfg<T>` are handles on an `Arc<Storage>`; a
`Cfg<T>` of a default value also holds the `Arc<T>` of that value, which is in the
`MAPPING` of a thread as well. A `CfgContext` is a pointer to a `Storage` that
counts for nothing: each value of `T` has one, and `T::default()` points it to the
default storage of its thread.

A step is a call of the safe API by some thread. `T::default()` and `set_ctx` are
code of `T`: `get` and `add` are in two steps, with any other steps in between.
When a storage or a default value is freed, its values of `T` are among the values
outside of a storage until they are gone, since their destructors can still use
their contexts.
-/
open Lib (Cell freed)

namespace Geario.Service.Config

/-- `data` has the types, each with the context of its value. -/
structure Storage where
  building : Bool
  data : List (Nat × Nat)
  deriving DecidableEq

inductive Kind
  | shared
  | tls (thread : Nat)
  | builder
  /-- The builder in `add`, with the value whose `set_ctx` is running. -/
  | adding (tp ctx : Nat)
  /-- `get` after `mem::forget(st.clone())`, with `T::default()` or `set_ctx` running. -/
  | getting (thread tp : Nat) (context : Bool)
  /-- With the context of the value it points to, which is in the storage or in an `Arc` of its own. -/
  | cfg (ctx : Nat) (arc : Option Nat)
  deriving DecidableEq

structure Owner where
  kind : Kind
  storage : Nat
  deriving DecidableEq

namespace Owner

def arc (o : Owner) : Option Nat :=
  match o.kind with
  | .cfg _ arc => arc
  | .shared | .tls _ | .builder | .adding _ _ | .getting _ _ _ => none

def ctx (o : Owner) : Nat :=
  match o.kind with
  | .cfg ctx _ => ctx
  | .shared | .tls _ | .builder | .adding _ _ | .getting _ _ _ => o.storage

def built (o : Owner) : Bool :=
  match o.kind with
  | .cfg _ _ | .getting _ _ _ => true
  | .shared | .tls _ | .builder | .adding _ _ => false

def usable (o : Owner) : Bool :=
  match o.kind with
  | .shared | .cfg _ _ | .adding _ _ | .getting _ _ _ => true
  | .tls _ | .builder => false

def in_add (o : Owner) : Bool :=
  match o.kind with
  | .adding _ _ => true
  | .shared | .tls _ | .builder | .getting _ _ _ | .cfg _ _ => false

/-- `SharedCfg::get`, after its assertion. -/
def in_shared_get (o : Owner) : Bool :=
  match o.kind with
  | .getting _ _ context => !context
  | .shared | .tls _ | .builder | .adding _ _ | .cfg _ _ => false

end Owner

structure Entry where
  thread : Nat
  storage : Nat
  tp : Nat
  value : Nat
  deriving DecidableEq

/-- A value of `T` outside of a storage, and the thread it was made by if it was not taken out of one. -/
structure Value where
  ctx : Nat
  home : Option Nat
  deriving DecidableEq

structure World where
  storages : List (Cell Storage)
  defaults : List (Cell Nat)
  threads : List Bool
  owners : List Owner
  mapping : List Entry
  values : List Value
  /-- Something was read or written after it was freed. -/
  dangling : Bool
  deriving DecidableEq

namespace World

def init : World := ⟨[], [], [], [], [], [], false⟩

def running (w : World) (t : Nat) : Prop := w.threads[t]? = some true

def ended (w : World) (t : Nat) : Prop := w.threads[t]? = some false

instance (w : World) (t : Nat) : Decidable (w.running t) := inferInstanceAs (Decidable (_ = _))

instance (w : World) (t : Nat) : Decidable (w.ended t) := inferInstanceAs (Decidable (_ = _))

/-! ## Counts -/

def touch (s : Nat) (w : World) : World := { w with dangling := w.dangling || freed w.storages s }

def touch_default (d : Nat) (w : World) : World := { w with dangling := w.dangling || freed w.defaults d }

def retain (s : Nat) (w : World) : World := { touch s w with storages := w.storages.modify s Cell.retain }

def retain_default (d : Nat) (w : World) : World := { touch_default d w with defaults := w.defaults.modify d Cell.retain }

def dying (s : Nat) (w : World) : List Value :=
  match w.storages[s]? with
  | some c => if c.strong = 1 then c.val.data.map fun p => ⟨p.2, none⟩ else []
  | none => []

def dying_default (d : Nat) (w : World) : List Value :=
  match w.defaults[d]? with
  | some c => if c.strong = 1 then [⟨c.val, none⟩] else []
  | none => []

def release (s : Nat) (w : World) : World :=
  { touch s w with storages := w.storages.modify s Cell.release, values := w.values ++ w.dying s }

def release_default (d : Nat) (w : World) : World :=
  { touch_default d w with defaults := w.defaults.modify d Cell.release, values := w.values ++ w.dying_default d }

/-! ## Handles -/

def push (o : Owner) (w : World) : World := { w with owners := w.owners ++ [o] }

def take (j : Nat) (w : World) : World := { w with owners := w.owners.eraseIdx j }

def alloc (st : Storage) (w : World) : World := { w with storages := w.storages ++ [⟨1, 0, st⟩] }

def value (v : Value) (w : World) : World := { w with values := w.values ++ [v] }

def default_cfg (t : Nat) (w : World) : World × Nat :=
  match w.owners.find? fun o => o.kind = .tls t with
  | some o => (w, o.storage)
  | none => (push ⟨.tls t, w.storages.length⟩ (alloc ⟨false, []⟩ w), w.storages.length)

def touch_value (o : Owner) (w : World) : World :=
  match o.kind with
  | .cfg _ (some d) => touch_default d w
  | .cfg _ none => touch o.storage w
  | .shared | .tls _ | .builder | .adding _ _ | .getting _ _ _ => w

/-- Drop the handle. The builder in `add` goes with the value that was to be added. -/
def drop (j : Nat) (o : Owner) (w : World) : World :=
  let w := release o.ctx (touch_value o (take j w))
  match o.kind with
  | .cfg _ (some d) => release_default d w
  | .adding _ ctx => value ⟨ctx, none⟩ w
  | .cfg _ none | .shared | .tls _ | .builder | .getting _ _ _ => w

def clone (s : Nat) (w : World) : World := push ⟨.shared, s⟩ (retain s w)

def mapped (t s tp : Nat) (w : World) : Option (Nat × Nat) :=
  (w.mapping.find? fun e => e.thread = t ∧ e.storage = s ∧ e.tp = tp).bind fun e =>
    (w.defaults[e.value]?).map fun c => (e.value, c.val)

/-- `get`, up to `T::default()`. In `CfgContext::get`, `inner` is dropped when the assertion fails. -/
def get (t s tp : Nat) (context : Bool) (w : World) : World :=
  let w := touch s w
  match w.storages[s]? with
  | none => w
  | some c =>
    if c.val.building then if context then release s w else w
    else
      let w := retain s w
      match c.val.data.lookup tp with
      | some ctx => push ⟨.cfg ctx none, s⟩ w
      | none =>
        match w.mapped t s tp with
        | some (d, ctx) => push ⟨.cfg ctx (some d), s⟩ (retain_default d w)
        | none => push ⟨.getting t tp context, s⟩ w

/-- `store.borrow_mut().insert`: an entry with the same key goes. -/
def unmap (t s tp : Nat) (w : World) : World :=
  match w.mapping.findIdx? fun e => e.thread = t ∧ e.storage = s ∧ e.tp = tp with
  | none => w
  | some m =>
    match w.mapping[m]? with
    | none => w
    | some e => release_default e.value { w with mapping := w.mapping.eraseIdx m }

/-- `set_ctx`: what the value has for its context afterwards. A context that is not stored can be anywhere. -/
def set_ctx (stores : Bool) (s ctx : Nat) (w : World) : World × Nat :=
  if stores then (w, s) else (value ⟨s, none⟩ w, ctx)

def get_default (j t s tp : Nat) (ctx : Nat) (stores : Bool) (w : World) : World :=
  let (w, ctx) := set_ctx stores s ctx (touch s w)
  let w := unmap t s tp w
  let d := w.defaults.length
  let w := { w with defaults := w.defaults ++ [⟨1, 0, ctx⟩], mapping := w.mapping ++ [⟨t, s, tp, d⟩] }
  push ⟨.cfg ctx (some d), s⟩ (take j (retain_default d w))

/-- `Arc::get_mut` succeeds. -/
def unique (s : Nat) (w : World) : Bool :=
  match w.storages[s]? with
  | some c => c.strong = 1
  | none => false

def replaced (s tp : Nat) (w : World) : List Value :=
  match w.storages[s]? with
  | some c => (c.val.data.lookup tp).toList.map fun ctx => ⟨ctx, none⟩
  | none => []

def insert (tp ctx : Nat) (st : Storage) : Storage := { st with data := (tp, ctx) :: st.data.filter (·.1 ≠ tp) }

def added (j s tp ctx : Nat) (stores : Bool) (w : World) : World :=
  let (w, ctx) := set_ctx stores s ctx w
  if w.unique s then
    push ⟨.builder, s⟩ (take j
      { w with storages := w.storages.modify s (Cell.put (insert tp ctx)), values := w.values ++ w.replaced s tp })
  else drop j ⟨.adding tp ctx, s⟩ w

def build (j s : Nat) (w : World) : World :=
  if w.unique s then
    push ⟨.shared, s⟩ (take j { w with storages := w.storages.modify s (Cell.put fun st => { st with building := false }) })
  else drop j ⟨.builder, s⟩ w

end World

inductive Step
  | spawn
  | exit (t : Nat)
  /-- `T::default()` or `CfgContext::default()`. -/
  | value (t : Nat)
  /-- `id`, `tag` or `service` of a value's context. -/
  | value_use (c : Nat)
  | value_shared (c : Nat)
  | value_get (t c tp : Nat)
  | value_drop (c : Nat)
  | shared_default (t : Nat)
  | new (t : Nat)
  | add (j c tp : Nat)
  | added (j : Nat) (stores : Bool)
  | build (j : Nat)
  /-- Read the value, and `id`, `tag` or `service`. -/
  | use (j : Nat)
  /-- `SharedCfg::clone`, `Cfg::shared`, `CfgContext::shared`. -/
  | shared (j : Nat)
  /-- `SharedCfg::get`, `Cfg::clone`, `From<&T>`, `Cfg::get_shared`, `CfgContext::get`. -/
  | get (t j tp : Nat)
  | get_default (j c : Nat) (stores : Bool)
  | get_panic (j : Nat)
  | drop (j : Nat)
  /-- The end of a thread drops its default storage (`drop`) and its default values. -/
  | mapping_drop (m : Nat)
  deriving DecidableEq

namespace World

def droppable (w : World) (o : Owner) : Bool :=
  match o.kind with
  | .tls t => w.ended t
  | .getting _ _ _ => false
  | .shared | .builder | .adding _ _ | .cfg _ _ => true

def step (w : World) : Step → Option World
  | .spawn => some { w with threads := w.threads ++ [true] }
  | .exit t => if w.running t then some { w with threads := w.threads.set t false } else none
  | .value t =>
    if w.running t then
      let (w, s) := default_cfg t w
      some (value ⟨s, some t⟩ w)
    else none
  | .value_use c => (w.values[c]?).map fun v => touch v.ctx w
  | .value_shared c => (w.values[c]?).map fun v => clone v.ctx w
  | .value_get t c tp => if w.running t then (w.values[c]?).map fun v => get t v.ctx tp true w else none
  | .value_drop c => (w.values[c]?).map fun _ => { w with values := w.values.eraseIdx c }
  | .shared_default t =>
    if w.running t then
      let (w, s) := default_cfg t w
      some (clone s w)
    else none
  | .new t =>
    if w.running t then
      let (w, _) := default_cfg t w
      some (push ⟨.builder, w.storages.length⟩ (alloc ⟨true, []⟩ w))
    else none
  | .add j c tp =>
    match w.owners[j]?, w.values[c]? with
    | some ⟨.builder, s⟩, some ⟨ctx, some _⟩ =>
      some (push ⟨.adding tp ctx, s⟩ (take j { w with values := w.values.eraseIdx c }))
    | _, _ => none
  | .added j stores =>
    match w.owners[j]? with
    | some ⟨.adding tp ctx, s⟩ => some (added j s tp ctx stores w)
    | _ => none
  | .build j =>
    match w.owners[j]? with
    | some ⟨.builder, s⟩ => some (build j s w)
    | _ => none
  | .use j => (w.owners[j]?).bind fun o => if o.usable then some (touch o.ctx (touch_value o w)) else none
  | .shared j => (w.owners[j]?).bind fun o => if o.usable then some (clone o.ctx (touch_value o w)) else none
  | .get t j tp =>
    (w.owners[j]?).bind fun o =>
      if o.usable ∧ w.running t then some (get t o.ctx tp (o.kind ≠ .shared) (touch_value o w)) else none
  | .get_default j c stores =>
    match w.owners[j]?, w.values[c]? with
    | some ⟨.getting t tp _, s⟩, some ⟨ctx, some _⟩ =>
      some (get_default j t s tp ctx stores { w with values := w.values.eraseIdx c })
    | _, _ => none
  -- the clone of `get` is never dropped, but `inner` of `CfgContext::get` is, which it did not hold
  | .get_panic j =>
    match w.owners[j]? with
    | some ⟨.getting _ _ context, s⟩ => some (if context then release s (take j w) else take j w)
    | _ => none
  | .drop j => (w.owners[j]?).bind fun o => if w.droppable o then some (drop j o w) else none
  | .mapping_drop m =>
    (w.mapping[m]?).bind fun e =>
      if w.ended e.thread then some (release_default e.value { w with mapping := w.mapping.eraseIdx m }) else none

/-! ## What the program has to respect -/

/-- The thread that made the value is running, or something holds the storage. -/
def held (w : World) (v : Value) : Bool :=
  v.home.any (fun t => w.running t) || w.owners.any fun o => o.storage = v.ctx

def building (w : World) (s : Nat) : Bool :=
  match w.storages[s]? with
  | some c => c.val.building
  | none => false

/-- Contexts of values outside of a storage are followed only while their storage is held, `set_ctx` stores the
context, `CfgContext::get` is not called on a storage that is being built, and nothing panics in `SharedCfg::get`
after its assertion. -/
def Respects (w : World) : Step → Prop
  | .value_use c | .value_shared c => ∀ v ∈ w.values[c]?, w.held v = true
  | .value_get _ c _ => ∀ v ∈ w.values[c]?, w.held v = true ∧ w.building v.ctx = false
  | .added _ stores | .get_default _ _ stores => stores = true
  | .get _ j _ => ∀ o ∈ w.owners[j]?, o.in_add = false
  | .get_panic j => ∀ o ∈ w.owners[j]?, o.in_shared_get = false
  | .spawn | .exit _ | .value _ | .value_drop _ | .shared_default _ | .new _ | .add _ _ _ | .build _ | .use _ | .shared _
  | .drop _ | .mapping_drop _ => True

instance (w : World) (i : Step) : Decidable (w.Respects i) := by
  cases i <;> unfold Respects <;> infer_instance

end World

end Geario.Service.Config
