import Geario.Lib.Parties
import Geario.Lib.Run
import Geario.Lib.Slab
/-!
# Streams of the polling driver

`StreamOps` keeps its streams in a slab. A stream has two handles, the control
(`StreamCtl`) of its io task and the weak one of its connection, and its entry is
removed and the descriptor closed when both have been dropped. The slab is taken
out while a stream is worked on, and what is dropped then is put in a queue. The
queue is worked off at the end of a turn of the reactor in which the handler has
seen an event.

A turn runs the tasks, applies the errors that were queued, waits for events,
handles them, applies errors again and ticks the handler.
-/
open Lib (Slab)

namespace Geario.Polling

/-- An id of the slab, and the connection that it was given to. The code has the id only. -/
structure StreamId where
  id : Nat
  conn : Nat
  deriving DecidableEq

inductive IdType
  | Stream (r : StreamId)
  | Weak (r : StreamId)
  | Write (r : StreamId)
  deriving DecidableEq

inductive Use
  | event (r : StreamId)
  | error (r : StreamId)
  | interest (r : StreamId)
  /-- a handle is dropped or written to, and not delayed -/
  | now (x : IdType)
  /-- the queue, between two of its elements or at one of them -/
  | tick (x : Option IdType)
  deriving DecidableEq

structure Entry where
  conn : Nat
  dropped_pri : Bool
  dropped_sec : Bool
  deriving DecidableEq

inductive Place
  | live
  | queued
  | dropping
  | dropped
  deriving DecidableEq

structure Conn where
  id : Nat
  ctl : Place
  weak : Place
  attached : Bool
  closes : Nat
  deriving DecidableEq

inductive Phase
  | Tasks
  /-- errors are applied after the tasks -/
  | First
  | Events
  /-- and after the events -/
  | Second
  deriving DecidableEq

structure Driver where
  streams : Slab Entry
  taken : Option Use
  delayed_feed : List IdType
  changes : List StreamId
  events : List StreamId
  modified : Bool
  phase : Phase
  conns : List Conn

def IdType.ref : IdType → StreamId
  | .Stream r | .Weak r | .Write r => r

def IdType.drops : IdType → Bool
  | .Stream _ | .Weak _ => true
  | .Write _ => false

def Conn.place (c : Conn) : IdType → Place
  | .Stream _ => c.ctl
  | .Weak _ => c.weak
  | .Write _ => .live

def Conn.put (c : Conn) (p : Place) : IdType → Conn
  | .Stream _ => { c with ctl := p }
  | .Weak _ => { c with weak := p }
  | .Write _ => c

namespace Driver

inductive Step
  /-- the poller's `add` may fail, and so may its `modify` and `delete` below -/
  | register (id : Nat) (fails : Bool)
  | interest (n : Nat)
  | drop_ctl (n : Nat)
  | drop_weak (n : Nat)
  | write (n : Nat)
  | finish (fails : Bool)
  | turn
  | apply
  | wait (ns : List Nat)
  | event
  | handled
  | tick
  | pop
  /-- the descriptor is closed, on a thread of the blocking pool -/
  | close (n : Nat)
  deriving DecidableEq

def new : Driver :=
  { streams := .empty, taken := none, delayed_feed := [], changes := [], events := [], modified := false, phase := .Tasks, conns := [] }

def place (s : Driver) (x : IdType) (p : Place) : Driver := { s with conns := s.conns.modify x.ref.conn (·.put p x) }

def change (s : Driver) (r : StreamId) (fails : Bool) : Driver := if fails then { s with changes := s.changes ++ [r] } else s

def detach (s : Driver) (r : StreamId) (fails : Bool) : Driver :=
  if fails then s.change r true else { s with conns := s.conns.modify r.conn fun c => { c with attached := false } }

def insert (s : Driver) (id : Nat) (attached : Bool) : Driver :=
  { s with
    streams := s.streams.insert id ⟨s.conns.length, false, false⟩
    conns := s.conns ++ [⟨id, .live, .live, attached, 0⟩] }

def remove (s : Driver) (r : StreamId) : Driver :=
  { s with streams := s.streams.remove r.id, conns := s.conns.modify r.conn fun c => { c with closes := c.closes + 1 } }

def drop_stream (s : Driver) (id : Nat) (fails : Bool) : Option Driver :=
  (s.streams.get id).map fun item =>
    let s := s.detach ⟨id, item.conn⟩ fails
    if item.dropped_sec then s.remove ⟨id, item.conn⟩ else { s with streams := s.streams.insert id { item with dropped_pri := true } }

def drop_weak_stream (s : Driver) (id : Nat) : Option Driver :=
  (s.streams.get id).map fun item =>
    if item.dropped_pri then s.remove ⟨id, item.conn⟩ else { s with streams := s.streams.insert id { item with dropped_sec := true } }

def done (s : Driver) (fails : Bool) : IdType → Option Driver
  | .Stream r => (s.drop_stream r.id fails).map (·.place (.Stream r) .dropped)
  | .Weak r => (s.drop_weak_stream r.id).map (·.place (.Weak r) .dropped)
  | .Write _ => some s

/-- Without the slab it has to wait. Between the events of a turn only a new connection can be dropped. -/
def submit (s : Driver) (c : Conn) (x : IdType) : Option Driver :=
  if s.taken = none then
    if s.phase = .Tasks ∨ (x = .Weak x.ref ∧ c.ctl = .live) then some { s.place x .dropping with taken := some (.now x) } else none
  else some { s.place x .queued with delayed_feed := s.delayed_feed ++ [x] }

def report (s : Driver) (n : Nat) : Option StreamId := (s.conns[n]?.filter Conn.attached).map fun c => ⟨c.id, n⟩

def step (s : Driver) : Step → Option Driver
  | .register id fails =>
    if s.taken = none ∧ s.streams.get id = none then
      some ((s.insert id !fails).change ⟨id, s.conns.length⟩ fails)
    else none
  | .interest n =>
    s.conns[n]?.bind fun c =>
      if c.ctl = .live ∧ s.taken = none ∧ s.phase = .Tasks then some { s with taken := some (.interest ⟨c.id, n⟩) } else none
  | .drop_ctl n =>
    -- `interest` borrows the control
    s.conns[n]?.bind fun c => if c.ctl = .live ∧ s.taken ≠ some (.interest ⟨c.id, n⟩) then s.submit c (.Stream ⟨c.id, n⟩) else none
  | .drop_weak n =>
    s.conns[n]?.bind fun c =>
      if c.weak = .live ∧ s.taken ≠ some (.now (.Write ⟨c.id, n⟩)) then s.submit c (.Weak ⟨c.id, n⟩) else none
  | .write n => s.conns[n]?.bind fun c => if c.weak = .live then s.submit c (.Write ⟨c.id, n⟩) else none
  | .finish fails =>
    match s.taken with
    | some (.event r) | some (.interest r) =>
      (s.streams.get r.id).map fun item => { s.change ⟨r.id, item.conn⟩ fails with taken := none }
    | some (.error _) => some { s with taken := none }
    | some (.now x) => (s.done fails x).map ({ · with taken := none })
    | some (.tick (some x)) => (s.done fails x).map ({ · with taken := some (.tick none) })
    | some (.tick none) | none => none
  | .turn => if s.phase = .Tasks ∧ s.taken = none then some { s with phase := .First } else none
  | .apply =>
    if (s.phase = .First ∨ s.phase = .Second) ∧ s.taken = none then
      match s.changes with
      | r :: changes => some { s with changes, taken := if s.streams.contains r.id then some (.error r) else none }
      | [] => none
    else none
  | .wait ns =>
    if s.phase = .First ∧ s.taken = none ∧ s.changes = [] then some { s with events := ns.filterMap s.report, phase := .Events } else none
  | .event =>
    if s.phase = .Events ∧ s.taken = none then
      match s.events with
      | r :: events => some { s with events, modified := true, taken := if s.streams.contains r.id then some (.event r) else none }
      | [] => none
    else none
  | .handled => if s.phase = .Events ∧ s.taken = none ∧ s.events = [] then some { s with phase := .Second } else none
  | .tick =>
    if s.phase = .Second ∧ s.taken = none ∧ s.changes = [] then
      if s.modified ∧ s.delayed_feed ≠ [] then some { s with modified := false, taken := some (.tick none) }
      else some { s with modified := false, phase := .Tasks }
    else none
  | .pop =>
    if s.taken = some (.tick none) then
      match s.delayed_feed with
      | x :: delayed_feed => some { s.place x .dropping with delayed_feed, taken := some (.tick (some x)) }
      | [] => some { s with taken := none, phase := .Tasks }
    else none
  | .close n =>
    s.conns[n]?.bind fun c =>
      if c.closes = 0 then none else some { s with conns := s.conns.modify n fun c => { c with attached := false } }

end Driver

end Geario.Polling
