import Geario.Lib.Run
/-!
# Counters

`util::services::Counter`: a shared count with a capacity. A `CounterGuard` is one
of it while it lives. Who finds the counter full registers a waker; there is one
place for it per clone of the counter. The wakers are called when a guard is
dropped and the count was equal to the capacity.
-/

namespace Geario.Service

structure Counter where
  count : Nat
  capacity : Nat
  /-- the slab: a place for a waker per clone -/
  tasks : List (Nat × Option Nat)
  deriving DecidableEq

namespace Counter

def new (capacity : Nat) : Counter := { count := 0, capacity, tasks := [(0, none)] }

def clone (c : Counter) (key : Nat) : Counter := { c with tasks := (key, none) :: c.tasks }

def drop (c : Counter) (key : Nat) : Counter := { c with tasks := c.tasks.filter (·.1 ≠ key) }

def poll_available (c : Counter) (key waker : Nat) : Counter × Bool :=
  if c.count < c.capacity then (c, true)
  else ({ c with tasks := c.tasks.map fun t => if t.1 = key then (key, some waker) else t }, false)

def get (c : Counter) : Counter := { c with count := c.count + 1 }

def notify (c : Counter) : Counter × List Nat :=
  ({ c with tasks := c.tasks.map fun t => (t.1, none) }, c.tasks.filterMap Prod.snd)

def dec (c : Counter) : Counter × List Nat :=
  let r := { c with count := c.count - 1 }
  if c.count = c.capacity then r.notify else (r, [])

def Registered (c : Counter) (key waker : Nat) : Prop := (key, some waker) ∈ c.tasks

variable {c : Counter} {key waker : Nat}

@[simp] lemma count_dec : c.dec.1.count = c.count - 1 := by
  unfold dec
  split <;> rfl

@[simp] lemma capacity_dec : c.dec.1.capacity = c.capacity := by
  unfold dec
  split <;> rfl

@[simp] lemma count_poll_available : (c.poll_available key waker).1.count = c.count := by
  unfold poll_available
  split <;> rfl

@[simp] lemma capacity_poll_available : (c.poll_available key waker).1.capacity = c.capacity := by
  unfold poll_available
  split <;> rfl

@[simp] lemma keys_poll_available : (c.poll_available key waker).1.tasks.map Prod.fst = c.tasks.map Prod.fst := by
  unfold poll_available
  split
  · rfl
  · refine List.map_map.trans (List.map_congr_left fun t _ => ?_)
    change (if t.1 = key then (key, some waker) else t).1 = t.1
    split
    case isTrue h => exact h.symm
    case isFalse => rfl

@[simp] lemma keys_dec : c.dec.1.tasks.map Prod.fst = c.tasks.map Prod.fst := by
  unfold dec
  split
  · exact List.map_map
  · rfl

lemma mem_dec (h : c.Registered key waker) (hfull : c.count = c.capacity) : waker ∈ c.dec.2 := by
  rw [dec, if_pos hfull]
  exact List.mem_filterMap.2 ⟨_, h, rfl⟩

lemma registered_poll_available (hfull : ¬ c.count < c.capacity) (hkey : key ∈ c.tasks.map Prod.fst) :
    (c.poll_available key waker).1.Registered key waker := by
  obtain ⟨t, ht, rfl⟩ := List.mem_map.1 hkey
  rw [poll_available, if_neg hfull]
  exact List.mem_map.2 ⟨t, ht, if_pos rfl⟩

end Counter

end Geario.Service
