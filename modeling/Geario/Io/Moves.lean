import Geario.Io.Chain
/-!
# Layers that lose nothing

`outgoing` is what is in the write buffers, in the order in which it was written.
A layer that takes bytes from the front of its source and puts them at the end
of its destination leaves it as it is, and so does a pass of such layers, whether
they process output or input.
-/

open List

namespace Geario.Io

def Touch.Moves : Touch → Prop
  | .read_buffers _ => True
  | .write_buffers f => ∀ curr next, ∃ k, f curr next = (curr.drop k, next ++ curr.take k)

structure MoveCall extends Call where
  moves : ∀ t ∈ touches, t.Moves

def MoveCall.move (k : Nat) : MoveCall where
  touches := [.write_buffers fun curr next => (curr.drop k, next ++ curr.take k)]
  result := .ok ()
  moves t ht := by
    obtain rfl := List.mem_singleton.1 ht
    exact fun _ _ => ⟨k, rfl⟩

namespace Chain

def outgoing (first : Buffer) (rest : List Buffer) : Data := (rest.reverse.map (·.write)).flatten ++ first.write

lemma outgoing_cons (first next : Buffer) (rest : List Buffer) :
    outgoing first (next :: rest) = outgoing next rest ++ first.write := by
  simp only [outgoing, reverse_cons, map_append, flatten_append, map_cons, map_nil, flatten_cons, flatten_nil, append_nil]

lemma outgoing_cons_congr {curr curr' next next' : Buffer} (h : next'.write ++ curr'.write = next.write ++ curr.write)
    (rest : List Buffer) : outgoing curr' (next' :: rest) = outgoing curr (next :: rest) := by
  rw [outgoing_cons, outgoing_cons, outgoing, outgoing, append_assoc, append_assoc, h]

lemma touch_all_moves (c : MoveCall) (b : FilterBuf) :
    (b.touch_all c.touches).next.write ++ (b.touch_all c.touches).curr.write = b.next.write ++ b.curr.write := by
  refine FilterBuf.touch_all_inv (fun b' => b'.next.write ++ b'.curr.write = b.next.write ++ b.curr.write)
    (fun b' t ht hb' => ?_) rfl
  cases t with
  | read_buffers f => exact hb'
  | write_buffers f =>
    obtain ⟨k, hk⟩ := c.moves _ ht b'.curr.write b'.next.write
    rw [FilterBuf.touch, FilterBuf.with_write_buffers, hk]
    rw [append_assoc, take_append_drop]
    exact hb'

section

variable (calls : List MoveCall) (first : Buffer) (rest : List Buffer) (wants : Bool)

lemma outgoing_process_write_buf :
    outgoing (process_write_buf (calls.map (·.toCall)) first rest wants).first
      (process_write_buf (calls.map (·.toCall)) first rest wants).rest = outgoing first rest := by
  induction calls generalizing first rest wants with
  | nil => rfl
  | cons c calls ih =>
    cases rest with
    | nil => rfl
    | cons next rest =>
      have hmoves := touch_all_moves c { curr := first, next, wants_write := wants }
      rw [map_cons, process_write_buf]
      split
      · exact outgoing_cons_congr hmoves rest
      · rw [outgoing_cons, ih, ← outgoing_cons]
        exact outgoing_cons_congr hmoves rest

lemma outgoing_process_read_buf :
    outgoing (process_read_buf (calls.map (·.toCall)) first rest wants).first
      (process_read_buf (calls.map (·.toCall)) first rest wants).rest = outgoing first rest := by
  induction calls generalizing first rest wants with
  | nil => rfl
  | cons c calls ih =>
    cases rest with
    | nil => rfl
    | cons next rest =>
      have hbehind := ih next rest wants
      rw [map_cons, process_read_buf]
      split
      · rw [outgoing_cons, outgoing_cons, hbehind]
      · rw [outgoing_cons_congr (touch_all_moves c _), outgoing_cons, outgoing_cons, hbehind]

end

end Chain

namespace Stack

variable {s : Stack} {first : Buffer} {rest : List Buffer}

def outgoing (s : Stack) : Data := Chain.outgoing s.first s.rest

def above (s : Stack) : Data :=
  match s.layers with
  | none => []
  | some l => (((l.read_mid.zip l.write_mid).map fun b => (⟨b.1, b.2⟩ : Buffer)).reverse.map (·.write)).flatten ++ l.write_src

lemma outgoing_eq (s : Stack) : s.outgoing = s.write ++ s.above := by
  unfold outgoing above Stack.first Stack.rest
  cases s.layers with
  | none => exact (append_nil s.write).symm
  | some l =>
    rw [Chain.outgoing, reverse_append, reverse_singleton, singleton_append, map_cons, flatten_cons, append_assoc]

lemma outgoing_set_write (s : Stack) (write : Data) : (s.set_write write).outgoing = write ++ s.above := outgoing_eq _

lemma first_of_buffers : (of_buffers first rest).first = first := by
  unfold of_buffers
  split <;> rfl

lemma rest_of_buffers : (of_buffers first rest).rest = rest := by
  unfold of_buffers
  split
  next h =>
    rw [getLast?_eq_none_iff.1 h]
    rfl
  next last h =>
    obtain ⟨init, rfl⟩ := getLast?_eq_some_iff.1 h
    rw [Stack.rest, dropLast_concat]
    dsimp only
    rw [zip_map', map_map]
    exact congrArg (· ++ [last]) (map_id init)

lemma outgoing_of_buffers : (of_buffers first rest).outgoing = Chain.outgoing first rest := by
  rw [outgoing, first_of_buffers, rest_of_buffers]

lemma outgoing_new (layers : Option Nat) : (new layers).outgoing = [] := by
  cases layers with
  | none => rfl
  | some n =>
    rw [outgoing_eq, above, new, Option.map_some]
    simp

lemma outgoing_set_read_buf (s : Stack) (buf : Data) : (s.set_read_buf buf).outgoing = s.outgoing := by
  rw [outgoing_eq, outgoing_eq]
  unfold set_read_buf
  split <;> rfl

lemma outgoing_nil (h : s.write_buf_size = 0) (hmid : ∀ b ∈ s.rest.dropLast, b.write = []) : s.outgoing = [] := by
  rw [write_buf_size_first, size] at h
  obtain ⟨hfirst, hlast⟩ := Nat.add_eq_zero_iff.1 h
  rw [outgoing, Chain.outgoing, eq_nil_of_length_eq_zero hfirst, append_nil, flatten_eq_nil_iff]
  intro d hd
  obtain ⟨b, hb, rfl⟩ := mem_map.1 hd
  rcases eq_nil_or_concat' s.rest with hrest | ⟨init, last, hrest⟩
  · rw [hrest] at hb
    cases hb
  · rw [hrest, getLast?_concat] at hlast
    rw [hrest, dropLast_concat] at hmid
    rw [hrest, mem_reverse] at hb
    rcases mem_append.1 hb with hb | hb
    · exact hmid b hb
    · rw [mem_singleton.1 hb]
      exact eq_nil_of_length_eq_zero hlast

end Stack

/-! ## Passes -/

namespace Chain

variable (calls : List MoveCall) (s : IoState)

lemma outgoing_process_write_buf_force :
    (process_write_buf_force (calls.map (·.toCall)) s).2.buffer.outgoing = s.buffer.outgoing :=
  Stack.outgoing_of_buffers.trans (outgoing_process_write_buf calls _ _ _)

lemma outgoing_write_pass : (write_pass (calls.map (·.toCall)) s).2.buffer.outgoing = s.buffer.outgoing := by
  unfold write_pass
  split
  · rfl
  · exact outgoing_process_write_buf_force calls s

lemma outgoing_read_pass : (read_pass (calls.map (·.toCall)) s).2.buffer.outgoing = s.buffer.outgoing :=
  Stack.outgoing_of_buffers.trans (outgoing_process_read_buf calls _ _ _)

/-! ## Input -/

def SameOutgoing (s s' : IoState) : Prop := s'.buffer.outgoing = s.buffer.outgoing

lemma SameOutgoing.covers : IoState.Covers SameOutgoing where
  trans h h' := Eq.trans h' h
  of_wakes h := congrArg Stack.outgoing h.buffer

lemma SameOutgoing.terminate (s : IoState) (err : Option IoError) : SameOutgoing s (s.terminate_connection err) :=
  congrArg Stack.outgoing (s.terminate_connection_spec err).1

lemma SameOutgoing.filter_wrote : SameOutgoing s (filter_wrote none (calls.map (·.toCall)) s) := by
  have hpass := outgoing_process_write_buf_force calls s
  unfold Chain.filter_wrote
  split
  next err t h =>
    rw [h] at hpass
    exact covers.trans hpass (terminate t (some err))
  next t h =>
    rw [h] at hpass
    exact covers.trans hpass (covers.consolidate_write_state (fun _ => rfl) t false)

section

variable (read write : List MoveCall) (notify : Bool) (s : IoState)

lemma SameOutgoing.process_input (orig : Nat) :
    SameOutgoing s (process_input ⟨read.map (·.toCall), notify, write.map (·.toCall), none⟩ s orig).2 := by
  have hpass := outgoing_read_pass read s
  unfold Chain.process_input
  split
  next err t h =>
    rw [h] at hpass
    exact hpass
  next wants t h =>
    rw [h] at hpass
    have hprocessed : SameOutgoing s (t.read_processed orig) :=
      covers.trans hpass (congrArg Stack.outgoing (t.read_processed_spec orig).1)
    have hwrote : SameOutgoing s (if wants then Chain.filter_wrote none (write.map (·.toCall)) (t.read_processed orig)
        else t.read_processed orig) := by
      split
      · exact covers.trans hprocessed (filter_wrote write _)
      · exact hprocessed
    dsimp only
    split
    · exact covers.trans hwrote (covers.of_wakes (IoState.wakes_call_notify _))
    · exact hwrote

lemma SameOutgoing.update_read_status (buf : Data)
    (status : Except IoError Nat) :
    SameOutgoing s (update_read_status ⟨read.map (·.toCall), notify, write.map (·.toCall), none⟩ s buf status).2 := by
  have hbuf : SameOutgoing s { s with buffer := s.buffer.set_read_buf buf } := s.buffer.outgoing_set_read_buf buf
  unfold Chain.update_read_status
  dsimp only
  split
  · exact covers.trans hbuf (terminate _ _)
  · split
    · exact hbuf
    · have hinput := process_input read write notify { s with buffer := s.buffer.set_read_buf buf } s.buffer.read_dst_size
      split
      next err t h =>
        rw [h] at hinput
        exact covers.trans (covers.trans hbuf hinput) (terminate t (some err))
      next t h =>
        rw [h] at hinput
        exact covers.trans hbuf hinput

end

end Chain

end Geario.Io
