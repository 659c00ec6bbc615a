import Geario.Io.Read
import Geario.Polling.Stream
/-!
# A read of the polling driver

What one read does to the input of a connection: new bytes go behind everything
received before, pass the layers and wake the dispatcher, a read without data
changes nothing the application can see, and at the end of the stream the
connection is stopped.
-/
open Geario.Io

namespace Geario.Polling

variable {io : IoState}

lemma read_data_spec {d : Data} (hd : d ≠ []) (hup : io.buffer.Up) :
    (read io (.data d)).2.buffer.dst = io.buffer.received ++ d ∧ (read io (.data d)).2.buffer.pending = [] ∧
      (read io (.data d)).2.buffer.Up ∧ io.OnlyReads (read io (.data d)).2 ∧
      (read io (.data d)).2.dispatch_task = io.dispatch_task.wake ∧ (read io (.data d)).2.flags.buf_r_ready := by
  obtain ⟨hrec, hup', hle, buffer, hio, hl⟩ := io.get_read_buf_spec
  have hn : d.length ≠ 0 := fun h => hd (List.eq_nil_of_length_eq_zero h)
  obtain ⟨hr, hu, ho, -, hp, hw, -⟩ :=
    io.get_read_buf.2.update_read_status_spec (io.get_read_buf.1 ++ d) d.length (hup' hup) rfl
  have hread : (read io (.data d)).2 =
      (io.get_read_buf.2.update_read_status (io.get_read_buf.1 ++ d) (.ok d.length)).2 := rfl
  rw [← List.append_assoc, ← hrec] at hr hw
  have hlt : io.get_read_buf.2.buffer.dst.length < (io.buffer.received ++ d).length := by
    rw [Stack.received, List.length_append, List.length_append]
    omega
  rw [hread]
  refine ⟨?_, hp hn, hu, .trans ?_ ho, (hw hn hlt).trans ?_, ?_⟩
  · rw [← hr, Stack.received, hp hn, List.append_nil]
  · rw [hio]
    exact ⟨rfl, rfl, rfl, rfl, rfl, rfl, rfl, rfl, congrArg Option.isSome hl⟩
  · rw [hio]
  · refine io.get_read_buf.2.update_read_status_ready (hup' hup) hn ?_
    rwa [← List.append_assoc, ← hrec]

section

variable (io : IoState)

lemma read_pending_spec :
    (read io .pending).2.buffer.dst = io.buffer.dst ∧ (read io .pending).2.buffer.pending = io.buffer.pending ∧
      (io.buffer.Up → (read io .pending).2.buffer.Up) ∧ io.OnlyReads (read io .pending).2 ∧
      (read io .pending).2.dispatch_task = io.dispatch_task ∧ (read io .pending).2.flags = io.flags := by
  obtain ⟨buffer, hio, hl, hd, hp⟩ := io.put_read_buf_back
  have hread : (read io .pending).2 = { io with buffer } := hio
  rw [hread]
  refine ⟨hd, hp, fun hup l hm => hup l (hl ▸ hm), ⟨rfl, rfl, rfl, rfl, rfl, rfl, rfl, rfl, congrArg Option.isSome hl⟩, rfl, rfl⟩

lemma stop_put_back (err : Option IoError) :
    ∃ buffer, { io.get_read_buf.2 with buffer := io.get_read_buf.2.buffer.set_read_buf io.get_read_buf.1 } = { io with buffer } ∧
      { io.get_read_buf.2.terminate_connection err with
        buffer := (io.get_read_buf.2.terminate_connection err).buffer.set_read_buf io.get_read_buf.1 } =
        { io.terminate_connection err with buffer } ∧
      buffer.layers = io.buffer.layers ∧ buffer.dst = io.buffer.dst ∧ buffer.pending = io.buffer.pending := by
  obtain ⟨buffer, hio, hl, hd, hp⟩ := io.put_read_buf_back
  obtain ⟨b, hb, -⟩ := io.get_read_buf_spec.2.2.2
  have hback : { io.get_read_buf.2 with buffer := io.get_read_buf.2.buffer.set_read_buf io.get_read_buf.1 } =
    { io with buffer } := hio
  refine ⟨buffer, hback, ?_, hl, hd, hp⟩
  have hbuf : io.get_read_buf.2.buffer.set_read_buf io.get_read_buf.1 = buffer := congrArg IoState.buffer hback
  rw [(io.get_read_buf.2.terminate_connection_spec err).1, hbuf, hb]
  unfold IoState.terminate_connection
  split <;> rfl

lemma read_eof_spec :
    ∃ buffer, (read io .eof).2 = { io.terminate_connection none with buffer } ∧ buffer.layers = io.buffer.layers ∧
      buffer.dst = io.buffer.dst ∧ buffer.pending = io.buffer.pending := by
  obtain ⟨buffer, -, hstop, h⟩ := stop_put_back io none
  exact ⟨buffer, hstop, h⟩

lemma read_error_spec (e : IoError) :
    ∃ buffer, (read io (.error e)).2 = { io.terminate_connection (some e) with buffer } ∧
      buffer.layers = io.buffer.layers ∧ buffer.dst = io.buffer.dst ∧ buffer.pending = io.buffer.pending := by
  obtain ⟨buffer, hback, -, h⟩ := stop_put_back io (some e)
  refine ⟨buffer, ?_, h⟩
  have hread : (read io (.error e)).2 =
    { io.get_read_buf.2 with buffer := io.get_read_buf.2.buffer.set_read_buf io.get_read_buf.1 }.terminate_connection (some e) := rfl
  rw [hread, hback]
  unfold IoState.terminate_connection
  split <;> rfl

end

end Geario.Polling
