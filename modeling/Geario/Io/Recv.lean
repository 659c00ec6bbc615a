import Geario.Io.Read
import Geario.Lib.Decoder
/-!
# The application's calls for input

`Io::recv` decodes one item and `Io::read` fills a slice. Both are futures: a
poll ends in a result or registers the task and is taken up again later.
-/

namespace Geario.Io

open Lib (Decoder)

/-- Of the decoder's own errors there are none here. -/
inductive RecvError
  | KeepAlive
  | WriteBackpressure
  | PeerGone (err : Option IoError)
  deriving DecidableEq

namespace IoState

variable {ι : Type}

def decode_item (d : Decoder UInt8 ι) (s : IoState) : Option ι × IoState :=
  { s with flags.buf_r_ready := false }.with_read_buf fun buf =>
    match d.decode buf with
    | none => (none, buf)
    | some (x, n) => (some x, buf.drop n)

def need_more (s : IoState) : Option RecvError × IoState :=
  if s.flags.is_stopping then (some (.PeerGone s.error), s)
  else
    match s.flags.check_dispatcher_timeout with
    | (true, flags) => (some .KeepAlive, { s with flags })
    | (false, _) =>
      if s.flags.dsp_w_backpressure then (some .WriteBackpressure, s)
      else
        match s.poll_read with
        | (some none, s) => (some (.PeerGone none), s)
        | (_, s) => (none, s)

def poll_recv (d : Decoder UInt8 ι) (s : IoState) : Option (Except RecvError ι) × IoState :=
  match { s with flags.buf_r_ready := false }.decode_item d with
  | (some x, s) => (some (.ok x), s)
  | (none, s) => (s.need_more.1.map .error, s.need_more.2)

end IoState

namespace IoState

def fill (s : IoState) (len : Nat) : Option Data × IoState :=
  s.with_read_buf fun buf => if len ≤ buf.length then (some (buf.take len), buf.drop len) else (none, buf)

/-- `Io::read` from where it waits, for some rounds (see `read_rounds`): pending, `UnexpectedEof` or the filled slice. -/
def read_resume : Nat → IoState → Nat → Option (Option (Option Data) × IoState)
  | 0, _, _ => none
  | rounds + 1, s, len =>
    match s.poll_read with
    | (none, s) => some (none, s)
    | (some none, s) => some (some none, s)
    | (some (some ()), s) =>
      match s.fill len with
      | (some dst, s) => some (some (some dst), s)
      | (none, s) => read_resume rounds s len

def read (rounds : Nat) (s : IoState) (len : Nat) : Option (Option (Option Data) × IoState) :=
  match s.fill len with
  | (some dst, s) => some (some (some dst), s)
  | (none, s) => read_resume rounds s len

end IoState

inductive Recv (ι : Type)
  | ok (item : Option ι)
  | err (e : IoError)
  | timed_out
  | flush
  deriving DecidableEq

def recv {ι : Type} : Except RecvError ι → Recv ι
  | .ok item => .ok (some item)
  | .error .KeepAlive => .timed_out
  | .error .WriteBackpressure => .flush
  | .error (.PeerGone (some err)) => .err err
  | .error (.PeerGone none) => .ok none

namespace IoState

variable {ι : Type} {d : Decoder UInt8 ι} {s : IoState}

lemma decode_item_spec (d : Decoder UInt8 ι) (s : IoState) :
    s.OnlyReads (s.decode_item d).2 ∧ (s.decode_item d).2.flags.buf_r_ready = false ∧
      (s.decode_item d).2.dispatch_task = s.dispatch_task ∧
      (d.decode s.buffer.dst = none ∧ (s.decode_item d).1 = none ∧ (s.decode_item d).2.buffer.dst = s.buffer.dst ∨
        ∃ x n, d.decode s.buffer.dst = some (x, n) ∧ (s.decode_item d).1 = some x ∧
          (s.decode_item d).2.buffer.dst = s.buffer.dst.drop n) := by
  obtain ⟨hres, hdst, -, ho, -, hw⟩ := with_read_buf_spec { s with flags.buf_r_ready := false }
    fun buf => match d.decode buf with
      | none => (none, buf)
      | some (x, n) => (some x, buf.drop n)
  have hflag : s.OnlyReads { s with flags.buf_r_ready := false } :=
    { OnlyReads.refl _ with }
  refine ⟨hflag.trans ho, with_read_buf_not_ready _ rfl, hw, ?_⟩
  cases hd : d.decode s.buffer.dst with
  | none =>
    simp only [hd] at hres hdst
    exact .inl ⟨rfl, hres, hdst⟩
  | some r =>
    obtain ⟨x, n⟩ := r
    simp only [hd] at hres hdst
    exact .inr ⟨x, n, rfl, hres, hdst⟩

lemma need_more_spec (hready : s.flags.buf_r_ready = false) (herr : s.error = none) (ht : s.flags.dsp_timeout = false)
    (hw : s.flags.dsp_w_backpressure = false) (hst : s.flags.io_stopping = s.flags.io_stopped) :
    s.OnlyReads s.need_more.2 ∧ s.need_more.2.buffer = s.buffer ∧
      (s.flags.io_stopped ∧ s.need_more.1 = some (.PeerGone none) ∨
        s.flags.io_stopped = false ∧ s.need_more.1 = none ∧ s.need_more.2.dispatch_task = s.dispatch_task.register) := by
  unfold need_more Flags.is_stopping Flags.check_dispatcher_timeout
  rw [hst, herr, ht, hw]
  cases hstop : s.flags.io_stopped with
  | true => exact ⟨.refl s, rfl, .inl ⟨rfl, rfl⟩⟩
  | false =>
    obtain ⟨hb, ho, hcase⟩ := poll_read_spec s
    have hopen : s.flags.is_closed = false := by rw [Flags.is_closed, hst, hstop]; rfl
    rcases hcase with ⟨hc, -⟩ | ⟨-, hr, -⟩ | ⟨-, -, hp, hd⟩
    · rw [hopen] at hc
      cases hc
    · rw [hready] at hr
      cases hr
    · simp only [Bool.false_eq_true, if_false]
      split
      next hpoll =>
        rw [hpoll] at hp
        cases hp
      next io hpoll =>
        rw [hpoll] at ho hb hd
        exact ⟨ho, hb, .inr ⟨trivial, rfl, hd⟩⟩

lemma poll_recv_spec (d : Decoder UInt8 ι) (herr : s.error = none) (ht : s.flags.dsp_timeout = false)
    (hw : s.flags.dsp_w_backpressure = false) (hst : s.flags.io_stopping = s.flags.io_stopped) :
    s.OnlyReads (s.poll_recv d).2 ∧
      ((∃ x n, d.decode s.buffer.dst = some (x, n) ∧ (s.poll_recv d).1 = some (.ok x) ∧
          (s.poll_recv d).2.buffer.dst = s.buffer.dst.drop n) ∨
        d.decode s.buffer.dst = none ∧ (s.poll_recv d).2.buffer.dst = s.buffer.dst ∧
          (s.flags.io_stopped ∧ (s.poll_recv d).1 = some (.error (.PeerGone none)) ∨
            s.flags.io_stopped = false ∧ (s.poll_recv d).1 = none ∧
              (s.poll_recv d).2.dispatch_task = s.dispatch_task.register)) := by
  obtain ⟨ho, hready, htask, hcase⟩ := decode_item_spec d { s with flags.buf_r_ready := false }
  have hflag : s.OnlyReads { s with flags.buf_r_ready := false } :=
    { OnlyReads.refl _ with }
  replace ho := hflag.trans ho
  unfold poll_recv
  split
  next x io hi =>
    rw [hi] at ho hcase
    refine ⟨ho, .inl ?_⟩
    rcases hcase with ⟨-, hnone, -⟩ | ⟨y, n, hdec, hy, hdst⟩
    · cases hnone
    · cases hy
      exact ⟨x, n, hdec, rfl, hdst⟩
  next io hi =>
    rw [hi] at ho hcase hready htask
    rcases hcase with ⟨hdec, -, hdst⟩ | ⟨y, n, -, hy, -⟩
    · obtain ⟨ho', hb, hmore⟩ := need_more_spec hready (ho.error.trans herr) (ho.dsp_timeout.trans ht)
        (ho.dsp_w_backpressure.trans hw) (ho.io_stopping.trans (hst.trans ho.io_stopped.symm))
      refine ⟨ho.trans ho', .inr ⟨hdec, ?_, ?_⟩⟩
      · exact (congrArg Stack.dst hb).trans hdst
      · rw [← ho.io_stopped]
        rcases hmore with ⟨hs, hr⟩ | ⟨hs, hr, hd⟩
        · exact .inl ⟨hs, congrArg (Option.map _) hr⟩
        · exact .inr ⟨hs, congrArg (Option.map _) hr, hd.trans (congrArg LocalWaker.register htask)⟩
    · cases hy

/-! ## `Io::read` -/

variable {len : Nat} {r : Option (Option Data)}

lemma fill_spec (s : IoState) (len : Nat) :
    s.OnlyReads (s.fill len).2 ∧ (s.fill len).2.buffer.pending = s.buffer.pending ∧
      (s.buffer.Up → (s.fill len).2.buffer.Up) ∧
      ((s.fill len).1 = none ∧ s.buffer.dst.length < len ∧ (s.fill len).2.buffer.dst = s.buffer.dst ∨
        ∃ dst, (s.fill len).1 = some dst ∧ dst.length = len ∧ dst ++ (s.fill len).2.buffer.dst = s.buffer.dst) := by
  obtain ⟨hres, hdst, hp, ho, hup, -⟩ := with_read_buf_spec s
    fun buf => if len ≤ buf.length then (some (buf.take len), buf.drop len) else (none, buf)
  refine ⟨ho, hp, hup, ?_⟩
  by_cases hle : len ≤ s.buffer.dst.length
  · rw [if_pos hle] at hres hdst
    refine .inr ⟨_, hres, List.length_take_of_le hle, ?_⟩
    rw [fill, hdst, List.take_append_drop]
  · rw [if_neg hle] at hres hdst
    exact .inl ⟨hres, by omega, hdst⟩

lemma fill_not_ready (len : Nat) (hbp : s.flags.rd_backpressure = false) : (s.fill len).2.flags.buf_r_ready = false := by
  change (s.update_read_destination _).flags.buf_r_ready = false
  unfold update_read_destination
  rw [hbp]
  exact resume_read_not_ready rfl

lemma restart_read_backpressure (s : IoState) : s.restart_read.flags.rd_backpressure = false := by
  unfold restart_read Flags.is_read_paused_or_backpressure
  cases hp : s.flags.rd_paused <;> cases hb : s.flags.rd_backpressure <;> first | rfl | exact hb

lemma read_rounds (s : IoState) (len : Nat) : ∃ r, read_resume 2 s len = some r := by
  rw [read_resume]
  split
  · exact ⟨_, rfl⟩
  · exact ⟨_, rfl⟩
  next s₁ hpoll =>
    split
    · exact ⟨_, rfl⟩
    next s₂ hfill =>
      have hs₁ : s₁.flags.rd_backpressure = false := by
        rw [poll_read] at hpoll
        split at hpoll
        · cases hpoll
        · split at hpoll
          · cases hpoll
            exact restart_read_backpressure s
          · cases hpoll
      have hs₂ := fill_not_ready len hs₁
      rw [hfill] at hs₂
      rw [read_resume]
      split
      · exact ⟨_, rfl⟩
      · exact ⟨_, rfl⟩
      next s₃ hpoll₂ =>
        obtain ⟨-, -, hcase⟩ := poll_read_spec s₂
        rw [hpoll₂] at hcase
        rcases hcase with ⟨-, hr⟩ | ⟨-, hready, -⟩ | ⟨-, -, hr, -⟩
        · cases hr
        · cases hready.symm.trans hs₂
        · cases hr

/-- What a poll of a waiting `Io::read` does, when it is announced or known to be missing what it waits for. -/
structure Reads (s : IoState) (len : Nat) (r : Option (Option Data)) (s' : IoState) : Prop where
  reads : s.OnlyReads s'
  pending : s'.buffer.pending = s.buffer.pending
  up : s.buffer.Up → s'.buffer.Up
  waits : r = none → s'.buffer.dst = s.buffer.dst ∧ s.buffer.dst.length < len ∧ s'.dispatch_task.registered = true
  eof : r = some none → s'.buffer.dst = s.buffer.dst ∧ s.buffer.dst.length < len
  ok : ∀ dst, r = some (some dst) → dst.length = len ∧ dst ++ s'.buffer.dst = s.buffer.dst

lemma Reads.after {s₁ s' : IoState} (h : Reads s₁ len r s') (ho : s.OnlyReads s₁)
    (hp : s₁.buffer.pending = s.buffer.pending) (hup : s.buffer.Up → s₁.buffer.Up) (hd : s₁.buffer.dst = s.buffer.dst) :
    Reads s len r s' where
  reads := ho.trans h.reads
  pending := h.pending.trans hp
  up hs := h.up (hup hs)
  waits hr := hd ▸ h.waits hr
  eof hr := hd ▸ h.eof hr
  ok dst hr := hd ▸ h.ok dst hr

lemma fill_reads (s : IoState) (len : Nat) :
    (s.fill len).1 = none ∧ s.buffer.dst.length < len ∨
      ∃ dst, (s.fill len).1 = some dst ∧ Reads s len (some (some dst)) (s.fill len).2 := by
  obtain ⟨ho, hp, hup, ⟨hnone, hlt, -⟩ | ⟨dst, hr, hlen, hdst⟩⟩ := fill_spec s len
  · exact .inl ⟨hnone, hlt⟩
  · refine .inr ⟨dst, hr, ho, hp, hup, nofun, nofun, fun d hd => ?_⟩
    cases Option.some.inj hd
    exact ⟨hlen, hdst⟩

lemma read_resume_spec {rounds : Nat} {s' : IoState} (h : read_resume rounds s len = some (r, s'))
    (hmiss : s.flags.is_closed ∨ s.flags.buf_r_ready = false → s.buffer.dst.length < len) : Reads s len r s' := by
  induction rounds generalizing s with
  | zero => cases h
  | succ rounds ih =>
    obtain ⟨hb, ho, hcase⟩ := poll_read_spec s
    rw [read_resume] at h
    split at h
    next s₁ hpoll =>
      cases h
      rw [hpoll] at hb ho hcase
      rcases hcase with ⟨-, hr⟩ | ⟨-, -, hr, -⟩ | ⟨-, hready, -, hd⟩
      · cases hr
      · cases hr
      · exact
          { reads := ho, pending := congrArg Stack.pending hb, up := fun hup => hb ▸ hup
            waits := fun _ => ⟨congrArg Stack.dst hb, hmiss (.inr hready), congrArg LocalWaker.registered hd⟩
            eof := nofun, ok := nofun }
    next s₁ hpoll =>
      cases h
      rw [hpoll] at hb ho hcase
      rcases hcase with ⟨hc, -⟩ | ⟨-, -, hr, -⟩ | ⟨-, -, hr, -⟩
      · exact
          { reads := ho, pending := congrArg Stack.pending hb, up := fun hup => hb ▸ hup
            waits := nofun
            eof := fun _ => ⟨congrArg Stack.dst hb, hmiss (.inl hc)⟩
            ok := nofun }
      all_goals cases hr
    next s₁ hpoll =>
      rw [hpoll] at hb ho
      have hp : s₁.buffer.pending = s.buffer.pending := congrArg Stack.pending hb
      have hd : s₁.buffer.dst = s.buffer.dst := congrArg Stack.dst hb
      have hup : s.buffer.Up → s₁.buffer.Up := fun h => hb ▸ h
      obtain ⟨ho', hp', hup', hcase'⟩ := fill_spec s₁ len
      split at h
      next dst s₂ hfill =>
        cases h
        obtain ⟨hnone, -⟩ | ⟨dst', hdst, hreads⟩ := fill_reads s₁ len
        · rw [hfill] at hnone
          cases hnone
        · rw [hfill] at hdst hreads
          cases hdst
          exact hreads.after ho hp hup hd
      next s₂ hfill =>
        rw [hfill] at ho' hp' hup' hcase'
        obtain ⟨-, hlt, hd'⟩ | ⟨_, hsome, -⟩ := hcase'
        · have hmiss' : s₂.buffer.dst.length < len := by rw [hd']; exact hlt
          exact (ih h fun _ => hmiss').after (ho.trans ho') (hp'.trans hp) (fun hs => hup' (hup hs)) (hd'.trans hd)
        · cases hsome

lemma read_spec (s : IoState) (len : Nat) : ∃ r s', s.read 2 len = some (r, s') ∧ Reads s len r s' := by
  obtain ⟨ho, hp, hup, hcase⟩ := fill_spec s len
  unfold read
  split
  next dst s₁ hfill =>
    obtain ⟨hnone, -⟩ | ⟨dst', hdst, hreads⟩ := fill_reads s len
    · rw [hfill] at hnone
      cases hnone
    · rw [hfill] at hdst hreads
      cases hdst
      exact ⟨_, s₁, rfl, hreads⟩
  next s₁ hfill =>
    rw [hfill] at ho hp hup hcase
    obtain ⟨-, hlt, hd⟩ | ⟨_, hsome, -⟩ := hcase
    · obtain ⟨⟨r, s'⟩, hr⟩ := read_rounds s₁ len
      have hmiss : s₁.buffer.dst.length < len := by rw [hd]; exact hlt
      exact ⟨r, s', hr, (read_resume_spec hr fun _ => hmiss).after ho hp hup hd⟩
    · cases hsome

end IoState

end Geario.Io
