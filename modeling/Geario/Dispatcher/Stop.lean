import Geario.Dispatcher.Poll
/-!
# Stop is terminal

After the dispatcher has called the service with `Stop` it makes no further
call, after it has recorded an error of the service it passes on neither items
nor control messages, and it does not leave the states `Stop` and `Shutdown`.

The round with back-pressure does not keep to this: `poll_service` may have moved
the state to `Stop`, and its `Stop` item has been passed to the service, when
the round goes on to flush and assigns the state again. And an error that is
recorded is only looked at when the service is ready.
-/
open Lib List

namespace Geario.Dispatcher

open Event

variable {U : Codec} {Err : Type}

def DispatcherState.is_open : DispatcherState → Bool
  | .Processing | .Backpressure => true
  | .Stop | .Shutdown => false

namespace Event

def is_stop : Event U → Bool
  | .call (.Stop _) _ => true
  | _ => false

def is_work : Event U → Bool
  | .call (.Item _) _ | .call (.Control _) _ => true
  | _ => false

def is_error : Event U → Bool
  | .error => true
  | _ => false

def opens : Event U → Bool
  | .state st => st.is_open
  | _ => false

def closes : Event U → Bool
  | .state st => !st.is_open
  | _ => false

end Event

/-- After a stop no work and no other stop, after an error no work, and a closed dispatcher stays closed. -/
structure Follows (a b : Event U) : Prop where
  stop : a.is_stop → ¬ b.is_stop ∧ ¬ b.is_work
  error : a.is_error → ¬ b.is_work
  state : a.closes → ¬ b.opens

namespace DispatcherInner

def stops (s : DispatcherInner U Err) (t : Turn U Err) : Bool :=
  match t.ready, t.status, s.shared_error with
  | some (.ok ()), _, some (.Encoder _) => true
  | none, some (.PeerGone _), _ => true
  | none, some .KeepAlive, _ => s.flags.ka_enabled
  | _, _, _ => false

def ignores (s : DispatcherInner U Err) (t : Turn U Err) : Bool :=
  match t.ready, t.status with
  | none, some .WriteBackpressure => s.log.any Event.is_error
  | _, _ => false

/-- In a round with back-pressure that gets as far as the flush, `poll_service` has not returned a `Stop` item; and a
service that has failed is ready when there is back-pressure. -/
def Orderly (s : DispatcherInner U Err) : Step U Err → Prop
  | .turn t =>
    match s.st with
    | .Processing => s.ignores t = false
    | .Backpressure => t.flush.isSome → s.stops t = false ∧ s.ignores t = false
    | .Stop | .Shutdown => True
  | .poll _ | .reply _ => True

instance (s : DispatcherInner U Err) (i : Step U Err) : Decidable (s.Orderly i) := by
  unfold Orderly
  split
  · split <;> infer_instance
  all_goals infer_instance

/-! ## The log -/

/-- While the dispatcher works, nothing final has happened, and a recorded error is still to be looked at. -/
structure Good (s : DispatcherInner U Err) : Prop where
  log : s.log.Pairwise Follows
  stop : s.st.is_open → ∀ e ∈ s.log, e.is_stop = false ∧ e.closes = false
  error : s.st.is_open → s.log.any Event.is_error → s.shared_error.isSome

lemma new_good (cfg : Config) : (new cfg : DispatcherInner U Err).Good :=
  ⟨.nil, fun _ _ h => (not_mem_nil h).elim, fun _ h => (Bool.false_ne_true h).elim⟩

structure Same (s s' : DispatcherInner U Err) : Prop where
  st : s'.st = s.st
  log : s'.log = s.log
  error : s'.shared_error = s.shared_error

lemma Good.same {s s' : DispatcherInner U Err} (h : s.Good) (hs : Same s s') : s'.Good := by
  obtain ⟨h1, h2, h3⟩ := hs
  refine ⟨?_, ?_, ?_⟩
  · rw [h2]
    exact h.log
  · rw [h1, h2]
    exact h.stop
  · rw [h1, h2, h3]
    exact h.error

variable {s : DispatcherInner U Err} {t : Turn U Err}

lemma Good.closed (hlog : s.log.Pairwise Follows) (hst : s.st.is_open = false) : s.Good :=
  ⟨hlog, fun h => by simp [hst] at h, fun h => by simp [hst] at h⟩

lemma pairwise_record {log : List (Event U)} {e : Event U} (h : log.Pairwise Follows) (he : ∀ a ∈ log, Follows a e) :
    (log ++ [e]).Pairwise Follows :=
  pairwise_append.2 ⟨h, pairwise_singleton _ _, fun a ha _ hb => mem_singleton.1 hb ▸ he a ha⟩

lemma follows_error (a : Event U) : Follows a .error := by
  constructor <;> intro _ <;> simp [is_stop, is_work, opens]

lemma follows_closing (a : Event U) {st : DispatcherState} (h : st.is_open = false) : Follows a (.state st) := by
  constructor <;> intro _ <;> simp [is_stop, is_work, opens, h]

section

variable (h : s.Good) (ho : s.st.is_open)
include h ho

lemma Good.follows_opening (st : DispatcherState) : ∀ a ∈ s.log, Follows a (.state st) := by
  intro a ha
  obtain ⟨hstop, hcloses⟩ := h.stop ho a ha
  exact ⟨fun hx => by simp [hstop] at hx, fun _ => nofun, fun hx => by simp [hcloses] at hx⟩

lemma Good.follows_stop (reason : Reason U) (nowait : Bool) : ∀ a ∈ s.log, Follows a (.call (.Stop reason) nowait) := by
  intro a ha
  obtain ⟨hstop, hcloses⟩ := h.stop ho a ha
  exact ⟨fun hx => by simp [hstop] at hx, fun _ => nofun, fun _ => nofun⟩

lemma Good.follows_work (he : s.log.any is_error = false)
    (item : DispatchItem U) (nowait : Bool) : ∀ a ∈ s.log, Follows a (.call item nowait) := by
  intro a ha
  obtain ⟨hstop, hcloses⟩ := h.stop ho a ha
  exact ⟨fun hx => by simp [hstop] at hx, fun hx => absurd hx (any_eq_false.1 he a ha), fun _ => nofun⟩

end

/-! ## Calls -/

structure Answered (s s' : DispatcherInner U Err) : Prop where
  st : s'.st = s.st
  log : s'.log = s.log ∨ s'.log = s.log ++ [.error] ∧ s'.shared_error.isSome
  error : s.shared_error.isSome → s'.shared_error.isSome

lemma handle_result_spec (s : DispatcherInner U Err) (item : Answer U Err) : Answered s (s.handle_result item) := by
  rcases item with err | (_ | _ | err)
  · exact ⟨rfl, .inr ⟨rfl, rfl⟩, fun _ => rfl⟩
  · exact ⟨rfl, .inl rfl, id⟩
  · exact ⟨rfl, .inl rfl, id⟩
  · exact ⟨rfl, .inl rfl, fun _ => rfl⟩

lemma call_service_spec (s : DispatcherInner U Err) (item : DispatchItem U) (nowait : Bool) (answer : Option (Answer U Err)) :
    Answered (s.record (.call item nowait)) (s.call_service item nowait answer) := by
  unfold call_service
  extract_lets s₁
  split
  · exact ⟨rfl, .inl rfl, id⟩
  · cases answer with
    | none => exact ⟨rfl, .inl rfl, id⟩
    | some item =>
      obtain ⟨h1, h2, h3⟩ := handle_result_spec s₁ item
      exact ⟨h1, h2, h3⟩

lemma Good.answered {s s' : DispatcherInner U Err} (h : s.Good) (ha : Answered s s') : s'.Good := by
  obtain ⟨hst, hlog, herr⟩ := ha
  rcases hlog with hlog | ⟨hlog, hsome⟩
  · refine ⟨hlog ▸ h.log, ?_, ?_⟩
    · rw [hst, hlog]
      exact h.stop
    · rw [hst, hlog]
      exact fun ho he => herr (h.error ho he)
  · refine ⟨?_, ?_, fun _ _ => hsome⟩
    · rw [hlog]
      exact pairwise_record h.log fun a _ => follows_error a
    · rw [hst, hlog]
      intro ho e he
      rcases mem_append.1 he with he | he
      · exact h.stop ho e he
      · rw [mem_singleton.1 he]
        exact ⟨rfl, rfl⟩

lemma Good.call_stop {s s' : DispatcherInner U Err} (h : s.Good) (ho : s.st.is_open) (hst : s'.st = .Stop)
    (hlog : s'.log = s.log ++ [.state .Stop]) (reason : Reason U) (nowait : Bool) (answer : Option (Answer U Err)) :
    (s'.call_service (.Stop reason) nowait answer).Good := by
  refine Good.answered (.closed ?_ ?_) (s'.call_service_spec (.Stop reason) nowait answer)
  · refine pairwise_record ?_ ?_
    · rw [hlog]
      exact pairwise_record h.log fun a _ => follows_closing a rfl
    · intro a ha
      rw [hlog] at ha
      rcases mem_append.1 ha with ha | ha
      · exact h.follows_stop ho reason nowait a ha
      · constructor <;> intro hx <;> simp_all [is_stop, is_error, opens]
  · show s'.st.is_open = false
    rw [hst]
    rfl

lemma Good.call_work (h : s.Good) (ho : s.st.is_open) (he : s.log.any is_error = false)
    (item : DispatchItem U) (nowait : Bool) (answer : Option (Answer U Err)) (hitem : ∀ reason, item ≠ .Stop reason) :
    (s.call_service item nowait answer).Good := by
  refine Good.answered ⟨?_, ?_, ?_⟩ (s.call_service_spec item nowait answer)
  · exact pairwise_record h.log (h.follows_work ho he item nowait)
  · intro _ e hmem
    rcases mem_append.1 hmem with hmem | hmem
    · exact h.stop ho e hmem
    · rw [mem_singleton.1 hmem]
      cases item with
      | Stop reason => exact absurd rfl (hitem reason)
      | Item | Control => exact ⟨rfl, rfl⟩
  · intro _ hany
    simp only [record, any_append, he, any_cons, any_nil] at hany
    simp [is_error] at hany

lemma Good.set_open (h : s.Good) (ho : s.st.is_open) (st : DispatcherState) (hst : st.is_open) : (s.set_st st).Good := by
  refine ⟨pairwise_record h.log (h.follows_opening ho st), ?_, ?_⟩
  · intro _ e hmem
    rcases mem_append.1 hmem with hmem | hmem
    · exact h.stop ho e hmem
    · rw [mem_singleton.1 hmem]
      exact ⟨rfl, by simp [closes, hst]⟩
  · intro _ hany
    refine h.error ho ?_
    simpa [set_st, record, is_error] using hany

/-! ## One round -/

inductive Polled (s : DispatcherInner U Err) (t : Turn U Err) : Option (PollService U) → DispatcherInner U Err → Prop
  | pending {s'} : Same s s' → Polled s t none s'
  | spurious {s'} : Same s s' → Polled s t (some .Continue) s'
  | ready {s'} : Same s s' → s.shared_error = none → Polled s t (some .Ready) s'
  | failed {s'} : s'.st = .Stop → s'.log = s.log ++ [.state .Stop] ++ [.error] → Polled s t (some .Continue) s'
  | stop {s' reason item} : s.stops t → s'.st = .Stop → s'.log = s.log ++ [.state .Stop] →
      item = .Item (.Stop reason) ∨ item = .ItemWait (.Stop reason) → Polled s t (some item) s'
  | enabled {s'} : Same s s' → (∀ b, s.ignores t = b → s.log.any Event.is_error = b) →
      Polled s t (some (.ItemWait (.Control .WBackPressureEnabled))) (s'.set_st .Backpressure)

lemma poll_service_spec (s : DispatcherInner U Err) (t : Turn U Err) :
    Polled s t (s.poll_service t).1 (s.poll_service t).2 := by
  unfold poll_service
  split
  next hr =>
    unfold check_error
    split
    next err he => exact .stop (by simp [stops, hr, he]) rfl rfl (.inl rfl)
    · exact .failed rfl rfl
    next he => exact .ready ⟨rfl, rfl, rfl⟩ he
  next hr =>
    extract_lets s₁
    have hs : Same s s₁ := ⟨rfl, rfl, rfl⟩
    split
    · exact .pending hs
    next ht =>
      split
      next hk =>
        have hk : s.flags.ka_enabled := hk
        exact .stop (by simpa [stops, hr, ht] using hk) rfl rfl (.inr rfl)
      · exact .spurious hs
    next err ht => exact .stop (by simp [stops, hr, ht]) rfl rfl (.inr rfl)
    next ht => exact .enabled hs fun b hb => by simpa [ignores, hr, ht] using hb
  · exact .failed rfl rfl

lemma Good.failed {s s' : DispatcherInner U Err} (h : s.Good) (hst : s'.st = .Stop)
    (hlog : s'.log = s.log ++ [.state .Stop] ++ [.error]) : s'.Good := by
  refine .closed ?_ (by rw [hst]; rfl)
  rw [hlog]
  exact pairwise_record (pairwise_record h.log fun a _ => follows_closing a rfl) fun a _ => follows_error a

lemma Good.no_error (h : s.Good) (ho : s.st.is_open) (he : s.shared_error = none) : s.log.any is_error = false := by
  cases hany : s.log.any is_error with
  | false => rfl
  | true =>
    have := h.error ho hany
    rw [he] at this
    cases this

section

variable (s : DispatcherInner U Err)

lemma same_update_timer (decoded : Decoded U) : Same s (s.update_timer decoded) := by
  unfold update_timer
  split
  · exact ⟨rfl, rfl, rfl⟩
  split
  · exact ⟨rfl, rfl, rfl⟩
  split <;> split <;> exact ⟨rfl, rfl, rfl⟩

lemma same_extend_timer (params : FrameReadRate) : Same s (s.extend_timer params).2 := by
  unfold extend_timer
  extract_lets s₁
  split <;> exact ⟨rfl, rfl, rfl⟩

lemma same_handle_timeout : Same s s.handle_timeout.2 := by
  unfold handle_timeout
  split
  · split
    next params _ =>
      split
      · have := same_extend_timer s params
        split <;> simp_all
      · exact ⟨rfl, rfl, rfl⟩
    · exact ⟨rfl, rfl, rfl⟩
  · split <;> exact ⟨rfl, rfl, rfl⟩

lemma same_keep_ready (ready : Option (Except Err Unit)) : Same s (s.keep_ready ready) := by
  unfold keep_ready
  split <;> exact ⟨rfl, rfl, rfl⟩

end

lemma Same.is_open {s s' : DispatcherInner U Err} (h : Same s s') (ho : s.st.is_open) : s'.st.is_open := by
  rw [h.st]
  exact ho

section

variable (h : s.Good) (ho : s.st.is_open)
include h ho

lemma receive_good (he : s.shared_error = none) (t : Turn U Err) : (s.receive t).Good := by
  have hany := h.no_error ho he
  unfold receive
  split
  next decoded _ =>
    have hs := same_update_timer s decoded
    split
    · exact (h.same hs).call_work (hs.is_open ho) (by rw [hs.log]; exact hany) _ true t.answer nofun
    · exact h.same { hs with }
  · have hs := same_handle_timeout s
    split
    next ctl s₁ hk =>
      rw [hk] at hs
      exact (h.same hs).call_stop (hs.is_open ho) rfl rfl ctl true t.answer
    next s₁ hk =>
      rw [hk] at hs
      exact h.same hs
  · refine (h.set_open ho .Backpressure rfl).call_work rfl ?_ _ true t.answer nofun
    simpa [set_st, record, is_error] using hany
  all_goals exact h.call_stop ho rfl rfl _ true t.answer

lemma flush_good (he : s.log.any is_error = false) (t : Turn U Err) : (s.flush t).Good := by
  unfold flush
  split
  · exact h.same ⟨rfl, rfl, rfl⟩
  · exact h.call_stop ho rfl rfl _ false t.answer
  · refine (h.set_open ho .Processing rfl).call_work rfl ?_ _ false t.answer nofun
    simpa [set_st, record, is_error] using he

lemma processing_good (hig : s.ignores t = false) : (s.processing t).Good := by
  have hp := poll_service_spec s t
  unfold processing
  generalize s.poll_service t = r at hp
  obtain ⟨r, s'⟩ := r
  cases hp with
  | pending hs => exact h.same { hs with }
  | spurious hs => exact h.same hs
  | ready hs he => exact receive_good (h.same hs) (hs.is_open ho) (hs.error ▸ he) t
  | failed hst hlog => exact h.failed hst hlog
  | stop _ hst hlog hitem =>
    rcases hitem with rfl | rfl
    · exact h.call_stop ho hst hlog _ true t.answer_first
    · exact h.call_stop ho hst hlog _ false t.answer_first
  | @enabled s₁ hs hany =>
    have hset := (h.same hs).set_open (hs.is_open ho) .Backpressure rfl
    refine hset.call_work rfl ?_ _ false t.answer_first nofun
    simpa [set_st, record, is_error, hs.log] using hany false hig

lemma backpressure_good (hok : t.flush.isSome → s.stops t = false ∧ s.ignores t = false) : (s.backpressure t).Good := by
  have hp := poll_service_spec s t
  unfold backpressure
  generalize s.poll_service t = r at hp
  obtain ⟨r, s'⟩ := r
  cases hp with
  | pending hs => exact h.same { hs with }
  | spurious hs => exact h.same hs
  | ready hs he =>
    refine flush_good (h.same hs) (hs.is_open ho) ?_ t
    rw [hs.log]
    exact h.no_error ho he
  | failed hst hlog => exact h.failed hst hlog
  | stop hstop hst hlog hitem =>
    -- the flush does not return, so that the round ends with the call
    have hf : t.flush = none := by
      cases hf : t.flush with
      | none => rfl
      | some r =>
        have := (hok (by rw [hf]; rfl)).1
        rw [hstop] at this
        cases this
    rcases hitem with rfl | rfl
    · simp only [flush, hf]
      exact (h.call_stop ho hst hlog _ true t.answer_first).same ⟨rfl, rfl, rfl⟩
    · simp only [flush, hf]
      exact (h.call_stop ho hst hlog _ false t.answer_first).same ⟨rfl, rfl, rfl⟩
  | @enabled s₁ hs hany =>
    have hset := (h.same hs).set_open (hs.is_open ho) .Backpressure rfl
    by_cases hf : t.flush.isSome
    · refine flush_good hset rfl ?_ t
      simpa [set_st, record, is_error, hs.log] using hany false (hok hf).2
    · simp only [flush, Option.not_isSome_iff_eq_none.1 hf]
      exact hset.same ⟨rfl, rfl, rfl⟩

end

lemma stop_good (h : s.Good) (t : Turn U Err) : (s.stop t).Good := by
  have hs := same_keep_ready { s with timer := none } t.ready
  unfold stop
  generalize { s with timer := none }.keep_ready t.ready = s₁ at hs
  have hg : s₁.Good := h.same { hs with }
  dsimp only
  split
  · split
    · exact .closed (pairwise_record hg.log fun a _ => follows_closing a rfl) rfl
    · exact hg.same ⟨rfl, rfl, rfl⟩
  split
  · exact hg.same ⟨rfl, rfl, rfl⟩
  split <;> exact hg.same ⟨rfl, rfl, rfl⟩

lemma shutdown_good (h : s.Good) (t : Turn U Err) : (s.shutdown t).Good := by
  unfold shutdown
  split <;> exact h.same ⟨rfl, rfl, rfl⟩

lemma turn_good (h : s.Good) (hok : s.Orderly (.turn t)) : (s.turn t).Good := by
  unfold Orderly at hok
  unfold turn
  cases hst : s.st with
  | Processing => exact processing_good h (by rw [hst]; rfl) (by simpa [hst] using hok)
  | Backpressure => exact backpressure_good h (by rw [hst]; rfl) (by simpa [hst] using hok)
  | Stop => exact stop_good h t
  | Shutdown => exact shutdown_good h t

lemma start_good (h : s.Good) (answer : Option (Answer U Err)) : (s.start answer).Good := by
  unfold start
  split
  · exact (h.answered (handle_result_spec s _)).same ⟨rfl, rfl, rfl⟩
  · exact h.same ⟨rfl, rfl, rfl⟩

lemma step_good {s s' : DispatcherInner U Err} {i : Step U Err} (h : s.Good) (hok : s.Orderly i) (hs : step s i = some s') :
    s'.Good := by
  cases i with
  | poll answer =>
    simp only [step] at hs
    split at hs <;> cases hs
    exact start_good h answer
  | turn t =>
    simp only [step] at hs
    split at hs <;> cases hs
    exact turn_good h hok
  | reply answer =>
    simp only [step] at hs
    split at hs <;> cases hs
    have hs : Same s { s with spawned := s.spawned - 1 } := ⟨rfl, rfl, rfl⟩
    exact (h.same hs).answered (handle_result_spec _ answer)

def number_codec : Codec := { Item := Nat, EncoderError := Unit, DecoderError := Unit }

def idle_turn : Turn number_codec Unit :=
  { ready := none, status := none, recv := .ok ⟨none, 0⟩, flush := none, io_shutdown := false, service_shutdown := false,
    answer_first := none, answer := none }

end DispatcherInner

end Geario.Dispatcher
