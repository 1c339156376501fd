import VoiceOrder.Voice.SessionSteps

/-! # A retired session is silent

Every callback and every continuation but one looks at whether its session is retired. The
one after the flush of a stop does not: it may end the session, or arm a grace timer that
then fails it. -/

namespace VoiceOrder.Voice.VoiceMessageHandler

open Runs

/-! ## The handshake -/

/-- Until its connect settles a session has no stream, no stop in flight and no grace timer. -/
def Connecting (activation : Activation) : Prop :=
  activation.opening = true →
    activation.session.stream = none ∧ activation.stops = [] ∧
      activation.session.finalTimer = none

section

variable {handler last : VoiceMessageHandler} {action : Action} {ref : SessionRef}
  {activation changed : Activation}

theorem Connecting.stopSession (h : Connecting activation) (conn : ClientConnection) :
    Connecting (activation.stopSession conn) := by
  simp only [Activation.stopSession]
  split_ifs with hstream
  · exact h
  · exact h
  · intro hopening
    simp [(h hopening).1] at hstream

theorem Change.connecting (h : Change handler action ref activation changed)
    (hc : Connecting activation) : Connecting changed := by
  cases h with
  | unchanged => exact hc
  | superseded hretired =>
      intro hopening
      obtain ⟨hstream, hstops, -⟩ := hc hopening
      simp [Activation.modify, VoiceSession.retire, VoiceSession.clearTimers, hstream, hstops]
  | disconnected hretired =>
      intro hopening
      obtain ⟨hstream, hstops, -⟩ := hc hopening
      simp [Activation.modify, Activation.disconnected, VoiceSession.retire,
        VoiceSession.clearTimers, hstream, hstops]
  | audio audio throws hretired =>
      simp only [Activation.handleAudioChunk]
      split_ifs with _ _ hbuffer
      · exact hc
      · exact hc
      · exact hc
      · exact hc
      · exact hc
      · intro hopening
        simp [(hc hopening).1] at hbuffer
  | stop conn hretired => exact hc.stopSession conn
  | partialArrived text =>
      simp only [Activation.onPartial]
      split_ifs <;> exact hc
  | finalArrived request_id text =>
      simp only [Activation.onFinal, Activation.endAwaited]
      split_ifs with _ harmed
      · exact hc
      · intro hopening
        obtain ⟨hstream, hstops, -⟩ := hc hopening
        exact ⟨hstream, hstops, rfl⟩
      · exact hc
  | errorArrived =>
      simp only [Activation.onError]
      split_ifs <;> exact hc
  | opened failsAt haction hopening =>
      intro hnot
      simp only [Activation.opened] at hnot
      split at hnot <;> cases hnot
  | openFailed isCurrent busy haction hopening hlive _ =>
      intro hnot
      simp only [Activation.openFailed] at hnot
      split_ifs at hnot <;> cases hnot
  | stopResolved index conn haction hconn =>
      intro hopening
      have hnot : activation.opening = true := by
        simp only [Activation.stopped] at hopening
        split_ifs at hopening <;> exact hopening
      simp [(hc hnot).2.1] at hconn
  | stopRejected index haction =>
      intro hopening
      obtain ⟨hstream, hstops, htimer⟩ := hc hopening
      exact ⟨hstream, by simp [hstops], htimer⟩
  | finalTimer conn harmed =>
      intro hopening
      have hnot : activation.opening = true := by
        simp only [Activation.finalTimerFired] at hopening
        split_ifs at hopening <;> exact hopening
      rw [(hc hnot).2.2] at harmed
      cases harmed
  | stopTimer isCurrent conn harmed hcurrent =>
      simp only [Activation.stopTimerFired]
      split_ifs
      · exact hc
      · exact hc
      · have hdisarmed : Connecting ((activation.modify fun session =>
            { session with stopTimer := none }).send conn
              (.stopped activation.session.session_id)) := hc
        exact hdisarmed.stopSession conn

/-! ## Retired sessions -/

/-- A `stop` whose session was retired while it was in flight comes back only to a session
that failed without a final. -/
def stopsInTime (handler : VoiceMessageHandler) : Action → Bool
  | .stopResolves ref _ =>
      (handler.activations ref).all fun activation =>
        !activation.session.retired ||
          (!activation.session.finalReceived && activation.session.status = .failed)
  | _ => true

/-- A grace timer armed in a retired session has nothing to say. -/
def Quiet (activation : Activation) : Prop :=
  activation.session.retired = true → activation.session.finalTimer.isSome →
    activation.session.finalReceived = true ∨ activation.session.status = .failed

theorem isTerminal_of_retired {session : VoiceSession} (h : session.retired = true) :
    session.isTerminal = true := by
  simp [VoiceSession.isTerminal, h]

/-- A change of a retired session says nothing. -/
theorem Change.silent (h : Change handler action ref activation changed)
    (hmeets : stopsInTime handler action = true)
    (ha : handler.activations ref = some activation) (hquiet : Quiet activation)
    (hretired : activation.session.retired = true) :
    changed.session.retired = true ∧ changed.outputs = activation.outputs ∧ Quiet changed := by
  have hterminal := isTerminal_of_retired hretired
  cases h with
  | unchanged => exact ⟨hretired, rfl, hquiet⟩
  | superseded hlive | disconnected hlive | audio _ _ hlive | stop _ hlive =>
      simp [hlive] at hretired
  | partialArrived text =>
      rw [Activation.onPartial, if_pos hterminal]
      exact ⟨hretired, rfl, hquiet⟩
  | finalArrived request_id text =>
      rw [Activation.onFinal, if_pos hterminal]
      exact ⟨hretired, rfl, hquiet⟩
  | errorArrived =>
      have herror : activation.onError =
          activation.modify fun session => { session with stopTimer := none } := by
        simp [Activation.onError, hterminal]
      rw [herror]
      exact ⟨hretired, rfl, hquiet⟩
  | opened failsAt haction hopening =>
      rw [opened_of_retired failsAt hretired]
      exact ⟨hretired, rfl, hquiet⟩
  | openFailed isCurrent busy haction hopening hlive _ =>
      cases isCurrent with
      | true => simp [hlive rfl] at hretired
      | false => exact ⟨rfl, rfl, fun _ => hquiet hretired⟩
  | stopResolved index conn haction hconn =>
      subst haction
      simp only [stopsInTime, ha, Option.all_some, hretired, Bool.not_true, Bool.false_or,
        Bool.and_eq_true, Bool.not_eq_true', decide_eq_true_eq] at hmeets
      obtain ⟨hfinal, hfailed⟩ := hmeets
      simp only [Activation.stopped, hfinal]
      exact ⟨hretired, rfl, fun _ _ => Or.inr hfailed⟩
  | stopRejected index haction => exact ⟨hretired, rfl, hquiet⟩
  | finalTimer conn harmed =>
      have hnothing := hquiet hretired (by simp [harmed])
      simp only [Activation.finalTimerFired, hnothing, ↓reduceIte]
      exact ⟨hretired, rfl, fun _ h => by cases h⟩
  | stopTimer isCurrent conn harmed hcurrent =>
      cases isCurrent with
      | true => simp [hcurrent rfl] at hretired
      | false => exact ⟨hretired, rfl, hquiet⟩

theorem quiet_of_live (h : activation.session.retired = false) : Quiet activation :=
  fun hretired => by simp [h] at hretired

theorem quiet_of_disarmed (h : activation.session.finalTimer = none) : Quiet activation :=
  fun _ harmed => by simp [h] at harmed

/-- A session that is being retired leaves no grace timer behind. -/
theorem Change.quiet (h : Change handler action ref activation changed) (hc : Connecting activation)
    (hlive : activation.session.retired = false) : Quiet changed := by
  cases h with
  | unchanged => exact quiet_of_live hlive
  | superseded hretired => exact quiet_of_disarmed rfl
  | disconnected hretired => exact quiet_of_disarmed rfl
  | audio audio throws hretired =>
      exact quiet_of_live ((keeps_handleAudioChunk audio throws activation).2.trans hlive)
  | stop conn hretired => exact quiet_of_live ((keeps_stopSession conn activation).2.trans hlive)
  | partialArrived text => exact quiet_of_live ((keeps_onPartial text activation).2.trans hlive)
  | finalArrived request_id text =>
      exact quiet_of_live ((keeps_onFinal request_id text activation).2.trans hlive)
  | errorArrived => exact quiet_of_live ((keeps_onError activation).2.trans hlive)
  | opened failsAt haction hopening =>
      exact quiet_of_live ((keeps_opened failsAt activation).2.trans hlive)
  | openFailed isCurrent busy haction hopening hlive _ =>
      apply quiet_of_disarmed
      simp only [Activation.openFailed]
      split_ifs <;> exact (hc hopening).2.2
  | stopResolved index conn haction hconn =>
      exact quiet_of_live ((keeps_stopped index conn activation).2.trans hlive)
  | stopRejected index haction => exact quiet_of_live hlive
  | finalTimer conn harmed =>
      exact quiet_of_live ((keeps_finalTimerFired conn activation).2.trans hlive)
  | stopTimer isCurrent conn harmed hcurrent =>
      exact quiet_of_live ((keeps_stopTimerFired isCurrent conn activation).2.trans hlive)

theorem kept_quiet : Kept (fun handler action => stopsInTime handler action = true)
    fun activation => Connecting activation ∧ Quiet activation := by
  refine ⟨fun conn => ⟨fun _ => ⟨rfl, rfl, rfl⟩, fun h => nomatch h⟩, ?_⟩
  intro handler action ref activation changed hmeets ha h hinv
  refine ⟨h.connecting hinv.1, ?_⟩
  cases hretired : activation.session.retired with
  | false => exact h.quiet hinv.1 hretired
  | true => exact (h.silent hmeets ha hinv.2 hretired).2.2

/-- The session registered under an id is retired by the next start of that id. -/
theorem start_retires {conn : ClientConnection} (hwf : handler.Wf)
    (hcurrent : handler.sessions conn.session_id = some ref) :
    ∃ changed, (handler.handleStart conn).activations ref = some changed ∧
      changed.session.retired = true := by
  obtain ⟨activation, ha, -⟩ := hwf.registered conn.session_id ref hcurrent
  exact ⟨_, handleStart_activations hwf ha, by rw [if_pos hcurrent]; rfl⟩

/-- The session registered under an id is retired by its disconnect. -/
theorem disconnect_retires {session_id : SessionId} (hwf : handler.Wf)
    (hcurrent : handler.sessions session_id = some ref) :
    ∃ changed, (handler.handleDisconnect session_id).activations ref = some changed ∧
      changed.session.retired = true := by
  obtain ⟨activation, ha, -⟩ := hwf.registered session_id ref hcurrent
  exact ⟨_, handleDisconnect_activations ha, by rw [if_pos hcurrent]; rfl⟩

/-- After a session is superseded or disconnected nothing is sent or emitted by it. -/
theorem retired_silent {before after : List Action}
    (hbefore : Run step (fun handler action => stopsInTime handler action = true) create before
      handler)
    (hafter : Run step (fun handler action => stopsInTime handler action = true) handler after
      last)
    (ha : handler.activations ref = some activation)
    (hretired : activation.session.retired = true) :
    ∃ changed, last.activations ref = some changed ∧ changed.outputs = activation.outputs := by
  obtain ⟨changed, hchanged, -, hsilent, -⟩ := run_relates (fun activation changed =>
    changed.session.retired = true ∧ changed.outputs = activation.outputs ∧ Quiet changed)
    hafter (run_wf hbefore) ha ⟨hretired, rfl, (kept_quiet.run hbefore ha).2⟩ (by
      intro handler action before changed hmeets hbefore hchange hrel
      obtain ⟨hretired, houtputs, hquiet⟩ := hrel
      obtain ⟨hretired', houtputs', hquiet'⟩ := hchange.silent hmeets hbefore hquiet hretired
      exact ⟨hretired', houtputs'.trans houtputs, hquiet'⟩)
  exact ⟨changed, hchanged, hsilent⟩

/-- A client connection. -/
def mic : ClientConnection := ⟨0, "voice_session_1", "cart_1", 7⟩

/-- The session is superseded while it listens; its transcripts and its error come late. -/
theorem retired_silent_superseded :
    ∃ (handler last : VoiceMessageHandler) (activation changed : Activation),
      handler.activations 0 = some activation ∧ activation.session.retired = true ∧
        last.activations 0 = some changed ∧ changed.outputs = activation.outputs := by
  obtain ⟨handler, hbefore, hheld⟩ :
      ∃ handler, Run step (fun handler action => stopsInTime handler action = true) create
        [.start mic, .openResolves 0 none, .partialArrives 0 "two", .start mic] handler ∧
        ((handler.activations 0).any fun activation => activation.session.retired &&
          (exec (guarded step fun handler action => stopsInTime handler action = true) handler
            [.finalArrives 0 "turn_1" "two burgers", .errorArrives 0]).isSome) = true :=
    exists_run (by decide +kernel)
  obtain ⟨activation, ha, hheld⟩ := (Option.any_eq_true _ _).mp hheld
  obtain ⟨hretired, hrun⟩ := Bool.and_eq_true_iff.mp hheld
  obtain ⟨last, hlast⟩ := Option.isSome_iff_exists.mp hrun
  obtain ⟨changed, hchanged, hsilent⟩ := retired_silent hbefore (run_iff_exec.mpr hlast) ha hretired
  exact ⟨handler, last, activation, changed, ha, hretired, hchanged, hsilent⟩

/-- A disconnect while the flush of a stop is in flight: the grace timer still arms, and its
error is sent for a session that is long gone. -/
theorem grace_timer_outlives_disconnect :
    ∃ (handler last : VoiceMessageHandler) (activation changed : Activation),
      Run step (fun _ _ => True) create
        [.start mic, .openResolves 0 none, .stop mic, .disconnect mic.session_id] handler ∧
      Run step (fun _ _ => True) handler [.stopResolves 0 0, .finalTimerFires 0] last ∧
      handler.activations 0 = some activation ∧ activation.session.retired = true ∧
      last.activations 0 = some changed ∧
      changed.outputs = activation.outputs ++ [.send mic (.error mic.session_id
        .final_transcript_timeout "I did not catch that. Please try again.")] := by
  obtain ⟨handler, hbefore, hheld⟩ :
      ∃ handler, Run step (fun _ _ => True) create
        [.start mic, .openResolves 0 none, .stop mic, .disconnect mic.session_id] handler ∧
        ((handler.activations 0).any fun activation => activation.session.retired &&
          (exec (guarded step fun _ _ => True) handler
            [.stopResolves 0 0, .finalTimerFires 0]).any fun last =>
              (last.activations 0).any fun changed =>
                changed.outputs = activation.outputs ++ [.send mic (.error mic.session_id
                  .final_transcript_timeout "I did not catch that. Please try again.")]) = true :=
    exists_run (by decide +kernel)
  obtain ⟨activation, ha, hheld⟩ := (Option.any_eq_true _ _).mp hheld
  obtain ⟨hretired, hrun⟩ := Bool.and_eq_true_iff.mp hheld
  obtain ⟨last, hafter, hlast⟩ := exists_run hrun
  obtain ⟨changed, hchanged, houtputs⟩ := (Option.any_eq_true _ _).mp hlast
  exact ⟨handler, last, activation, changed, hbefore, hafter, ha, hretired, hchanged,
    of_decide_eq_true houtputs⟩

/-- The condition is exact: a `stop` that comes back to a retired session otherwise makes it
speak, at once or when its grace timer fires. -/
theorem stopResolves_speaks {index : ℕ} (ha : handler.activations ref = some activation)
    (hflight : index < activation.stops.length)
    (hlate : stopsInTime handler (.stopResolves ref index) = false) :
    ∃ after last changed, Run step (fun _ _ => True) handler (.stopResolves ref index :: after)
        last ∧ last.activations ref = some changed ∧ changed.outputs ≠ activation.outputs := by
  have hconn : activation.stops[index]? = some activation.stops[index] :=
    List.getElem?_eq_getElem hflight
  generalize activation.stops[index] = conn at hconn
  have hstep : handler.step (.stopResolves ref index) = some (handler.update ref
      fun activation => { activation with stops := activation.stops.eraseIdx index }.stopped conn) := by
    simp [step, ha, hconn]
  have hstopped := update_activations ref
    (fun activation => { activation with stops := activation.stops.eraseIdx index }.stopped conn) ha
  rw [if_pos rfl] at hstopped
  cases hfinal : activation.session.finalReceived with
  | true =>
      refine ⟨[], _, _, .cons trivial hstep (.nil _), hstopped, ?_⟩
      simp [Activation.stopped, hfinal, Activation.emit, Activation.modify]
  | false =>
      have hfailed : activation.session.status ≠ .failed := by
        intro hfailed
        simp [stopsInTime, ha, hfinal, hfailed] at hlate
      have harmed : { activation with stops := activation.stops.eraseIdx index }.stopped conn =
          { activation with stops := activation.stops.eraseIdx index }.modify fun session =>
            { session with finalTimer := some conn } := by
        simp [Activation.stopped, hfinal]
      rw [harmed] at hstopped
      refine ⟨[.finalTimerFires ref], _, _, .cons trivial hstep (.cons trivial ?_ (.nil _)),
        (update_activations ref (Activation.finalTimerFired conn) hstopped).trans
          (by rw [if_pos rfl]), ?_⟩
      · simp only [step, hstopped, Option.bind_some]
        rfl
      · simp [Activation.finalTimerFired, Activation.modify, Activation.send, hfinal, hfailed]

end

end VoiceOrder.Voice.VoiceMessageHandler
