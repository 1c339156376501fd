import VoiceOrder.Voice.SessionOwnership

/-! # How a stop settles

A session commits to its stop once, and from then on takes no audio. The continuation of the
flush ends the session or arms its grace timer; a flush that is rejected has no continuation. -/

namespace VoiceOrder.Voice.VoiceMessageHandler

open Runs

/-- Where the stop of a session stands. -/
structure Flushing (activation : Activation) : Prop where
  connecting : activation.opening = true → activation.session.stopping = false
  single : activation.stops.length ≤ 1
  inFlight : activation.stops ≠ [] →
    activation.session.stopping = true ∧ activation.session.finalTimer = none
  grace : activation.session.finalTimer.isSome → activation.session.stopping = true
  awaited : activation.session.isTerminal = false → activation.session.finalTimer.isSome →
    activation.session.finalReceived = false

/-- A session that is not retired has committed to its stop, the flush is over, and nothing is
left that would answer the customer. -/
def Stuck (activation : Activation) : Prop :=
  activation.session.retired = false ∧ activation.session.stopping = true ∧
    activation.stops = [] ∧ activation.session.isTerminal = false ∧
    activation.session.finalTimer = none

/-- A flush in flight is rejected only in a session that is already terminal. -/
def rejectsLate (handler : VoiceMessageHandler) : Action → Bool
  | .stopRejects ref index =>
      (handler.activations ref).all fun activation =>
        activation.session.isTerminal || activation.stops[index]?.isNone
  | _ => true

/-- In no state along the actions a session is stuck. -/
def NeverStuck (actions : List Action) : Prop :=
  ∀ before after handler, actions = before ++ after →
    Run step (fun _ _ => True) create before handler →
    ∀ ref activation, handler.activations ref = some activation → ¬Stuck activation

section

variable {handler after last : VoiceMessageHandler} {action : Action} {ref : SessionRef}
  {activation changed : Activation} {conn : ClientConnection}

/-! ## The stop of one session -/

theorem Flushing.stopSession (h : Flushing activation) (conn : ClientConnection)
    (hc : Connecting activation) : Flushing (activation.stopSession conn) := by
  simp only [Activation.stopSession]
  split_ifs with hstream hunder
  · exact h
  · exact h
  · push Not at hunder
    obtain ⟨hstopping, htimer, -⟩ := hunder
    have hnone : activation.stops = [] := by
      by_contra hne
      exact hstopping (h.inFlight hne).1
    refine ⟨fun hopening => ?_, ?_, fun _ => ⟨rfl, ?_⟩, fun _ => rfl, h.awaited⟩
    · simp [(hc hopening).1] at hstream
    · simp [Activation.modify, hnone]
    · simpa [Activation.modify] using htimer

/-- A change that leaves the stop alone, but for a grace timer that it may disarm. -/
theorem Flushing.keeps (h : Flushing activation) (hopening : changed.opening = activation.opening)
    (hstops : changed.stops = activation.stops)
    (hstopping : changed.session.stopping = activation.session.stopping)
    (htimer : changed.session.finalTimer = activation.session.finalTimer ∨
      changed.session.finalTimer = none)
    (hawaited : changed.session.isTerminal = false → changed.session.finalTimer.isSome →
      changed.session.finalReceived = false) : Flushing changed := by
  refine ⟨?_, ?_, fun hne => ?_, fun harmed => ?_, hawaited⟩
  · rw [hopening, hstopping]
    exact h.connecting
  · rw [hstops]
    exact h.single
  · rw [hstops] at hne
    rw [hstopping]
    refine ⟨(h.inFlight hne).1, ?_⟩
    rcases htimer with htimer | htimer
    · exact htimer.trans (h.inFlight hne).2
    · exact htimer
  · rw [hstopping]
    rcases htimer with htimer | htimer
    · rw [htimer] at harmed
      exact h.grace harmed
    · rw [htimer] at harmed
      cases harmed

/-- A stop that settles leaves no other one in flight. -/
theorem erased {stops : List ClientConnection} {index : ℕ} (hsingle : stops.length ≤ 1)
    (hconn : stops[index]? = some conn) : stops.eraseIdx index = [] := by
  obtain ⟨hlt, -⟩ := List.getElem?_eq_some_iff.mp hconn
  have hlength := List.length_eraseIdx_of_lt hlt
  exact List.eq_nil_of_length_eq_zero (by omega)

theorem isTerminal_eq_false {session : VoiceSession} :
    session.isTerminal = false ↔ session.retired = false ∧ session.status ≠ .ended ∧
      session.status ≠ .failed ∧ session.status ≠ .interrupted := by
  simp [VoiceSession.isTerminal, and_assoc]

theorem Change.flushing (h : Change handler action ref activation changed)
    (hc : Connecting activation) (hf : Flushing activation) : Flushing changed := by
  cases h with
  | unchanged => exact hf
  | superseded hlive => exact hf.keeps rfl rfl rfl (.inr rfl) fun _ h => by cases h
  | disconnected hlive => exact hf.keeps rfl rfl rfl (.inr rfl) fun _ h => by cases h
  | audio audio throws hlive =>
      simp only [Activation.handleAudioChunk]
      split_ifs <;> exact hf.keeps rfl rfl rfl (.inl rfl) hf.awaited
  | stop conn hlive => exact hf.stopSession conn hc
  | partialArrived text =>
      simp only [Activation.onPartial]
      split_ifs <;> exact hf.keeps rfl rfl rfl (.inl rfl) hf.awaited
  | finalArrived request_id text =>
      simp only [Activation.onFinal, Activation.endAwaited]
      split_ifs with hterminal harmed
      · exact hf
      · exact hf.keeps rfl rfl rfl (.inr rfl) fun _ h => by cases h
      · exact hf.keeps rfl rfl rfl (.inl rfl) fun _ h => absurd h harmed
  | errorArrived =>
      simp only [Activation.onError]
      split_ifs
      · exact hf.keeps rfl rfl rfl (.inl rfl) hf.awaited
      · refine hf.keeps rfl rfl rfl (.inl rfl) fun hlive => ?_
        exact absurd rfl (isTerminal_eq_false.mp hlive).2.2.1
  | opened failsAt haction hopening =>
      have htimer := (hc hopening).2.2
      cases hretired : activation.session.retired with
      | true =>
          rw [opened_of_retired failsAt hretired]
          exact ⟨(by rintro ⟨⟩), hf.single, hf.inFlight, hf.grace, hf.awaited⟩
      | false =>
          rw [opened_of_live failsAt hretired, flush_eq]
          exact ⟨(by rintro ⟨⟩), hf.single, hf.inFlight, hf.grace,
            fun _ harmed => by simp [htimer] at harmed⟩
  | openFailed isCurrent busy haction hopening hlive _ =>
      have htimer := (hc hopening).2.2
      cases isCurrent with
      | true =>
          exact ⟨(by rintro ⟨⟩), hf.single, hf.inFlight, hf.grace,
            fun hlive => by simp [VoiceSession.isTerminal, Activation.openFailed, Activation.modify,
              Activation.send, VoiceSession.retire] at hlive⟩
      | false =>
          exact ⟨(by rintro ⟨⟩), hf.single, hf.inFlight, hf.grace,
            fun hlive => by simp [VoiceSession.isTerminal, Activation.openFailed, Activation.modify,
              VoiceSession.retire] at hlive⟩
  | stopResolved index conn haction hconn =>
      have hflight : activation.stops ≠ [] := fun hnone => by simp [hnone] at hconn
      obtain ⟨hstopping, htimer⟩ := hf.inFlight hflight
      have hnone := erased hf.single hconn
      have hconnecting : activation.opening = true → activation.session.stopping = false :=
        hf.connecting
      simp only [Activation.stopped]
      split_ifs with hfinal
      · exact ⟨hconnecting, by simp [Activation.modify, Activation.emit, hnone],
          fun hne => absurd hnone hne, fun _ => hstopping,
          fun _ harmed => by simp [Activation.modify, Activation.emit, htimer] at harmed⟩
      · exact ⟨hconnecting, by simp [Activation.modify, hnone], fun hne => absurd hnone hne,
          fun _ => hstopping, fun _ _ => by simpa [Activation.modify] using hfinal⟩
  | stopRejected index haction =>
      refine ⟨hf.connecting, Nat.le_trans (List.length_eraseIdx_le _ _) hf.single, fun hne => ?_, hf.grace,
        hf.awaited⟩
      exact hf.inFlight fun hnone => hne (by simp [hnone])
  | finalTimer conn harmed =>
      simp only [Activation.finalTimerFired]
      split_ifs
      · exact hf.keeps rfl rfl rfl (.inr rfl) fun _ h => by cases h
      · exact hf.keeps rfl rfl rfl (.inr rfl) fun _ h => by cases h
  | stopTimer isCurrent conn harmed hcurrent =>
      have hdisarmed : Flushing (activation.modify fun session => { session with stopTimer := none }) :=
        hf.keeps rfl rfl rfl (.inl rfl) hf.awaited
      simp only [Activation.stopTimerFired]
      split_ifs
      · exact hdisarmed
      · exact hdisarmed
      · have hnotified : Flushing ((activation.modify fun session =>
            { session with stopTimer := none }).send conn (.stopped activation.session.session_id)) :=
          hdisarmed.keeps rfl rfl rfl (.inl rfl) hdisarmed.awaited
        exact hnotified.stopSession conn hc

theorem kept_flushing : Kept (fun _ _ => True) fun activation =>
    Connecting activation ∧ Flushing activation :=
  ⟨fun _ => ⟨fun _ => ⟨rfl, rfl, rfl⟩, fun _ => rfl, Nat.zero_le 1, fun h => absurd rfl h,
      fun h => (nomatch h), fun _ h => nomatch h⟩,
    fun _ _ _ _ _ _ _ h hinv => ⟨h.connecting hinv.1, h.flushing hinv.1 hinv.2⟩⟩

/-! ## No session is stuck -/

theorem unstuck_stopSession (h : ¬Stuck activation) : ¬Stuck (activation.stopSession conn) := by
  simp only [Activation.stopSession]
  split_ifs
  · exact h
  · exact h
  · rintro ⟨-, -, hnone, -⟩
    simp [Activation.modify] at hnone

theorem Change.unstuck (h : Change handler action ref activation changed)
    (hmeets : rejectsLate handler action = true) (ha : handler.activations ref = some activation)
    (hf : Flushing activation) (hfree : ¬Stuck activation) :
    ¬Stuck changed := by
  cases h with
  | unchanged => exact hfree
  | superseded hlive | disconnected hlive => exact fun hstuck => nomatch hstuck.1
  | audio audio throws hlive =>
      simp only [Activation.handleAudioChunk]
      split_ifs <;> exact hfree
  | stop conn hlive => exact unstuck_stopSession hfree
  | partialArrived text =>
      simp only [Activation.onPartial]
      split_ifs <;> exact hfree
  | finalArrived request_id text =>
      simp only [Activation.onFinal, Activation.endAwaited]
      split_ifs
      · exact hfree
      · rintro ⟨-, -, -, hopen, -⟩
        exact (isTerminal_eq_false.mp hopen).2.1 rfl
      · exact hfree
  | errorArrived =>
      simp only [Activation.onError]
      split_ifs
      · exact hfree
      · rintro ⟨-, -, -, hopen, -⟩
        exact (isTerminal_eq_false.mp hopen).2.2.1 rfl
  | opened failsAt haction hopening =>
      rintro ⟨hlive, hstopping, -⟩
      rw [(keeps_opened failsAt activation).2] at hlive
      rw [opened_of_live failsAt hlive, flush_eq] at hstopping
      cases hstopping.symm.trans (hf.connecting hopening)
  | openFailed isCurrent busy haction hopening hlive _ =>
      rintro ⟨hlive, -⟩
      cases (openFailed_retired isCurrent busy activation).symm.trans hlive
  | stopResolved index conn haction hconn =>
      simp only [Activation.stopped]
      split_ifs
      · rintro ⟨-, -, -, hopen, -⟩
        exact (isTerminal_eq_false.mp hopen).2.1 rfl
      · rintro ⟨-, -, -, -, htimer⟩
        cases htimer
  | stopRejected index haction =>
      subst haction
      rintro ⟨hlive, hstopping, hnone, hopen, htimer⟩
      simp only [rejectsLate, ha, Option.all_some, Bool.or_eq_true] at hmeets
      rcases hmeets with hterminal | hout
      · cases hterminal.symm.trans hopen
      · have hlength : activation.stops.length ≤ index := by simpa using hout
        rw [List.eraseIdx_of_length_le hlength] at hnone
        exact hfree ⟨hlive, hstopping, hnone, hopen, htimer⟩
  | finalTimer conn harmed =>
      simp only [Activation.finalTimerFired]
      split_ifs with hover
      · rintro ⟨-, -, -, hopen, -⟩
        rcases hover with hreceived | hfailed
        · cases (hf.awaited hopen (by simp [harmed])).symm.trans hreceived
        · exact (isTerminal_eq_false.mp hopen).2.2.1 hfailed
      · rintro ⟨-, -, -, hopen, -⟩
        exact (isTerminal_eq_false.mp hopen).2.2.1 rfl
  | stopTimer isCurrent conn harmed hcurrent =>
      simp only [Activation.stopTimerFired]
      split_ifs
      · exact hfree
      · exact hfree
      · exact unstuck_stopSession hfree

theorem kept_unstuck : Kept (fun handler action => rejectsLate handler action = true)
    fun activation => (Connecting activation ∧ Flushing activation) ∧ ¬Stuck activation :=
  ⟨fun conn => ⟨kept_flushing.create conn, fun hstuck => nomatch hstuck.2.1⟩,
    fun handler action ref activation changed hmeets ha h hinv =>
      ⟨kept_flushing.change handler action ref activation changed trivial ha h hinv.1,
        h.unstuck hmeets ha hinv.1.2 hinv.2⟩⟩

/-- A flush that is rejected in a session that is not terminal leaves it stuck. -/
theorem stuck_of_rejects
    (hf : ∀ ref activation, handler.activations ref = some activation → Flushing activation)
    (hstep : handler.step action = some after) (hrejects : rejectsLate handler action = false) :
    ∃ ref activation, after.activations ref = some activation ∧ Stuck activation := by
  cases action with
  | stopRejects ref index =>
      obtain ⟨activation, ha, rfl⟩ := Option.map_eq_some_iff.mp hstep
      simp only [rejectsLate, ha, Option.all_some, Bool.or_eq_false_iff] at hrejects
      obtain ⟨hopen, hflight⟩ := hrejects
      cases hconn : activation.stops[index]? with
      | none => simp [hconn] at hflight
      | some conn =>
          have hstopping := (hf ref activation ha).inFlight fun hnone => by simp [hnone] at hconn
          refine ⟨ref, { activation with stops := activation.stops.eraseIdx index },
            by rw [update_activations ref _ ha, if_pos rfl],
            (isTerminal_eq_false.mp hopen).1, hstopping.1, ?_, hopen, hstopping.2⟩
          exact erased (hf ref activation ha).single hconn
  | _ => cases hrejects

/-- In a run no session is ever stuck exactly if no flush is rejected in a session that is not
terminal. -/
theorem neverStuck_iff_rejectsLate {actions : List Action}
    (h : Run step (fun _ _ => True) create actions last) :
    NeverStuck actions ↔
      Run step (fun handler action => rejectsLate handler action = true) create actions last := by
  constructor
  · intro hnever
    rcases h.meets_or_breaks (fun handler action => rejectsLate handler action = true) with
      hrun | ⟨earlier, middle, action, next, later, hactions, hearlier, -, hbreaks, hstep, -⟩
    · exact hrun.mono fun _ _ hmeets => hmeets.2
    · have hrun : Run step (fun _ _ => True) create (earlier ++ [action]) next :=
        hearlier.append (.cons trivial hstep (.nil next))
      obtain ⟨ref, activation, ha, hstuck⟩ := stuck_of_rejects
        (fun _ _ ha => (kept_flushing.run hearlier ha).2) hstep (by simpa using hbreaks)
      exact absurd hstuck (hnever (earlier ++ [action]) later next
        (by rw [hactions, List.append_assoc, List.singleton_append]) hrun ref activation ha)
  · intro hrun before after handler hactions hbefore ref activation ha
    subst hactions
    exact (kept_unstuck.run (hrun.of_append hbefore) ha).2

/-- A session that fails while its stop is flushed. -/
def failedFlush : List Action :=
  [.start mic, .openResolves 0 none, .stop mic, .errorArrives 0, .stopRejects 0 0]

theorem neverStuck_iff_rejectsLate_failed :
    ∃ last, Run step (fun _ _ => True) create failedFlush last ∧ NeverStuck failedFlush := by
  obtain ⟨last, hrun, -⟩ : ∃ last, Run step (fun handler action => rejectsLate handler action = true)
      create failedFlush last ∧ ((last.activations 0).any fun activation =>
        activation.session.status = .failed) = true := exists_run (by decide +kernel)
  have hany : Run step (fun _ _ => True) create failedFlush last := hrun.mono fun _ _ _ => trivial
  exact ⟨last, hany, (neverStuck_iff_rejectsLate hany).mpr hrun⟩

/-- The socket dies under the flush of the customer's stop. -/
theorem rejected_stop_stuck :
    ¬NeverStuck [.start mic, .openResolves 0 none, .stop mic, .stopRejects 0 0] := by
  intro hnever
  obtain ⟨last, hrun, hheld⟩ : ∃ last, Run step (fun _ _ => True) create
      [.start mic, .openResolves 0 none, .stop mic, .stopRejects 0 0] last ∧
      ((last.activations 0).any fun activation => !activation.session.retired &&
        activation.session.stopping && activation.stops.isEmpty && !activation.session.isTerminal &&
        activation.session.finalTimer.isNone) = true := exists_run (by decide +kernel)
  obtain ⟨activation, ha, hheld⟩ := (Option.any_eq_true _ _).mp hheld
  simp only [Bool.and_eq_true, Bool.not_eq_true', List.isEmpty_iff, Option.isNone_iff_eq_none] at hheld
  obtain ⟨⟨⟨⟨hlive, hstopping⟩, hnone⟩, hopen⟩, htimer⟩ := hheld
  exact hnever _ [] last (List.append_nil _).symm hrun 0 activation ha
    ⟨hlive, hstopping, hnone, hopen, htimer⟩

end

end VoiceOrder.Voice.VoiceMessageHandler
