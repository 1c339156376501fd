import VoiceOrder.Voice.StopSettlement

/-! # A stop is honoured

Once a session has committed to its stop it takes no audio and ends flushed or terminal. A stop
that lands while the stream connects commits to nothing: it is honoured only if that connect does
not come through. -/

namespace VoiceOrder.Voice.VoiceMessageHandler

open Runs

/-- What was forwarded to the stream of the session. -/
def forwarded (activation : Activation) : List Buffer :=
  activation.session.stream.elim [] SttStream.sent

/-- A session that takes no audio: it is stopping, it is terminal or it has no stream yet. -/
def Deaf (activation : Activation) : Prop :=
  activation.session.stopping = true ∨ activation.session.isTerminal = true ∨
    activation.opening = true

/-- Once its connect has settled the session is terminal, or its flush is in flight, or it has
been flushed and awaits its final. -/
def Honoured (activation : Activation) : Prop :=
  activation.opening = false → activation.session.isTerminal = true ∨
    activation.session.stopping = true ∧
      (activation.stops ≠ [] ∨ activation.session.finalTimer.isSome)

/-- A session that is neither retired nor connecting has its stream. -/
def Attached (activation : Activation) : Prop :=
  activation.session.retired = false → activation.opening = false →
    activation.session.stream.isSome

/-- The connect of the session comes through only once it is retired. -/
def connectsTooLate (ref : SessionRef) (handler : VoiceMessageHandler) : Action → Bool
  | .openResolves found _ =>
      found != ref || (handler.activations ref).all fun activation => activation.session.retired
  | _ => true

section

variable {handler last : VoiceMessageHandler} {action : Action} {ref : SessionRef}
  {activation changed : Activation} {conn : ClientConnection}

/-! ## The stream of a session -/

theorem attached_stopSession (h : Attached activation) :
    Attached (activation.stopSession conn) := by
  simp only [Activation.stopSession]
  split_ifs <;> exact h

theorem Change.attached (h : Change handler action ref activation changed)
    (hattached : Attached activation) : Attached changed := by
  cases h with
  | unchanged => exact hattached
  | superseded hlive | disconnected hlive => exact fun hretired => nomatch hretired
  | audio audio throws hlive =>
      simp only [Activation.handleAudioChunk]
      split_ifs
      · exact hattached
      · exact hattached
      · exact hattached
      · exact hattached
      · exact hattached
      · exact fun hretired hopening => by
          simpa [Activation.modify, VoiceSession.sendAudio] using hattached hretired hopening
  | stop conn hlive => exact attached_stopSession hattached
  | partialArrived text =>
      simp only [Activation.onPartial]
      split_ifs <;> exact hattached
  | finalArrived request_id text =>
      simp only [Activation.onFinal, Activation.endAwaited]
      split_ifs <;> exact hattached
  | errorArrived =>
      simp only [Activation.onError]
      split_ifs <;> exact hattached
  | opened failsAt haction hopening =>
      intro hlive _
      rw [(keeps_opened failsAt activation).2] at hlive
      rw [opened_of_live failsAt hlive, flush_eq]
      rfl
  | openFailed isCurrent busy haction hopening hlive _ =>
      intro hretired
      cases (openFailed_retired isCurrent busy activation).symm.trans hretired
  | stopResolved index conn haction hconn =>
      simp only [Activation.stopped]
      split_ifs <;> exact hattached
  | stopRejected index haction => exact hattached
  | finalTimer conn harmed =>
      simp only [Activation.finalTimerFired]
      split_ifs <;> exact hattached
  | stopTimer isCurrent conn harmed hcurrent =>
      simp only [Activation.stopTimerFired]
      split_ifs
      · exact hattached
      · exact hattached
      · exact attached_stopSession hattached

theorem kept_attached : Kept (fun _ _ => True) Attached :=
  ⟨fun _ _ hopening => (nomatch hopening), fun _ _ _ _ _ _ _ h hattached => h.attached hattached⟩

/-! ## Nothing reaches the stream of a deaf session -/

theorem forwarded_retire (session : VoiceSession) :
    session.retire.stream.elim [] SttStream.sent = session.stream.elim [] SttStream.sent := by
  simp only [VoiceSession.retire]
  split_ifs
  · rfl
  · cases session.stream <;> rfl

theorem deaf_stopSession (h : Deaf activation) :
    Deaf (activation.stopSession conn) ∧
      forwarded (activation.stopSession conn) = forwarded activation := by
  simp only [Activation.stopSession]
  split_ifs
  · exact ⟨h, rfl⟩
  · exact ⟨h, rfl⟩
  · exact ⟨.inl rfl, rfl⟩

theorem deaf_of_terminal (h : activation.session.isTerminal = true) : Deaf activation :=
  .inr (.inl h)

theorem Change.deaf (h : Change handler action ref activation changed)
    (hmeets : connectsTooLate ref handler action = true)
    (ha : handler.activations ref = some activation) (hc : Connecting activation)
    (hdeaf : Deaf activation) : Deaf changed ∧ forwarded changed = forwarded activation := by
  cases h with
  | unchanged => exact ⟨hdeaf, rfl⟩
  | superseded hlive =>
      exact ⟨deaf_of_terminal (isTerminal_of_retired rfl), forwarded_retire _⟩
  | disconnected hlive =>
      exact ⟨deaf_of_terminal (isTerminal_of_retired rfl), forwarded_retire _⟩
  | audio audio throws hlive =>
      simp only [Activation.handleAudioChunk]
      split_ifs with hstopping hterminal hbuffers
      · exact ⟨hdeaf, rfl⟩
      · exact ⟨hdeaf, rfl⟩
      · exact ⟨hdeaf, rfl⟩
      · exact ⟨hdeaf, rfl⟩
      · exact ⟨hdeaf, rfl⟩
      · -- Only a connecting session is left, and it has no stream.
        rcases hdeaf with hstopping' | hterminal' | hopening
        · exact absurd hstopping' hstopping
        · exact absurd hterminal' hterminal
        · exact absurd (.inl (by simp [(hc hopening).1])) hbuffers
  | stop conn hlive => exact deaf_stopSession hdeaf
  | partialArrived text =>
      simp only [Activation.onPartial]
      split_ifs <;> exact ⟨hdeaf, rfl⟩
  | finalArrived request_id text =>
      simp only [Activation.onFinal, Activation.endAwaited]
      split_ifs
      · exact ⟨hdeaf, rfl⟩
      · refine ⟨deaf_of_terminal ?_, rfl⟩
        simp [VoiceSession.isTerminal, Activation.modify, Activation.emit, VoiceSession.armIdleStop]
      · exact ⟨hdeaf, rfl⟩
  | errorArrived =>
      simp only [Activation.onError]
      split_ifs
      · exact ⟨hdeaf, rfl⟩
      · refine ⟨deaf_of_terminal ?_, rfl⟩
        simp [VoiceSession.isTerminal, Activation.modify, Activation.send]
  | opened failsAt haction hopening =>
      subst haction
      simp only [connectsTooLate, bne_self_eq_false, ha, Option.all_some, Bool.false_or] at hmeets
      rw [opened_of_retired failsAt hmeets]
      exact ⟨deaf_of_terminal (isTerminal_of_retired hmeets), rfl⟩
  | openFailed isCurrent busy haction hopening hlive _ =>
      refine ⟨deaf_of_terminal (isTerminal_of_retired (openFailed_retired isCurrent busy activation)),
        ?_⟩
      cases isCurrent with
      | true => exact forwarded_retire _
      | false => exact forwarded_retire _
  | stopResolved index conn haction hconn =>
      simp only [Activation.stopped]
      split_ifs
      · refine ⟨deaf_of_terminal ?_, rfl⟩
        simp [VoiceSession.isTerminal, Activation.modify, Activation.emit]
      · exact ⟨hdeaf, rfl⟩
  | stopRejected index haction => exact ⟨hdeaf, rfl⟩
  | finalTimer conn harmed =>
      simp only [Activation.finalTimerFired]
      split_ifs
      · exact ⟨hdeaf, rfl⟩
      · refine ⟨deaf_of_terminal ?_, rfl⟩
        simp [VoiceSession.isTerminal, Activation.modify, Activation.send]
  | stopTimer isCurrent conn harmed hcurrent =>
      have hdisarmed : Deaf ((activation.modify fun session =>
          { session with stopTimer := none }).send conn (.stopped activation.session.session_id)) :=
        hdeaf
      simp only [Activation.stopTimerFired]
      split_ifs
      · exact ⟨hdeaf, rfl⟩
      · exact ⟨hdeaf, rfl⟩
      · exact deaf_stopSession hdisarmed

/-- A stop makes the session that it finds deaf. -/
theorem stopSession_deaf (hf : Flushing activation) (hattached : Attached activation)
    (hlive : activation.session.retired = false) :
    Deaf (activation.stopSession conn) ∧
      forwarded (activation.stopSession conn) = forwarded activation := by
  simp only [Activation.stopSession]
  split_ifs with hstream hunder
  · refine ⟨.inr (.inr ?_), rfl⟩
    by_contra hsettled
    have hsome := hattached hlive (by simpa using hsettled)
    rw [Option.isNone_iff_eq_none] at hstream
    simp [hstream] at hsome
  · refine ⟨?_, rfl⟩
    rcases hunder with hstopping | htimer | hended | hfailed
    · exact .inl hstopping
    · exact .inl (hf.grace htimer)
    · exact deaf_of_terminal (by simp [VoiceSession.isTerminal, hended])
    · exact deaf_of_terminal (by simp [VoiceSession.isTerminal, hfailed])
  · exact ⟨.inl rfl, rfl⟩

theorem honoured_of_deaf (hdeaf : Deaf activation) (hfree : ¬Stuck activation) :
    Honoured activation := by
  intro hsettled
  cases hterminal : activation.session.isTerminal with
  | true => exact .inl rfl
  | false =>
      rcases hdeaf with hstopping | hterminal' | hopening
      · refine .inr ⟨hstopping, ?_⟩
        by_contra hnothing
        push Not at hnothing
        exact hfree ⟨(isTerminal_eq_false.mp hterminal).1, hstopping, hnothing.1, hterminal,
          by simpa using hnothing.2⟩
      · cases hterminal.symm.trans hterminal'
      · cases hsettled.symm.trans hopening

/-- After a stop of the current session nothing is forwarded to its stream and the session ends
flushed or terminal, if its connect does not come through after the stop and no flush is rejected
in a session that is not terminal. -/
theorem stop_honoured {before after : List Action}
    (hbefore : Run step (fun handler action => rejectsLate handler action = true) create before
      handler)
    (hcurrent : handler.sessions conn.session_id = some ref)
    (hafter : Run step (fun handler action => rejectsLate handler action = true ∧
      connectsTooLate ref handler action = true) handler (.stop conn :: after) last) :
    ∃ activation changed, handler.activations ref = some activation ∧
      last.activations ref = some changed ∧ forwarded changed = forwarded activation ∧
        Honoured changed := by
  have hwf := run_wf hbefore
  obtain ⟨activation, ha, -, hlive⟩ := hwf.registered conn.session_id ref hcurrent
  have hany : Run step (fun _ _ => True) create before handler := hbefore.mono fun _ _ _ => trivial
  obtain ⟨⟨hc, hf⟩, hfree⟩ := kept_unstuck.run hbefore ha
  cases hafter with
  | cons hmeets hstep hrest =>
      have hstopped := update_activations ref (Activation.stopSession conn) ha
      rw [if_pos rfl] at hstopped
      obtain rfl := Option.some.inj hstep
      simp only [onCurrent, hcurrent] at hrest
      have hattached := kept_attached.run hany ha
      obtain ⟨hdeaf, hsame⟩ : Deaf (activation.stopSession conn) ∧
          forwarded (activation.stopSession conn) = forwarded activation :=
        stopSession_deaf hf hattached hlive
      obtain ⟨changed, hchanged, hinv, hdeaf', hsame'⟩ := run_relates (fun _ changed =>
        ((Connecting changed ∧ Flushing changed) ∧ ¬Stuck changed) ∧ Deaf changed ∧
          forwarded changed = forwarded activation) hrest (hwf.update (keeps_stopSession conn)) hstopped
        ⟨⟨⟨hc.stopSession conn, hf.stopSession conn hc⟩, unstuck_stopSession hfree⟩, hdeaf, hsame⟩ (by
          intro handler action middle changed hmeets hmiddle hchange hrel
          obtain ⟨hinv, hdeaf, hsame⟩ := hrel
          have hkept := kept_unstuck.change handler action ref middle changed hmeets.1 hmiddle hchange
            hinv
          obtain ⟨hdeaf', hsame'⟩ := hchange.deaf hmeets.2 hmiddle hinv.1.1 hdeaf
          exact ⟨hkept, hdeaf', hsame'.trans hsame⟩)
      exact ⟨activation, changed, ha, hchanged, hsame', honoured_of_deaf hdeaf' hinv.2⟩

end

/-- A stop of a listening session, audio that comes too late, and a final in the grace window. -/
theorem stop_honoured_listening :
    ∃ (handler last : VoiceMessageHandler) (activation changed : Activation),
      handler.activations 0 = some activation ∧ last.activations 0 = some changed ∧
        forwarded changed = forwarded activation ∧ Honoured changed := by
  obtain ⟨handler, hbefore, hheld⟩ : ∃ handler,
      Run step (fun handler action => rejectsLate handler action = true) create
        [.start mic, .openResolves 0 none, .audioChunk mic [1] false] handler ∧
      (decide (handler.sessions mic.session_id = some 0) &&
        (exec (guarded step fun handler action => rejectsLate handler action = true ∧
          connectsTooLate 0 handler action = true) handler
          [.stop mic, .audioChunk mic [2] false, .stopResolves 0 0,
            .finalArrives 0 "turn_1" "two burgers"]).isSome) = true := exists_run (by decide +kernel)
  obtain ⟨hcurrent, hafter⟩ := Bool.and_eq_true_iff.mp hheld
  obtain ⟨last, hlast⟩ := Option.isSome_iff_exists.mp hafter
  obtain ⟨activation, changed, ha, hchanged, hsame, hhonoured⟩ :=
    stop_honoured hbefore (of_decide_eq_true hcurrent) (run_iff_exec.mpr hlast)
  exact ⟨handler, last, activation, changed, ha, hchanged, hsame, hhonoured⟩

/-- The customer lets go while the stream connects: the stop is dropped, and what the mic picks up
later is forwarded to a session that keeps listening. -/
theorem stop_while_connecting_dropped :
    ∃ (handler last : VoiceMessageHandler) (activation changed : Activation),
      Run step (fun _ _ => True) create [.start mic] handler ∧
      handler.sessions mic.session_id = some 0 ∧
      Run step (fun _ _ => True) handler
        [.stop mic, .openResolves 0 none, .audioChunk mic [1] false] last ∧
      handler.activations 0 = some activation ∧ last.activations 0 = some changed ∧
      forwarded activation = [] ∧ forwarded changed = [[1]] ∧
      changed.session.status = .listening ∧ ¬Honoured changed := by
  obtain ⟨handler, hbefore, hheld⟩ : ∃ handler, Run step (fun _ _ => True) create [.start mic]
      handler ∧ (decide (handler.sessions mic.session_id = some 0) &&
        (handler.activations 0).any fun activation => decide (forwarded activation = []) &&
          (exec (guarded step fun _ _ => True) handler
            [.stop mic, .openResolves 0 none, .audioChunk mic [1] false]).any fun last =>
            (last.activations 0).any fun changed => forwarded changed = [[1]] ∧
              changed.session.status = .listening ∧ changed.opening = false ∧
              changed.session.isTerminal = false ∧ changed.session.stopping = false) = true :=
    exists_run (by decide +kernel)
  obtain ⟨hcurrent, hheld⟩ := Bool.and_eq_true_iff.mp hheld
  obtain ⟨activation, ha, hheld⟩ := (Option.any_eq_true _ _).mp hheld
  obtain ⟨hnothing, hheld⟩ := Bool.and_eq_true_iff.mp hheld
  obtain ⟨last, hafter, hheld⟩ := exists_run hheld
  obtain ⟨changed, hchanged, hheld⟩ := (Option.any_eq_true _ _).mp hheld
  obtain ⟨hforwarded, hlistening, hsettled, hopen, hstopping⟩ := of_decide_eq_true hheld
  refine ⟨handler, last, activation, changed, hbefore, of_decide_eq_true hcurrent, hafter, ha,
    hchanged, of_decide_eq_true hnothing, hforwarded, hlistening, fun hhonoured => ?_⟩
  rcases hhonoured hsettled with hterminal | ⟨hcommitted, -⟩
  · cases hopen.symm.trans hterminal
  · cases hstopping.symm.trans hcommitted

end VoiceOrder.Voice.VoiceMessageHandler
