import VoiceOrder.Voice.Retirement

/-! # Terminal states are absorbing

The status is written without a look at what it was in three places, each of them after an
await: when the connect comes through, when it fails, and when the flush of a stop is done.
While none of these comes back to a session that is already terminal, the status of a
terminal session stays, and no session is ended or failed twice. -/

namespace VoiceOrder.Voice.VoiceMessageHandler

open Runs

/-- No connect and no flush comes back to a session that is already terminal, but for the
ones that then do nothing to it. -/
def settlesInTime (handler : VoiceMessageHandler) : Action → Bool
  | .openResolves ref failsAt =>
      (handler.activations ref).all fun activation =>
        activation.session.retired || !activation.session.isTerminal ||
          failsAt.any (fun n => n < activation.session.pendingAudio.length)
  | .openRejects ref _ =>
      (handler.activations ref).all fun activation =>
        !handler.isCurrent ref activation || !activation.session.isTerminal
  | .stopResolves ref _ =>
      (handler.activations ref).all fun activation =>
        !activation.session.isTerminal ||
          (!activation.session.finalReceived && activation.session.status = .failed)
  | _ => true

/-- How often the session was reported as ended or failed. -/
def notifications (activation : Activation) : ℕ := activation.outputs.countP Output.isTerminal

/-- A grace timer armed in a terminal session has nothing to say. -/
def Graceless (activation : Activation) : Prop :=
  activation.session.isTerminal = true → activation.session.finalTimer.isSome →
    activation.session.finalReceived = true ∨ activation.session.status = .failed

/-- A session is reported at most once, and not before it is terminal. -/
structure Reported (activation : Activation) : Prop where
  graceless : Graceless activation
  once : notifications activation ≤ 1
  silent : activation.session.isTerminal = false → notifications activation = 0

section

variable {handler last : VoiceMessageHandler} {action : Action} {ref : SessionRef}
  {activation changed : Activation} {conn : ClientConnection}

@[simp] theorem notifications_send (message : OutboundMessage) :
    notifications (activation.send conn message) =
      notifications activation + if (Output.send conn message).isTerminal then 1 else 0 := by
  simp [notifications, Activation.send, List.countP_append, List.countP_cons]

@[simp] theorem notifications_emit (event : BusEvent) :
    notifications (activation.emit event) =
      notifications activation + if (Output.emit event).isTerminal then 1 else 0 := by
  simp [notifications, Activation.emit, List.countP_append, List.countP_cons]

@[simp] theorem notifications_modify (write : VoiceSession → VoiceSession) :
    notifications (activation.modify write) = notifications activation := rfl

theorem retired_or_status (h : activation.session.isTerminal = true) :
    activation.session.retired = true ∨ activation.session.status ≠ .listening := by
  by_contra hnot
  push Not at hnot
  simp [VoiceSession.isTerminal, hnot] at h

/-- What a change of a terminal session leaves as it was. -/
structure Absorbed (activation changed : Activation) : Prop where
  terminal : changed.session.isTerminal = true
  status : changed.session.status = activation.session.status
  outputs : changed.outputs = activation.outputs
  graceless : Graceless changed

theorem Change.absorbed (h : Change handler action ref activation changed)
    (hmeets : settlesInTime handler action = true)
    (ha : handler.activations ref = some activation) (hgraceless : Graceless activation)
    (hterminal : activation.session.isTerminal = true) : Absorbed activation changed := by
  cases h with
  | unchanged => exact ⟨hterminal, rfl, rfl, hgraceless⟩
  | superseded hlive => 
      exact ⟨isTerminal_of_retired rfl, rfl, rfl, fun _ h => by cases h⟩
  | disconnected hlive =>
      have hstatus : activation.session.status ≠ .listening :=
        (retired_or_status hterminal).resolve_left (by simp [hlive])
      refine ⟨isTerminal_of_retired rfl, ?_, rfl, fun _ h => by cases h⟩
      simp [Activation.modify, Activation.disconnected, VoiceSession.retire,
        VoiceSession.clearTimers, hstatus]
  | audio audio throws hlive =>
      have hsame : activation.handleAudioChunk audio throws = activation := by
        simp [Activation.handleAudioChunk, hterminal]
      rw [hsame]
      exact ⟨hterminal, rfl, rfl, hgraceless⟩
  | stop conn hlive =>
      simp only [Activation.stopSession]
      split_ifs <;> exact ⟨hterminal, rfl, rfl, hgraceless⟩
  | partialArrived text =>
      rw [Activation.onPartial, if_pos hterminal]
      exact ⟨hterminal, rfl, rfl, hgraceless⟩
  | finalArrived request_id text =>
      rw [Activation.onFinal, if_pos hterminal]
      exact ⟨hterminal, rfl, rfl, hgraceless⟩
  | errorArrived =>
      have herror : activation.onError =
          activation.modify fun session => { session with stopTimer := none } := by
        simp [Activation.onError, hterminal]
      rw [herror]
      exact ⟨hterminal, rfl, rfl, hgraceless⟩
  | opened failsAt haction hopening =>
      subst haction
      simp only [settlesInTime, ha, Option.all_some, hterminal, Bool.not_true, Bool.or_false,
        Bool.or_eq_true] at hmeets
      cases hretired : activation.session.retired with
      | true =>
          rw [opened_of_retired failsAt hretired]
          exact ⟨hterminal, rfl, rfl, hgraceless⟩
      | false =>
          obtain ⟨n, hn, hlt⟩ :=
            (Option.any_eq_true _ _).mp (hmeets.resolve_left (by simp [hretired]))
          have hthrows : failsAt.all (fun n => activation.session.pendingAudio.length ≤ n) =
              false := by
            subst hn
            simpa using hlt
          rw [opened_of_live failsAt hretired, flush_eq]
          simp only [hthrows, Bool.false_eq_true, ↓reduceIte]
          exact ⟨hterminal, rfl, rfl, hgraceless⟩
  | openFailed isCurrent busy haction hopening hlive hcurrent =>
      subst haction
      simp only [settlesInTime, ha, Option.all_some, hterminal, ← hcurrent] at hmeets
      cases isCurrent with
      | true => cases hmeets
      | false => exact ⟨isTerminal_of_retired rfl, rfl, rfl, fun _ => hgraceless hterminal⟩
  | stopResolved index conn haction hconn =>
      subst haction
      simp only [settlesInTime, ha, Option.all_some, hterminal, Bool.not_true, Bool.false_or,
        Bool.and_eq_true, Bool.not_eq_true', decide_eq_true_eq] at hmeets
      obtain ⟨hfinal, hfailed⟩ := hmeets
      simp only [Activation.stopped, hfinal]
      exact ⟨hterminal, rfl, rfl, fun _ _ => Or.inr hfailed⟩
  | stopRejected index haction => exact ⟨hterminal, rfl, rfl, hgraceless⟩
  | finalTimer conn harmed =>
      have hnothing := hgraceless hterminal (by simp [harmed])
      simp only [Activation.finalTimerFired, hnothing, ↓reduceIte]
      exact ⟨hterminal, rfl, rfl, fun _ h => by cases h⟩
  | stopTimer isCurrent conn harmed hlive =>
      simp only [Activation.stopTimerFired]
      split_ifs with hcurrent hstatus
      · exact ⟨hterminal, rfl, rfl, hgraceless⟩
      · exact ⟨hterminal, rfl, rfl, hgraceless⟩
      · have hretired := hlive (by simpa using hcurrent)
        have hlistening := (retired_or_status hterminal).resolve_left (by simp [hretired])
        exact absurd (Or.inl hlistening) hstatus

/-! ## The first report -/

theorem reported_of_live (hlive : activation.session.isTerminal = false)
    (hsilent : notifications activation = 0) : Reported activation :=
  ⟨fun h => by simp [hlive] at h, by omega, fun _ => hsilent⟩

theorem reported_of_terminal (hterminal : activation.session.isTerminal = true)
    (hgraceless : Graceless activation) (honce : notifications activation ≤ 1) :
    Reported activation :=
  ⟨hgraceless, honce, fun h => by simp [hterminal] at h⟩

theorem reported_of_disarmed (htimer : activation.session.finalTimer = none)
    (honce : notifications activation ≤ 1)
    (hsilent : activation.session.isTerminal = false → notifications activation = 0) :
    Reported activation :=
  ⟨fun _ h => by simp [htimer] at h, honce, hsilent⟩

theorem reported_of_failed (hfailed : activation.session.status = .failed)
    (honce : notifications activation ≤ 1) : Reported activation :=
  reported_of_terminal (by simp [VoiceSession.isTerminal, hfailed]) (fun _ _ => Or.inr hfailed) honce

theorem stopSession_reported (hlive : activation.session.isTerminal = false)
    (hsilent : notifications activation = 0) : Reported (activation.stopSession conn) := by
  simp only [Activation.stopSession]
  split_ifs <;> exact reported_of_live hlive hsilent

/-- The report of a session makes it terminal. -/
theorem Change.reported (h : Change handler action ref activation changed)
    (hc : Connecting activation) (hlive : activation.session.isTerminal = false)
    (hsilent : notifications activation = 0) : Reported changed := by
  have hretired : activation.session.retired = false := by
    cases hretired : activation.session.retired with
    | false => rfl
    | true => simp [isTerminal_of_retired hretired] at hlive
  have hnone : notifications activation ≤ 1 := by omega
  cases h with
  | unchanged => exact reported_of_live hlive hsilent
  | superseded _ => exact reported_of_disarmed rfl hnone fun _ => hsilent
  | disconnected _ => exact reported_of_disarmed rfl hnone fun _ => hsilent
  | audio audio throws _ =>
      simp only [Activation.handleAudioChunk]
      split_ifs <;> exact reported_of_live hlive hsilent
  | stop conn _ => exact stopSession_reported hlive hsilent
  | partialArrived text =>
      have hshown : notifications (activation.send activation.conn
          (.partialTranscript activation.session.session_id text)) = 0 := by
        rw [notifications_send, hsilent]
        rfl
      simp only [Activation.onPartial, hlive, Bool.false_eq_true, ↓reduceIte]
      split_ifs <;> exact reported_of_live hlive hshown
  | finalArrived request_id text =>
      simp only [Activation.onFinal, Activation.endAwaited, hlive, Bool.false_eq_true, ↓reduceIte]
      split_ifs with harmed
      · refine reported_of_terminal ?_ (fun _ h => by cases h) ?_
        · simp [VoiceSession.isTerminal, Activation.modify, Activation.emit,
            VoiceSession.armIdleStop]
        · simp [Output.isTerminal, hsilent]
      · refine reported_of_live hlive ?_
        simp [Output.isTerminal, hsilent]
  | errorArrived =>
      simp only [Activation.onError, hlive, Bool.false_eq_true, ↓reduceIte]
      refine reported_of_failed rfl ?_
      rw [notifications_send, notifications_modify, notifications_modify, hsilent]
      exact Nat.le_refl 1
  | opened failsAt haction hopening =>
      rw [opened_of_live failsAt hretired, flush_eq]
      exact reported_of_disarmed (hc hopening).2.2 hnone fun _ => hsilent
  | openFailed isCurrent busy haction hopening hlive hcurrent =>
      have htimer := (hc hopening).2.2
      cases isCurrent with
      | true =>
          refine reported_of_terminal (isTerminal_of_retired rfl) (fun _ h => ?_) ?_
          · simp [Activation.openFailed, Activation.modify, Activation.send, VoiceSession.retire,
              htimer] at h
          · simp only [Activation.openFailed, Bool.not_true, Bool.false_eq_true, ↓reduceIte,
              notifications_send, notifications_modify]
            exact Nat.add_le_add_right (Nat.le_of_eq hsilent) 1
      | false =>
          exact reported_of_disarmed htimer hnone fun _ => hsilent
  | stopResolved index conn haction hconn =>
      simp only [Activation.stopped]
      split_ifs with hfinal
      · refine reported_of_terminal ?_ (fun _ _ => Or.inl hfinal) ?_
        · simp [VoiceSession.isTerminal, Activation.modify, Activation.emit]
        · rw [notifications_emit, notifications_modify]
          exact Nat.add_le_add_right (Nat.le_of_eq hsilent) 1
      · exact reported_of_live hlive hsilent
  | stopRejected index haction => exact reported_of_live hlive hsilent
  | finalTimer conn harmed =>
      simp only [Activation.finalTimerFired]
      split_ifs
      · exact reported_of_disarmed rfl hnone fun _ => hsilent
      · refine reported_of_failed rfl ?_
        rw [notifications_send, notifications_modify, notifications_modify, hsilent]
        exact Nat.le_refl 1
  | stopTimer isCurrent conn harmed _ =>
      simp only [Activation.stopTimerFired]
      split_ifs
      · exact reported_of_live hlive hsilent
      · exact reported_of_live hlive hsilent
      · refine stopSession_reported hlive ?_
        rw [notifications_send, notifications_modify, hsilent]
        rfl

theorem kept_reported : Kept (fun handler action => settlesInTime handler action = true)
    fun activation => Connecting activation ∧ Reported activation := by
  refine ⟨fun conn => ⟨fun _ => ⟨rfl, rfl, rfl⟩, reported_of_live rfl rfl⟩, ?_⟩
  intro handler action ref activation changed hmeets ha h hinv
  obtain ⟨hc, hreported⟩ := hinv
  refine ⟨h.connecting hc, ?_⟩
  cases hterminal : activation.session.isTerminal with
  | false => exact h.reported hc hterminal (hreported.silent hterminal)
  | true =>
      have habsorbed := h.absorbed hmeets ha hreported.graceless hterminal
      refine ⟨habsorbed.graceless, ?_, fun hlive => by simp [habsorbed.terminal] at hlive⟩
      rw [notifications, habsorbed.outputs]
      exact hreported.once

/-- The status of a terminal session never changes again, and a session is reported as ended
or failed at most once. -/
theorem terminal_absorbing {before after : List Action}
    (hbefore : Run step (fun handler action => settlesInTime handler action = true) create before
      handler)
    (hafter : Run step (fun handler action => settlesInTime handler action = true) handler after
      last)
    (ha : handler.activations ref = some activation) :
    notifications activation ≤ 1 ∧
      (activation.session.isTerminal = true → ∃ changed, last.activations ref = some changed ∧
        changed.session.status = activation.session.status) := by
  have hreported := (kept_reported.run hbefore ha).2
  refine ⟨hreported.once, fun hterminal => ?_⟩
  obtain ⟨changed, hchanged, habsorbed⟩ := run_relates Absorbed hafter (run_wf hbefore) ha
    ⟨hterminal, rfl, rfl, hreported.graceless⟩ (by
      intro handler action middle changed hmeets hmiddle hchange hrel
      have hstep := hchange.absorbed hmeets hmiddle hrel.graceless hrel.terminal
      exact ⟨hstep.terminal, hstep.status.trans hrel.status, hstep.outputs.trans hrel.outputs,
        hstep.graceless⟩)
  exact ⟨changed, hchanged, habsorbed.status⟩

/-- The session ends with the final of its stop; a late error leaves it ended. -/
theorem terminal_absorbing_ended :
    ∃ (handler last : VoiceMessageHandler) (activation changed : Activation),
      handler.activations 0 = some activation ∧ notifications activation ≤ 1 ∧
        last.activations 0 = some changed ∧
        changed.session.status = activation.session.status := by
  obtain ⟨handler, hbefore, hheld⟩ :
      ∃ handler, Run step (fun handler action => settlesInTime handler action = true) create
        [.start mic, .openResolves 0 none, .stop mic, .finalArrives 0 "turn_1" "two burgers",
          .stopResolves 0 0] handler ∧
        ((handler.activations 0).any fun activation => activation.session.isTerminal &&
          (exec (guarded step fun handler action => settlesInTime handler action = true) handler
            [.errorArrives 0, .start mic]).isSome) = true :=
    exists_run (by decide +kernel)
  obtain ⟨activation, ha, hheld⟩ := (Option.any_eq_true _ _).mp hheld
  obtain ⟨hterminal, hrun⟩ := Bool.and_eq_true_iff.mp hheld
  obtain ⟨last, hlast⟩ := Option.isSome_iff_exists.mp hrun
  obtain ⟨honce, habsorbing⟩ := terminal_absorbing hbefore (run_iff_exec.mpr hlast) ha
  obtain ⟨changed, hchanged, hstatus⟩ := habsorbing hterminal
  exact ⟨handler, last, activation, changed, ha, honce, hchanged, hstatus⟩

/-- An error while the connect is pending fails the session; the connect then revives it. -/
theorem failed_session_revives :
    ∃ (handler last : VoiceMessageHandler) (activation changed : Activation),
      Run step (fun _ _ => True) create [.start mic, .errorArrives 0] handler ∧
      Run step (fun _ _ => True) handler [.openResolves 0 none] last ∧
      handler.activations 0 = some activation ∧ activation.session.status = .failed ∧
      last.activations 0 = some changed ∧ changed.session.status = .listening := by
  obtain ⟨handler, hbefore, hheld⟩ :
      ∃ handler, Run step (fun _ _ => True) create [.start mic, .errorArrives 0] handler ∧
        ((handler.activations 0).any fun activation => activation.session.status = .failed &&
          (exec (guarded step fun _ _ => True) handler [.openResolves 0 none]).any fun last =>
            (last.activations 0).any fun changed => changed.session.status = .listening) = true :=
    exists_run (by decide +kernel)
  obtain ⟨activation, ha, hheld⟩ := (Option.any_eq_true _ _).mp hheld
  obtain ⟨hfailed, hrun⟩ := Bool.and_eq_true_iff.mp hheld
  obtain ⟨last, hafter, hlast⟩ := exists_run hrun
  obtain ⟨changed, hchanged, hstatus⟩ := (Option.any_eq_true _ _).mp hlast
  exact ⟨handler, last, activation, changed, hbefore, hafter, ha, of_decide_eq_true hfailed,
    hchanged, of_decide_eq_true hstatus⟩

end

end VoiceOrder.Voice.VoiceMessageHandler
