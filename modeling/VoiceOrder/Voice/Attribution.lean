import VoiceOrder.Voice.SessionOwnership

/-! # Whom a session speaks to

Every connection that a session holds, in its callbacks, its continuations or its timers, is of
its own id, and so is all that it sends. -/

namespace VoiceOrder.Voice

def OutboundMessage.session_id : OutboundMessage → SessionId
  | .partialTranscript session_id _ | .finalTranscript session_id _ | .error session_id _ _
  | .stopped session_id => session_id

namespace Activation

variable {P : ClientConnection → Prop} {activation : Activation} {conn : ClientConnection}
  {change : VoiceSession → VoiceSession}

/-- The connections that a session holds. -/
def Holds (activation : Activation) (conn : ClientConnection) : Prop :=
  conn = activation.conn ∨ conn ∈ activation.stops ∨
    activation.session.finalTimer = some conn ∨ activation.session.stopTimer = some conn

/-- The connection is one of those that are known, and of the id of the session. -/
def Own (P : ClientConnection → Prop) (activation : Activation) (conn : ClientConnection) : Prop :=
  P conn ∧ conn.session_id = activation.session.session_id

structure Attributed (P : ClientConnection → Prop) (activation : Activation) : Prop where
  holds : ∀ conn, activation.Holds conn → activation.Own P conn
  sent : ∀ conn message, .send conn message ∈ activation.outputs →
    activation.Own P conn ∧ message.session_id = activation.session.session_id

namespace Attributed

theorem create (hconn : P conn) : Attributed P (.create conn) where
  holds := by
    rintro other (rfl | hstop | hfinal | hidle)
    · exact ⟨hconn, rfl⟩
    · cases hstop
    · cases hfinal
    · cases hidle
  sent := fun _ _ hmem => by cases hmem

theorem speaker (h : activation.Attributed P) : activation.Own P activation.conn :=
  h.holds _ (.inl rfl)

theorem send (h : activation.Attributed P) (message : OutboundMessage)
    (hconn : activation.Own P conn) (hmessage : message.session_id = activation.session.session_id) :
    (activation.send conn message).Attributed P where
  holds := h.holds
  sent := fun other sent hmem => by
    rcases List.mem_append.mp hmem with hmem | hmem
    · exact h.sent other sent hmem
    · cases List.mem_singleton.mp hmem
      exact ⟨hconn, hmessage⟩

theorem emit (h : activation.Attributed P) (event : BusEvent) :
    (activation.emit event).Attributed P where
  holds := h.holds
  sent := fun other sent hmem => by
    rcases List.mem_append.mp hmem with hmem | hmem
    · exact h.sent other sent hmem
    · cases List.mem_singleton.mp hmem

/-- A write of the session that keeps its id and arms timers for its own connections only. -/
theorem modify (h : activation.Attributed P)
    (hid : (change activation.session).session_id = activation.session.session_id)
    (hfinal : ∀ conn, (change activation.session).finalTimer = some conn → activation.Own P conn)
    (hstop : ∀ conn, (change activation.session).stopTimer = some conn → activation.Own P conn) :
    (activation.modify change).Attributed P := by
  have hown : ∀ conn, activation.Own P conn → (activation.modify change).Own P conn :=
    fun conn hown => ⟨hown.1, hown.2.trans hid.symm⟩
  constructor
  · rintro other (hconn | hstops | htimer | htimer)
    · exact hown _ (h.holds _ (.inl hconn))
    · exact hown _ (h.holds _ (.inr (.inl hstops)))
    · exact hown _ (hfinal _ htimer)
    · exact hown _ (hstop _ htimer)
  · intro other message hmem
    obtain ⟨hother, hmessage⟩ := h.sent other message hmem
    exact ⟨hown _ hother, hmessage.trans hid.symm⟩

theorem final (h : activation.Attributed P) :
    ∀ conn, activation.session.finalTimer = some conn → activation.Own P conn :=
  fun conn htimer => h.holds conn (.inr (.inr (.inl htimer)))

theorem idle (h : activation.Attributed P) :
    ∀ conn, activation.session.stopTimer = some conn → activation.Own P conn :=
  fun conn htimer => h.holds conn (.inr (.inr (.inr htimer)))

/-- A write of other fields of the session. -/
theorem same (h : activation.Attributed P) (change : VoiceSession → VoiceSession)
    (hid : (change activation.session).session_id = activation.session.session_id)
    (hfinal : (change activation.session).finalTimer = activation.session.finalTimer ∨
      (change activation.session).finalTimer = none)
    (hstop : (change activation.session).stopTimer = activation.session.stopTimer ∨
      (change activation.session).stopTimer = none) :
    (activation.modify change).Attributed P := by
  refine h.modify hid (fun conn htimer => ?_) (fun conn htimer => ?_)
  · rcases hfinal with hsame | hnone
    · exact h.final conn (hsame ▸ htimer)
    · rw [hnone] at htimer
      cases htimer
  · rcases hstop with hsame | hnone
    · exact h.idle conn (hsame ▸ htimer)
    · rw [hnone] at htimer
      cases htimer

/-- The idle timer is armed for the connection of the stream. -/
theorem armIdleStop (h : activation.Attributed P) (text : String) :
    (activation.modify fun session =>
      { session with lastPartialText := text }.armIdleStop activation.conn).Attributed P := by
  refine h.modify rfl h.final fun conn htimer => ?_
  unfold VoiceSession.armIdleStop at htimer
  dsimp only at htimer
  split at htimer
  · cases htimer
  · cases htimer
    exact h.speaker

/-- Settled stops are forgotten. -/
theorem forget (h : activation.Attributed P) (index : ℕ) :
    Attributed P { activation with stops := activation.stops.eraseIdx index } where
  holds := by
    rintro other (hconn | hstops | htimer)
    · exact h.holds other (.inl hconn)
    · exact h.holds other (.inr (.inl (List.mem_of_mem_eraseIdx hstops)))
    · exact h.holds other (.inr (.inr htimer))
  sent := h.sent

/-! ## Its callbacks and continuations -/

theorem onPartial (h : activation.Attributed P) (text : String) :
    (activation.onPartial text).Attributed P := by
  unfold Activation.onPartial
  split
  · exact h
  · have hshown := h.send (.partialTranscript activation.session.session_id text) h.speaker rfl
    dsimp only
    split
    · exact hshown.armIdleStop text
    · exact hshown

theorem endAwaited (h : activation.Attributed P) : activation.endAwaited.Attributed P := by
  unfold Activation.endAwaited
  split
  · exact (h.same _ rfl (.inr rfl) (.inl rfl)).emit _
  · exact h

theorem onFinal (h : activation.Attributed P) (request_id : RequestId) (text : String) :
    (activation.onFinal request_id text).Attributed P := by
  unfold Activation.onFinal
  split
  · exact h
  · have hreceived := h.same (fun session => { session with finalReceived := true }) rfl
      (.inl rfl) (.inl rfl)
    have hemitted := ((hreceived.send (.finalTranscript activation.session.session_id text)
      hreceived.speaker rfl).emit (.finalTranscriptReceived request_id activation.session.session_id
        activation.session.cart_id activation.session.pos_config_id text)).endAwaited
    have hconn : ∀ {waiting : Activation}, waiting.endAwaited.conn = waiting.conn := by
      intro waiting
      unfold Activation.endAwaited
      split <;> rfl
    have harmed := hemitted.armIdleStop ""
    rw [hconn] at harmed
    exact harmed

theorem onError (h : activation.Attributed P) : activation.onError.Attributed P := by
  have hdisarmed := h.same (fun session => { session with stopTimer := none }) rfl
    (.inl rfl) (.inr rfl)
  unfold Activation.onError
  dsimp only
  split
  · exact hdisarmed
  · refine (hdisarmed.same (fun session => { session with status := .failed }) rfl
      (.inl rfl) (.inl rfl)).send _ ?_ rfl
    exact h.speaker

theorem retire (h : activation.Attributed P) :
    (activation.modify VoiceSession.retire).Attributed P := h.same _ rfl (.inl rfl) (.inl rfl)

theorem settled (h : activation.Attributed P) :
    Attributed P { activation with opening := false } := ⟨h.holds, h.sent⟩

theorem openFailed (h : activation.Attributed P) (isCurrent busy : Bool) :
    (activation.openFailed isCurrent busy).Attributed P := by
  unfold Activation.openFailed
  dsimp only
  split
  · exact h.settled.retire
  · exact h.settled.retire.send _ h.speaker rfl

theorem opened (h : activation.Attributed P) (failsAt : Option ℕ) :
    (activation.opened failsAt).Attributed P := by
  cases hretired : activation.session.retired with
  | true =>
      rw [VoiceMessageHandler.opened_of_retired failsAt hretired]
      exact ⟨h.holds, h.sent⟩
  | false =>
      rw [VoiceMessageHandler.opened_of_live failsAt hretired]
      exact h.settled.same (fun session =>
          Activation.flush failsAt { session with stream := some SttStream.opened })
        (by rw [VoiceMessageHandler.flush_eq]) (.inl (by rw [VoiceMessageHandler.flush_eq]))
        (.inl (by rw [VoiceMessageHandler.flush_eq]))

theorem handleAudioChunk (h : activation.Attributed P) (audio : Buffer) (throws : Bool) :
    (activation.handleAudioChunk audio throws).Attributed P := by
  unfold Activation.handleAudioChunk
  split_ifs
  · exact h
  · exact h
  · exact h.same _ rfl (.inl rfl) (.inl rfl)
  · exact h
  · exact h
  · exact h.same _ rfl (.inl rfl) (.inl rfl)

/-- A stop is taken from any socket of the session. -/
theorem stopSession (h : activation.Attributed P) (hconn : activation.Own P conn) :
    (activation.stopSession conn).Attributed P := by
  have hstops : Attributed P { activation with stops := activation.stops ++ [conn] } := by
    refine ⟨?_, h.sent⟩
    rintro other (hother | hstops | htimer)
    · exact h.holds other (.inl hother)
    · rcases List.mem_append.mp hstops with hmem | hmem
      · exact h.holds other (.inr (.inl hmem))
      · exact List.mem_singleton.mp hmem ▸ hconn
    · exact h.holds other (.inr (.inr htimer))
  unfold Activation.stopSession
  split_ifs
  · exact h
  · exact h
  · exact hstops.same _ rfl (.inl rfl) (.inr rfl)

theorem stopped (h : activation.Attributed P) (hconn : activation.Own P conn) :
    (activation.stopped conn).Attributed P := by
  unfold Activation.stopped
  split
  · exact (h.same _ rfl (.inl rfl) (.inl rfl)).emit _
  · refine h.modify rfl (fun other htimer => ?_) h.idle
    cases htimer
    exact hconn

theorem finalTimerFired (h : activation.Attributed P) (hconn : activation.Own P conn) :
    (activation.finalTimerFired conn).Attributed P := by
  have hdisarmed := h.same (fun session => { session with finalTimer := none }) rfl
    (.inr rfl) (.inl rfl)
  unfold Activation.finalTimerFired
  dsimp only
  split
  · exact hdisarmed
  · exact (hdisarmed.same (fun session => { session with status := .failed }) rfl
      (.inl rfl) (.inl rfl)).send _ hconn rfl

theorem stopTimerFired (h : activation.Attributed P) (hconn : activation.Own P conn)
    (isCurrent : Bool) : (activation.stopTimerFired isCurrent conn).Attributed P := by
  have hdisarmed := h.same (fun session => { session with stopTimer := none }) rfl
    (.inl rfl) (.inr rfl)
  unfold Activation.stopTimerFired
  dsimp only
  split
  · exact hdisarmed
  · split
    · exact hdisarmed
    · exact (hdisarmed.send (.stopped activation.session.session_id) hconn rfl).stopSession
        hconn

theorem clearTimers (h : activation.Attributed P) :
    (activation.modify VoiceSession.clearTimers).Attributed P := h.same _ rfl (.inr rfl) (.inr rfl)

theorem disconnected (h : activation.Attributed P) : activation.disconnected.Attributed P :=
  h.same _ rfl (.inr rfl) (.inr rfl)

end Attributed

end Activation

/-! ## The handler -/

namespace VoiceMessageHandler

variable {P : ClientConnection → Prop} {handler after : VoiceMessageHandler} {action : Action}
  {ref : SessionRef} {change : Activation → Activation} {session_id : SessionId}

/-- The connections known to the handler are those of the sessions that hold them. -/
def Attributed (P : ClientConnection → Prop) (handler : VoiceMessageHandler) : Prop :=
  ∀ ref activation, handler.activations ref = some activation → activation.Attributed P

namespace Attributed

theorem update (h : handler.Attributed P)
    (hchange : ∀ activation, handler.activations ref = some activation →
      activation.Attributed P → (change activation).Attributed P) :
    (handler.update ref change).Attributed P := by
  intro found changed hfound
  obtain ⟨activation, ha, rfl⟩ := update_activations_some hfound
  split
  · rename_i heq
    exact hchange activation (heq ▸ ha) (h found activation ha)
  · exact h found activation ha

theorem remove (h : handler.Attributed P) (session_id : SessionId) :
    (handler.remove session_id).Attributed P := by
  unfold VoiceMessageHandler.remove
  split
  · exact h
  · have hsame : ∀ sessions, Attributed P { handler with sessions := sessions } := fun _ => h
    exact (hsame _).update fun _ _ hown => hown.retire

theorem vacate (h : handler.Attributed P) (session_id : SessionId) :
    (handler.vacate session_id).Attributed P := by
  unfold VoiceMessageHandler.vacate
  split
  · exact h
  · exact (h.update fun _ _ hown => hown.clearTimers).remove session_id

/-- The session found under an id is of that id. -/
theorem onCurrent (h : handler.Attributed P) (hwf : handler.Wf)
    (hchange : ∀ activation, activation.session.session_id = session_id →
      activation.Attributed P → (change activation).Attributed P) :
    (handler.onCurrent session_id change).Attributed P := by
  unfold VoiceMessageHandler.onCurrent
  split
  · exact h
  · rename_i found hfound
    refine h.update fun activation ha hown => hchange activation ?_ hown
    obtain ⟨current, hcurrent, hid, -⟩ := hwf.registered _ _ hfound
    cases ha.symm.trans hcurrent
    exact hid

end Attributed

/-- The connection that comes in with an action. -/
def Action.conn? : Action → Option ClientConnection
  | .start conn | .audioChunk conn _ _ | .stop conn => some conn
  | _ => none

theorem Attributed.step (h : handler.Attributed P) (hwf : handler.Wf)
    (hconn : ∀ conn, action.conn? = some conn → P conn) (hstep : handler.step action = some after) :
    after.Attributed P := by
  cases action with
  | start conn =>
      cases hstep
      intro ref activation ha
      by_cases hnew : ref = handler.nextRef
      · subst hnew
        have hcreated : Activation.create conn = activation := by
          simpa [handleStart] using ha
        exact hcreated ▸ .create (hconn conn rfl)
      · refine h.vacate conn.session_id ref activation ?_
        simpa [handleStart, hnew] using ha
  | audioChunk conn audio throws =>
      cases hstep
      exact h.onCurrent hwf fun _ _ hown => hown.handleAudioChunk audio throws
  | stop conn =>
      cases hstep
      exact h.onCurrent hwf fun activation hid hown => hown.stopSession ⟨hconn conn rfl, hid.symm⟩
  | disconnect session_id =>
      cases hstep
      unfold handleDisconnect
      split
      · exact h
      · exact (h.update fun _ _ hown => hown.disconnected).remove session_id
  | partialArrives ref text =>
      obtain ⟨_, -, rfl⟩ := Option.map_eq_some_iff.mp hstep
      exact h.update fun _ _ hown => hown.onPartial text
  | finalArrives ref request_id text =>
      obtain ⟨_, -, rfl⟩ := Option.map_eq_some_iff.mp hstep
      exact h.update fun _ _ hown => hown.onFinal request_id text
  | errorArrives ref =>
      obtain ⟨_, -, rfl⟩ := Option.map_eq_some_iff.mp hstep
      exact h.update fun _ _ hown => hown.onError
  | openResolves ref failsAt =>
      obtain ⟨opening, -, hstep⟩ := Option.bind_eq_some_iff.mp hstep
      split at hstep
      · cases hstep
        exact h.update fun _ _ hown => hown.opened failsAt
      · cases hstep
  | openRejects ref busy =>
      obtain ⟨opening, -, hstep⟩ := Option.bind_eq_some_iff.mp hstep
      split at hstep
      · cases hstep
        have hsame : ∀ sessions, Attributed P { handler with sessions := sessions } := fun _ => h
        exact (hsame _).update fun _ _ hown => hown.openFailed _ busy
      · cases hstep
  | stopResolves ref index =>
      obtain ⟨stopping, hstopping, hstep⟩ := Option.bind_eq_some_iff.mp hstep
      obtain ⟨conn, hfound, rfl⟩ := Option.map_eq_some_iff.mp hstep
      refine h.update fun activation ha hown => (hown.forget index).stopped ?_
      cases ha.symm.trans hstopping
      exact hown.holds conn (.inr (.inl (List.mem_of_getElem? hfound)))
  | stopRejects ref index =>
      obtain ⟨_, -, rfl⟩ := Option.map_eq_some_iff.mp hstep
      exact h.update fun _ _ hown => hown.forget index
  | finalTimerFires ref =>
      obtain ⟨armed, harmed, hstep⟩ := Option.bind_eq_some_iff.mp hstep
      obtain ⟨conn, htimer, rfl⟩ := Option.map_eq_some_iff.mp hstep
      refine h.update fun activation ha hown => hown.finalTimerFired ?_
      cases ha.symm.trans harmed
      exact hown.final conn htimer
  | stopTimerFires ref =>
      obtain ⟨armed, harmed, hstep⟩ := Option.bind_eq_some_iff.mp hstep
      obtain ⟨conn, htimer, rfl⟩ := Option.map_eq_some_iff.mp hstep
      refine h.update fun activation ha hown => hown.stopTimerFired ?_ _
      cases ha.symm.trans harmed
      exact hown.idle conn htimer

theorem Attributed.mono {Q : ClientConnection → Prop} (h : handler.Attributed P)
    (himp : ∀ conn, P conn → Q conn) : handler.Attributed Q := by
  intro ref activation ha
  obtain ⟨hholds, hsent⟩ := h ref activation ha
  refine ⟨fun conn hconn => ?_, fun conn message hmem => ?_⟩
  · obtain ⟨hknown, hid⟩ := hholds conn hconn
    exact ⟨himp conn hknown, hid⟩
  · obtain ⟨⟨hknown, hid⟩, hmessage⟩ := hsent conn message hmem
    exact ⟨⟨himp conn hknown, hid⟩, hmessage⟩

end VoiceMessageHandler

end VoiceOrder.Voice
