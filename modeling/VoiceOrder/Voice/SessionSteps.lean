import VoiceOrder.Voice.MessageHandler

/-! # What a step does to one session

Whatever happens to the handler, a session stays as it is or goes through one of its own
callbacks or continuations. The registry names sessions that are not retired. -/

namespace VoiceOrder.Voice.VoiceMessageHandler

open Runs

/-! ## The registry -/

structure Wf (handler : VoiceMessageHandler) : Prop where
  fresh : ∀ ref, handler.nextRef ≤ ref → handler.activations ref = none
  registered : ∀ session_id ref, handler.sessions session_id = some ref →
    ∃ activation, handler.activations ref = some activation ∧
      activation.session.session_id = session_id ∧ activation.session.retired = false

/-- What an action does to the session `ref`. -/
inductive Change (handler : VoiceMessageHandler) (action : Action) (ref : SessionRef)
    (activation : Activation) :
    Activation → Prop where
  | unchanged : Change handler action ref activation activation
  | superseded : activation.session.retired = false →
      Change handler action ref activation
        ((activation.modify VoiceSession.clearTimers).modify VoiceSession.retire)
  | disconnected : activation.session.retired = false →
      Change handler action ref activation (activation.disconnected.modify VoiceSession.retire)
  | audio (audio throws) : activation.session.retired = false →
      Change handler action ref activation (activation.handleAudioChunk audio throws)
  | stop (conn) : activation.session.retired = false →
      Change handler action ref activation (activation.stopSession conn)
  | partialArrived (text) : Change handler action ref activation (activation.onPartial text)
  | finalArrived (request_id text) :
      Change handler action ref activation (activation.onFinal request_id text)
  | errorArrived : Change handler action ref activation activation.onError
  | opened (failsAt) : action = .openResolves ref failsAt → activation.opening = true →
      Change handler action ref activation (activation.opened failsAt)
  | openFailed (isCurrent busy) : action = .openRejects ref busy → activation.opening = true →
      (isCurrent = true → activation.session.retired = false) →
      isCurrent = handler.isCurrent ref activation →
      Change handler action ref activation (activation.openFailed isCurrent busy)
  | stopResolved (index conn) : action = .stopResolves ref index →
      activation.stops[index]? = some conn →
      Change handler action ref activation
        ({ activation with stops := activation.stops.eraseIdx index }.stopped conn)
  | stopRejected (index) : action = .stopRejects ref index →
      Change handler action ref activation { activation with stops := activation.stops.eraseIdx index }
  | finalTimer (conn) : activation.session.finalTimer = some conn →
      Change handler action ref activation (activation.finalTimerFired conn)
  | stopTimer (isCurrent conn) : activation.session.stopTimer = some conn →
      (isCurrent = true → activation.session.retired = false) →
      Change handler action ref activation (activation.stopTimerFired isCurrent conn)

section

variable {handler after : VoiceMessageHandler} {action : Action} {ref other : SessionRef}
  {activation : Activation} {change : Activation → Activation} {session_id : SessionId}
  {conn : ClientConnection}

@[simp] theorem update_sessions : (handler.update ref change).sessions = handler.sessions := rfl

@[simp] theorem update_nextRef : (handler.update ref change).nextRef = handler.nextRef := rfl

theorem update_activations (other : SessionRef) (change : Activation → Activation)
    (ha : handler.activations ref = some activation) :
    (handler.update other change).activations ref =
      some (if other = ref then change activation else activation) := by
  by_cases h : other = ref
  · subst h
    simp [update, ha]
  · simp [update, ha, h, Ne.symm h]

theorem update_activations_eq_none (h : handler.activations other = none) :
    (handler.update ref change).activations other = none := by
  by_cases heq : other = ref
  · subst heq
    simp [update, h]
  · simp [update, heq, h]

@[simp] theorem remove_sessions :
    (handler.remove session_id).sessions = Function.update handler.sessions session_id none := by
  unfold remove
  cases h : handler.sessions session_id with
  | none => exact (Function.update_eq_self_iff.mpr h.symm).symm
  | some found => rfl

@[simp] theorem remove_nextRef : (handler.remove session_id).nextRef = handler.nextRef := by
  unfold remove
  split <;> rfl

theorem remove_activations (session_id : SessionId)
    (ha : handler.activations ref = some activation) :
    (handler.remove session_id).activations ref =
      some (if handler.sessions session_id = some ref then activation.modify VoiceSession.retire
        else activation) := by
  unfold remove
  cases h : handler.sessions session_id with
  | none => simpa using ha
  | some found =>
      have hfound : { handler with
          sessions := Function.update handler.sessions session_id none }.activations ref =
          some activation := ha
      simpa using update_activations found (Activation.modify VoiceSession.retire) hfound

@[simp] theorem vacate_sessions :
    (handler.vacate session_id).sessions = Function.update handler.sessions session_id none := by
  unfold vacate
  cases h : handler.sessions session_id with
  | none => exact (Function.update_eq_self_iff.mpr h.symm).symm
  | some existing => simp

@[simp] theorem vacate_nextRef : (handler.vacate session_id).nextRef = handler.nextRef := by
  unfold vacate
  split <;> simp

theorem vacate_activations (ha : handler.activations ref = some activation) :
    (handler.vacate session_id).activations ref =
      some (if handler.sessions session_id = some ref then
          (activation.modify VoiceSession.clearTimers).modify VoiceSession.retire
        else activation) := by
  unfold vacate
  cases h : handler.sessions session_id with
  | none => simpa using ha
  | some existing =>
      have hremoved := remove_activations session_id
        (update_activations existing (Activation.modify VoiceSession.clearTimers) ha)
      rw [hremoved, update_sessions, h]
      by_cases heq : existing = ref <;> simp [heq]

theorem Wf.isCurrent_retired (h : handler.Wf) (ha : handler.activations ref = some activation)
    (hcurrent : handler.sessions session_id = some ref) : activation.session.retired = false := by
  obtain ⟨found, hfound, -, hretired⟩ := h.registered session_id ref hcurrent
  rw [ha] at hfound
  cases hfound
  exact hretired

/-! ## What each session goes through -/

/-- A start retires the session registered under its id, and no other. -/
theorem handleStart_activations (h : handler.Wf)
    (ha : handler.activations ref = some activation) :
    (handler.handleStart conn).activations ref =
      some (if handler.sessions conn.session_id = some ref then
          (activation.modify VoiceSession.clearTimers).modify VoiceSession.retire
        else activation) := by
  have hne : ref ≠ handler.nextRef := by
    rintro rfl
    rw [h.fresh _ (Nat.le_refl _)] at ha
    cases ha
  rw [← vacate_activations ha]
  simp [handleStart, hne]

/-- A disconnect retires the session registered under its id, and no other. -/
theorem handleDisconnect_activations (ha : handler.activations ref = some activation) :
    (handler.handleDisconnect session_id).activations ref =
      some (if handler.sessions session_id = some ref then
          activation.disconnected.modify VoiceSession.retire
        else activation) := by
  unfold handleDisconnect
  cases hsession : handler.sessions session_id with
  | none => simpa using ha
  | some found =>
      have hremoved := remove_activations session_id
        (update_activations found Activation.disconnected ha)
      rw [hremoved, update_sessions, hsession]
      by_cases heq : found = ref <;> simp [heq]

/-- An update is a change of the session it is about, and of no other. -/
theorem update_change {origin : VoiceMessageHandler}
    (ha : handler.activations ref = some activation)
    (hchange : other = ref → Change origin action ref activation (change activation)) :
    ∃ changed, (handler.update other change).activations ref = some changed ∧
      Change origin action ref activation changed := by
  refine ⟨_, update_activations _ _ ha, ?_⟩
  split
  · rename_i heq
    exact hchange heq
  · exact .unchanged

theorem onCurrent_change (h : handler.Wf) (ha : handler.activations ref = some activation)
    (hchange : activation.session.retired = false →
      Change handler action ref activation (change activation)) :
    ∃ changed, (handler.onCurrent session_id change).activations ref = some changed ∧
      Change handler action ref activation changed := by
  unfold onCurrent
  cases hsession : handler.sessions session_id with
  | none => exact ⟨activation, ha, .unchanged⟩
  | some found =>
      refine update_change ha fun heq => hchange ?_
      subst heq
      exact h.isCurrent_retired ha hsession

/-- A step leaves a session as it is or runs one of its callbacks or continuations. -/
theorem step_change (h : handler.Wf) (hstep : handler.step action = some after)
    (ha : handler.activations ref = some activation) :
    ∃ changed, after.activations ref = some changed ∧ Change handler action ref activation changed := by
  cases action with
  | start conn =>
      cases hstep
      refine ⟨_, handleStart_activations h ha, ?_⟩
      split_ifs with hcurrent
      · exact .superseded (h.isCurrent_retired ha hcurrent)
      · exact .unchanged
  | audioChunk conn audio throws =>
      cases hstep
      exact onCurrent_change h ha (.audio audio throws)
  | stop conn =>
      cases hstep
      exact onCurrent_change h ha (.stop conn)
  | disconnect session_id =>
      cases hstep
      refine ⟨_, handleDisconnect_activations ha, ?_⟩
      split_ifs with hcurrent
      · exact .disconnected (h.isCurrent_retired ha hcurrent)
      · exact .unchanged
  | partialArrives found text =>
      obtain ⟨_, -, rfl⟩ := Option.map_eq_some_iff.mp hstep
      exact update_change ha fun _ => .partialArrived text
  | finalArrives found request_id text =>
      obtain ⟨_, -, rfl⟩ := Option.map_eq_some_iff.mp hstep
      exact update_change ha fun _ => .finalArrived request_id text
  | errorArrives found =>
      obtain ⟨_, -, rfl⟩ := Option.map_eq_some_iff.mp hstep
      exact update_change ha fun _ => .errorArrived
  | openResolves found failsAt =>
      obtain ⟨opening, hopening, hstep⟩ := Option.bind_eq_some_iff.mp hstep
      split at hstep
      · rename_i hpending
        cases hstep
        refine update_change ha fun heq => ?_
        subst heq
        cases ha.symm.trans hopening
        exact .opened failsAt rfl hpending
      · cases hstep
  | openRejects found busy =>
      obtain ⟨opening, hopening, hstep⟩ := Option.bind_eq_some_iff.mp hstep
      split at hstep
      · rename_i hpending
        cases hstep
        have hevicted : ∀ sessions, { handler with sessions := sessions }.activations ref =
            some activation := fun _ => ha
        refine update_change (hevicted _) fun heq => ?_
        subst heq
        cases ha.symm.trans hopening
        exact .openFailed _ busy rfl hpending
          (fun hcurrent => h.isCurrent_retired ha (of_decide_eq_true hcurrent)) rfl
      · cases hstep
  | stopResolves found index =>
      obtain ⟨stopping, hstopping, hstep⟩ := Option.bind_eq_some_iff.mp hstep
      obtain ⟨conn, hconn, rfl⟩ := Option.map_eq_some_iff.mp hstep
      refine update_change ha fun heq => ?_
      subst heq
      cases ha.symm.trans hstopping
      exact .stopResolved index conn rfl hconn
  | stopRejects found index =>
      obtain ⟨_, -, rfl⟩ := Option.map_eq_some_iff.mp hstep
      exact update_change ha fun heq => .stopRejected index (heq ▸ rfl)
  | finalTimerFires found =>
      obtain ⟨armed, harmed, hstep⟩ := Option.bind_eq_some_iff.mp hstep
      obtain ⟨conn, hconn, rfl⟩ := Option.map_eq_some_iff.mp hstep
      refine update_change ha fun heq => ?_
      subst heq
      cases ha.symm.trans harmed
      exact .finalTimer conn hconn
  | stopTimerFires found =>
      obtain ⟨armed, harmed, hstep⟩ := Option.bind_eq_some_iff.mp hstep
      obtain ⟨conn, hconn, rfl⟩ := Option.map_eq_some_iff.mp hstep
      refine update_change ha fun heq => ?_
      subst heq
      cases ha.symm.trans harmed
      exact .stopTimer _ conn hconn fun hcurrent =>
        h.isCurrent_retired ha (of_decide_eq_true hcurrent)

/-! ## The registry stays well formed -/

/-- The change leaves the id of the session and whether it is retired. -/
def Keeps (change : Activation → Activation) : Prop :=
  ∀ activation, (change activation).session.session_id = activation.session.session_id ∧
    (change activation).session.retired = activation.session.retired

theorem keeps_clearTimers : Keeps (Activation.modify VoiceSession.clearTimers) :=
  fun _ => ⟨rfl, rfl⟩

theorem keeps_disconnected : Keeps Activation.disconnected := fun _ => ⟨rfl, rfl⟩

theorem keeps_onPartial (text) : Keeps (Activation.onPartial text) := by
  intro activation
  unfold Activation.onPartial
  split
  · exact ⟨rfl, rfl⟩
  · dsimp only
    split <;> exact ⟨rfl, rfl⟩

theorem keeps_onFinal (request_id text) : Keeps (Activation.onFinal request_id text) := by
  intro activation
  simp only [Activation.onFinal, Activation.endAwaited]
  split
  · exact ⟨rfl, rfl⟩
  · split <;> exact ⟨rfl, rfl⟩

theorem keeps_onError : Keeps Activation.onError := by
  intro activation
  simp only [Activation.onError]
  split <;> exact ⟨rfl, rfl⟩

theorem foldl_sendAudio (chunks : List Buffer) (session : VoiceSession) :
    chunks.foldl (fun session chunk => session.sendAudio chunk) session =
      { session with
        stream := session.stream.map fun stream => { stream with sent := stream.sent ++ chunks } } := by
  induction chunks generalizing session with
  | nil => simp
  | cons chunk chunks ih =>
      rw [List.foldl_cons, ih]
      simp [VoiceSession.sendAudio, SttStream.sendAudio, Function.comp_def]

/-- A flush that goes through makes the session live; one that throws leaves it idle. -/
theorem flush_eq (failsAt : Option ℕ) (session : VoiceSession) :
    Activation.flush failsAt session =
      { session with
        stream := session.stream.map fun stream =>
          { stream with
            sent := stream.sent ++
              session.pendingAudio.take (failsAt.getD session.pendingAudio.length) }
        pendingAudio :=
          if failsAt.all (fun n => session.pendingAudio.length ≤ n) then []
          else session.pendingAudio
        status :=
          if failsAt.all (fun n => session.pendingAudio.length ≤ n) then .listening
          else session.status } := by
  simp only [Activation.flush, foldl_sendAudio]
  split_ifs <;> rfl

theorem opened_of_retired (failsAt : Option ℕ) (h : activation.session.retired = true) :
    activation.opened failsAt =
      { activation with opening := false, discarded := some SttStream.opened.close } := by
  simp [Activation.opened, VoiceSession.attachStream, h]

theorem opened_of_live (failsAt : Option ℕ) (h : activation.session.retired = false) :
    activation.opened failsAt =
      { activation with
        opening := false
        session := Activation.flush failsAt
          { activation.session with stream := some SttStream.opened } } := by
  simp [Activation.opened, VoiceSession.attachStream, h]

theorem keeps_opened (failsAt) : Keeps (Activation.opened failsAt) := by
  intro activation
  cases h : activation.session.retired with
  | true => exact opened_of_retired failsAt h ▸ ⟨rfl, h⟩
  | false =>
      rw [opened_of_live failsAt h, flush_eq]
      exact ⟨rfl, h⟩

theorem keeps_handleAudioChunk (audio throws) :
    Keeps (Activation.handleAudioChunk audio throws) := by
  intro activation
  simp only [Activation.handleAudioChunk]
  repeat' split
  all_goals exact ⟨rfl, rfl⟩

theorem keeps_stopSession (conn) : Keeps (Activation.stopSession conn) := by
  intro activation
  simp only [Activation.stopSession]
  repeat' split
  all_goals exact ⟨rfl, rfl⟩

theorem keeps_stopped (index conn) :
    Keeps fun activation =>
      { activation with stops := activation.stops.eraseIdx index }.stopped conn := by
  intro activation
  simp only [Activation.stopped]
  split <;> exact ⟨rfl, rfl⟩

theorem keeps_finalTimerFired (conn) : Keeps (Activation.finalTimerFired conn) := by
  intro activation
  simp only [Activation.finalTimerFired]
  split <;> exact ⟨rfl, rfl⟩

theorem keeps_stopTimerFired (isCurrent conn) :
    Keeps (Activation.stopTimerFired isCurrent conn) := by
  intro activation
  simp only [Activation.stopTimerFired]
  split
  · exact ⟨rfl, rfl⟩
  · split
    · exact ⟨rfl, rfl⟩
    · exact keeps_stopSession conn _

/-- What a step can do to the handler. It starts or ends a session, gives up one whose stream
could not be opened, or changes one under its id. -/
inductive Effect (handler : VoiceMessageHandler) : VoiceMessageHandler → Prop where
  | started (conn : ClientConnection) : Effect handler (handler.handleStart conn)
  | ended (session_id : SessionId) : Effect handler (handler.handleDisconnect session_id)
  | current (session_id : SessionId) {change : Activation → Activation} (hkeeps : Keeps change) :
      Effect handler (handler.onCurrent session_id change)
  | changed (ref : SessionRef) {change : Activation → Activation} (hkeeps : Keeps change) :
      Effect handler (handler.update ref change)
  | rejected {ref : SessionRef} {activation : Activation} (busy : Bool)
      (ha : handler.activations ref = some activation) :
      Effect handler (handler.openRejected ref busy activation)

theorem step_effect (hstep : handler.step action = some after) : Effect handler after := by
  cases action with
  | start conn =>
      cases hstep
      exact .started conn
  | audioChunk conn audio throws =>
      cases hstep
      exact .current _ (keeps_handleAudioChunk audio throws)
  | stop conn =>
      cases hstep
      exact .current _ (keeps_stopSession conn)
  | disconnect session_id =>
      cases hstep
      exact .ended session_id
  | partialArrives ref text =>
      obtain ⟨_, -, rfl⟩ := Option.map_eq_some_iff.mp hstep
      exact .changed ref (keeps_onPartial text)
  | finalArrives ref request_id text =>
      obtain ⟨_, -, rfl⟩ := Option.map_eq_some_iff.mp hstep
      exact .changed ref (keeps_onFinal request_id text)
  | errorArrives ref =>
      obtain ⟨_, -, rfl⟩ := Option.map_eq_some_iff.mp hstep
      exact .changed ref keeps_onError
  | openResolves ref failsAt =>
      obtain ⟨opening, -, hstep⟩ := Option.bind_eq_some_iff.mp hstep
      split at hstep
      · cases hstep
        exact .changed ref (keeps_opened failsAt)
      · cases hstep
  | openRejects ref busy =>
      obtain ⟨opening, ha, hstep⟩ := Option.bind_eq_some_iff.mp hstep
      split at hstep
      · cases hstep
        exact .rejected busy ha
      · cases hstep
  | stopResolves ref index =>
      obtain ⟨stopping, -, hstep⟩ := Option.bind_eq_some_iff.mp hstep
      obtain ⟨conn, -, rfl⟩ := Option.map_eq_some_iff.mp hstep
      exact .changed ref (keeps_stopped index conn)
  | stopRejects ref index =>
      obtain ⟨_, -, rfl⟩ := Option.map_eq_some_iff.mp hstep
      have hkeeps : Keeps fun activation =>
          { activation with stops := activation.stops.eraseIdx index } := fun _ => ⟨rfl, rfl⟩
      exact .changed ref hkeeps
  | finalTimerFires ref =>
      obtain ⟨armed, -, hstep⟩ := Option.bind_eq_some_iff.mp hstep
      obtain ⟨conn, -, rfl⟩ := Option.map_eq_some_iff.mp hstep
      exact .changed ref (keeps_finalTimerFired conn)
  | stopTimerFires ref =>
      obtain ⟨armed, -, hstep⟩ := Option.bind_eq_some_iff.mp hstep
      obtain ⟨conn, -, rfl⟩ := Option.map_eq_some_iff.mp hstep
      exact .changed ref (keeps_stopTimerFired _ conn)

theorem Wf.update (h : handler.Wf) (hkeeps : Keeps change) : (handler.update ref change).Wf := by
  refine ⟨fun later hle => update_activations_eq_none (h.fresh later hle), ?_⟩
  intro session_id found hfound
  obtain ⟨activation, ha, hid, hretired⟩ := h.registered session_id found hfound
  refine ⟨_, update_activations _ _ ha, ?_⟩
  split
  · exact ⟨(hkeeps activation).1.trans hid, (hkeeps activation).2.trans hretired⟩
  · exact ⟨hid, hretired⟩

/-- A session that is no longer registered may change in any way. -/
theorem Wf.evict {sessions : SessionId → Option SessionRef} (h : handler.Wf)
    (hsessions : ∀ session_id found, sessions session_id = some found →
      handler.sessions session_id = some found ∧ found ≠ ref) :
    ({ handler with sessions := sessions }.update ref change).Wf := by
  refine ⟨fun later hle => update_activations_eq_none (h.fresh later hle), ?_⟩
  intro session_id found hfound
  obtain ⟨hregistered, hne⟩ := hsessions session_id found hfound
  obtain ⟨activation, ha, hid, hretired⟩ := h.registered session_id found hregistered
  refine ⟨activation, ?_, hid, hretired⟩
  simpa [VoiceMessageHandler.update, hne] using ha

/-- Once its id is freed a registered session is registered nowhere. -/
theorem Wf.freed (h : handler.Wf) (hcurrent : handler.sessions session_id = some ref)
    {found_id : SessionId} {found : SessionRef}
    (hfound : Function.update handler.sessions session_id none found_id = some found) :
    handler.sessions found_id = some found ∧ found ≠ ref := by
  have hne : found_id ≠ session_id := by
    rintro rfl
    simp at hfound
  rw [Function.update_of_ne hne] at hfound
  refine ⟨hfound, ?_⟩
  rintro rfl
  obtain ⟨activation, ha, hid, -⟩ := h.registered found_id found hfound
  obtain ⟨same, hsame, hid', -⟩ := h.registered session_id found hcurrent
  cases ha.symm.trans hsame
  exact hne (hid.symm.trans hid')

theorem Wf.remove (h : handler.Wf) : (handler.remove session_id).Wf := by
  unfold VoiceMessageHandler.remove
  cases hsession : handler.sessions session_id with
  | none => exact h
  | some ref => exact h.evict fun _ _ => h.freed hsession

theorem Wf.onCurrent (h : handler.Wf) (hkeeps : Keeps change) :
    (handler.onCurrent session_id change).Wf := by
  unfold VoiceMessageHandler.onCurrent
  split
  · exact h
  · exact h.update hkeeps

theorem Wf.handleStart (h : handler.Wf) : (handler.handleStart conn).Wf := by
  have hvacated : (handler.vacate conn.session_id).Wf := by
    unfold vacate
    split
    · exact h
    · exact (h.update keeps_clearTimers).remove
  unfold VoiceMessageHandler.handleStart
  generalize handler.vacate conn.session_id = vacated at hvacated ⊢
  refine ⟨fun later hle => ?_, fun session_id found hfound => ?_⟩
  · have hlt : vacated.nextRef < later := hle
    exact (Function.update_of_ne (Nat.ne_of_gt hlt) _ _).trans
      (hvacated.fresh later (Nat.le_of_lt hlt))
  · by_cases hid : session_id = conn.session_id
    · subst hid
      have : vacated.nextRef = found := by simpa using hfound
      subst this
      exact ⟨.create conn, by simp, rfl, rfl⟩
    · have hfound : vacated.sessions session_id = some found := by
        simpa [hid] using hfound
      obtain ⟨activation, ha, hkept⟩ := hvacated.registered session_id found hfound
      refine ⟨activation, ?_, hkept⟩
      have hne : found ≠ vacated.nextRef := by
        rintro rfl
        rw [hvacated.fresh _ (Nat.le_refl _)] at ha
        cases ha
      simpa [hne] using ha

theorem Wf.openRejected (h : handler.Wf) (ha : handler.activations ref = some activation)
    (busy : Bool) : (handler.openRejected ref busy activation).Wf := by
  refine h.evict fun session_id found hfound => ?_
  split at hfound
  · rename_i hcurrent
    exact h.freed (of_decide_eq_true hcurrent) hfound
  · rename_i hcurrent
    refine ⟨hfound, ?_⟩
    rintro rfl
    obtain ⟨same, hsame, hid, -⟩ := h.registered session_id found hfound
    cases ha.symm.trans hsame
    exact hcurrent (decide_eq_true (hid ▸ hfound))

theorem create_wf : create.Wf := ⟨fun _ _ => rfl, fun _ _ h => nomatch h⟩

theorem Wf.step (h : handler.Wf) (hstep : handler.step action = some after) : after.Wf := by
  cases step_effect hstep with
  | started conn => exact h.handleStart
  | ended session_id =>
      unfold handleDisconnect
      split
      · exact h
      · exact (h.update keeps_disconnected).remove
  | current session_id hkeeps => exact h.onCurrent hkeeps
  | changed ref hkeeps => exact h.update hkeeps
  | rejected busy ha => exact h.openRejected ha busy

theorem vacate_activations_eq_none (h : handler.activations ref = none) :
    (handler.vacate session_id).activations ref = none := by
  unfold vacate remove
  split
  · exact h
  · split
    · exact update_activations_eq_none h
    · have hcleared : ∀ existing sessions,
          { handler.update existing (Activation.modify VoiceSession.clearTimers) with
            sessions := sessions }.activations ref = none := fun _ _ => update_activations_eq_none h
      exact update_activations_eq_none (hcleared _ _)

/-- Sessions come from a start. -/
theorem step_created (hstep : handler.step action = some after)
    (hnone : handler.activations ref = none) (ha : after.activations ref = some activation) :
    ∃ conn, activation = .create conn := by
  have hupdate : ∀ {before : VoiceMessageHandler} {found change},
      before.activations ref = none → (before.update found change).activations ref ≠
        some activation := by
    intro before found change hbefore hafter
    rw [update_activations_eq_none hbefore] at hafter
    cases hafter
  cases step_effect hstep with
  | started conn =>
      refine ⟨conn, ?_⟩
      by_cases hnew : ref = handler.nextRef
      · subst hnew
        simpa [handleStart] using ha.symm
      · have hold : (handler.vacate conn.session_id).activations ref = some activation := by
          simpa [handleStart, hnew] using ha
        rw [vacate_activations_eq_none hnone] at hold
        cases hold
  | ended session_id =>
      unfold handleDisconnect at ha
      split at ha
      · cases ha.symm.trans hnone
      · unfold remove at ha
        split at ha
        · exact absurd ha (hupdate hnone)
        · have hcleared : ∀ found sessions,
              { handler.update found Activation.disconnected with
                sessions := sessions }.activations ref = none :=
            fun _ _ => update_activations_eq_none hnone
          exact absurd ha (hupdate (hcleared _ _))
  | current session_id hkeeps =>
      unfold onCurrent at ha
      split at ha
      · cases ha.symm.trans hnone
      · exact absurd ha (hupdate hnone)
  | changed found hkeeps => exact absurd ha (hupdate hnone)
  | rejected busy hfound => exact absurd ha (hupdate hnone)

end

/-! ## Runs -/

section

variable {meets : VoiceMessageHandler → Action → Prop} {actions : List Action}
  {handler last : VoiceMessageHandler} {ref : SessionRef} {activation : Activation}

theorem run_wf (h : Run step meets create actions handler) : handler.Wf :=
  h.invariant Wf create_wf fun _ _ _ hwf _ hstep => hwf.step hstep

/-- A property that sessions are created with and that every change keeps. -/
structure Kept (meets : VoiceMessageHandler → Action → Prop) (Holds : Activation → Prop) :
    Prop where
  create : ∀ conn, Holds (.create conn)
  change : ∀ handler action ref activation changed, meets handler action →
    handler.activations ref = some activation → Change handler action ref activation changed →
    Holds activation → Holds changed

theorem Kept.run {Holds : Activation → Prop} (hkept : Kept meets Holds)
    (h : Run step meets VoiceMessageHandler.create actions handler)
    (ha : handler.activations ref = some activation) : Holds activation := by
  have hall : handler.Wf ∧ ∀ ref activation, handler.activations ref = some activation →
      Holds activation := by
    refine h.invariant (fun handler => handler.Wf ∧ ∀ ref activation,
      handler.activations ref = some activation → Holds activation)
      ⟨create_wf, fun _ _ h => nomatch h⟩ ?_
    intro handler action after hinv hmeets hstep
    refine ⟨hinv.1.step hstep, fun ref changed hchanged => ?_⟩
    cases hbefore : handler.activations ref with
    | none =>
        obtain ⟨conn, rfl⟩ := step_created hstep hbefore hchanged
        exact hkept.create conn
    | some activation =>
        obtain ⟨same, hsame, hchange⟩ := step_change hinv.1 hstep hbefore
        cases hchanged.symm.trans hsame
        exact hkept.change handler action ref activation changed hmeets hbefore hchange
          (hinv.2 ref activation hbefore)
  exact hall.2 ref activation ha

/-- What every change of a session keeps, in relation to how it was, holds along a run. -/
theorem run_relates (Rel : Activation → Activation → Prop) (h : Run step meets handler actions last)
    (hwf : handler.Wf) (ha : handler.activations ref = some activation)
    (hrefl : Rel activation activation)
    (hchange : ∀ handler action before changed, meets handler action →
      handler.activations ref = some before → Change handler action ref before changed →
      Rel activation before → Rel activation changed) :
    ∃ changed, last.activations ref = some changed ∧ Rel activation changed := by
  have hall : last.Wf ∧ ∃ changed, last.activations ref = some changed ∧
      Rel activation changed := by
    refine h.invariant (fun handler => handler.Wf ∧ ∃ changed,
      handler.activations ref = some changed ∧ Rel activation changed)
      ⟨hwf, activation, ha, hrefl⟩ ?_
    intro handler action after hinv hmeets hstep
    obtain ⟨hwf, before, hbefore, hrel⟩ := hinv
    obtain ⟨changed, hchanged, hstepped⟩ := step_change hwf hstep hbefore
    exact ⟨hwf.step hstep, changed, hchanged,
      hchange handler action before changed hmeets hbefore hstepped hrel⟩
  exact hall.2

end

end VoiceOrder.Voice.VoiceMessageHandler
