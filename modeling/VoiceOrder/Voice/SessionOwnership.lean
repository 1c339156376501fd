import VoiceOrder.Voice.Retirement

/-! # Who owns a session, its stream and its finals

The session of an id that is not retired is the one in the registry. A stream that connected is
attached to it, or it is closed; a final goes to the bus from a session that is neither retired
nor terminal. -/

namespace VoiceOrder.Voice.VoiceMessageHandler

open Runs

/-- The streams that the `openStream` of a session returned. -/
def streams (activation : Activation) : List SttStream :=
  activation.session.stream.toList ++ activation.discarded.toList

def final? : Output → Option BusEvent
  | .emit (.finalTranscriptReceived request_id session_id cart_id pos_config_id text) =>
      some (.finalTranscriptReceived request_id session_id cart_id pos_config_id text)
  | _ => none

/-- The finals that a session put on the bus. -/
def finals (activation : Activation) : List BusEvent := activation.outputs.filterMap final?

/-- The stream of the session connects. -/
def connects (ref : SessionRef) : Action → Bool
  | .openResolves found _ => found = ref
  | _ => false

/-- What the final that an action delivers to a session is on the bus, if the session is neither
retired nor terminal by then. -/
def heard (ref : SessionRef) (handler : VoiceMessageHandler) : Action → List BusEvent
  | .finalArrives found request_id text =>
      ((handler.activations ref).filter fun activation =>
          found = ref && !activation.session.isTerminal).toList.map fun activation =>
        .finalTranscriptReceived request_id activation.session.session_id activation.session.cart_id
          activation.session.pos_config_id text
  | _ => []

/-- The finals that a list of actions delivers to a session while it is neither retired nor
terminal. -/
def heardAlong (ref : SessionRef) : VoiceMessageHandler → List Action → List BusEvent
  | _, [] => []
  | handler, action :: actions =>
      match handler.step action with
      | none => []
      | some next => heard ref handler action ++ heardAlong ref next actions

/-- What holds of all sessions after a list of actions. -/
structure Owned (actions : List Action) (handler : VoiceMessageHandler) : Prop where
  /-- At most one session of an id is not retired. -/
  alone : ∀ ref other first second, handler.activations ref = some first →
    handler.activations other = some second → first.session.retired = false →
    second.session.retired = false → first.session.session_id = second.session.session_id → ref = other
  registered : ∀ ref activation, handler.activations ref = some activation →
    (activation.session.retired = false ↔ handler.isCurrent ref activation = true)
  /-- Every stream that connected is with its session. -/
  returned : ∀ ref, (actions.filter (connects ref)).length =
    ((handler.activations ref).elim [] streams).length
  attached : ∀ ref activation, handler.activations ref = some activation →
    ∀ stream ∈ streams activation, stream.closed = true ∨
      activation.session.stream = some stream ∧ handler.isCurrent ref activation = true
  finals : ∀ ref activation, handler.activations ref = some activation →
    finals activation = heardAlong ref create actions

/-! ## The registry names every session that is not retired -/

def Registered (handler : VoiceMessageHandler) : Prop :=
  ∀ ref activation, handler.activations ref = some activation → activation.session.retired = false →
    handler.sessions activation.session.session_id = some ref

section

variable {handler after : VoiceMessageHandler} {action : Action} {ref : SessionRef}
  {activation changed : Activation} {change : Activation → Activation} {session_id : SessionId}
  {conn : ClientConnection}

theorem update_activations_some {other : SessionRef}
    (h : (handler.update other change).activations ref = some changed) :
    ∃ activation, handler.activations ref = some activation ∧
      changed = if other = ref then change activation else activation := by
  cases ha : handler.activations ref with
  | none =>
      rw [update_activations_eq_none ha] at h
      cases h
  | some activation =>
      rw [update_activations other change ha] at h
      exact ⟨activation, rfl, (Option.some.inj h).symm⟩

theorem Registered.update (h : Registered handler) (hkeeps : Keeps change) (other : SessionRef) :
    Registered (handler.update other change) := by
  intro found changed hfound hlive
  obtain ⟨activation, ha, rfl⟩ := update_activations_some hfound
  split at hlive
  · rename_i heq
    rw [if_pos heq, (hkeeps activation).1]
    exact h found activation ha ((hkeeps activation).2.symm.trans hlive)
  · rename_i hne
    rw [if_neg hne]
    exact h found activation ha hlive

/-- A session that is retired may leave the registry. -/
theorem Registered.evict (h : Registered handler) {sessions : SessionId → Option SessionRef}
    (hretires : ∀ activation, (change activation).session.retired = true)
    (hsessions : ∀ session_id found, handler.sessions session_id = some found → found ≠ ref →
      sessions session_id = some found) :
    Registered ({ handler with sessions := sessions }.update ref change) := by
  intro found changed hfound hlive
  obtain ⟨activation, ha, rfl⟩ := update_activations_some hfound
  split at hlive
  · rw [hretires] at hlive
    cases hlive
  · rename_i hne
    rw [if_neg hne]
    exact hsessions _ found (h found activation ha hlive) (Ne.symm hne)

/-- Freeing the id of a session leaves the others registered. -/
theorem freed_sessions {found_id : SessionId} {found : SessionRef}
    (hcurrent : handler.sessions session_id = some ref)
    (hfound : handler.sessions found_id = some found) (hne : found ≠ ref) :
    Function.update handler.sessions session_id none found_id = some found := by
  by_cases heq : found_id = session_id
  · subst heq
    exact absurd (Option.some.inj (hfound.symm.trans hcurrent)) hne
  · rw [Function.update_of_ne heq]
    exact hfound

theorem Registered.remove (h : Registered handler) : Registered (handler.remove session_id) := by
  unfold VoiceMessageHandler.remove
  cases hsession : handler.sessions session_id with
  | none => exact h
  | some ref => exact h.evict (fun _ => rfl) fun _ _ => freed_sessions hsession

theorem Registered.onCurrent (h : Registered handler) (hkeeps : Keeps change) :
    Registered (handler.onCurrent session_id change) := by
  unfold VoiceMessageHandler.onCurrent
  split
  · exact h
  · exact h.update hkeeps _

theorem Registered.handleStart (h : Registered handler) : Registered (handler.handleStart conn) := by
  have hvacated : Registered (handler.vacate conn.session_id) := by
    unfold vacate
    split
    · exact h
    · exact (h.update keeps_clearTimers _).remove
  have hfree : (handler.vacate conn.session_id).sessions conn.session_id = none := by simp
  unfold VoiceMessageHandler.handleStart
  generalize handler.vacate conn.session_id = vacated at hvacated hfree ⊢
  intro found activation hfound hlive
  by_cases hnew : found = vacated.nextRef
  · subst hnew
    have hcreated : activation = .create conn := by simpa using hfound.symm
    rw [hcreated]
    exact Function.update_self ..
  · have hold : vacated.activations found = some activation := by simpa [hnew] using hfound
    have hregistered := hvacated found activation hold hlive
    have hne : activation.session.session_id ≠ conn.session_id := by
      intro heq
      rw [heq, hfree] at hregistered
      cases hregistered
    exact (Function.update_of_ne hne _ _).trans hregistered

theorem openFailed_retired (isCurrent busy : Bool) (activation : Activation) :
    (activation.openFailed isCurrent busy).session.retired = true := by
  cases isCurrent <;> rfl

theorem Registered.openRejected (h : Registered handler) (busy : Bool) (activation : Activation) :
    Registered (handler.openRejected ref busy activation) := by
  refine h.evict (openFailed_retired _ busy) fun found_id found hfound hne => ?_
  split
  · rename_i hcurrent
    exact freed_sessions (of_decide_eq_true hcurrent) hfound hne
  · exact hfound

theorem Registered.step (h : Registered handler) (hstep : handler.step action = some after) :
    Registered after := by
  cases step_effect hstep with
  | started conn => exact h.handleStart
  | ended session_id =>
      unfold handleDisconnect
      split
      · exact h
      · exact (h.update keeps_disconnected _).remove
  | current session_id hkeeps => exact h.onCurrent hkeeps
  | changed ref hkeeps => exact h.update hkeeps ref
  | rejected busy ha => exact h.openRejected busy _

theorem create_registered : Registered create := fun _ _ h => nomatch h

/-! ## Streams are attached or closed -/

/-- What a session holds of its streams. -/
structure Held (activation : Activation) : Prop where
  connecting : activation.opening = true → streams activation = []
  discarded : ∀ stream ∈ activation.discarded, stream.closed = true
  retired : activation.session.retired = true → ∀ stream ∈ activation.session.stream, stream.closed = true

/-- A change that leaves the streams, up to what is sent on them, and whether the session is
retired. -/
structure KeepsStreams (activation changed : Activation) : Prop where
  opening : changed.opening = true → activation.opening = true
  discarded : changed.discarded = activation.discarded
  retired : changed.session.retired = activation.session.retired
  stream : changed.session.stream.map SttStream.closed = activation.session.stream.map SttStream.closed

theorem KeepsStreams.held (h : KeepsStreams activation changed) (hheld : Held activation) : Held changed := by
  refine ⟨fun hopening => ?_, fun stream hmem => ?_, fun hretired stream hmem => ?_⟩
  · have hnone := hheld.connecting (h.opening hopening)
    rw [streams, List.append_eq_nil_iff, Option.toList_eq_nil_iff, Option.toList_eq_nil_iff] at hnone
    have hstream := h.stream
    rw [hnone.1, Option.map_none, Option.map_eq_none_iff] at hstream
    rw [streams, hstream, h.discarded, hnone.2]
    rfl
  · exact hheld.discarded stream (h.discarded ▸ hmem)
  · have hclosed : changed.session.stream.map SttStream.closed = some stream.closed := by
      rw [Option.mem_def.mp hmem]
      rfl
    rw [h.stream] at hclosed
    obtain ⟨before, hbefore, hsame⟩ := Option.map_eq_some_iff.mp hclosed
    exact hsame ▸ hheld.retired (h.retired.symm.trans hretired) before hbefore

theorem KeepsStreams.length (h : KeepsStreams activation changed) :
    (streams changed).length = (streams activation).length := by
  have hstream : changed.session.stream.isSome = activation.session.stream.isSome := by
    have := congrArg Option.isSome h.stream
    simpa using this
  rw [streams, streams, List.length_append, List.length_append, h.discarded]
  cases hbefore : activation.session.stream <;> cases hafter : changed.session.stream <;>
    simp [hbefore, hafter] at hstream ⊢

theorem Held.retire (h : Held activation) : Held (activation.modify VoiceSession.retire) := by
  refine ⟨fun hopening => ?_, h.discarded, fun _ stream hmem => ?_⟩
  · have hnone := h.connecting hopening
    rw [streams, List.append_eq_nil_iff, Option.toList_eq_nil_iff, Option.toList_eq_nil_iff] at hnone
    simp [streams, Activation.modify, VoiceSession.retire, hnone.1, hnone.2]
  · simp only [Activation.modify, VoiceSession.retire] at hmem
    split at hmem
    · rename_i hretired
      exact h.retired hretired stream hmem
    · obtain ⟨before, -, rfl⟩ := Option.map_eq_some_iff.mp hmem
      rfl

theorem retire_length (activation : Activation) :
    (streams (activation.modify VoiceSession.retire)).length = (streams activation).length := by
  simp only [streams, Activation.modify, VoiceSession.retire, List.length_append]
  split
  · rfl
  · cases activation.session.stream <;> rfl

theorem keepsStreams_stopSession (conn : ClientConnection) (activation : Activation) :
    KeepsStreams activation (activation.stopSession conn) := by
  simp only [Activation.stopSession]
  split_ifs <;> exact ⟨id, rfl, rfl, rfl⟩

/-- A session keeps its streams, it is retired, or its stream connects. -/
theorem Change.onStreams (h : Change handler action ref activation changed) :
    KeepsStreams activation changed ∨
    (∃ middle, KeepsStreams activation middle ∧ changed = middle.modify VoiceSession.retire) ∨
    ∃ failsAt, action = .openResolves ref failsAt ∧ changed = activation.opened failsAt := by
  cases h with
  | unchanged => exact .inl ⟨id, rfl, rfl, rfl⟩
  | superseded hretired =>
      exact .inr (.inl ⟨activation.modify VoiceSession.clearTimers, ⟨id, rfl, rfl, rfl⟩, rfl⟩)
  | disconnected hretired => exact .inr (.inl ⟨activation.disconnected, ⟨id, rfl, rfl, rfl⟩, rfl⟩)
  | audio audio throws hretired =>
      left
      simp only [Activation.handleAudioChunk]
      split_ifs
      · exact ⟨id, rfl, rfl, rfl⟩
      · exact ⟨id, rfl, rfl, rfl⟩
      · exact ⟨id, rfl, rfl, rfl⟩
      · exact ⟨id, rfl, rfl, rfl⟩
      · exact ⟨id, rfl, rfl, rfl⟩
      · refine ⟨id, rfl, rfl, ?_⟩
        simp [Activation.modify, VoiceSession.sendAudio, SttStream.sendAudio, Function.comp_def]
  | stop conn hretired => exact .inl (keepsStreams_stopSession conn activation)
  | partialArrived text =>
      left
      simp only [Activation.onPartial]
      split_ifs <;> exact ⟨id, rfl, rfl, rfl⟩
  | finalArrived request_id text =>
      left
      simp only [Activation.onFinal, Activation.endAwaited]
      split_ifs <;> exact ⟨id, rfl, rfl, rfl⟩
  | errorArrived =>
      left
      simp only [Activation.onError]
      split_ifs <;> exact ⟨id, rfl, rfl, rfl⟩
  | opened failsAt haction hopening => exact .inr (.inr ⟨failsAt, haction, rfl⟩)
  | openFailed isCurrent busy haction hopening hlive hcurrent =>
      refine .inr (.inl ?_)
      have hsettled : { activation with opening := false }.opening = true → activation.opening = true :=
        fun _ => hopening
      cases isCurrent with
      | false => exact ⟨{ activation with opening := false }, ⟨hsettled, rfl, rfl, rfl⟩, rfl⟩
      | true =>
          exact ⟨{ activation with opening := false }.send activation.conn _,
            ⟨hsettled, rfl, rfl, rfl⟩, rfl⟩
  | stopResolved index conn haction hconn =>
      left
      simp only [Activation.stopped]
      split_ifs <;> exact ⟨id, rfl, rfl, rfl⟩
  | stopRejected index haction => exact .inl ⟨id, rfl, rfl, rfl⟩
  | finalTimer conn harmed =>
      left
      simp only [Activation.finalTimerFired]
      split_ifs <;> exact ⟨id, rfl, rfl, rfl⟩
  | stopTimer isCurrent conn harmed hcurrent =>
      left
      simp only [Activation.stopTimerFired]
      split_ifs
      · exact ⟨id, rfl, rfl, rfl⟩
      · exact ⟨id, rfl, rfl, rfl⟩
      · obtain ⟨hopening, hdiscarded, hretired, hstream⟩ := keepsStreams_stopSession conn
          ((activation.modify fun session => { session with stopTimer := none }).send conn
            (.stopped activation.session.session_id))
        exact ⟨hopening, hdiscarded, hretired, hstream⟩

/-- A stream that connects is attached, or closed if its session was retired. -/
theorem Held.opened (h : Held activation) (failsAt : Option ℕ) : Held (activation.opened failsAt) := by
  cases hretired : activation.session.retired with
  | true =>
      rw [opened_of_retired failsAt hretired]
      refine ⟨fun hopening => (nomatch hopening), fun stream hmem => ?_, h.retired⟩
      cases hmem
      rfl
  | false =>
      rw [opened_of_live failsAt hretired, flush_eq]
      refine ⟨fun hopening => (nomatch hopening), h.discarded, fun hnow => ?_⟩
      simp [hretired] at hnow

theorem opened_length (h : Held activation) (hopening : activation.opening = true) (failsAt : Option ℕ) :
    (streams (activation.opened failsAt)).length = (streams activation).length + 1 := by
  have hnone := h.connecting hopening
  have hparts := hnone
  rw [streams, List.append_eq_nil_iff, Option.toList_eq_nil_iff, Option.toList_eq_nil_iff] at hparts
  rw [hnone]
  cases hretired : activation.session.retired with
  | true =>
      rw [opened_of_retired failsAt hretired]
      simp [streams, hparts.1]
  | false =>
      rw [opened_of_live failsAt hretired, flush_eq]
      simp [streams, hparts.2]

theorem Change.held (h : Change handler action ref activation changed) (hheld : Held activation) :
    Held changed := by
  rcases h.onStreams with hkeeps | ⟨middle, hkeeps, rfl⟩ | ⟨failsAt, -, rfl⟩
  · exact hkeeps.held hheld
  · exact (hkeeps.held hheld).retire
  · exact hheld.opened failsAt

theorem created_held (conn : ClientConnection) : Held (.create conn) :=
  ⟨fun _ => rfl, fun _ h => (nomatch h), fun h => (nomatch h)⟩

theorem step_held (hwf : handler.Wf) (hstep : handler.step action = some after)
    (hheld : ∀ activation, handler.activations ref = some activation → Held activation) :
    ∀ activation, after.activations ref = some activation → Held activation := by
  intro changed hchanged
  cases hbefore : handler.activations ref with
  | none =>
      obtain ⟨conn, rfl⟩ := step_created hstep hbefore hchanged
      exact created_held conn
  | some activation =>
      obtain ⟨same, hsame, hchange⟩ := step_change hwf hstep hbefore
      cases hchanged.symm.trans hsame
      exact hchange.held (hheld activation hbefore)

/-- A session has one more stream when its stream connects, and no other way. -/
theorem Change.length (h : Change handler action ref activation changed) (hheld : Held activation)
    (hpending : connects ref action = true → activation.opening = true ∧
      ∃ failsAt, changed = activation.opened failsAt) :
    (streams changed).length = (streams activation).length + if connects ref action then 1 else 0 := by
  by_cases hconnects : connects ref action = true
  · obtain ⟨hopening, failsAt, rfl⟩ := hpending hconnects
    rw [if_pos hconnects, opened_length hheld hopening]
  · rw [if_neg hconnects, Nat.add_zero]
    rcases h.onStreams with hkeeps | ⟨middle, hkeeps, rfl⟩ | ⟨failsAt, rfl, -⟩
    · exact hkeeps.length
    · rw [retire_length, hkeeps.length]
    · exact absurd (decide_eq_true rfl) hconnects

theorem step_connects (hstep : handler.step action = some after) (hconnects : connects ref action = true) :
    ∃ activation failsAt, handler.activations ref = some activation ∧ activation.opening = true ∧
      after = handler.update ref (Activation.opened failsAt) := by
  cases action with
  | openResolves found failsAt =>
      have hfound : found = ref := of_decide_eq_true hconnects
      subst hfound
      obtain ⟨activation, ha, hstep⟩ := Option.bind_eq_some_iff.mp hstep
      split at hstep
      · rename_i hopening
        exact ⟨activation, failsAt, ha, hopening, (Option.some.inj hstep).symm⟩
      · cases hstep
  | _ => cases hconnects

theorem step_length (hwf : handler.Wf) (hstep : handler.step action = some after)
    (hheld : ∀ activation, handler.activations ref = some activation → Held activation) :
    ((after.activations ref).elim [] streams).length =
      ((handler.activations ref).elim [] streams).length + if connects ref action then 1 else 0 := by
  cases hbefore : handler.activations ref with
  | none =>
      have hconnects : ¬connects ref action = true := by
        intro hconnects
        obtain ⟨activation, -, ha, -⟩ := step_connects hstep hconnects
        cases ha.symm.trans hbefore
      rw [if_neg hconnects]
      cases hafter : after.activations ref with
      | none => rfl
      | some created =>
          obtain ⟨conn, rfl⟩ := step_created hstep hbefore hafter
          rfl
  | some activation =>
      obtain ⟨changed, hafter, hchange⟩ := step_change hwf hstep hbefore
      rw [hafter]
      apply hchange.length (hheld activation hbefore)
      intro hconnects
      obtain ⟨found, failsAt, hfound, hopening, rfl⟩ := step_connects hstep hconnects
      cases hfound.symm.trans hbefore
      rw [update_activations ref _ hbefore, if_pos rfl] at hafter
      exact ⟨hopening, failsAt, (Option.some.inj hafter).symm⟩

theorem run_length {actions : List Action} {last : VoiceMessageHandler}
    (h : Run step (fun _ _ => True) handler actions last) (hwf : handler.Wf)
    (hheld : ∀ activation, handler.activations ref = some activation → Held activation) :
    ((last.activations ref).elim [] streams).length =
      ((handler.activations ref).elim [] streams).length + (actions.filter (connects ref)).length := by
  induction h with
  | nil => rfl
  | cons _ hstep _ ih =>
      rw [ih (hwf.step hstep) (step_held hwf hstep hheld), step_length hwf hstep hheld, List.filter_cons]
      split
      · rw [List.length_cons]
        omega
      · rw [Nat.add_zero]

/-! ## Finals -/

@[simp] theorem finals_modify (modified : VoiceSession → VoiceSession) :
    finals (activation.modify modified) = finals activation := rfl

@[simp] theorem finals_send (message : OutboundMessage) :
    finals (activation.send conn message) = finals activation := by
  simp [finals, Activation.send, final?]

@[simp] theorem finals_emit (event : BusEvent) :
    finals (activation.emit event) = finals activation ++ (final? (.emit event)).toList := by
  simp only [finals, Activation.emit, List.filterMap_append]
  cases h : final? (.emit event) <;> simp [h]

@[simp] theorem finals_onPartial (text : String) : finals (activation.onPartial text) = finals activation := by
  simp only [Activation.onPartial]
  split_ifs <;> simp

@[simp] theorem finals_onError : finals activation.onError = finals activation := by
  simp only [Activation.onError]
  split_ifs <;> simp

@[simp] theorem finals_handleAudioChunk (audio : Buffer) (throws : Bool) :
    finals (activation.handleAudioChunk audio throws) = finals activation := by
  simp only [Activation.handleAudioChunk]
  split_ifs <;> rfl

@[simp] theorem finals_stopSession : finals (activation.stopSession conn) = finals activation := by
  simp only [Activation.stopSession]
  split_ifs <;> rfl

@[simp] theorem finals_opened (failsAt : Option ℕ) :
    finals (activation.opened failsAt) = finals activation := by
  cases hretired : activation.session.retired with
  | true => rw [opened_of_retired failsAt hretired, finals, finals]
  | false => rw [opened_of_live failsAt hretired, finals, finals]

@[simp] theorem finals_openFailed (isCurrent busy : Bool) :
    finals (activation.openFailed isCurrent busy) = finals activation := by
  cases isCurrent with
  | false => rfl
  | true => exact (finals_send _).trans rfl

@[simp] theorem finals_stopped : finals (activation.stopped conn) = finals activation := by
  simp only [Activation.stopped]
  split_ifs
  · rw [finals_emit, finals_modify]
    exact List.append_nil _
  · rfl

@[simp] theorem finals_finalTimerFired : finals (activation.finalTimerFired conn) = finals activation := by
  simp only [Activation.finalTimerFired]
  split_ifs <;> simp

@[simp] theorem finals_stopTimerFired (isCurrent : Bool) :
    finals (activation.stopTimerFired isCurrent conn) = finals activation := by
  simp only [Activation.stopTimerFired]
  split_ifs <;> simp

@[simp] theorem finals_disconnected : finals activation.disconnected = finals activation := rfl

theorem finals_endAwaited : finals activation.endAwaited = finals activation := by
  simp only [Activation.endAwaited]
  split_ifs
  · rw [finals_emit, finals_modify]
    exact List.append_nil _
  · rfl

/-- A final goes to the bus once, unless the session is terminal. -/
theorem finals_onFinal (request_id : RequestId) (text : String) :
    finals (activation.onFinal request_id text) = finals activation ++
      if activation.session.isTerminal then []
      else [.finalTranscriptReceived request_id activation.session.session_id
        activation.session.cart_id activation.session.pos_config_id text] := by
  simp only [Activation.onFinal]
  split_ifs
  · rw [List.append_nil]
  · rw [finals_modify, finals_endAwaited, finals_emit, finals_send, finals_modify]
    rfl

theorem update_finals (other : SessionRef) (ha : handler.activations ref = some activation)
    (hkeeps : ∀ changing, finals (change changing) = finals changing) :
    ∃ changed, (handler.update other change).activations ref = some changed ∧
      finals changed = finals activation ++ [] := by
  refine ⟨_, update_activations other change ha, ?_⟩
  rw [List.append_nil]
  split
  · exact hkeeps activation
  · rfl

theorem onCurrent_finals (ha : handler.activations ref = some activation)
    (hkeeps : ∀ changing, finals (change changing) = finals changing) :
    ∃ changed, (handler.onCurrent session_id change).activations ref = some changed ∧
      finals changed = finals activation ++ [] := by
  unfold onCurrent
  cases hsession : handler.sessions session_id with
  | none => exact ⟨activation, ha, (List.append_nil _).symm⟩
  | some found => exact update_finals found ha hkeeps

/-- What a step adds to the finals of a session is what it heard. -/
theorem step_finals (hwf : handler.Wf) (hstep : handler.step action = some after)
    (ha : handler.activations ref = some activation) :
    ∃ changed, after.activations ref = some changed ∧
      finals changed = finals activation ++ heard ref handler action := by
  cases action with
  | start conn =>
      cases hstep
      refine ⟨_, handleStart_activations hwf ha, ?_⟩
      split_ifs <;> exact (List.append_nil _).symm
  | audioChunk conn audio throws =>
      cases hstep
      exact onCurrent_finals ha fun _ => finals_handleAudioChunk audio throws
  | stop conn =>
      cases hstep
      exact onCurrent_finals ha fun _ => finals_stopSession
  | disconnect session_id =>
      cases hstep
      refine ⟨_, handleDisconnect_activations ha, ?_⟩
      split_ifs <;> exact (List.append_nil _).symm
  | partialArrives found text =>
      obtain ⟨_, -, rfl⟩ := Option.map_eq_some_iff.mp hstep
      exact update_finals found ha fun _ => finals_onPartial text
  | finalArrives found request_id text =>
      obtain ⟨_, -, rfl⟩ := Option.map_eq_some_iff.mp hstep
      refine ⟨_, update_activations found _ ha, ?_⟩
      by_cases hfound : found = ref
      · rw [if_pos hfound, finals_onFinal]
        cases hterminal : activation.session.isTerminal with
        | true => simp [heard, ha, hterminal]
        | false => simp [heard, ha, hfound, Option.filter, hterminal]
      · rw [if_neg hfound]
        simp [heard, ha, hfound]
  | errorArrives found =>
      obtain ⟨_, -, rfl⟩ := Option.map_eq_some_iff.mp hstep
      exact update_finals found ha fun _ => finals_onError
  | openResolves found failsAt =>
      obtain ⟨opening, -, hstep⟩ := Option.bind_eq_some_iff.mp hstep
      split at hstep
      · cases hstep
        exact update_finals found ha fun _ => finals_opened failsAt
      · cases hstep
  | openRejects found busy =>
      obtain ⟨opening, -, hstep⟩ := Option.bind_eq_some_iff.mp hstep
      split at hstep
      · cases hstep
        have hevicted : ∀ sessions, { handler with sessions := sessions }.activations ref =
            some activation := fun _ => ha
        exact update_finals found (hevicted _) fun _ => finals_openFailed _ busy
      · cases hstep
  | stopResolves found index =>
      obtain ⟨stopping, -, hstep⟩ := Option.bind_eq_some_iff.mp hstep
      obtain ⟨conn, -, rfl⟩ := Option.map_eq_some_iff.mp hstep
      exact update_finals found ha fun _ => finals_stopped
  | stopRejects found index =>
      obtain ⟨_, -, rfl⟩ := Option.map_eq_some_iff.mp hstep
      exact update_finals found ha fun _ => rfl
  | finalTimerFires found =>
      obtain ⟨armed, -, hstep⟩ := Option.bind_eq_some_iff.mp hstep
      obtain ⟨conn, -, rfl⟩ := Option.map_eq_some_iff.mp hstep
      exact update_finals found ha fun _ => finals_finalTimerFired
  | stopTimerFires found =>
      obtain ⟨armed, -, hstep⟩ := Option.bind_eq_some_iff.mp hstep
      obtain ⟨conn, -, rfl⟩ := Option.map_eq_some_iff.mp hstep
      exact update_finals found ha fun _ => finals_stopTimerFired _

/-- A session that is not there yet hears nothing. -/
theorem heard_of_none (hnone : handler.activations ref = none) : heard ref handler action = [] := by
  cases action with
  | finalArrives found request_id text => simp [heard, hnone]
  | _ => rfl

theorem step_heard (hwf : handler.Wf) (hstep : handler.step action = some after) :
    (after.activations ref).elim [] finals =
      (handler.activations ref).elim [] finals ++ heard ref handler action := by
  cases hbefore : handler.activations ref with
  | none =>
      rw [heard_of_none hbefore]
      cases hafter : after.activations ref with
      | none => rfl
      | some created =>
          obtain ⟨conn, rfl⟩ := step_created hstep hbefore hafter
          rfl
  | some activation =>
      obtain ⟨changed, hchanged, hfinals⟩ := step_finals hwf hstep hbefore
      rw [hchanged]
      exact hfinals

theorem run_heard {actions : List Action} {last : VoiceMessageHandler}
    (h : Run step (fun _ _ => True) handler actions last) (hwf : handler.Wf) :
    (last.activations ref).elim [] finals =
      (handler.activations ref).elim [] finals ++ heardAlong ref handler actions := by
  induction h with
  | nil => exact (List.append_nil _).symm
  | cons _ hstep _ ih =>
      rw [ih (hwf.step hstep), step_heard hwf hstep, heardAlong, hstep, List.append_assoc]

end

/-! ## Every run -/

theorem run_registered {actions : List Action} {handler : VoiceMessageHandler}
    (h : Run step (fun _ _ => True) create actions handler) : Registered handler :=
  h.invariant Registered create_registered fun _ _ _ hregistered _ hstep => hregistered.step hstep

theorem kept_held : Kept (fun _ _ => True) Held :=
  ⟨created_held, fun _ _ _ _ _ _ _ h hheld => h.held hheld⟩

/-- Whatever happens in whatever order, a session that is not retired is the one registered under
its id, every stream that connected is attached to it or closed, and it emits each final once. -/
theorem sessions_owned {actions : List Action} {handler : VoiceMessageHandler}
    (h : Run step (fun _ _ => True) create actions handler) : Owned actions handler := by
  have hregistered := run_registered h
  have hnone : ∀ ref, create.activations ref = none := fun _ => rfl
  refine ⟨?_, ?_, ?_, ?_, ?_⟩
  · intro ref other first second hfirst hsecond hlive hlive' hid
    have hsame := hregistered ref first hfirst hlive
    rw [hid, hregistered other second hsecond hlive'] at hsame
    exact (Option.some.inj hsame).symm
  · intro ref activation ha
    constructor
    · exact fun hlive => decide_eq_true (hregistered ref activation ha hlive)
    · exact fun hcurrent => (run_wf h).isCurrent_retired ha (of_decide_eq_true hcurrent)
  · intro ref
    rw [run_length h create_wf fun activation ha => (nomatch ha), hnone]
    exact (Nat.zero_add _).symm
  · intro ref activation ha stream hmem
    have hheld := kept_held.run h ha
    rcases List.mem_append.mp hmem with hattached | hdiscarded
    · cases hretired : activation.session.retired with
      | true => exact .inl (hheld.retired hretired stream (Option.mem_toList.mp hattached))
      | false =>
          exact .inr ⟨Option.mem_toList.mp hattached,
            decide_eq_true (hregistered ref activation ha hretired)⟩
    · exact .inl (hheld.discarded stream (Option.mem_toList.mp hdiscarded))
  · intro ref activation ha
    have hheard : (handler.activations ref).elim [] finals = [] ++ heardAlong ref create actions :=
      run_heard h create_wf
    rw [ha] at hheard
    exact hheard

/-- The mic restarts while the first stream connects. That stream is closed as it arrives and its
final goes nowhere; the second one delivers a turn. -/
theorem sessions_owned_restarted :
    ∃ (handler : VoiceMessageHandler) (superseded current : Activation),
      handler.activations 0 = some superseded ∧ handler.activations 1 = some current ∧
      superseded.discarded = some SttStream.opened.close ∧ finals superseded = [] ∧
      current.session.stream = some .opened ∧
      finals current = [.finalTranscriptReceived "turn_2" "voice_session_1" "cart_1" 7 "two burgers"] ∧
      Owned [.start mic, .start mic, .openResolves 0 none, .openResolves 1 none,
        .finalArrives 0 "turn_1" "a burger", .finalArrives 1 "turn_2" "two burgers"] handler := by
  have hexists : ∃ handler, Run step (fun _ _ => True) create [.start mic, .start mic,
      .openResolves 0 none, .openResolves 1 none, .finalArrives 0 "turn_1" "a burger",
      .finalArrives 1 "turn_2" "two burgers"] handler ∧
      (((handler.activations 0).any fun superseded =>
        superseded.discarded = some SttStream.opened.close ∧ finals superseded = []) &&
      ((handler.activations 1).any fun current => current.session.stream = some .opened ∧
        finals current =
          [.finalTranscriptReceived "turn_2" "voice_session_1" "cart_1" 7 "two burgers"])) = true :=
    exists_run (by decide +kernel)
  obtain ⟨handler, hrun, hboth⟩ := hexists
  obtain ⟨hfirst, hsecond⟩ := Bool.and_eq_true_iff.mp hboth
  obtain ⟨superseded, hsuperseded, hfirst⟩ := (Option.any_eq_true _ _).mp hfirst
  obtain ⟨current, hcurrent, hsecond⟩ := (Option.any_eq_true _ _).mp hsecond
  obtain ⟨hdiscarded, hnone⟩ := of_decide_eq_true hfirst
  obtain ⟨hstream, hone⟩ := of_decide_eq_true hsecond
  exact ⟨handler, superseded, current, hsuperseded, hcurrent, hdiscarded, hnone, hstream, hone,
    sessions_owned hrun⟩

end VoiceOrder.Voice.VoiceMessageHandler
