import VoiceOrder.Voice.HonouredStops

/-! # The audio of a session, in order

A chunk is buffered, flushed when the stream is attached or forwarded at once. The three routes
together give the stream what arrived, in the order it arrived. -/

namespace VoiceOrder.Voice.VoiceMessageHandler

open Runs

/-- The chunk that an action brings to the session. -/
def arrives (ref : SessionRef) (handler : VoiceMessageHandler) : Action → List Buffer
  | .audioChunk conn audio _ => if handler.sessions conn.session_id = some ref then [audio] else []
  | _ => []

/-- The chunks that a list of actions brings to the session. -/
def arrivedAlong (ref : SessionRef) : VoiceMessageHandler → List Action → List Buffer
  | _, [] => []
  | handler, action :: actions =>
      match handler.step action with
      | none => []
      | some next => arrives ref handler action ++ arrivedAlong ref next actions

/-- The session has committed to a stop. -/
def committed (ref : SessionRef) (handler : VoiceMessageHandler) : Bool :=
  (handler.activations ref).any fun activation => activation.session.stopping

/-- The chunks that a list of actions brings to the session before its first committed stop. -/
def arrivedUntilStop (ref : SessionRef) : VoiceMessageHandler → List Action → List Buffer
  | _, [] => []
  | handler, action :: actions =>
      if committed ref handler then []
      else
        match handler.step action with
        | none => []
        | some next => arrives ref handler action ++ arrivedUntilStop ref next actions

/-- The session is neither superseded nor disconnected, its stream reports no error and takes
every chunk. -/
def undisturbed (ref : SessionRef) (handler : VoiceMessageHandler) : Action → Bool
  | .start conn => handler.sessions conn.session_id ≠ some ref
  | .disconnect session_id => handler.sessions session_id ≠ some ref
  | .errorArrives found => found ≠ ref
  | .audioChunk conn _ throws => handler.sessions conn.session_id ≠ some ref ∨ throws = false
  | .openResolves found failsAt => found ≠ ref ∨ (handler.activations ref).all fun activation =>
      failsAt.all fun n => activation.session.pendingAudio.length ≤ n
  | _ => true

/-- A change that has nothing to do with the audio of a session. -/
structure SameAudio (activation changed : Activation) : Prop where
  opening : changed.opening = activation.opening
  retired : changed.session.retired = activation.session.retired
  pendingAudio : changed.session.pendingAudio = activation.session.pendingAudio
  stream : changed.session.stream = activation.session.stream
  stopping : activation.session.stopping = true → changed.session.stopping = true
  status : changed.session.stopping = false → changed.session.status = activation.session.status

section

variable {handler after last : VoiceMessageHandler} {action : Action} {ref other : SessionRef}
  {activation changed : Activation} {change : Activation → Activation} {session_id : SessionId}
  {conn : ClientConnection}

/-! ## What leaves the audio alone -/

theorem SameAudio.refl (activation : Activation) : SameAudio activation activation :=
  ⟨rfl, rfl, rfl, rfl, id, fun _ => rfl⟩

theorem sameAudio_stopping (h : activation.session.stopping = true)
    (hopening : changed.opening = activation.opening)
    (hretired : changed.session.retired = activation.session.retired)
    (hpending : changed.session.pendingAudio = activation.session.pendingAudio)
    (hstream : changed.session.stream = activation.session.stream)
    (hstopping : changed.session.stopping = activation.session.stopping) :
    SameAudio activation changed :=
  ⟨hopening, hretired, hpending, hstream, hstopping.trans, fun hnot => by
    cases (hstopping.trans h).symm.trans hnot⟩

theorem sameAudio_onPartial (text : String) : SameAudio activation (activation.onPartial text) := by
  simp only [Activation.onPartial]
  split_ifs <;> exact ⟨rfl, rfl, rfl, rfl, id, fun _ => rfl⟩

theorem sameAudio_onFinal (request_id : RequestId) (text : String) (hf : Flushing activation) :
    SameAudio activation (activation.onFinal request_id text) := by
  simp only [Activation.onFinal, Activation.endAwaited]
  split_ifs with _ harmed
  · exact .refl _
  · exact sameAudio_stopping (hf.grace harmed) rfl rfl rfl rfl rfl
  · exact ⟨rfl, rfl, rfl, rfl, id, fun _ => rfl⟩

theorem sameAudio_stopSession (conn : ClientConnection) :
    SameAudio activation (activation.stopSession conn) := by
  simp only [Activation.stopSession]
  split_ifs
  · exact .refl _
  · exact .refl _
  · exact ⟨rfl, rfl, rfl, rfl, fun _ => rfl, fun hnot => by cases hnot⟩

theorem sameAudio_stopped (index : ℕ) (h : activation.session.stopping = true) :
    SameAudio activation
      ({ activation with stops := activation.stops.eraseIdx index }.stopped conn) := by
  simp only [Activation.stopped]
  split_ifs <;> exact sameAudio_stopping h rfl rfl rfl rfl rfl

theorem sameAudio_finalTimerFired (h : activation.session.stopping = true) :
    SameAudio activation (activation.finalTimerFired conn) := by
  simp only [Activation.finalTimerFired]
  split_ifs <;> exact sameAudio_stopping h rfl rfl rfl rfl rfl

theorem sameAudio_stopTimerFired (isCurrent : Bool) :
    SameAudio activation (activation.stopTimerFired isCurrent conn) := by
  simp only [Activation.stopTimerFired]
  split_ifs
  · exact ⟨rfl, rfl, rfl, rfl, id, fun _ => rfl⟩
  · exact ⟨rfl, rfl, rfl, rfl, id, fun _ => rfl⟩
  · obtain ⟨hopening, hretired, hpending, hstream, hstopping, hstatus⟩ :=
      @sameAudio_stopSession ((activation.modify fun session => { session with stopTimer := none }).send
        conn (.stopped activation.session.session_id)) conn
    exact ⟨hopening, hretired, hpending, hstream, hstopping, hstatus⟩

theorem update_sameAudio (other : SessionRef) (ha : handler.activations ref = some activation)
    (hsame : other = ref → SameAudio activation (change activation)) :
    ∃ changed, (handler.update other change).activations ref = some changed ∧
      SameAudio activation changed := by
  refine ⟨_, update_activations other change ha, ?_⟩
  split
  · rename_i heq
    exact hsame heq
  · exact .refl _

theorem onCurrent_activations (session_id : SessionId) (change : Activation → Activation)
    (ha : handler.activations ref = some activation) :
    (handler.onCurrent session_id change).activations ref =
      some (if handler.sessions session_id = some ref then change activation else activation) := by
  unfold onCurrent
  cases hsession : handler.sessions session_id with
  | none => simpa using ha
  | some found =>
      rw [update_activations found change ha]
      simp

/-! ## One step -/

/-- What a step does to the audio of a session. -/
inductive AudioStep (ref : SessionRef) (handler : VoiceMessageHandler) (action : Action)
    (activation changed : Activation) : Prop where
  | same (harrives : arrives ref handler action = []) (hsame : SameAudio activation changed)
  | audio (audio : Buffer) (harrives : arrives ref handler action = [audio])
      (hchanged : changed = activation.handleAudioChunk audio false)
  | settled (harrives : arrives ref handler action = []) (hopening : activation.opening = true)
      (hsettled : changed.opening = false)

theorem step_audio (hwf : handler.Wf) (hf : Flushing activation)
    (hmeets : undisturbed ref handler action = true) (hstep : handler.step action = some after)
    (ha : handler.activations ref = some activation) :
    ∃ changed, after.activations ref = some changed ∧
      AudioStep ref handler action activation changed := by
  have hupdated : ∀ {found : SessionRef} {change : Activation → Activation},
      arrives ref handler action = [] →
      (found = ref → SameAudio activation (change activation)) →
      ∃ changed, (handler.update found change).activations ref = some changed ∧
        AudioStep ref handler action activation changed := fun harrives hsame => by
    obtain ⟨changed, hchanged, hsame⟩ := update_sameAudio _ ha hsame
    exact ⟨changed, hchanged, .same harrives hsame⟩
  cases action with
  | start conn =>
      cases hstep
      have hother : handler.sessions conn.session_id ≠ some ref := of_decide_eq_true hmeets
      refine ⟨activation, ?_, .same rfl (.refl _)⟩
      rw [handleStart_activations hwf ha, if_neg hother]
  | audioChunk conn audio throws =>
      cases hstep
      refine ⟨_, onCurrent_activations conn.session_id _ ha, ?_⟩
      have hmeets : handler.sessions conn.session_id ≠ some ref ∨ throws = false :=
        of_decide_eq_true hmeets
      by_cases hcurrent : handler.sessions conn.session_id = some ref
      · obtain rfl := hmeets.resolve_left (not_not_intro hcurrent)
        rw [if_pos hcurrent]
        exact .audio audio (if_pos hcurrent) rfl
      · rw [if_neg hcurrent]
        exact .same (if_neg hcurrent) (.refl _)
  | stop conn =>
      cases hstep
      refine ⟨_, onCurrent_activations conn.session_id _ ha, .same rfl ?_⟩
      split
      · exact sameAudio_stopSession conn
      · exact .refl _
  | disconnect session_id =>
      cases hstep
      have hother : handler.sessions session_id ≠ some ref := of_decide_eq_true hmeets
      refine ⟨activation, ?_, .same rfl (.refl _)⟩
      rw [handleDisconnect_activations ha, if_neg hother]
  | partialArrives found text =>
      obtain ⟨_, -, rfl⟩ := Option.map_eq_some_iff.mp hstep
      exact hupdated rfl fun _ => sameAudio_onPartial text
  | finalArrives found request_id text =>
      obtain ⟨_, -, rfl⟩ := Option.map_eq_some_iff.mp hstep
      exact hupdated rfl fun _ => sameAudio_onFinal request_id text hf
  | errorArrives found =>
      obtain ⟨_, -, rfl⟩ := Option.map_eq_some_iff.mp hstep
      exact hupdated rfl fun heq => absurd heq (of_decide_eq_true hmeets)
  | openResolves found failsAt =>
      obtain ⟨opening, hfound, hstep⟩ := Option.bind_eq_some_iff.mp hstep
      split at hstep
      · rename_i hopening
        cases hstep
        by_cases heq : found = ref
        · subst heq
          cases ha.symm.trans hfound
          refine ⟨_, update_activations found _ ha, .settled rfl hopening ?_⟩
          rw [if_pos rfl, Activation.opened]
          split <;> rfl
        · exact hupdated rfl fun hsame => absurd hsame heq
      · cases hstep
  | openRejects found busy =>
      obtain ⟨opening, hfound, hstep⟩ := Option.bind_eq_some_iff.mp hstep
      split at hstep
      · rename_i hopening
        cases hstep
        have hevicted : ∀ sessions, { handler with sessions := sessions }.activations ref =
            some activation := fun _ => ha
        refine ⟨_, update_activations found _ (hevicted _), ?_⟩
        by_cases heq : found = ref
        · subst heq
          cases ha.symm.trans hfound
          refine .settled rfl hopening ?_
          rw [if_pos rfl, Activation.openFailed]
          split <;> rfl
        · rw [if_neg heq]
          exact .same rfl (.refl _)
      · cases hstep
  | stopResolves found index =>
      obtain ⟨stopping, hfound, hstep⟩ := Option.bind_eq_some_iff.mp hstep
      obtain ⟨conn, hconn, rfl⟩ := Option.map_eq_some_iff.mp hstep
      refine hupdated rfl fun heq => ?_
      subst heq
      cases ha.symm.trans hfound
      exact sameAudio_stopped index (hf.inFlight fun hnone => by simp [hnone] at hconn).1
  | stopRejects found index =>
      obtain ⟨_, -, rfl⟩ := Option.map_eq_some_iff.mp hstep
      exact hupdated rfl fun _ => ⟨rfl, rfl, rfl, rfl, id, fun _ => rfl⟩
  | finalTimerFires found =>
      obtain ⟨armed, hfound, hstep⟩ := Option.bind_eq_some_iff.mp hstep
      obtain ⟨conn, hconn, rfl⟩ := Option.map_eq_some_iff.mp hstep
      refine hupdated rfl fun heq => ?_
      subst heq
      cases ha.symm.trans hfound
      exact sameAudio_finalTimerFired (hf.grace (by simp [hconn]))
  | stopTimerFires found =>
      obtain ⟨armed, hfound, hstep⟩ := Option.bind_eq_some_iff.mp hstep
      obtain ⟨conn, hconn, rfl⟩ := Option.map_eq_some_iff.mp hstep
      exact hupdated rfl fun _ => sameAudio_stopTimerFired _

/-! ## Until the stream is attached -/

/-- A session whose stream connects keeps the first of the chunks that have arrived. -/
def Buffering (early : List Buffer) (activation : Activation) : Prop :=
  activation.opening = true → activation.session.retired = false ∧
    activation.session.status = .idle ∧
      activation.session.pendingAudio = early.take maxPendingAudioChunks

theorem buffering_audio {early : List Buffer} (audio : Buffer) (hc : Connecting activation)
    (hf : Flushing activation) (h : Buffering early activation) :
    Buffering (early ++ [audio]) (activation.handleAudioChunk audio false) := by
  intro hopening
  have hopening : activation.opening = true := by
    simp only [Activation.handleAudioChunk] at hopening
    split_ifs at hopening <;> exact hopening
  obtain ⟨hlive, hidle, hpending⟩ := h hopening
  have hterminal : ¬activation.session.isTerminal = true := by
    simp [VoiceSession.isTerminal, hlive, hidle]
  have hnone : activation.session.stream.isNone = true := by rw [(hc hopening).1]; rfl
  simp only [Activation.handleAudioChunk, hf.connecting hopening, Bool.false_eq_true, if_false,
    hterminal, hnone, true_or, if_true]
  split_ifs with hroom
  · refine ⟨hlive, hidle, ?_⟩
    rw [hpending, List.length_take] at hroom
    have hshort : early.length < maxPendingAudioChunks := by omega
    change activation.session.pendingAudio ++ [audio] = _
    rw [hpending, List.take_of_length_le (Nat.le_of_lt hshort), List.take_of_length_le]
    rw [List.length_append]
    exact hshort
  · refine ⟨hlive, hidle, ?_⟩
    rw [hpending, List.length_take] at hroom
    have hfull : maxPendingAudioChunks ≤ early.length := by omega
    rw [hpending, List.take_append_of_le_length hfull]

theorem AudioStep.buffering {early : List Buffer}
    (h : AudioStep ref handler action activation changed) (hc : Connecting activation)
    (hf : Flushing activation) (hb : Buffering early activation) (hchanged : Flushing changed) :
    Buffering (early ++ arrives ref handler action) changed := by
  cases h with
  | same harrives hsame =>
      intro hopening
      obtain ⟨hlive, hidle, hpending⟩ := hb (hsame.opening.symm.trans hopening)
      rw [harrives, List.append_nil]
      exact ⟨hsame.retired.trans hlive, (hsame.status (hchanged.connecting hopening)).trans hidle,
        hsame.pendingAudio.trans hpending⟩
  | audio audio harrives hheard =>
      rw [harrives, hheard]
      exact buffering_audio audio hc hf hb
  | settled harrives hwas hsettled =>
      intro hopening
      cases hsettled.symm.trans hopening

/-- A session that is not there yet is brought nothing. -/
theorem arrives_of_none (hwf : handler.Wf) (hnone : handler.activations ref = none) :
    arrives ref handler action = [] := by
  cases action with
  | audioChunk conn audio throws =>
      refine if_neg fun hcurrent => ?_
      obtain ⟨activation, ha, -⟩ := hwf.registered conn.session_id ref hcurrent
      cases ha.symm.trans hnone
  | _ => rfl

theorem step_buffering {earlier : List Action} {early : List Buffer}
    (hreached : Run step (fun _ _ => True) create earlier handler)
    (hmeets : undisturbed ref handler action = true) (hstep : handler.step action = some after)
    (hb : (handler.activations ref).elim (early = []) (Buffering early)) :
    (after.activations ref).elim (early ++ arrives ref handler action = [])
      (Buffering (early ++ arrives ref handler action)) := by
  have hlater : Run step (fun _ _ => True) create (earlier ++ [action]) after :=
    hreached.append (.cons trivial hstep (.nil after))
  cases hbefore : handler.activations ref with
  | none =>
      rw [hbefore] at hb
      have hnothing : early ++ arrives ref handler action = [] := by
        rw [arrives_of_none (run_wf hreached) hbefore, hb]
        rfl
      cases hafter : after.activations ref with
      | none => exact hnothing
      | some created =>
          obtain ⟨conn, rfl⟩ := step_created hstep hbefore hafter
          rw [hnothing]
          exact fun _ => ⟨rfl, rfl, rfl⟩
  | some activation =>
      rw [hbefore] at hb
      obtain ⟨hc, hf⟩ := kept_flushing.run hreached hbefore
      obtain ⟨changed, hchanged, haudio⟩ :=
        step_audio (run_wf hreached) hf hmeets hstep hbefore
      rw [hchanged]
      exact haudio.buffering hc hf hb (kept_flushing.run hlater hchanged).2

theorem run_buffering {earlier actions : List Action} {early : List Buffer}
    (hreached : Run step (fun _ _ => True) create earlier handler)
    (h : Run step (fun handler action => undisturbed ref handler action = true) handler actions last)
    (hb : (handler.activations ref).elim (early = []) (Buffering early)) :
    (last.activations ref).elim (early ++ arrivedAlong ref handler actions = [])
      (Buffering (early ++ arrivedAlong ref handler actions)) := by
  induction h generalizing early earlier with
  | nil =>
      rw [arrivedAlong, List.append_nil]
      exact hb
  | @cons handler next last action actions hmeets hstep _ ih =>
      have hnext := ih (hreached.append (.cons trivial hstep (.nil next)))
        (step_buffering hreached hmeets hstep hb)
      rw [arrivedAlong, hstep]
      rwa [List.append_assoc] at hnext

/-! ## From then on -/

/-- A session whose stream is attached goes on until it commits to a stop. -/
structure Streaming (given : List Buffer) (activation : Activation) : Prop where
  opening : activation.opening = false
  live : activation.session.retired = false
  attached : activation.session.stream.isSome
  forwarded : forwarded activation = given
  listening : activation.session.stopping = false → activation.session.status = .listening

theorem streaming_audio {given : List Buffer} (audio : Buffer) (h : Streaming given activation) :
    Streaming (given ++ if activation.session.stopping then [] else [audio])
      (activation.handleAudioChunk audio false) := by
  cases hstopping : activation.session.stopping with
  | true =>
      simpa [Activation.handleAudioChunk, hstopping] using h
  | false =>
      have hlistening := h.listening hstopping
      have hterminal : activation.session.isTerminal = false := by
        simp [VoiceSession.isTerminal, h.live, hlistening]
      have hforwarded := h.forwarded
      have hattached := h.attached
      cases hstream : activation.session.stream with
      | none => simp [hstream] at hattached
      | some stream =>
          have hsent : activation.handleAudioChunk audio false =
              activation.modify (VoiceSession.sendAudio audio) := by
            simp [Activation.handleAudioChunk, hstopping, hterminal, hstream, hlistening]
          rw [hsent]
          refine ⟨h.opening, h.live, ?_, ?_, fun _ => hlistening⟩
          · simp [Activation.modify, VoiceSession.sendAudio, hstream]
          · simp only [VoiceMessageHandler.forwarded, hstream, Option.elim_some] at hforwarded
            simp [VoiceMessageHandler.forwarded, Activation.modify, VoiceSession.sendAudio, hstream,
              SttStream.sendAudio, hforwarded]

theorem AudioStep.streaming {given : List Buffer}
    (h : AudioStep ref handler action activation changed) (hs : Streaming given activation) :
    Streaming (given ++ if activation.session.stopping then [] else arrives ref handler action)
      changed := by
  cases h with
  | same harrives hsame =>
      have hforwarded : VoiceMessageHandler.forwarded changed =
          VoiceMessageHandler.forwarded activation := by
        rw [VoiceMessageHandler.forwarded, hsame.stream]
        rfl
      rw [harrives, ite_self, List.append_nil]
      refine ⟨hsame.opening.trans hs.opening, hsame.retired.trans hs.live, ?_,
        hforwarded.trans hs.forwarded, fun hgoing => ?_⟩
      · rw [hsame.stream]
        exact hs.attached
      · refine (hsame.status hgoing).trans (hs.listening ?_)
        by_contra hstopping
        cases hgoing.symm.trans (hsame.stopping (by simpa using hstopping))
  | audio audio harrives hheard =>
      rw [harrives, hheard]
      exact streaming_audio audio hs
  | settled harrives hopening hsettled => cases hs.opening.symm.trans hopening

theorem arrivedUntilStop_committed {actions : List Action} (h : committed ref handler = true) :
    arrivedUntilStop ref handler actions = [] := by
  cases actions with
  | nil => rfl
  | cons action actions => rw [arrivedUntilStop, if_pos h]

theorem run_streaming {earlier actions : List Action} {given : List Buffer}
    (hreached : Run step (fun _ _ => True) create earlier handler)
    (h : Run step (fun handler action => undisturbed ref handler action = true) handler actions last)
    (ha : handler.activations ref = some activation) (hs : Streaming given activation) :
    ∃ changed, last.activations ref = some changed ∧
      Streaming (given ++ arrivedUntilStop ref handler actions) changed := by
  induction h generalizing given earlier activation with
  | nil =>
      rw [arrivedUntilStop, List.append_nil]
      exact ⟨activation, ha, hs⟩
  | @cons handler next last action actions hmeets hstep hrest ih =>
      have hnext := hreached.append (.cons trivial hstep (.nil next))
      obtain ⟨middle, hmiddle, haudio⟩ := step_audio (run_wf hreached)
        (kept_flushing.run hreached ha).2 hmeets hstep ha
      obtain ⟨changed, hchanged, hstreaming⟩ := ih hnext hmiddle (haudio.streaming hs)
      refine ⟨changed, hchanged, ?_⟩
      have hcommitted : committed ref handler = activation.session.stopping := by
        rw [committed, ha, Option.any_some]
      rw [arrivedUntilStop, hcommitted, hstep]
      cases hstopping : activation.session.stopping with
      | true =>
          -- Nothing counts after the first committed stop.
          have hover : committed ref next = true := by
            rw [committed, hmiddle, Option.any_some]
            cases haudio with
            | same harrives hsame => exact hsame.stopping hstopping
            | audio audio harrives hheard =>
                rw [hheard, Activation.handleAudioChunk, if_pos hstopping, hstopping]
            | settled harrives hopening hsettled => cases hs.opening.symm.trans hopening
          rw [arrivedUntilStop_committed hover] at hstreaming
          simpa [hstopping] using hstreaming
      | false => simpa [hstopping, List.append_assoc] using hstreaming

/-- A stream that is attached is given all that was kept for it. -/
theorem streaming_opened {failsAt : Option ℕ} (hlive : activation.session.retired = false)
    (htakes : failsAt.all (fun n => activation.session.pendingAudio.length ≤ n) = true) :
    Streaming activation.session.pendingAudio (activation.opened failsAt) := by
  have hall : activation.session.pendingAudio.take
      (failsAt.getD activation.session.pendingAudio.length) = activation.session.pendingAudio := by
    refine List.take_of_length_le ?_
    cases failsAt with
    | none => exact Nat.le_refl _
    | some n => simpa using htakes
  rw [opened_of_live failsAt hlive, flush_eq]
  refine ⟨rfl, hlive, rfl, ?_, fun _ => if_pos htakes⟩
  simp only [VoiceMessageHandler.forwarded, Option.map_some, Option.elim_some, hall]
  rfl

/-- While nothing disturbs a session its stream is given the first chunks that arrived before it
was attached and then every chunk that arrived before the first committed stop, in order. -/
theorem audio_in_order {before after : List Action} {failsAt : Option ℕ}
    (hbefore : Run step (fun handler action => undisturbed ref handler action = true) create before
      handler)
    (hafter : Run step (fun handler action => undisturbed ref handler action = true) handler
      (.openResolves ref failsAt :: after) last) :
    ∃ activation, last.activations ref = some activation ∧ activation.session.stream.isSome ∧
      forwarded activation = (arrivedAlong ref create before).take maxPendingAudioChunks ++
        arrivedUntilStop ref handler (.openResolves ref failsAt :: after) := by
  have hreached : Run step (fun _ _ => True) create before handler :=
    hbefore.mono fun _ _ _ => trivial
  cases hafter with
  | cons hmeets hstep hrest =>
      obtain ⟨activation, ha, hconnects⟩ := Option.bind_eq_some_iff.mp hstep
      split at hconnects
      · rename_i hopening
        obtain rfl := Option.some.inj hconnects
        obtain ⟨hc, hf⟩ := kept_flushing.run hreached ha
        have hnothing : (create.activations ref).elim (([] : List Buffer) = []) (Buffering []) := rfl
        have hbuffering := run_buffering (.nil create) hbefore hnothing
        rw [ha] at hbuffering
        obtain ⟨hlive, hidle, hpending⟩ := hbuffering hopening
        have hopened := update_activations ref (Activation.opened failsAt) ha
        rw [if_pos rfl] at hopened
        have hfits : failsAt.all (fun n => activation.session.pendingAudio.length ≤ n) = true := by
          simpa [undisturbed, ha] using hmeets
        have hstreaming := streaming_opened hlive hfits
        rw [hpending, List.nil_append] at hstreaming
        obtain ⟨changed, hchanged, hgiven⟩ := run_streaming
          (hreached.append (.cons trivial hstep (.nil _))) hrest hopened hstreaming
        refine ⟨changed, hchanged, hgiven.attached, ?_⟩
        have hgoing : committed ref handler = false := by
          rw [committed, ha, Option.any_some, hf.connecting hopening]
        rw [arrivedUntilStop, hgoing, hstep]
        exact hgiven.forwarded
      · cases hconnects

end

/-- Two chunks before the stream connects, one while it listens and one after the stop. -/
theorem audio_in_order_spoken :
    ∃ (last : VoiceMessageHandler) (activation : Activation),
      last.activations 0 = some activation ∧ forwarded activation = [[1], [2], [3]] := by
  obtain ⟨handler, hbefore, hheld⟩ : ∃ handler,
      Run step (fun handler action => undisturbed 0 handler action = true) create
        [.start mic, .audioChunk mic [1] false, .audioChunk mic [2] false] handler ∧
      ((exec (guarded step fun handler action => undisturbed 0 handler action = true) handler
        [.openResolves 0 none, .audioChunk mic [3] false, .stop mic,
          .audioChunk mic [4] false]).isSome &&
        decide (arrivedUntilStop 0 handler [.openResolves 0 none, .audioChunk mic [3] false,
          .stop mic, .audioChunk mic [4] false] = [[3]])) = true := exists_run (by decide +kernel)
  obtain ⟨hafter, hlive⟩ := Bool.and_eq_true_iff.mp hheld
  obtain ⟨last, hlast⟩ := Option.isSome_iff_exists.mp hafter
  obtain ⟨activation, ha, -, hforwarded⟩ := audio_in_order hbefore (run_iff_exec.mpr hlast)
  have hearly : (arrivedAlong 0 create [.start mic, .audioChunk mic [1] false,
      .audioChunk mic [2] false]).take maxPendingAudioChunks = [[1], [2]] := by decide +kernel
  rw [hearly, of_decide_eq_true hlive] at hforwarded
  exact ⟨last, activation, ha, hforwarded⟩

end VoiceOrder.Voice.VoiceMessageHandler
