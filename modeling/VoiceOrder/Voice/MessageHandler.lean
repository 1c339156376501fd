import VoiceOrder.Shared.Runs
import VoiceOrder.Voice.VoiceSession

/-! # The inbound voice handler

It owns STT streaming: partials go back to the client, the final transcript goes to the event
bus. Between two of its awaits anything can happen to the session they are about. -/

namespace VoiceOrder.Voice

/-- Cap on audio chunks buffered during the STT connect. -/
def maxPendingAudioChunks : ℕ := 200

inductive VoiceErrorReason where
  | stt_failed
  | stt_busy
  | final_transcript_timeout
  deriving DecidableEq, Repr

inductive OutboundMessage where
  | partialTranscript (session_id : SessionId) (text : String)
  | finalTranscript (session_id : SessionId) (text : String)
  | error (session_id : SessionId) (reason : VoiceErrorReason) (message : String)
  /-- The idle timer closed the mic. -/
  | stopped (session_id : SessionId)
  deriving DecidableEq, Repr

inductive BusEvent where
  | finalTranscriptReceived (request_id : RequestId) (session_id : SessionId) (cart_id : CartId)
      (pos_config_id : PosConfigId) (text : String)
  | sessionEnded (session_id : SessionId) (cart_id : CartId)
  deriving DecidableEq, Repr

inductive Output where
  | send (conn : ClientConnection) (message : OutboundMessage)
  | emit (event : BusEvent)
  deriving DecidableEq, Repr

/-- A terminal notification: the session failed, or it ended. -/
def Output.isTerminal : Output → Bool
  | .send _ (.error ..) => true
  | .emit (.sessionEnded ..) => true
  | _ => false

/-- One session with what the callbacks and the continuations about it hold, and all that they
have sent on the socket or emitted on the bus. -/
structure Activation where
  /-- The connection that the stream callbacks send to. -/
  conn : ClientConnection
  session : VoiceSession
  /-- Its `openStream` has not settled. -/
  opening : Bool
  /-- The `stop` calls of its stream that have not settled, with the connection that each of
  their continuations sends to. -/
  stops : List ClientConnection
  outputs : List Output
  /-- A stream that connected too late and was closed instead of attached. -/
  discarded : Option SttStream
  deriving DecidableEq, Repr

namespace Activation

def create (conn : ClientConnection) : Activation where
  conn := conn
  session := .create conn.session_id conn.cart_id conn.pos_config_id
  opening := true
  stops := []
  outputs := []
  discarded := none

def send (conn : ClientConnection) (message : OutboundMessage) (activation : Activation) :
    Activation :=
  { activation with outputs := activation.outputs ++ [.send conn message] }

def emit (event : BusEvent) (activation : Activation) : Activation :=
  { activation with outputs := activation.outputs ++ [.emit event] }

/-- Write fields of the session. -/
def modify (change : VoiceSession → VoiceSession) (activation : Activation) : Activation :=
  { activation with session := change activation.session }

/-! ## The stream callbacks -/

/-- Display only, straight back to the client. Real speech progress resets the idle timer. -/
def onPartial (text : String) (activation : Activation) : Activation :=
  if activation.session.isTerminal then activation
  else
    let shown := activation.send activation.conn
      (.partialTranscript activation.session.session_id text)
    if text.toList.any (fun c => !isWhiteSpace c) ∧ text ≠ activation.session.lastPartialText then
      shown.modify fun session =>
        { session with lastPartialText := text }.armIdleStop activation.conn
    else shown

/-- Close the session out if it was awaiting its final after a stop. -/
def endAwaited (activation : Activation) : Activation :=
  if activation.session.finalTimer.isSome then
    (activation.modify fun session => { session with finalTimer := none, status := .ended }).emit
      (.sessionEnded activation.session.session_id activation.session.cart_id)
  else activation

/-- The one signal that may touch the cart. `request_id` is the turn id minted for it. -/
def onFinal (request_id : RequestId) (text : String) (activation : Activation) : Activation :=
  if activation.session.isTerminal then activation
  else
    let received := activation.modify fun session => { session with finalReceived := true }
    let shown := received.send activation.conn
      (.finalTranscript activation.session.session_id text)
    let emitted := shown.emit (.finalTranscriptReceived request_id activation.session.session_id
      activation.session.cart_id activation.session.pos_config_id text)
    emitted.endAwaited.modify fun session =>
      { session with lastPartialText := "" }.armIdleStop activation.conn

def onError (activation : Activation) : Activation :=
  let disarmed := activation.modify fun session => { session with stopTimer := none }
  if activation.session.isTerminal then disarmed
  else
    (disarmed.modify fun session => { session with status := .failed }).send activation.conn
      (.error activation.session.session_id .stt_failed
        "Speech recognition disconnected. Please repeat your last sentence.")

/-! ## The end of the handshake -/

/-- The connect failed; `isCurrent` was read before the session was retired. -/
def openFailed (isCurrent busy : Bool) (activation : Activation) : Activation :=
  let retired := { activation with opening := false }.modify VoiceSession.retire
  if !isCurrent then retired
  else
    retired.send activation.conn
      (.error activation.session.session_id (if busy then .stt_busy else .stt_failed)
        (if busy then "We're a bit busy right now — please try again in a moment."
          else "Speech recognition is unavailable. Please try again."))

/-- Flush the audio that arrived during the connect and go live. `failsAt` is the number of
chunks that the stream takes before it throws. -/
def flush (failsAt : Option ℕ) (session : VoiceSession) : VoiceSession :=
  let sent := (session.pendingAudio.take (failsAt.getD session.pendingAudio.length)).foldl
    (fun session chunk => session.sendAudio chunk) session
  if failsAt.all (fun n => session.pendingAudio.length ≤ n) then
    { sent with pendingAudio := [], status := .listening }
  else sent

def opened (failsAt : Option ℕ) (activation : Activation) : Activation :=
  let settled := { activation with opening := false }
  match activation.session.attachStream .opened with
  | .error stream => { settled with discarded := some stream }
  | .ok session => { settled with session := flush failsAt session }

/-! ## Audio, stops and timers -/

/-- `throws` says that the stream refuses the chunk. -/
def handleAudioChunk (audio : Buffer) (throws : Bool) (activation : Activation) : Activation :=
  if activation.session.stopping then activation
  else if activation.session.isTerminal then activation
  else if activation.session.stream.isNone ∨ activation.session.status ≠ .listening then
    if activation.session.pendingAudio.length < maxPendingAudioChunks then
      activation.modify fun session =>
        { session with pendingAudio := session.pendingAudio ++ [audio] }
    else activation
  else if throws then activation
  else activation.modify (VoiceSession.sendAudio audio)

/-- Commit to a stop and flush the stream, unless a stop is already under way. -/
def stopSession (conn : ClientConnection) (activation : Activation) : Activation :=
  if activation.session.stream.isNone then activation
  else if activation.session.stopping ∨ activation.session.finalTimer.isSome ∨
      activation.session.status = .ended ∨ activation.session.status = .failed then activation
  else
    { activation with stops := activation.stops ++ [conn] }.modify fun session =>
      { session with stopping := true, stopTimer := none }

/-- The stream has flushed: the session ended if its final came, else it gets a grace window. -/
def stopped (conn : ClientConnection) (activation : Activation) : Activation :=
  if activation.session.finalReceived then
    (activation.modify fun session => { session with status := .ended }).emit
      (.sessionEnded activation.session.session_id activation.session.cart_id)
  else activation.modify fun session => { session with finalTimer := some conn }

/-- The grace window closed. -/
def finalTimerFired (conn : ClientConnection) (activation : Activation) : Activation :=
  let disarmed := activation.modify fun session => { session with finalTimer := none }
  if activation.session.finalReceived ∨ activation.session.status = .failed then disarmed
  else
    (disarmed.modify fun session => { session with status := .failed }).send conn
      (.error activation.session.session_id .final_transcript_timeout
        "I did not catch that. Please try again.")

/-- The customer stopped talking. -/
def stopTimerFired (isCurrent : Bool) (conn : ClientConnection) (activation : Activation) :
    Activation :=
  let disarmed := activation.modify fun session => { session with stopTimer := none }
  if !isCurrent then disarmed
  else if activation.session.status ≠ .listening ∨ activation.session.stopping then disarmed
  else (disarmed.send conn (.stopped activation.session.session_id)).stopSession conn

/-- The socket closed: partials are discarded, the cart is kept. -/
def disconnected (activation : Activation) : Activation :=
  activation.modify fun session =>
    { session.clearTimers with
      status := if session.status = .listening then .interrupted else session.status }

end Activation

/-- The identity of a session object. -/
abbrev SessionRef := ℕ

/-- The handler with the registry of its sessions. -/
structure VoiceMessageHandler where
  /-- The live sessions, by id. -/
  sessions : SessionId → Option SessionRef
  activations : SessionRef → Option Activation
  /-- Every session created so far has a smaller reference. -/
  nextRef : SessionRef

namespace VoiceMessageHandler

def create : VoiceMessageHandler where
  sessions := fun _ => none
  activations := fun _ => none
  nextRef := 0

def update (ref : SessionRef) (change : Activation → Activation) (handler : VoiceMessageHandler) :
    VoiceMessageHandler :=
  { handler with
    activations := Function.update handler.activations ref
      ((handler.activations ref).map change) }

/-- The session is the one registered under its id. -/
def isCurrent (handler : VoiceMessageHandler) (ref : SessionRef) (activation : Activation) : Bool :=
  handler.sessions activation.session.session_id = some ref

/-- Evict and retire: closes the STT stream, or has one still connecting closed as it arrives. -/
def remove (session_id : SessionId) (handler : VoiceMessageHandler) : VoiceMessageHandler :=
  match handler.sessions session_id with
  | none => handler
  | some ref =>
      { handler with sessions := Function.update handler.sessions session_id none }.update ref
        (Activation.modify VoiceSession.retire)

/-- Fully retire the prior session of the id: its timers and its stream. -/
def vacate (session_id : SessionId) (handler : VoiceMessageHandler) : VoiceMessageHandler :=
  match handler.sessions session_id with
  | none => handler
  | some existing =>
      (handler.update existing (Activation.modify VoiceSession.clearTimers)).remove session_id

/-- Create the session and begin its connect. -/
def handleStart (conn : ClientConnection) (handler : VoiceMessageHandler) : VoiceMessageHandler :=
  let vacated := handler.vacate conn.session_id
  { sessions := Function.update vacated.sessions conn.session_id (some vacated.nextRef)
    activations := Function.update vacated.activations vacated.nextRef (some (.create conn))
    nextRef := vacated.nextRef + 1 }

/-- The rejected `openStream`: evict the session only if it is still the current one, since
evicting by id could close the stream of the one that replaced it. -/
def openRejected (ref : SessionRef) (busy : Bool) (activation : Activation)
    (handler : VoiceMessageHandler) : VoiceMessageHandler :=
  let current := handler.isCurrent ref activation
  { handler with
    sessions :=
      if current then Function.update handler.sessions activation.session.session_id none
      else handler.sessions }.update ref (Activation.openFailed current busy)

def handleDisconnect (session_id : SessionId) (handler : VoiceMessageHandler) :
    VoiceMessageHandler :=
  match handler.sessions session_id with
  | none => handler
  | some ref => (handler.update ref Activation.disconnected).remove session_id

/-- What can happen to the handler, in any order. -/
inductive Action where
  | start (conn : ClientConnection)
  | audioChunk (conn : ClientConnection) (audio : Buffer) (throws : Bool)
  | stop (conn : ClientConnection)
  | disconnect (session_id : SessionId)
  | partialArrives (ref : SessionRef) (text : String)
  | finalArrives (ref : SessionRef) (request_id : RequestId) (text : String)
  | errorArrives (ref : SessionRef)
  | openResolves (ref : SessionRef) (failsAt : Option ℕ)
  | openRejects (ref : SessionRef) (busy : Bool)
  /-- The `index`-th of the `stop` calls in flight resolves. -/
  | stopResolves (ref : SessionRef) (index : ℕ)
  | stopRejects (ref : SessionRef) (index : ℕ)
  | finalTimerFires (ref : SessionRef)
  | stopTimerFires (ref : SessionRef)
  deriving DecidableEq, Repr

/-- Act on the session registered under an id, if there is one. -/
def onCurrent (session_id : SessionId) (change : Activation → Activation)
    (handler : VoiceMessageHandler) : VoiceMessageHandler :=
  match handler.sessions session_id with
  | none => handler
  | some ref => handler.update ref change

def step (handler : VoiceMessageHandler) : Action → Option VoiceMessageHandler
  | .start conn => some (handler.handleStart conn)
  | .audioChunk conn audio throws =>
      some (handler.onCurrent conn.session_id (Activation.handleAudioChunk audio throws))
  | .stop conn => some (handler.onCurrent conn.session_id (Activation.stopSession conn))
  | .disconnect session_id => some (handler.handleDisconnect session_id)
  | .partialArrives ref text =>
      (handler.activations ref).map fun _ => handler.update ref (Activation.onPartial text)
  | .finalArrives ref request_id text =>
      (handler.activations ref).map fun _ =>
        handler.update ref (Activation.onFinal request_id text)
  | .errorArrives ref =>
      (handler.activations ref).map fun _ => handler.update ref Activation.onError
  | .openResolves ref failsAt =>
      (handler.activations ref).bind fun activation =>
        if activation.opening then some (handler.update ref (Activation.opened failsAt)) else none
  | .openRejects ref busy =>
      (handler.activations ref).bind fun activation =>
        if activation.opening then some (handler.openRejected ref busy activation) else none
  | .stopResolves ref index =>
      (handler.activations ref).bind fun activation =>
        (activation.stops[index]?).map fun conn =>
          handler.update ref fun activation =>
            { activation with stops := activation.stops.eraseIdx index }.stopped conn
  | .stopRejects ref index =>
      (handler.activations ref).map fun _ =>
        handler.update ref fun activation =>
          { activation with stops := activation.stops.eraseIdx index }
  | .finalTimerFires ref =>
      (handler.activations ref).bind fun activation =>
        activation.session.finalTimer.map fun conn =>
          handler.update ref (Activation.finalTimerFired conn)
  | .stopTimerFires ref =>
      (handler.activations ref).bind fun activation =>
        activation.session.stopTimer.map fun conn =>
          handler.update ref
            (Activation.stopTimerFired (handler.isCurrent ref activation) conn)

end VoiceMessageHandler

end VoiceOrder.Voice
