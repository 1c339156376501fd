import VoiceOrder.Ordering.AgentReply
import VoiceOrder.RateLimit.LeaseClosing
import VoiceOrder.RateLimit.RetryAfter

/-! # A session of the speech provider

`openStream` with the callbacks of its socket and the stream that it returns. The factory, the
socket and the handlers may throw, and the socket may call back at any time: every call is broken
up where it calls out, and anything may happen in between. A handler is called last in each
callback, so that nothing depends on whether it throws. -/

namespace VoiceOrder.Stt

open RateLimit

/-- What is read off a thrown value. A field that is no number is none. -/
structure StreamingError where
  message : String
  status : Option ℚ
  statusCode : Option ℚ
  /-- The close code that the SDK puts on its errors. -/
  code : Option ℚ
  /-- The hold-off that its headers ask for, if they have a usable one. -/
  retryAfter : Option ℚ
  deriving DecidableEq, Repr

/-- The error of an acquire that got no capacity; its code is no number. -/
def StreamingError.ofLimiter (error : RateLimitTimeoutError) : StreamingError where
  message := error.message
  status := none
  statusCode := none
  code := none
  retryAfter := none

/-- Rate limited, too many streams, too many concurrent sessions. A session id in use is our own
bug and no matter of quota. -/
def overLimitCloseCodes : List ℚ := [4029, 4102, 3009]

def is429 (error : StreamingError) : Bool := has429 error.status error.statusCode

/-- The provider refused the session for rate or quota. -/
def isOverLimit (error : StreamingError) : Bool :=
  is429 error || error.code.any (· ∈ overLimitCloseCodes)

def retryAfterMs (error : StreamingError) : ℚ := holdOff error.retryAfter

structure TurnEvent where
  transcript : String
  endOfTurn : Bool
  turnIsFormatted : Bool
  turnOrder : ℤ
  deriving DecidableEq, Repr

/-- The events that the socket is listened to for, in the order the listeners are registered. -/
inductive Listener where
  | turn
  | error
  | close
  deriving DecidableEq, Repr

/-- Where `openStream` stands: at the acquire, at the factory, at a listener, at the handshake, or
settled. -/
inductive Opening where
  | acquiring
  | making
  | registering (listener : Listener)
  | connecting
  | opened
  | failed (error : StreamingError)
  deriving DecidableEq, Repr

/-- What comes after the registration of a listener. -/
def Listener.next : Listener → Opening
  | .turn => .registering .error
  | .error => .registering .close
  | .close => .connecting

/-- A call that has called out: a `stop` at the endpoint or at the flush, a `close` at the socket,
or the error callback at the socket. -/
inductive Frame where
  | forcing
  | flushing
  | dropping
  | erring (error : StreamingError)
  deriving DecidableEq, Repr

/-- A call of a handler. -/
inductive Report where
  | onPartial (text : String)
  | onFinal (text : String)
  | onError (message : String)
  deriving DecidableEq, Repr

/-- What has happened to a session. -/
inductive Happening where
  /-- `openStream` threw. -/
  | failed (error : StreamingError)
  | turned (turn : TurnEvent) (report : Option Report)
  | errored (error : StreamingError)
  /-- The error callback has called its handler. -/
  | reported (error : StreamingError)
  | closed (code : ℤ) (reason : String) (report : Option Report)
  /-- A `stop` or a `close` has begun, and has ended. -/
  | stopping
  | stopped (result : Except StreamingError Unit)
  | closing
  | dropped (result : Except StreamingError Unit)
  deriving DecidableEq, Repr

structure SttSession where
  opening : Opening
  registered : List Listener
  finalDelivered : Bool
  lastFinalTurn : ℤ
  /-- We tore the socket down ourselves. -/
  selfClosing : Bool
  /-- The calls that have called out and go on later. -/
  calls : ℕ → Option Frame
  nextCall : ℕ
  /-- History. -/
  happened : List Happening

/-- A call on the lease, or on the limiter for the next ones. -/
inductive LeaseCall where
  | settle
  | abandon
  | penalize (ms : ℚ)
  deriving DecidableEq, Repr

/-- What the world does: it lets a call that was made return or throw, it calls back, or it calls
the stream. -/
inductive Event where
  | made (result : Except StreamingError Unit)
  | registered (result : Except StreamingError Unit)
  | connected (result : Except StreamingError Unit)
  | turn (turn : TurnEvent)
  | error (error : StreamingError)
  | close (code : ℤ) (reason : String)
  | stop
  | drop
  | returned (call : ℕ) (result : Except StreamingError Unit)
  deriving DecidableEq, Repr

namespace SttSession

def create : SttSession where
  opening := .acquiring
  registered := []
  finalDelivered := false
  lastFinalTurn := -1
  selfClosing := false
  calls := fun _ => none
  nextCall := 0
  happened := []

def log (happening : Happening) (session : SttSession) : SttSession :=
  { session with happened := session.happened ++ [happening] }

def begin (frame : Frame) (session : SttSession) : SttSession :=
  { session with
    calls := Function.update session.calls session.nextCall (some frame)
    nextCall := session.nextCall + 1 }

/-- The `catch` of `openStream`: a refusal for rate was counted by the provider and settles, any
other failure never became a session. -/
def fail (error : StreamingError) (session : SttSession) : SttSession × List LeaseCall :=
  ({ session with opening := .failed error }.log (.failed error),
    if isOverLimit error then [.settle, .penalize (retryAfterMs error)] else [.abandon])

/-- A step of `attach` throws, or goes on to the next. -/
def attach (session next : SttSession) (result : Except StreamingError Unit) :
    SttSession × List LeaseCall :=
  match result with
  | .ok () => (next, [])
  | .error error => session.fail error

def onTurn (turn : TurnEvent) (session : SttSession) : SttSession :=
  let text := Ordering.AgentReply.trim turn.transcript
  if ¬turn.endOfTurn then
    session.log (.turned turn (if text ≠ "" then some (.onPartial text) else none))
  else if ¬turn.turnIsFormatted ∨ turn.turnOrder = session.lastFinalTurn ∨ text = "" then
    session.log (.turned turn none)
  else
    { session with lastFinalTurn := turn.turnOrder, finalDelivered := true }.log
      (.turned turn (some (.onFinal text)))

/-- The permit is handed back first; the socket is dropped before the handler is called. -/
def onSocketError (error : StreamingError) (session : SttSession) : SttSession × List LeaseCall :=
  (({ session with selfClosing := true }.log (.errored error)).begin (.erring error), [.settle])

def closedMessage (code : ℤ) (reason : String) : String :=
  "stt_socket_closed_before_final_transcript: " ++ toString code ++ " " ++ reason

def onSocketClose (code : ℤ) (reason : String) (session : SttSession) : SttSession × List LeaseCall :=
  let report := if ¬session.finalDelivered ∧ ¬session.selfClosing then
    some (Report.onError (closedMessage code reason)) else none
  (session.log (.closed code reason report), [.settle])

def stop (session : SttSession) : SttSession :=
  ({ session with selfClosing := true }.log .stopping).begin .forcing

def close (session : SttSession) : SttSession :=
  ({ session with selfClosing := true }.log .closing).begin .dropping

/-- A call goes on once what it called has returned or thrown. -/
def goOn (call : ℕ) (frame : Frame) (result : Except StreamingError Unit) (session : SttSession) :
    SttSession × List LeaseCall :=
  let ended := { session with calls := Function.update session.calls call none }
  match frame, result with
  | .forcing, .ok () =>
      ({ session with calls := Function.update session.calls call (some .flushing) }, [])
  | .forcing, .error error => (ended.log (.stopped (.error error)), [.settle])
  | .flushing, result => (ended.log (.stopped result), [.settle])
  | .dropping, result => (ended.log (.dropped result), [.settle])
  | .erring error, _ => (ended.log (.reported error), [])

/-- What an event does to a session past its acquire, and the calls it makes on the lease. A
callback needs its listener, and the stream is there once `openStream` has returned it. -/
def step (session : SttSession) : Event → Option (SttSession × List LeaseCall)
  | .made result =>
      if session.opening = .making then
        some (session.attach { session with opening := .registering .turn } result)
      else none
  | .registered result =>
      match session.opening with
      | .registering listener =>
          some (session.attach { session with
            opening := listener.next
            registered := session.registered ++ [listener] } result)
      | _ => none
  | .connected result =>
      if session.opening = .connecting then
        some (session.attach { session with opening := .opened } result)
      else none
  | .turn turn => if .turn ∈ session.registered then some (session.onTurn turn, []) else none
  | .error error => if .error ∈ session.registered then some (session.onSocketError error) else none
  | .close code reason =>
      if .close ∈ session.registered then some (session.onSocketClose code reason) else none
  | .stop => if session.opening = .opened then some (session.stop, []) else none
  | .drop => if session.opening = .opened then some (session.close, []) else none
  | .returned call result =>
      (session.calls call).map fun frame => session.goOn call frame result

end SttSession

end VoiceOrder.Stt
