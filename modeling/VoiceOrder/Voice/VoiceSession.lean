import VoiceOrder.Shared.Types
import Mathlib.Logic.Function.Basic

/-! # Voice sessions and their registry -/

namespace VoiceOrder.Voice

inductive VoiceSessionStatus where
  | idle
  | listening
  | interrupted
  | ended
  | failed
  deriving DecidableEq, Repr

abbrev Buffer := List UInt8

/-- A live streaming STT session: what was forwarded to it, and whether it was closed. -/
structure SttStream where
  sent : List Buffer
  closed : Bool
  deriving DecidableEq, Repr

namespace SttStream

def opened : SttStream := ⟨[], false⟩

def sendAudio (chunk : Buffer) (stream : SttStream) : SttStream :=
  { stream with sent := stream.sent ++ [chunk] }

def close (stream : SttStream) : SttStream := { stream with closed := true }

end SttStream

/-- One live client socket, with the identities resolved when it authenticated. -/
structure ClientConnection where
  socket : ℕ
  session_id : SessionId
  cart_id : CartId
  pos_config_id : PosConfigId
  deriving DecidableEq, Repr

/-- In-memory state for one voice session. A timer is armed while it is present; it carries
the connection that its callback sends to. -/
structure VoiceSession where
  session_id : SessionId
  cart_id : CartId
  pos_config_id : PosConfigId
  status : VoiceSessionStatus
  stream : Option SttStream
  /-- Any final transcript arrived. -/
  finalReceived : Bool
  /-- Set the moment a stop is committed. -/
  stopping : Bool
  /-- Armed after a stop while awaiting a final. -/
  finalTimer : Option ClientConnection
  /-- Armed on speech activity; it stops the session by itself. -/
  stopTimer : Option ClientConnection
  lastPartialText : String
  /-- Audio that arrived before the stream finished connecting. -/
  pendingAudio : List Buffer
  /-- Removed from the registry, or superseded by a newer start. -/
  retired : Bool
  deriving DecidableEq, Repr

namespace VoiceSession

def create (session_id : SessionId) (cart_id : CartId) (pos_config_id : PosConfigId) :
    VoiceSession where
  session_id := session_id
  cart_id := cart_id
  pos_config_id := pos_config_id
  status := .idle
  stream := none
  finalReceived := false
  stopping := false
  finalTimer := none
  stopTimer := none
  lastPartialText := ""
  pendingAudio := []
  retired := false

/-- Terminal states accept no more audio or finals. A retired session is terminal too. -/
def isTerminal (session : VoiceSession) : Bool :=
  session.retired || session.status = .ended || session.status = .failed ||
    session.status = .interrupted

/-- Hand over the stream whose connect just resolved, or close it for a retired session. -/
def attachStream (stream : SttStream) (session : VoiceSession) : Except SttStream VoiceSession :=
  if session.retired then .error stream.close else .ok { session with stream := some stream }

/-- Close the stream and bar any still connecting one from being attached. Idempotent. -/
def retire (session : VoiceSession) : VoiceSession :=
  { session with
    retired := true
    stream := if session.retired then session.stream else session.stream.map SttStream.close }

/-- Disarm both timers. -/
def clearTimers (session : VoiceSession) : VoiceSession :=
  { session with finalTimer := none, stopTimer := none }

/-- Arm, or reset, the stopped-talking timer; it is tracked only while actively listening. -/
def armIdleStop (conn : ClientConnection) (session : VoiceSession) : VoiceSession :=
  { session with
    stopTimer := if session.status ≠ .listening ∨ session.stopping then none else some conn }

/-- Forward a chunk to the attached stream. -/
def sendAudio (chunk : Buffer) (session : VoiceSession) : VoiceSession :=
  { session with stream := session.stream.map (SttStream.sendAudio chunk) }

end VoiceSession

end VoiceOrder.Voice
