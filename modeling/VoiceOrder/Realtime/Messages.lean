import VoiceOrder.Realtime.RealtimeGateway
import VoiceOrder.Shared.JsonText

/-! # The messages on a socket

One socket carries both voice and cart. What the gateway, the voice handler and the speech
synthesis send goes out under one contract; what a client sends is read by its type alone, and
the handlers read the fields they need. -/

namespace VoiceOrder.Realtime

open CartModule Tts
open Backend (Mentioned)
open Voice (VoiceErrorReason)

/-! ## From the client -/

inductive InboundType where
  | voiceStart
  | audioChunk
  | voiceStop
  | resume
  deriving DecidableEq, Repr

/-- A message with all its fields, of which only the type has been checked. -/
structure InboundMessage where
  type : InboundType
  data : Json
  deriving Repr

def inboundTypes : List (String × InboundType) :=
  [("voice.start", .voiceStart), ("voice.audio_chunk", .audioChunk), ("voice.stop", .voiceStop),
    ("connection.resume", .resume)]

/-- The message of a parsed text, if it is an object of a known type. -/
def inboundOf (data : Json) : Option InboundMessage :=
  match data.field "type" with
  | some (.str type) => (inboundTypes.lookup type).map fun type => ⟨type, data⟩
  | _ => none

def parseInbound (numberOf : List Char → ℚ) (raw : String) : Option InboundMessage :=
  (Json.parse numberOf raw).bind inboundOf

/-- The text of a field that is a string. -/
def InboundMessage.text (message : InboundMessage) (key : String) : Option String :=
  match message.data.field key with
  | some (.str text) => some text
  | _ => none

/-- A text asks for the snapshot of a cart. -/
def AsksFor (numberOf : List Char → ℚ) (raw : String) (session_id : SessionId)
    (cart_id : CartId) : Prop :=
  ∃ message, parseInbound numberOf raw = some message ∧ message.type = .resume ∧
    message.text "session_id" = some session_id ∧ message.text "cart_id" = some cart_id

/-! ## To the client -/

inductive Frame where
  | partialTranscript (session_id : SessionId) (text : String)
  | finalTranscript (session_id : SessionId) (text : String)
  | orderReply (cart_id : CartId) (request_id : RequestId) (reply : String)
      (mentioned_items : List Mentioned)
  | audioStart (ctx : TtsContext) (encoding : String) (sample_rate : Option ℕ)
  | audioChunk (ctx : TtsContext) (seq : ℕ) (audio : String)
  | audioEnd (ctx : TtsContext)
  | audioError (ctx : TtsContext) (message : String)
  | cartUpdated (cart_id : CartId) (version : ℕ) (cart : Cart)
  | operationRejected (cart_id : CartId) (request_id : RequestId) (reason message : String)
  | voiceError (session_id : SessionId) (reason message : String)
  /-- The backend closed the mic on its own. -/
  | voiceStopped (session_id : SessionId)
  /-- The snapshot that answers a resume. -/
  | resumed (session_id : SessionId) (cart_id : CartId) (cart_version : ℕ) (cart : Cart)
  deriving DecidableEq, Repr

def reasonText : VoiceErrorReason → String
  | .stt_failed => "stt_failed"
  | .stt_busy => "stt_busy"
  | .final_transcript_timeout => "final_transcript_timeout"

namespace Frame

def ofGateway : OutboundMessage → Frame
  | .cartUpdated cart_id version cart => .cartUpdated cart_id version cart
  | .orderReply cart_id request_id reply mentioned_items =>
      .orderReply cart_id request_id reply mentioned_items
  | .voiceError session_id reason message => .voiceError session_id reason message
  | .operationRejected cart_id request_id reason message =>
      .operationRejected cart_id request_id reason message

def ofVoice : Voice.OutboundMessage → Frame
  | .partialTranscript session_id text => .partialTranscript session_id text
  | .finalTranscript session_id text => .finalTranscript session_id text
  | .error session_id reason message => .voiceError session_id (reasonText reason) message
  | .stopped session_id => .voiceStopped session_id

def ofSpeech : TtsMessage → Frame
  | .audioStart ctx encoding sample_rate => .audioStart ctx encoding sample_rate
  | .audioChunk ctx seq audio => .audioChunk ctx seq audio
  | .audioEnd ctx => .audioEnd ctx
  | .error ctx message => .audioError ctx message

/-- The answer to a text that is no message. -/
def badMessage (session_id : SessionId) : Frame :=
  .voiceError session_id "bad_message" "Unrecognized message."

end Frame

end VoiceOrder.Realtime
