import VoiceOrder.Shared.Runs
import VoiceOrder.Tts.SegmentText
import VoiceOrder.Voice.MessageHandler

/-! # Speech synthesis

The service turns a spoken reply into a stream of frames on a client socket, one chunk of audio
for each segment. Several streams of one session can be suspended in `synthesize` at once. -/

namespace VoiceOrder.Tts

open Voice (ClientConnection Buffer)

def base64Digit (value : ℕ) : Char :=
  if value < 26 then Char.ofNat ('A'.toNat + value)
  else if value < 52 then Char.ofNat ('a'.toNat + (value - 26))
  else if value < 62 then Char.ofNat ('0'.toNat + (value - 52))
  else if value = 62 then '+'
  else '/'

/-- Three bytes at a time, the last group padded. -/
def base64Chars : Buffer → List Char
  | [] => []
  | [first] =>
      [base64Digit (first.toNat / 4), base64Digit (first.toNat % 4 * 16), '=', '=']
  | [first, second] =>
      [base64Digit (first.toNat / 4),
        base64Digit (first.toNat % 4 * 16 + second.toNat / 16),
        base64Digit (second.toNat % 16 * 4), '=']
  | first :: second :: third :: rest =>
      [base64Digit (first.toNat / 4),
        base64Digit (first.toNat % 4 * 16 + second.toNat / 16),
        base64Digit (second.toNat % 16 * 4 + third.toNat / 64),
        base64Digit (third.toNat % 64)] ++ base64Chars rest

def toBase64 (audio : Buffer) : String := String.ofList (base64Chars audio)

example : toBase64 [0xde, 0xad] = "3q0=" := by decide

/-- What the provider advertises about the audio it emits. -/
structure TtsProvider where
  encoding : String
  sampleRate : Option ℕ
  deriving DecidableEq, Repr

/-- How one call of `synthesize` settles. -/
inductive Outcome where
  | resolved (audio : Buffer)
  | rejected (message : String)
  deriving DecidableEq, Repr

/-- Correlation ids for the audio stream of one reply. -/
structure TtsContext where
  session_id : SessionId
  request_id : RequestId
  deriving DecidableEq, Repr

inductive TtsMessage where
  | audioStart (ctx : TtsContext) (encoding : String) (sample_rate : Option ℕ)
  | audioChunk (ctx : TtsContext) (seq : ℕ) (audio : String)
  | audioEnd (ctx : TtsContext)
  | error (ctx : TtsContext) (message : String)
  deriving DecidableEq, Repr

/-- One call of `stream` with its abort controller, and what it has passed to the provider and
to the socket. -/
structure Reply where
  conn : ClientConnection
  ctx : TtsContext
  segments : List CodeUnits
  language : LangCode
  /-- The signal of its controller. -/
  aborted : Bool
  seq : ℕ
  /-- The segment in `synthesize` and those after it; none once the stream has returned. -/
  pending : List CodeUnits
  /-- The segments passed to `synthesize`. -/
  asked : List CodeUnits
  /-- How those calls settled. -/
  settled : List Outcome
  /-- All it has sent on the socket. -/
  frames : List TtsMessage
  deriving DecidableEq, Repr

namespace Reply

def send (message : TtsMessage) (reply : Reply) : Reply :=
  { reply with frames := reply.frames ++ [message] }

/-- The stream returns. -/
def exit (reply : Reply) : Reply := { reply with pending := [] }

/-- Go on with the segments left: one more call of `synthesize`, or the end of the audio. -/
def next (rest : List CodeUnits) (reply : Reply) : Reply :=
  match rest with
  | [] => (reply.send (.audioEnd reply.ctx)).exit
  | segment :: _ => { reply with pending := rest, asked := reply.asked ++ [segment] }

/-- The stream up to its first `await`. -/
def start (provider : TtsProvider) (conn : ClientConnection) (ctx : TtsContext)
    (segments : List CodeUnits) (language : LangCode) : Reply :=
  let opened : Reply := {
    conn := conn
    ctx := ctx
    segments := segments
    language := language
    aborted := false
    seq := 0
    pending := segments
    asked := []
    settled := []
    frames := [] }
  (opened.send (.audioStart ctx provider.encoding provider.sampleRate)).next segments

def abort (reply : Reply) : Reply := { reply with aborted := true }

/-- Ship the audio of one segment as a chunk of its own, unless it is empty. -/
def ship (audio : Buffer) (reply : Reply) : Reply :=
  if audio.isEmpty then reply
  else { reply.send (.audioChunk reply.ctx reply.seq (toBase64 audio)) with seq := reply.seq + 1 }

/-- The awaited `synthesize` settles. -/
def resume (outcome : Outcome) (reply : Reply) : Reply :=
  let reply := { reply with settled := reply.settled ++ [outcome] }
  -- Superseded or disconnected: stay silent, whether the audio came or the abort rejected it.
  if reply.aborted then reply.exit
  else
    match outcome with
    | .rejected message => (reply.send (.error reply.ctx message)).exit
    | .resolved audio => (reply.ship audio).next reply.pending.tail

end Reply

/-- The identity of a controller, in the order of their creation. -/
abbrev ReplyRef := ℕ

structure TtsService where
  /-- The controller of the reply in flight, by session. -/
  inflight : SessionId → Option ReplyRef
  replies : ReplyRef → Option Reply
  /-- Every reply started so far has a smaller reference. -/
  nextRef : ReplyRef

namespace TtsService

def create : TtsService where
  inflight := fun _ => none
  replies := fun _ => none
  nextRef := 0

def update (ref : ReplyRef) (change : Reply → Reply) (service : TtsService) : TtsService :=
  { service with replies := Function.update service.replies ref ((service.replies ref).map change) }

/-- Abort the reply in flight of a session, if there is one. -/
def abortInflight (session_id : SessionId) (service : TtsService) : TtsService :=
  match service.inflight session_id with
  | none => service
  | some ref => service.update ref Reply.abort

def speak (provider : TtsProvider) (conn : ClientConnection) (ctx : TtsContext) (text : CodeUnits)
    (language : LangCode) (service : TtsService) : TtsService :=
  let segments := segmentText text
  if segments.isEmpty then service
  else
    let superseded := service.abortInflight ctx.session_id
    { inflight := Function.update superseded.inflight ctx.session_id (some superseded.nextRef)
      replies := Function.update superseded.replies superseded.nextRef
        (some (.start provider conn ctx segments language))
      nextRef := superseded.nextRef + 1 }

/-- Cancel any synthesis in flight of a session; the reply ends silently. -/
def cancel (session_id : SessionId) (service : TtsService) : TtsService :=
  match service.inflight session_id with
  | none => service
  | some ref =>
      { service.update ref Reply.abort with
        inflight := Function.update service.inflight session_id none }

/-- The `finally` of the stream: drop the handle only if it is still ours. -/
def release (ref : ReplyRef) (session_id : SessionId) (service : TtsService) : TtsService :=
  if service.inflight session_id = some ref then
    { service with inflight := Function.update service.inflight session_id none }
  else service

/-- The awaited `synthesize` of a reply settles. -/
def settle (ref : ReplyRef) (outcome : Outcome) (reply : Reply) (service : TtsService) :
    TtsService :=
  let resumed := service.update ref (Reply.resume outcome)
  if (reply.resume outcome).pending.isEmpty then resumed.release ref reply.ctx.session_id
  else resumed

inductive Action where
  | speak (conn : ClientConnection) (ctx : TtsContext) (text : CodeUnits) (language : LangCode)
  | cancel (session_id : SessionId)
  | settles (ref : ReplyRef) (outcome : Outcome)
  deriving DecidableEq, Repr

def step (provider : TtsProvider) (service : TtsService) : Action → Option TtsService
  | .speak conn ctx text language => some (service.speak provider conn ctx text language)
  | .cancel session_id => some (service.cancel session_id)
  | .settles ref outcome =>
      (service.replies ref).bind fun reply =>
        if reply.pending.isEmpty then none else some (service.settle ref outcome reply)

end TtsService

end VoiceOrder.Tts
