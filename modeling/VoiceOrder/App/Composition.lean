import VoiceOrder.Async.Bus
import VoiceOrder.Backend.Serial
import VoiceOrder.Realtime.WebSocketServer

/-! # The composition root

The transport with the gateway behind it, and the backend with its turns and its carts, run in
one process and talk to each other over the event bus alone. A listener runs within the emit. -/

namespace VoiceOrder

open Async CartModule Backend VoiceOrder.Ordering Realtime
open Voice (VoiceMessageHandler)

structure App where
  process : Process
  server : WebSocketServer
  /-- The final transcripts that went over the bus, in order. -/
  heard : List SttFinalTranscriptReceived
  /-- The events of the backend that went over the bus, in order. -/
  published : List Event

namespace App

/-- What the process runs on. -/
structure Platform extends Transport where
  ttsLanguage : LangCode

def create (initial : Store) : App where
  process := .create initial
  server := .create
  heard := []
  published := []

/-! ## The listeners -/

/-- What the voice sessions have put on the bus since an earlier state. -/
def voiceEvents (before after : VoiceMessageHandler) : List Voice.BusEvent :=
  (List.range after.nextRef).flatMap fun ref =>
    let earlier := ((before.activations ref).elim [] Voice.Activation.outputs).length
    let later := (after.activations ref).elim [] Voice.Activation.outputs
    (later.drop earlier).filterMap fun output =>
      match output with
      | .send _ _ => none
      | .emit event => some event

/-- The end of a session has no listener. -/
def transcriptOf : Voice.BusEvent → Option SttFinalTranscriptReceived
  | .finalTranscriptReceived request_id session_id cart_id pos_config_id text =>
      some ⟨request_id, session_id, cart_id, pos_config_id, text⟩
  | .sessionEnded _ _ => none

/-- The connects that the gateway has put on the bus since an earlier state. -/
def connectsSince (before after : RealtimeGateway) : List ClientConnected :=
  after.emitted.drop before.emitted.length

/-- The transcripts that the voice sessions have put on the bus since an earlier state. -/
def transcriptsSince (before after : RealtimeGateway) : List SttFinalTranscriptReceived :=
  (voiceEvents before.voice after.voice).filterMap transcriptOf

/-- A connect has its cart ensured, and a transcript becomes a turn. -/
def jobsSince (before after : RealtimeGateway) : List Job :=
  (connectsSince before after).map .ensureCart ++ (transcriptsSince before after).map .turn

def submitAll (jobs : List Job) (process : Process) : Process :=
  (jobs.map fun job => (job.lane, job)).foldl Machine.submit process

/-! ## Steps -/

inductive Action where
  | transport (action : WebSocketServer.Action)
  | backend (action : Backend.Action)
  /-- The route that confirms a cart was called. -/
  | confirm (cartId : CartId)

/-- The gateway hears of the backend over the bus only, and a snapshot is the stored cart. -/
def fromTransport (app : App) : WebSocketServer.Action → Bool
  | .behind (.publish _) => false
  | .readResume index found _ =>
      (app.server.resumes[index]?).any fun resume => found = app.process.state.carts resume.cart_id
  | _ => true

/-- Jobs are queued by the listeners and the routes only. -/
def fromBackend : Backend.Action → Bool
  | .submit _ _ => false
  | _ => true

def onTransport (server : WebSocketServer) (app : App) : App where
  process := submitAll (jobsSince app.server.gateway server.gateway) app.process
  server := server
  heard := app.heard ++ transcriptsSince app.server.gateway server.gateway
  published := app.published

def onBackend (platform : Platform) (action : Backend.Action) (process : Process) (app : App) :
    Option App :=
  match app.process.emitted? action with
  | none => some { app with process := process }
  | some (_, event) =>
      (app.server.step platform.toTransport (.behind (.publish event))).map fun server =>
        { app with
          process := process
          server := server
          published := app.published ++ [event] }

def step (platform : Platform) (app : App) : Action → Option App
  | .transport action =>
      if fromTransport app action then
        (app.server.step platform.toTransport action).map fun server => onTransport server app
      else none
  | .backend action =>
      if fromBackend action then
        (app.process.step (backend platform.ttsLanguage) action).bind fun process =>
          onBackend platform action process app
      else none
  | .confirm cartId => some { app with process := submitAll [.confirm cartId] app.process }

end App

end VoiceOrder
