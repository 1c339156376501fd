import VoiceOrder.CartModule.Controller
import VoiceOrder.Realtime.ClientRegistry
import VoiceOrder.Tts.TtsService
import VoiceOrder.Voice.MessageHandler

/-! # The realtime gateway

It owns the sockets: it hands what they send to the voice handler and pushes the events of the
backend to them. The voice sessions and the speech in flight are keyed by session id. -/

namespace VoiceOrder.Realtime

open CartModule Tts
open Backend (Mentioned)
open Voice (VoiceMessageHandler)

inductive OutboundMessage where
  | cartUpdated (cart_id : CartId) (version : ℕ) (cart : Cart)
  | orderReply (cart_id : CartId) (request_id : RequestId) (reply : String)
      (mentioned_items : List Mentioned)
  | voiceError (session_id : SessionId) (reason message : String)
  | operationRejected (cart_id : CartId) (request_id : RequestId) (reason message : String)
  deriving DecidableEq, Repr

structure RealtimeGateway where
  registry : ClientRegistry
  voice : VoiceMessageHandler
  tts : TtsService
  /-- What the gateway itself has sent. -/
  sent : List (ClientConnection × OutboundMessage)
  /-- The `client.connected` events it has emitted. -/
  emitted : List ClientConnected

namespace RealtimeGateway

def create : RealtimeGateway where
  registry := .create
  voice := .create
  tts := .create
  sent := []
  emitted := []

def send (message : OutboundMessage) (targets : List ClientConnection)
    (gateway : RealtimeGateway) : RealtimeGateway :=
  { gateway with sent := gateway.sent ++ targets.map fun conn => (conn, message) }

def onConnect (conn : ClientConnection) (gateway : RealtimeGateway) : RealtimeGateway :=
  { gateway with
    registry := gateway.registry.add conn
    emitted := gateway.emitted ++
      [⟨conn.cart_id, conn.pos_config_id, conn.session_id, conn.device_id, conn.table_id⟩] }

def onDisconnect (conn : ClientConnection) (gateway : RealtimeGateway) : RealtimeGateway :=
  { gateway with
    registry := gateway.registry.remove conn
    voice := gateway.voice.handleDisconnect conn.session_id
    tts := gateway.tts.cancel conn.session_id }

/-- Push an event of the backend out to the connected clients. -/
def onEvent (provider : TtsProvider) (gateway : RealtimeGateway) :
    Backend.Event → RealtimeGateway
  | .operationsProposed .. => gateway
  | .cartUpdated cart _ =>
      gateway.send (.cartUpdated cart.cartId cart.version cart)
        (gateway.registry.getByCart cart.cartId)
  | .orderReply cart_id session_id request_id reply language mentioned_items =>
      match gateway.registry.getBySession session_id with
      | none => gateway
      | some conn =>
          let sent := gateway.send (.orderReply cart_id request_id reply mentioned_items) [conn]
          -- Speak the reply over the same socket, in the language it was written in.
          { sent with
            tts := gateway.tts.speak provider conn.toClientConnection ⟨session_id, request_id⟩
              (codeUnits reply) language }
  | .sessionFailed session_id _ reason message =>
      gateway.send (.voiceError session_id reason message)
        (gateway.registry.getBySession session_id).toList
  | .operationRejected rejection =>
      let targets :=
        match rejection.sessionId with
        | some session_id => (gateway.registry.getBySession session_id).toList
        | none => gateway.registry.getByCart rejection.cartId
      gateway.send
        (.operationRejected rejection.cartId rejection.requestId rejection.reason
          rejection.message) targets

/-- What can happen to the gateway. The voice handler also takes what the sockets, its streams
and its timers do, but learns of a disconnect from the gateway only. -/
inductive Action where
  | connect (conn : ClientConnection)
  | disconnect (conn : ClientConnection)
  | publish (event : Backend.Event)
  | voice (action : VoiceMessageHandler.Action)
  | settles (ref : ReplyRef) (outcome : Tts.Outcome)
  deriving DecidableEq, Repr

def step (provider : TtsProvider) (gateway : RealtimeGateway) : Action → Option RealtimeGateway
  | .connect conn => some (gateway.onConnect conn)
  | .disconnect conn => some (gateway.onDisconnect conn)
  | .publish event => some (gateway.onEvent provider event)
  | .voice (.disconnect _) => none
  | .voice action => (gateway.voice.step action).map fun voice => { gateway with voice := voice }
  | .settles ref outcome =>
      (gateway.tts.step provider (.settles ref outcome)).map fun tts => { gateway with tts := tts }

end RealtimeGateway

end VoiceOrder.Realtime
