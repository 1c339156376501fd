import VoiceOrder.Realtime.Heartbeat
import VoiceOrder.Realtime.Reachability
import VoiceOrder.Tts.Supersession
import VoiceOrder.Voice.Attribution

/-! # No socket hears of another session or cart

The connections that the gateway holds are those of its sockets, and each of them is sent frames
of its own session and of its own cart only. -/

namespace VoiceOrder.Realtime

open Runs Tts
open Voice (VoiceMessageHandler)

/-- What there is to answer: the events that the backend published, and the snapshots that the
sockets asked for. -/
structure Given where
  published : Backend.Event → Prop
  asked : ℕ → SessionId → CartId → Prop

/-- Whatever there was to answer, there still is. -/
def Given.Within (given later : Given) : Prop :=
  (∀ event, given.published event → later.published event) ∧
    ∀ socket session_id cart_id, given.asked socket session_id cart_id →
      later.asked socket session_id cart_id

/-- The frame names the session of the connection, or its cart in its current version. An order
reply was published for that session; so was a rejection, or for the cart where it names no
session. A snapshot answers the socket that asked for it, whichever session and cart it named. -/
def Frame.For (given : Given) (conn : Voice.ClientConnection) : Frame → Prop
  | .partialTranscript session_id _ | .finalTranscript session_id _ | .voiceError session_id _ _
  | .voiceStopped session_id => session_id = conn.session_id
  | .audioStart ctx _ _ | .audioChunk ctx _ _ | .audioEnd ctx | .audioError ctx _ =>
      ctx.session_id = conn.session_id
  | .cartUpdated cart_id version cart =>
      cart_id = conn.cart_id ∧ cart.cartId = cart_id ∧ cart.version = version ∧
        ∃ requestId, given.published (.cartUpdated cart requestId)
  | .orderReply cart_id request_id reply mentioned_items => ∃ language,
      given.published
        (.orderReply cart_id conn.session_id request_id reply language mentioned_items)
  | .operationRejected cart_id request_id reason message => ∃ operation sessionId,
      given.published
        (.operationRejected ⟨cart_id, request_id, reason, message, operation, sessionId⟩) ∧
      (sessionId = some conn.session_id ∨ sessionId = none ∧ cart_id = conn.cart_id)
  | .resumed session_id cart_id version cart =>
      given.asked conn.socket session_id cart_id ∧ version = cart.version

theorem Frame.For.mono {given later : Given} {conn : Voice.ClientConnection} {frame : Frame}
    (h : frame.For given conn) (hwithin : given.Within later) : frame.For later conn := by
  cases frame with
  | cartUpdated =>
      obtain ⟨hcart, hsame, hversion, requestId, hpublished⟩ := h
      exact ⟨hcart, hsame, hversion, requestId, hwithin.1 _ hpublished⟩
  | orderReply => exact h.imp fun language hpublished => hwithin.1 _ hpublished
  | operationRejected =>
      obtain ⟨operation, sessionId, hpublished, hfor⟩ := h
      exact ⟨operation, sessionId, hwithin.1 _ hpublished, hfor⟩
  | resumed => exact h.imp_left (hwithin.2 _ _ _)
  | _ => exact h

section

variable {given : Given}

theorem ofVoice_for {conn : Voice.ClientConnection} {message : Voice.OutboundMessage}
    (h : message.session_id = conn.session_id) : (Frame.ofVoice message).For given conn := by
  cases message <;> exact h

/-- The frames of a reply carry its session. -/
theorem ofSpeech_for {provider : TtsProvider} {reply : Reply} (h : reply.Sound provider)
    (hsession : reply.conn.session_id = reply.ctx.session_id) :
    ∀ message ∈ reply.frames, (Frame.ofSpeech message).For given reply.conn := by
  obtain ⟨⟨audio, closing, hfollows⟩, -⟩ := h
  intro message hmem
  rw [hfollows.frames] at hmem
  rcases List.mem_cons.mp hmem with rfl | hmem
  · exact hsession.symm
  · rcases List.mem_append.mp hmem with hchunk | hclosing
    · obtain ⟨index, hindex, rfl⟩ := List.mem_mapIdx.mp hchunk
      exact hsession.symm
    · cases hfollows.closes with
      | streaming => cases hclosing
      | silenced => cases hclosing
      | ended | failed =>
          obtain rfl := List.mem_singleton.mp hclosing
          exact hsession.symm

end

namespace RealtimeGateway

variable {P Q : Voice.ClientConnection → Prop} {given later : Given} {provider : TtsProvider}
  {gateway next : RealtimeGateway} {action : Action} {conn : ClientConnection}

/-- All connections of the gateway are known, and what was sent to each concerns it. -/
structure Confined (P : Voice.ClientConnection → Prop) (given : Given) (provider : TtsProvider)
    (gateway : RealtimeGateway) : Prop where
  bySession : ∀ session_id conn, gateway.registry.getBySession session_id = some conn →
    P conn.toClientConnection ∧ conn.session_id = session_id
  byCart : ∀ cart_id, ∀ conn ∈ gateway.registry.getByCart cart_id,
    P conn.toClientConnection ∧ conn.cart_id = cart_id
  handler : gateway.voice.Wf
  voice : gateway.voice.Attributed P
  speech : gateway.tts.Inv provider
  speaks : ∀ ref reply, gateway.tts.replies ref = some reply →
    P reply.conn ∧ reply.conn.session_id = reply.ctx.session_id
  sent : ∀ entry ∈ gateway.sent, P entry.1.toClientConnection ∧
    (Frame.ofGateway entry.2).For given entry.1.toClientConnection

theorem create_confined : create.Confined P given provider where
  bySession := fun _ _ h => by cases h
  byCart := fun _ _ h => by cases h
  handler := VoiceMessageHandler.create_wf
  voice := fun _ _ h => by cases h
  speech := TtsService.inv_create provider
  speaks := fun _ _ h => by cases h
  sent := fun _ h => by cases h

theorem Confined.mono (h : gateway.Confined P given provider) (himp : ∀ conn, P conn → Q conn)
    (hwithin : given.Within later) : gateway.Confined Q later provider where
  bySession := fun session_id conn hfound =>
    (h.bySession session_id conn hfound).imp_left (himp _)
  byCart := fun cart_id conn hfound => (h.byCart cart_id conn hfound).imp_left (himp _)
  handler := h.handler
  voice := h.voice.mono himp
  speech := h.speech
  speaks := fun ref reply hreply => (h.speaks ref reply hreply).imp_left (himp _)
  sent := fun entry hmem => (h.sent entry hmem).imp (himp _) fun hfor => hfor.mono hwithin

theorem Confined.connect (h : gateway.Confined P given provider) (hconn : P conn.toClientConnection) :
    (gateway.onConnect conn).Confined P given provider where
  bySession := fun session_id found hfound => by
    rw [onConnect, ClientRegistry.getBySession_add] at hfound
    split at hfound
    · cases hfound
      exact ⟨hconn, by rename_i hsame; exact hsame.symm⟩
    · exact h.bySession session_id found hfound
  byCart := fun cart_id found hfound => by
    rw [onConnect, ClientRegistry.mem_getByCart_add] at hfound
    rcases hfound with hfound | ⟨rfl, hcart⟩
    · exact h.byCart cart_id found hfound
    · exact ⟨hconn, hcart.symm⟩
  handler := h.handler
  voice := h.voice
  speech := h.speech
  speaks := h.speaks
  sent := h.sent

/-- A reply after a step of the synthesis was there, or it answers the connection it was asked for. -/
theorem Confined.speaks_step {tts : TtsService} {asked : TtsService.Action}
    (h : gateway.Confined P given provider) (hstep : gateway.tts.step provider asked = some tts)
    (hasked : ∀ conn ctx text language, asked = .speak conn ctx text language →
      P conn ∧ conn.session_id = ctx.session_id) :
    ∀ ref reply, tts.replies ref = some reply →
      P reply.conn ∧ reply.conn.session_id = reply.ctx.session_id := by
  intro ref reply hreply
  have horigin : ∀ {other : Reply}, reply.origin = other.origin → P other.conn →
      other.conn.session_id = other.ctx.session_id →
      P reply.conn ∧ reply.conn.session_id = reply.ctx.session_id := by
    intro other hsame hknown hsession
    have hconn : reply.conn = other.conn := congrArg Prod.fst hsame
    rw [hconn, Reply.ctx_of_origin hsame]
    exact ⟨hknown, hsession⟩
  rcases h.speech.step_reply hstep hreply with ⟨before, hbefore, hmoves⟩ |
    ⟨conn, ctx, text, language, rfl, rfl⟩
  · obtain ⟨hknown, hsession⟩ := h.speaks ref before hbefore
    exact horigin hmoves.origin hknown hsession
  · obtain ⟨hknown, hsession⟩ := hasked conn ctx text language rfl
    refine @horigin ⟨conn, ctx, segmentText text, language, false, 0, [], [], [], []⟩
      (Reply.start_origin provider conn ctx (segmentText text) language) hknown hsession

theorem Confined.withSpeech {tts : TtsService} {asked : TtsService.Action}
    (h : gateway.Confined P given provider) (hstep : gateway.tts.step provider asked = some tts)
    (hasked : ∀ conn ctx text language, asked = .speak conn ctx text language →
      P conn ∧ conn.session_id = ctx.session_id) :
    Confined P given provider { gateway with tts := tts } where
  bySession := h.bySession
  byCart := h.byCart
  handler := h.handler
  voice := h.voice
  speech := h.speech.step hstep
  speaks := h.speaks_step hstep hasked
  sent := h.sent

theorem Confined.disconnect (h : gateway.Confined P given provider) :
    (gateway.onDisconnect conn).Confined P given provider where
  bySession := fun session_id found hfound => by
    rw [onDisconnect, ClientRegistry.getBySession_remove] at hfound
    split at hfound
    · cases hfound
    · exact h.bySession session_id found hfound
  byCart := fun cart_id found hfound => by
    rw [onDisconnect, ClientRegistry.mem_getByCart_remove] at hfound
    exact h.byCart cart_id found hfound.1
  handler := h.handler.step (show gateway.voice.step (.disconnect conn.session_id) = some _ from rfl)
  voice := h.voice.step h.handler (fun _ hnone => by cases hnone)
    (show gateway.voice.step (.disconnect conn.session_id) = some _ from rfl)
  speech := h.speech.step (show gateway.tts.step provider (.cancel conn.session_id) = some _ from rfl)
  speaks := h.speaks_step
    (show gateway.tts.step provider (.cancel conn.session_id) = some _ from rfl)
    fun _ _ _ _ hspeak => by cases hspeak
  sent := h.sent

theorem Confined.send {message : OutboundMessage} {targets : List ClientConnection}
    (h : gateway.Confined P given provider)
    (htargets : ∀ conn ∈ targets, P conn.toClientConnection ∧
      (Frame.ofGateway message).For given conn.toClientConnection) :
    (gateway.send message targets).Confined P given provider where
  bySession := h.bySession
  byCart := h.byCart
  handler := h.handler
  voice := h.voice
  speech := h.speech
  speaks := h.speaks
  sent := fun entry hmem => by
    rcases List.mem_append.mp hmem with hmem | hmem
    · exact h.sent entry hmem
    · obtain ⟨target, htarget, rfl⟩ := List.mem_map.mp hmem
      exact htargets target htarget

theorem Confined.publish {event : Backend.Event} (h : gateway.Confined P given provider)
    (hpublished : given.published event) : (gateway.onEvent provider event).Confined P given provider := by
  cases event with
  | operationsProposed => exact h
  | cartUpdated cart requestId =>
      refine h.send fun conn hmem => ?_
      obtain ⟨hknown, hcart⟩ := h.byCart cart.cartId conn hmem
      exact ⟨hknown, hcart.symm, rfl, rfl, requestId, hpublished⟩
  | orderReply cart_id session_id request_id reply language mentioned =>
      unfold onEvent
      dsimp only
      cases hfound : gateway.registry.getBySession session_id with
      | none => exact h
      | some conn =>
          obtain ⟨hknown, hsession⟩ := h.bySession session_id conn hfound
          have hsent : (gateway.send (.orderReply cart_id request_id reply mentioned) [conn]).Confined
              P given provider := h.send fun target htarget => by
            cases List.mem_singleton.mp htarget
            refine ⟨hknown, language, ?_⟩
            rw [show conn.toClientConnection.session_id = session_id from hsession]
            exact hpublished
          refine hsent.withSpeech (show gateway.tts.step provider (.speak conn.toClientConnection
            ⟨session_id, request_id⟩ (codeUnits reply) language) = some _ from rfl) ?_
          intro _ _ _ _ hspeak
          cases hspeak
          exact ⟨hknown, hsession⟩
  | sessionFailed session_id cart_id reason message =>
      refine h.send fun conn hmem => ?_
      obtain ⟨hknown, hsession⟩ := h.bySession session_id conn (Option.mem_toList.mp hmem)
      exact ⟨hknown, hsession.symm⟩
  | operationRejected rejection =>
      obtain ⟨cartId, requestId, reason, message, operation, sessionId⟩ := rejection
      refine h.send fun conn hmem => ?_
      cases sessionId with
      | none =>
          obtain ⟨hknown, hcart⟩ := h.byCart cartId conn hmem
          exact ⟨hknown, operation, none, hpublished, .inr ⟨rfl, hcart.symm⟩⟩
      | some session_id =>
          obtain ⟨hknown, hsession⟩ := h.bySession session_id conn (Option.mem_toList.mp hmem)
          exact ⟨hknown, operation, some session_id, hpublished, .inl (congrArg some hsession.symm)⟩

theorem step_voice {asked : VoiceMessageHandler.Action}
    (h : gateway.step provider (.voice asked) = some next) :
    ∃ voice, gateway.voice.step asked = some voice ∧ next = { gateway with voice := voice } := by
  cases asked with
  | disconnect => cases h
  | _ =>
      simp only [step, Option.map_eq_some_iff] at h
      obtain ⟨voice, hvoice, rfl⟩ := h
      exact ⟨voice, hvoice, rfl⟩

/-- The connection that comes in with an action. -/
def Action.conn? : Action → Option Voice.ClientConnection
  | .connect conn => some conn.toClientConnection
  | .voice action => action.conn?
  | _ => none

theorem Confined.step (h : gateway.Confined P given provider)
    (hconn : ∀ conn, action.conn? = some conn → P conn)
    (hpublished : ∀ event, action = .publish event → given.published event)
    (hstep : gateway.step provider action = some next) : next.Confined P given provider := by
  cases action with
  | connect conn =>
      obtain rfl := Option.some.inj hstep
      exact h.connect (hconn _ rfl)
  | disconnect conn =>
      obtain rfl := Option.some.inj hstep
      exact h.disconnect
  | publish event =>
      obtain rfl := Option.some.inj hstep
      exact h.publish (hpublished event rfl)
  | voice action =>
      obtain ⟨voice, hvoice, rfl⟩ := step_voice hstep
      exact { h with
        handler := h.handler.step hvoice
        voice := h.voice.step h.handler hconn hvoice }
  | settles ref outcome =>
      obtain ⟨tts, htts, rfl⟩ := Option.map_eq_some_iff.mp hstep
      exact h.withSpeech htts fun _ _ _ _ hspeak => by cases hspeak

end RealtimeGateway

namespace WebSocketServer

open RealtimeGateway (Confined)

variable {transport : Transport} {server next : WebSocketServer} {action : Action}
  {taken : List Action}

/-- The connection that a socket was adapted to. -/
def Known (server : WebSocketServer) (conn : Voice.ClientConnection) : Prop :=
  ∃ socket found, server.sockets conn.socket = some socket ∧ socket.conn = some found ∧
    found.toClientConnection = conn

/-- What the gateway has sent since is in its logs. -/
theorem framesSince_for {P : Voice.ClientConnection → Prop} {given : Given}
    {before after : RealtimeGateway} (h : after.Confined P given transport.provider)
    {entry : SocketId × Frame} (hmem : entry ∈ framesSince before after) :
    ∃ conn, P conn ∧ conn.socket = entry.1 ∧ entry.2.For given conn := by
  rcases List.mem_append.mp hmem with hmem | hmem
  · rcases List.mem_append.mp hmem with hmem | hmem
    · obtain ⟨sent, hsent, rfl⟩ := List.mem_map.mp hmem
      obtain ⟨hknown, hfor⟩ := h.sent sent (List.mem_of_mem_drop hsent)
      exact ⟨sent.1.toClientConnection, hknown, rfl, hfor⟩
    · obtain ⟨ref, -, hmem⟩ := List.mem_flatMap.mp hmem
      obtain ⟨output, houtput, hframe⟩ := List.mem_filterMap.mp hmem
      have houtput := List.mem_of_mem_drop houtput
      cases ha : after.voice.activations ref with
      | none =>
          rw [ha] at houtput
          cases houtput
      | some activation =>
          rw [ha] at houtput
          cases output with
          | emit event => cases hframe
          | send conn message =>
              obtain rfl := Option.some.inj hframe
              obtain ⟨⟨hknown, hid⟩, hsession⟩ := (h.voice ref activation ha).sent conn message houtput
              exact ⟨conn, hknown, rfl, ofVoice_for (hsession.trans hid.symm)⟩
  · obtain ⟨ref, -, hmem⟩ := List.mem_flatMap.mp hmem
    cases hreply : after.tts.replies ref with
    | none =>
        rw [hreply] at hmem
        cases hmem
    | some reply =>
        rw [hreply] at hmem
        obtain ⟨message, hmessage, rfl⟩ := List.mem_map.mp hmem
        obtain ⟨hknown, hsession⟩ := h.speaks ref reply hreply
        exact ⟨reply.conn, hknown, rfl, ofSpeech_for (h.speech.sound ref reply hreply) hsession message
          (List.mem_of_mem_drop hmessage)⟩

/-- What the actions taken have given to answer. -/
def given (transport : Transport) (taken : List Action) : Given where
  published := fun event => .behind (.publish event) ∈ taken
  asked := fun id session_id cart_id => ∃ raw throws, .message id raw throws ∈ taken ∧
    AsksFor transport.numberOf raw session_id cart_id

theorem given_within (taken later : List Action) :
    (given transport taken).Within (given transport (taken ++ later)) := by
  refine ⟨fun event hmem => List.mem_append_left _ hmem, ?_⟩
  rintro id session_id cart_id ⟨raw, throws, hmem, hasks⟩
  exact ⟨raw, throws, List.mem_append_left _ hmem, hasks⟩

/-- All that holds of the connections and of what was sent on them. -/
structure Addressed (transport : Transport) (taken : List Action) (server : WebSocketServer) :
    Prop where
  conn : ∀ id socket conn, server.sockets id = some socket → socket.conn = some conn →
    conn.socket = id
  gateway : server.gateway.Confined server.Known (given transport taken) transport.provider
  resumes : ∀ resume ∈ server.resumes, server.Known resume.conn.toClientConnection ∧
    (given transport taken).asked resume.conn.socket resume.session_id resume.cart_id
  delivered : ∀ id socket, server.sockets id = some socket → ∀ frame ∈ socket.delivered,
    ∃ conn, socket.conn = some conn ∧ frame.For (given transport taken) conn.toClientConnection

theorem admitted_socket {id : SocketId} {query : List (String × String)} {conn : ClientConnection}
    (h : admitted id query = some conn) : conn.socket = id := by
  obtain ⟨auth, -, rfl⟩ := Option.map_eq_some_iff.mp h
  rfl

theorem accepted_conn (id : SocketId) (query : List (String × String)) :
    (accepted id query).conn = admitted id query ∧ (accepted id query).delivered = [] := by
  unfold accepted
  split <;> exact ⟨by simp [*], rfl⟩

section

variable (hstands : Stands taken server) (hstep : server.step transport action = some next)
include hstands hstep

/-- A socket keeps its connection. -/
theorem Known.step {conn : Voice.ClientConnection} (h : server.Known conn) : next.Known conn := by
  obtain ⟨socket, found, hs, hfound, hsame⟩ := h
  refine ⟨_, found, (step_stepped hstands.nodup hstep).sockets _ socket hs, ?_, hsame⟩
  rw [Socket.sendAll_conn, touched_conn, hfound]

/-- A socket after a step was there, or it has just connected. -/
theorem sockets_step {id : SocketId} {socket : Socket} (hs : next.sockets id = some socket) :
    (∃ old, server.sockets id = some old ∧ socket = (server.touched id action old).sendAll
      (framesFor id (framesOf transport server next action))) ∨
    ∃ query, action = .connection id query ∧ server.sockets id = none ∧ socket =
      (accepted id query).sendAll (framesFor id (framesOf transport server next action)) := by
  obtain ⟨-, hsockets, hfresh, -⟩ := step_stepped hstands.nodup hstep
  cases hold : server.sockets id with
  | some old =>
      rw [hsockets id old hold] at hs
      exact .inl ⟨old, rfl, (Option.some.inj hs).symm⟩
  | none =>
      rcases hfresh id hold with ⟨hnone, -⟩ | ⟨query, haction, hnew⟩
      · rw [hnone] at hs
        cases hs
      · rw [hnew] at hs
        exact .inr ⟨query, haction, rfl, (Option.some.inj hs).symm⟩

/-- The connection that an action brings to the gateway is that of the socket it came from. -/
theorem known_asked {asked : RealtimeGateway.Action} {conn : Voice.ClientConnection}
    (h : Addressed transport taken server)
    (hasked : gatewayAction transport server action = some asked) (hconn : asked.conn? = some conn) :
    next.Known conn := by
  cases action with
  | connection id query =>
      obtain ⟨found, hfound, rfl⟩ := Option.map_eq_some_iff.mp hasked
      obtain rfl := Option.some.inj hconn
      obtain ⟨-, -, hfresh, -⟩ := step_stepped hstands.nodup hstep
      rcases hfresh id (hstands.fresh hstep).1 with ⟨-, hnot⟩ | ⟨other, hsame, hnew⟩
      · exact absurd rfl (hnot query)
      · cases hsame
        rw [← admitted_socket hfound] at hnew
        refine ⟨_, found, hnew, ?_, rfl⟩
        rw [Socket.sendAll_conn, admitted_socket hfound, (accepted_conn id query).1, hfound]
  | message id raw throws =>
      obtain ⟨found, hfound, hasked⟩ := Option.bind_eq_some_iff.mp hasked
      obtain ⟨voice, hvoice, rfl⟩ := Option.map_eq_some_iff.mp hasked
      obtain ⟨message, -, hvoice⟩ := Option.bind_eq_some_iff.mp hvoice
      have hsame : conn = found.toClientConnection := by
        cases htype : message.type with
        | voiceStart | voiceStop =>
            simp only [htype] at hvoice
            obtain rfl := Option.some.inj hvoice
            exact (Option.some.inj hconn).symm
        | audioChunk =>
            simp only [htype] at hvoice
            obtain ⟨audio, -, rfl⟩ := Option.map_eq_some_iff.mp hvoice
            exact (Option.some.inj hconn).symm
        | resume =>
            simp only [htype] at hvoice
            cases hvoice
      obtain ⟨socket, hs, hfound⟩ := Option.bind_eq_some_iff.mp hfound
      refine Known.step hstands hstep ⟨socket, found, ?_, hfound, hsame.symm⟩
      rw [hsame, h.conn id socket found hs hfound]
      exact hs
  | close id =>
      obtain ⟨found, -, rfl⟩ := Option.map_eq_some_iff.mp hasked
      cases hconn
  | behind action =>
      obtain rfl := Option.some.inj hasked
      obtain ⟨hbehind, -⟩ := Option.ite_none_right_eq_some.mp hstep
      cases action with
      | voice action =>
          cases action with
          | start | audioChunk | stop => cases hbehind
          | _ => cases hconn
      | connect => cases hbehind
      | _ => cases hconn
  | _ => cases hasked

omit hstands hstep in
/-- An event that reaches the gateway is an action of its own. -/
theorem published_asked {event : Backend.Event}
    (h : gatewayAction transport server action = some (.publish event)) :
    action = .behind (.publish event) := by
  cases action with
  | connection id query =>
      obtain ⟨conn, -, heq⟩ := Option.map_eq_some_iff.mp h
      cases heq
  | message id raw throws =>
      obtain ⟨conn, -, hvoice⟩ := Option.bind_eq_some_iff.mp h
      obtain ⟨voice, -, heq⟩ := Option.map_eq_some_iff.mp hvoice
      cases heq
  | close id =>
      obtain ⟨conn, -, heq⟩ := Option.map_eq_some_iff.mp h
      cases heq
  | behind asked =>
      obtain rfl := Option.some.inj h
      rfl
  | _ => cases h

theorem Addressed.gateway_step (h : Addressed transport taken server) :
    next.gateway.Confined next.Known (given transport (taken ++ [action])) transport.provider := by
  have hmono : server.gateway.Confined next.Known (given transport (taken ++ [action]))
      transport.provider :=
    h.gateway.mono (fun _ hknown => hknown.step hstands hstep) (given_within taken [action])
  have hgateway := (step_stepped hstands.nodup hstep).gateway
  cases hasked : gatewayAction transport server action with
  | none =>
      rw [hasked] at hgateway
      exact (show next.gateway = server.gateway from hgateway) ▸ hmono
  | some asked =>
      rw [hasked] at hgateway
      refine hmono.step (fun conn hconn => known_asked hstands hstep h hasked hconn) ?_ hgateway
      rintro event rfl
      exact List.mem_append_right _ (List.mem_singleton.mpr (published_asked hasked).symm)

theorem Addressed.resumes_step (h : Addressed transport taken server) :
    ∀ resume ∈ next.resumes, next.Known resume.conn.toClientConnection ∧
      (given transport (taken ++ [action])).asked resume.conn.socket resume.session_id
        resume.cart_id := by
  have hold : ∀ resume ∈ server.resumes, next.Known resume.conn.toClientConnection ∧
      (given transport (taken ++ [action])).asked resume.conn.socket resume.session_id
        resume.cart_id :=
    fun resume hmem => (h.resumes resume hmem).imp (fun hknown => hknown.step hstands hstep)
      ((given_within taken [action]).2 _ _ _)
  have hresumes := step_resumes hstep
  generalize next.resumes = resumes at hresumes ⊢
  cases hresumes with
  | asked id raw throws conn session_id cart_id hconn hasks =>
      intro resume hmem
      rcases List.mem_append.mp hmem with hmem | hmem
      · exact hold resume hmem
      · obtain rfl := List.mem_singleton.mp hmem
        obtain ⟨socket, hs, hfound⟩ := Option.bind_eq_some_iff.mp hconn
        have hid := h.conn id socket conn hs hfound
        exact ⟨Known.step hstands hstep ⟨socket, conn, hid ▸ hs, hfound, rfl⟩, raw, throws,
          List.mem_append_right _ (List.mem_singleton.mpr (by rw [hid])), hasks⟩
  | kept => exact hold
  | reads index found now read hread =>
      intro resume hmem
      rcases List.mem_or_eq_of_mem_set hmem with hmem | rfl
      · exact hold resume hmem
      · exact hold read (List.mem_of_getElem? hread)
  | failed index | answered index => exact fun resume hmem => hold resume (List.mem_of_mem_eraseIdx hmem)

/-- What goes out in a step concerns the connection it goes out on. -/
theorem Addressed.frames_step (h : Addressed transport taken server)
    {entry : SocketId × Frame} (hmem : entry ∈ framesOf transport server next action) :
    ∃ conn, next.Known conn ∧ conn.socket = entry.1 ∧
      entry.2.For (given transport (taken ++ [action])) conn := by
  rcases List.mem_append.mp hmem with hmem | hmem
  · cases action with
    | message id raw throws =>
        obtain ⟨conn, hconn, rfl⟩ := List.mem_map.mp hmem
        obtain ⟨hconn, -⟩ := Option.filter_eq_some_iff.mp (Option.mem_toList.mp hconn)
        obtain ⟨socket, hs, hfound⟩ := Option.bind_eq_some_iff.mp hconn
        have hid := h.conn id socket conn hs hfound
        refine ⟨conn.toClientConnection, ?_, rfl, rfl⟩
        exact Known.step hstands hstep ⟨socket, conn, hid ▸ hs, hfound, rfl⟩
    | answerResume index =>
        obtain ⟨resume, hresume, hmem⟩ := List.mem_flatMap.mp hmem
        obtain ⟨cart, -, rfl⟩ := List.mem_map.mp hmem
        have hresume := List.mem_of_getElem? (Option.mem_toList.mp hresume)
        obtain ⟨hknown, hasked⟩ := h.resumes resume hresume
        exact ⟨resume.conn.toClientConnection, hknown.step hstands hstep, rfl,
          (given_within taken _).2 _ _ _ hasked, rfl⟩
    | _ => cases hmem
  · exact framesSince_for (h.gateway_step hstands hstep) hmem

theorem Addressed.step (h : Addressed transport taken server) :
    Addressed transport (taken ++ [action]) next where
  conn := fun id socket conn hs hconn => by
    rcases sockets_step hstands hstep hs with ⟨old, hold, rfl⟩ | ⟨query, -, -, rfl⟩
    · rw [Socket.sendAll_conn, touched_conn] at hconn
      exact h.conn id old conn hold hconn
    · rw [Socket.sendAll_conn, (accepted_conn id query).1] at hconn
      exact admitted_socket hconn
  gateway := h.gateway_step hstands hstep
  resumes := h.resumes_step hstands hstep
  delivered := fun id socket hs frame hframe => by
    have hconcerns : frame ∈ framesFor id (framesOf transport server next action) →
        ∃ conn, socket.conn = some conn ∧
          frame.For (given transport (taken ++ [action])) conn.toClientConnection := by
      intro hmem
      obtain ⟨entry, hentry, rfl⟩ := List.mem_map.mp hmem
      obtain ⟨hentry, hid⟩ := List.mem_filter.mp hentry
      obtain ⟨conn, ⟨found, other, hfound, hother, rfl⟩, hsocket, hfor⟩ :=
        h.frames_step hstands hstep hentry
      rw [hsocket, of_decide_eq_true hid, hs] at hfound
      obtain rfl := Option.some.inj hfound
      exact ⟨other, hother, hfor⟩
    rcases sockets_step hstands hstep hs with ⟨old, hold, hnew⟩ | ⟨query, -, -, hnew⟩
    · rw [hnew] at hframe
      rcases Socket.mem_sendAll hframe with hmem | hmem
      · rw [touched_delivered] at hmem
        obtain ⟨conn, hconn, hfor⟩ := h.delivered id old hold frame hmem
        exact ⟨conn, by rw [hnew, Socket.sendAll_conn, touched_conn, hconn],
          hfor.mono (given_within taken [action])⟩
      · exact hconcerns hmem
    · rw [hnew] at hframe
      rcases Socket.mem_sendAll hframe with hmem | hmem
      · rw [(accepted_conn id query).2] at hmem
        cases hmem
      · exact hconcerns hmem

end

theorem create_addressed : Addressed transport [] create where
  conn := fun _ _ _ hs => by cases hs
  gateway := RealtimeGateway.create_confined
  resumes := fun _ hmem => by cases hmem
  delivered := fun _ _ hs => by cases hs

end WebSocketServer

end VoiceOrder.Realtime
