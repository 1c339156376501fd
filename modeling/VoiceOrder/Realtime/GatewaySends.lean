import VoiceOrder.Realtime.Confinement

/-! # Where the events of the backend go

An event is sent to the sockets of its cart, or to the socket of its session. The sockets of a
cart are those that were let in for it and have not closed, each of them once. -/

namespace VoiceOrder.Realtime

open Runs CartModule Tts
open Voice (VoiceMessageHandler)

namespace RealtimeGateway

variable {provider : TtsProvider} {gateway next : RealtimeGateway} {action : Action}

/-- What an event is sent on as. -/
def messageOf : Backend.Event → Option OutboundMessage
  | .operationsProposed .. => none
  | .cartUpdated cart _ => some (.cartUpdated cart.cartId cart.version cart)
  | .orderReply cart_id _ request_id reply _ mentioned_items =>
      some (.orderReply cart_id request_id reply mentioned_items)
  | .sessionFailed session_id _ reason message => some (.voiceError session_id reason message)
  | .operationRejected rejection =>
      some (.operationRejected rejection.cartId rejection.requestId rejection.reason
        rejection.message)

/-- Whom an event is sent to. -/
def recipients (gateway : RealtimeGateway) : Backend.Event → List ClientConnection
  | .operationsProposed .. => []
  | .cartUpdated cart _ => gateway.registry.getByCart cart.cartId
  | .orderReply _ session_id .. | .sessionFailed session_id .. =>
      (gateway.registry.getBySession session_id).toList
  | .operationRejected rejection =>
      match rejection.sessionId with
      | some session_id => (gateway.registry.getBySession session_id).toList
      | none => gateway.registry.getByCart rejection.cartId

/-- What the gateway itself sends when it acts. -/
def sentBy (gateway : RealtimeGateway) : Action → List (ClientConnection × OutboundMessage)
  | .publish event => (messageOf event).toList.flatMap fun message =>
      (gateway.recipients event).map fun conn => (conn, message)
  | _ => []

theorem onEvent_sent (event : Backend.Event) :
    (gateway.onEvent provider event).sent = gateway.sent ++ gateway.sentBy (.publish event) := by
  cases event with
  | operationsProposed => exact (List.append_nil _).symm
  | orderReply cart_id session_id request_id reply language mentioned =>
      unfold onEvent
      dsimp only
      cases hfound : gateway.registry.getBySession session_id with
      | none => simp [sentBy, messageOf, recipients, hfound]
      | some conn => simp [send, sentBy, messageOf, recipients, hfound]
  | operationRejected rejection =>
      cases hsession : rejection.sessionId <;>
        simp [onEvent, send, sentBy, messageOf, recipients, hsession]
  | cartUpdated | sessionFailed => simp [onEvent, send, sentBy, messageOf, recipients]

theorem step_sent (h : gateway.step provider action = some next) :
    next.sent = gateway.sent ++ gateway.sentBy action := by
  cases action with
  | connect conn | disconnect conn =>
      obtain rfl := Option.some.inj h
      exact (List.append_nil _).symm
  | publish event =>
      obtain rfl := Option.some.inj h
      exact onEvent_sent event
  | voice action =>
      obtain ⟨voice, -, rfl⟩ := step_voice h
      exact (List.append_nil _).symm
  | settles ref outcome =>
      obtain ⟨tts, -, rfl⟩ := Option.map_eq_some_iff.mp h
      exact (List.append_nil _).symm

end RealtimeGateway

theorem ClientRegistry.getByCart_add (registry : ClientRegistry) (conn : ClientConnection)
    (cart_id : CartId) :
    (registry.add conn).getByCart cart_id =
      if cart_id = conn.cart_id then OrderedMap.add (registry.getByCart cart_id) conn
      else registry.getByCart cart_id := by
  unfold getByCart add
  dsimp only
  rw [Function.update_apply]
  split
  · rename_i hcart
    rw [hcart]
    rfl
  · rfl

theorem ClientRegistry.getByCart_remove (registry : ClientRegistry) (conn : ClientConnection)
    (cart_id : CartId) : ((registry.remove conn).getByCart cart_id).Sublist
      (registry.getByCart cart_id) := by
  unfold getByCart remove
  dsimp only
  cases hset : registry.byCart conn.cart_id with
  | none => exact List.Sublist.refl _
  | some set =>
      dsimp only
      rw [Function.update_apply]
      split
      · rename_i hcart
        rw [hcart, hset]
        split
        · exact List.nil_sublist _
        · exact List.filter_sublist
      · exact List.Sublist.refl _

namespace WebSocketServer

variable {transport : Transport} {server next : WebSocketServer} {action : Action}
  {taken : List Action} {id : SocketId}

/-- The socket was let in with this connection, and has not closed. -/
def Connected (server : WebSocketServer) (conn : ClientConnection) : Prop :=
  conn.socket ∈ server.clients ∧
    ∃ socket, server.sockets conn.socket = some socket ∧ socket.conn = some conn

/-- The set of each cart holds its connected sockets, each of them once. -/
structure Registered (server : WebSocketServer) : Prop where
  byCart : ∀ cart_id conn, conn ∈ server.gateway.registry.getByCart cart_id ↔
    conn.cart_id = cart_id ∧ server.Connected conn
  nodup : ∀ cart_id, (server.gateway.registry.getByCart cart_id).Nodup

theorem create_registered : Registered create where
  byCart := fun cart_id conn => by
    simp [create, RealtimeGateway.create, ClientRegistry.create, ClientRegistry.getByCart, Connected]
  nodup := fun cart_id => List.nodup_nil

/-- A socket registers as it is let in, and until it closes. -/
def registryAfter (server : WebSocketServer) : Action → ClientRegistry
  | .connection id query => (admitted id query).elim server.gateway.registry
      fun conn => server.gateway.registry.add conn
  | .close id => ((server.sockets id).bind Socket.conn).elim server.gateway.registry
      fun conn => server.gateway.registry.remove conn
  | _ => server.gateway.registry

section

variable (hstands : Stands taken server) (hstep : server.step transport action = some next)
include hstands hstep

/-- A socket of the next state that was not accepted now was there before. -/
theorem connected_of_old {conn : ClientConnection} (hnot : ∀ query, action ≠ .connection conn.socket query) :
    next.Connected conn ↔ server.Connected conn ∧ action ≠ .close conn.socket := by
  have hstepped := step_stepped hstands.nodup hstep
  have hsocket : (∃ socket, next.sockets conn.socket = some socket ∧ socket.conn = some conn) ↔
      ∃ socket, server.sockets conn.socket = some socket ∧ socket.conn = some conn := by
    constructor
    · rintro ⟨socket, hs, hconn⟩
      rcases sockets_step hstands hstep hs with ⟨old, hold, rfl⟩ | ⟨query, haction, -⟩
      · exact ⟨old, hold, by simpa using hconn⟩
      · exact absurd haction (hnot query)
    · rintro ⟨socket, hs, hconn⟩
      exact ⟨_, hstepped.sockets _ socket hs, by simpa using hconn⟩
  unfold Connected
  rw [hsocket, hstepped.clients]
  cases action with
  | connection other query =>
      have hne : conn.socket ≠ other := fun heq => hnot query (heq ▸ rfl)
      simp [clientsAfter, hne]
  | close other =>
      rw [clientsAfter, hstands.nodup.mem_erase_iff]
      have hflip : other = conn.socket ↔ conn.socket = other := eq_comm
      simp only [ne_eq, Action.close.injEq, hflip]
      tauto
  | _ => simp [clientsAfter]

theorem connected_of_new {query : List (String × String)} {conn : ClientConnection}
    (haction : action = .connection id query) (hid : conn.socket = id) :
    next.Connected conn ↔ admitted id query = some conn := by
  subst haction
  obtain ⟨-, -, hfresh, hclients⟩ := step_stepped hstands.nodup hstep
  rcases hfresh id (hstands.fresh hstep).1 with ⟨-, hnot⟩ | ⟨other, hsame, hnew⟩
  · exact absurd rfl (hnot query)
  · cases hsame
    unfold Connected
    rw [hid, hclients, hnew]
    simp [clientsAfter, (accepted_conn id query).1]

theorem registry_step : next.gateway.registry = server.registryAfter action := by
  have hgateway := (step_stepped hstands.nodup hstep).gateway
  cases action with
  | connection id query =>
      cases hadmitted : admitted id query with
      | none =>
          simp only [gatewayAction, hadmitted] at hgateway
          rw [registryAfter, hadmitted]
          exact congrArg RealtimeGateway.registry hgateway
      | some conn =>
          simp only [gatewayAction, hadmitted] at hgateway
          rw [registryAfter, hadmitted]
          exact RealtimeGateway.step_registry hgateway
  | close id =>
      cases hconn : (server.sockets id).bind Socket.conn with
      | none =>
          simp only [gatewayAction, hconn] at hgateway
          rw [registryAfter, hconn]
          exact congrArg RealtimeGateway.registry hgateway
      | some conn =>
          simp only [gatewayAction, hconn] at hgateway
          rw [registryAfter, hconn]
          exact RealtimeGateway.step_registry hgateway
  | message id raw throws =>
      cases hasked : gatewayAction transport server (.message id raw throws) with
      | none =>
          rw [hasked] at hgateway
          exact congrArg RealtimeGateway.registry hgateway
      | some asked =>
          obtain ⟨conn, -, hvoice⟩ := Option.bind_eq_some_iff.mp hasked
          obtain ⟨voice, -, rfl⟩ := Option.map_eq_some_iff.mp hvoice
          rw [hasked] at hgateway
          exact RealtimeGateway.step_registry hgateway
  | behind asked =>
      obtain ⟨hbehind, -⟩ := Option.ite_none_right_eq_some.mp hstep
      have hregistry := @RealtimeGateway.step_registry _ _ _ asked hgateway
      cases asked with
      | connect | disconnect => cases hbehind
      | publish | voice | settles => exact hregistry
  | pong | closing | heartbeat | readResume | failResume | answerResume | shutdown =>
      exact congrArg RealtimeGateway.registry hgateway

theorem Registered.step (h : Registered server) (haddressed : Addressed transport taken server) :
    Registered next := by
  have hregistry := registry_step hstands hstep
  have hsame : next.gateway.registry = server.gateway.registry →
      (∀ conn, next.Connected conn ↔ server.Connected conn) → Registered next := by
    intro heq hconnected
    exact ⟨fun cart_id conn => by rw [heq, h.byCart, hconnected], fun cart_id => heq ▸ h.nodup cart_id⟩
  cases action with
  | connection id query =>
      have hconnected : ∀ conn, next.Connected conn ↔
          server.Connected conn ∨ admitted id query = some conn := by
        intro conn
        by_cases hid : conn.socket = id
        · rw [connected_of_new hstands hstep rfl hid, or_iff_right]
          rintro ⟨hmem, -⟩
          obtain ⟨⟨other, hother⟩, -⟩ := (hstands.clients _).mp hmem
          exact (hstands.fresh hstep).2.1 other (hid ▸ hother)
        · rw [connected_of_old hstands hstep (by rintro _ ⟨⟩; exact hid rfl)]
          have hnot : admitted id query ≠ some conn := fun hadmitted => hid (admitted_socket hadmitted)
          simp [hnot]
      cases hadmitted : admitted id query with
      | none =>
          simp only [registryAfter, hadmitted] at hregistry hconnected
          exact hsame hregistry fun conn => by simp [hconnected]
      | some added =>
          simp only [registryAfter, hadmitted, Option.elim_some] at hregistry
          refine ⟨fun cart_id conn => ?_, fun cart_id => ?_⟩
          · rw [hregistry, ClientRegistry.mem_getByCart_add, h.byCart, hconnected, hadmitted,
              Option.some_inj]
            constructor
            · rintro (⟨hcart, hold⟩ | ⟨rfl, rfl⟩)
              · exact ⟨hcart, .inl hold⟩
              · exact ⟨rfl, .inr rfl⟩
            · rintro ⟨hcart, hold | rfl⟩
              · exact .inl ⟨hcart, hold⟩
              · exact .inr ⟨rfl, hcart.symm⟩
          · rw [hregistry, ClientRegistry.getByCart_add]
            split
            · exact OrderedMap.nodup_foldl_add [added] (h.nodup cart_id)
            · exact h.nodup cart_id
  | close id =>
      have hconnected : ∀ conn, next.Connected conn ↔ server.Connected conn ∧ conn.socket ≠ id := by
        intro conn
        rw [connected_of_old hstands hstep (by rintro _ ⟨⟩)]
        have hflip : Action.close id ≠ .close conn.socket ↔ conn.socket ≠ id := by
          simp [eq_comm]
        rw [hflip]
      cases hfound : (server.sockets id).bind Socket.conn with
      | none =>
          simp only [registryAfter, hfound] at hregistry
          refine hsame hregistry fun conn => ?_
          rw [hconnected, and_iff_left_iff_imp]
          rintro ⟨-, socket, hs, hconn⟩ rfl
          rw [hs, Option.bind_some, hconn] at hfound
          cases hfound
      | some removed =>
          simp only [registryAfter, hfound, Option.elim_some] at hregistry
          obtain ⟨socket, hs, hconn⟩ := Option.bind_eq_some_iff.mp hfound
          have hid := haddressed.conn id socket removed hs hconn
          refine ⟨fun cart_id conn => ?_, fun cart_id => ?_⟩
          · rw [hregistry, ClientRegistry.mem_getByCart_remove, h.byCart, hconnected]
            constructor
            · rintro ⟨⟨hcart, hold⟩, hnot⟩
              refine ⟨hcart, hold, fun heq => hnot ⟨?_, ?_⟩⟩
              all_goals
                obtain ⟨-, other, hother, hsame⟩ := hold
                rw [heq, hs] at hother
                cases hother
                rw [hconn] at hsame
                cases hsame
              · rfl
              · exact hcart.symm
            · rintro ⟨hcart, hold, hne⟩
              refine ⟨⟨hcart, hold⟩, ?_⟩
              rintro ⟨rfl, -⟩
              exact hne hid
          · rw [hregistry]
            exact (h.nodup cart_id).sublist (ClientRegistry.getByCart_remove ..)
  | message | pong | closing | heartbeat | behind | readResume | failResume | answerResume | shutdown =>
      exact hsame hregistry fun conn => by
        rw [connected_of_old hstands hstep (by rintro _ ⟨⟩)]
        simp

end

theorem registered_run (h : exec (step transport) create taken = some server) :
    Stands taken server ∧ Addressed transport taken server ∧ Registered server :=
  exec_invariant (fun taken server =>
      Stands taken server ∧ Addressed transport taken server ∧ Registered server) h
    ⟨create_stands, create_addressed, create_registered⟩ fun _ _ _ _ hinv hstep =>
      ⟨hinv.1.step hstep, hinv.2.1.step hinv.1 hstep, hinv.2.2.step hinv.1 hstep hinv.2.1⟩

/-! ## The frames that come from the backend -/

section

variable {β : Type} {f : Frame → Option β}

theorem filterMap_framesFor_eq_nil {frames : List (SocketId × Frame)}
    (h : ∀ entry ∈ frames, f entry.2 = none) : (framesFor id frames).filterMap f = [] := by
  refine List.filterMap_eq_nil_iff.mpr fun frame hmem => ?_
  obtain ⟨entry, hentry, rfl⟩ := List.mem_map.mp hmem
  exact h entry (List.mem_filter.mp hentry).1

/-- What a step of the gateway sends of a kind that neither the voice sessions nor the synthesis
send. -/
theorem filterMap_framesSince {gateway after : RealtimeGateway} {asked : RealtimeGateway.Action}
    {provider : TtsProvider} (hvoice : ∀ message, f (.ofVoice message) = none)
    (hspeech : ∀ message, f (.ofSpeech message) = none)
    (h : gateway.step provider asked = some after) :
    (framesFor id (framesSince gateway after)).filterMap f =
      ((gateway.sentBy asked).filter fun entry => entry.1.socket = id).filterMap
        fun entry => f (.ofGateway entry.2) := by
  have hvoices : (framesFor id (voiceFrames gateway.voice after.voice)).filterMap f = [] := by
    refine filterMap_framesFor_eq_nil fun entry hmem => ?_
    obtain ⟨ref, -, hmem⟩ := List.mem_flatMap.mp hmem
    obtain ⟨output, -, hframe⟩ := List.mem_filterMap.mp hmem
    cases output with
    | send conn message =>
        obtain rfl := Option.some.inj hframe
        exact hvoice message
    | emit event => cases hframe
  have hspeeches : (framesFor id (speechFrames gateway.tts after.tts)).filterMap f = [] := by
    refine filterMap_framesFor_eq_nil fun entry hmem => ?_
    obtain ⟨ref, -, hmem⟩ := List.mem_flatMap.mp hmem
    cases hreply : after.tts.replies ref with
    | none =>
        rw [hreply] at hmem
        cases hmem
    | some reply =>
        rw [hreply] at hmem
        obtain ⟨message, -, rfl⟩ := List.mem_map.mp hmem
        exact hspeech message
  rw [framesSince, framesFor_append, framesFor_append, List.filterMap_append, List.filterMap_append,
    hvoices, hspeeches, List.append_nil, List.append_nil, RealtimeGateway.step_sent h,
    List.drop_left]
  simp only [framesFor, List.filter_map, List.map_map, List.filterMap_map]
  rfl

/-- The event that the gateway hears of. -/
def Action.event? : Action → Option Backend.Event
  | .behind (.publish event) => some event
  | _ => none

/-- A kind of frame that only the events of the backend are sent on as. -/
structure FromBackend (f : Frame → Option β) : Prop where
  voice : ∀ message, f (.ofVoice message) = none
  speech : ∀ message, f (.ofSpeech message) = none
  error : ∀ session_id reason message, f (.voiceError session_id reason message) = none
  resumed : ∀ session_id cart_id version cart, f (.resumed session_id cart_id version cart) = none

/-- Such frames go out as the gateway hears of an event, and never else. -/
theorem FromBackend.framesOf (hf : FromBackend f) (hnodup : server.clients.Nodup)
    (hstep : server.step transport action = some next) :
    (framesFor id (framesOf transport server next action)).filterMap f =
      action.event?.elim [] fun event =>
        ((server.gateway.sentBy (.publish event)).filter fun entry =>
          entry.1.socket = id).filterMap fun entry => f (.ofGateway entry.2) := by
  have hown : (framesFor id (ownFrames transport server action)).filterMap f = [] := by
    refine filterMap_framesFor_eq_nil fun entry hmem => ?_
    cases action with
    | message other raw throws =>
        obtain ⟨conn, -, rfl⟩ := List.mem_map.mp hmem
        exact hf.error ..
    | answerResume index =>
        obtain ⟨resume, -, hmem⟩ := List.mem_flatMap.mp hmem
        obtain ⟨cart, -, rfl⟩ := List.mem_map.mp hmem
        exact hf.resumed ..
    | _ => cases hmem
  have hgateway := (step_stepped hnodup hstep).gateway
  rw [WebSocketServer.framesOf, framesFor_append, List.filterMap_append, hown, List.nil_append]
  cases hasked : gatewayAction transport server action with
  | none =>
      rw [hasked] at hgateway
      rw [show next.gateway = server.gateway from hgateway, framesSince_self]
      cases action with
      | behind asked => cases hasked
      | _ => rfl
  | some asked =>
      rw [hasked] at hgateway
      rw [filterMap_framesSince hf.voice hf.speech hgateway]
      cases action with
      | behind other =>
          cases hasked
          cases asked with
          | publish => rfl
          | connect | disconnect | voice | settles => rfl
      | connection other query =>
          obtain ⟨conn, -, rfl⟩ := Option.map_eq_some_iff.mp hasked
          rfl
      | close other =>
          obtain ⟨conn, -, rfl⟩ := Option.map_eq_some_iff.mp hasked
          rfl
      | message other raw throws =>
          obtain ⟨conn, -, hvoice⟩ := Option.bind_eq_some_iff.mp hasked
          obtain ⟨voice, -, rfl⟩ := Option.map_eq_some_iff.mp hvoice
          rfl
      | _ => cases hasked

/-- What one step adds to the frames of such a kind on a socket. -/
theorem FromBackend.delivered_step (hf : FromBackend f) {socket : Socket} {conn : ClientConnection}
    (hstands : Stands taken server) (haddressed : Addressed transport taken server)
    (hs : server.sockets id = some socket) (hconn : socket.conn = some conn)
    (hstep : server.step transport action = some next) :
    ∃ after, next.sockets id = some after ∧ after.conn = some conn ∧
      (after.readyState = .isOpen → socket.readyState = .isOpen) ∧
      after.delivered.filterMap f = socket.delivered.filterMap f ++
        if after.readyState = .isOpen then action.event?.elim [] fun event =>
          ((server.gateway.sentBy (.publish event)).filter fun entry =>
            entry.1.socket = conn.socket).filterMap fun entry => f (.ofGateway entry.2)
        else [] := by
  have hid := haddressed.conn id socket conn hs hconn
  refine ⟨_, (step_stepped hstands.nodup hstep).sockets id socket hs, by simp [hconn],
    fun hopen => ?_, ?_⟩
  · rw [Socket.sendAll_readyState] at hopen
    exact (touched_open server action id socket hopen).1
  · rw [Socket.sendAll_readyState, Socket.sendAll_eq]
    split
    · rw [List.filterMap_append, touched_delivered, hf.framesOf hstands.nodup hstep, hid]
    · rw [touched_delivered, List.append_nil]

end

end WebSocketServer

end VoiceOrder.Realtime
