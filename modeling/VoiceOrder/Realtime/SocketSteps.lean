import VoiceOrder.Realtime.WebSocketServer

/-! # What a step does to the sockets

A step changes how one socket stands, or how all clients stand, and apart from that it only
sends. -/

namespace VoiceOrder.Realtime

open Runs CartModule
open Voice (VoiceMessageHandler)

namespace Socket

/-- How a socket stands, whatever was sent on it. -/
def SameStanding (socket other : Socket) : Prop :=
  socket.conn = other.conn ∧ socket.readyState = other.readyState ∧ socket.alive = other.alive ∧
    socket.terminated = other.terminated

def sendAll (frames : List Frame) (socket : Socket) : Socket :=
  frames.foldl (fun socket frame => socket.send frame) socket

@[simp] theorem sendAll_nil : sendAll [] = id := rfl

theorem sendAll_eq (frames : List Frame) (socket : Socket) :
    socket.sendAll frames =
      if socket.readyState = .isOpen then { socket with delivered := socket.delivered ++ frames }
      else socket := by
  induction frames generalizing socket with
  | nil => simp
  | cons frame frames ih =>
      have hrest := ih (socket.send frame)
      unfold sendAll at hrest ⊢
      rw [List.foldl_cons, hrest]
      by_cases hopen : socket.readyState = .isOpen
      · simp [send, hopen]
      · simp [send, hopen]

theorem mem_sendAll {frames : List Frame} {socket : Socket} {frame : Frame}
    (h : frame ∈ (socket.sendAll frames).delivered) : frame ∈ socket.delivered ∨ frame ∈ frames := by
  rw [sendAll_eq] at h
  split at h
  · exact List.mem_append.mp h
  · exact .inl h

theorem sendAll_standing (frames : List Frame) (socket : Socket) :
    (socket.sendAll frames).SameStanding socket := by
  rw [sendAll_eq]
  split
  · exact ⟨rfl, rfl, rfl, rfl⟩
  · exact ⟨rfl, rfl, rfl, rfl⟩

@[simp] theorem sendAll_conn (frames : List Frame) (socket : Socket) :
    (socket.sendAll frames).conn = socket.conn := (sendAll_standing frames socket).1

@[simp] theorem sendAll_readyState (frames : List Frame) (socket : Socket) :
    (socket.sendAll frames).readyState = socket.readyState := (sendAll_standing frames socket).2.1

@[simp] theorem sendAll_alive (frames : List Frame) (socket : Socket) :
    (socket.sendAll frames).alive = socket.alive := (sendAll_standing frames socket).2.2.1

@[simp] theorem sendAll_terminated (frames : List Frame) (socket : Socket) :
    (socket.sendAll frames).terminated = socket.terminated := (sendAll_standing frames socket).2.2.2

end Socket

namespace WebSocketServer

variable {transport : Transport} {server next : WebSocketServer} {action : Action}
  {id other : SocketId} {socket : Socket} {frames : List (SocketId × Frame)}

/-! ## Frames go to their sockets -/

/-- Those of a list of frames that are for a socket. -/
def framesFor (id : SocketId) (frames : List (SocketId × Frame)) : List Frame :=
  (frames.filter fun frame => frame.1 = id).map Prod.snd

@[simp] theorem framesFor_append (frames later : List (SocketId × Frame)) :
    framesFor id (frames ++ later) = framesFor id frames ++ framesFor id later := by
  simp [framesFor]

theorem update_sockets (id other : SocketId) (change : Socket → Socket) :
    (server.update id change).sockets other =
      (server.sockets other).map fun socket => if other = id then change socket else socket := by
  by_cases h : other = id
  · subst h
    simp [update]
  · simp [update, h]

theorem push_sockets (frames : List (SocketId × Frame)) (id : SocketId) :
    (server.push frames).sockets id =
      (server.sockets id).map (Socket.sendAll (framesFor id frames)) := by
  induction frames generalizing server with
  | nil =>
      simp [push, framesFor]
  | cons frame frames ih =>
      have hrest := @ih (server.update frame.1 (Socket.send frame.2))
      unfold push at hrest ⊢
      rw [List.foldl_cons, hrest, update_sockets, Option.map_map]
      refine congrArg (Option.map · _) (funext fun socket => ?_)
      by_cases h : frame.1 = id
      · simp [framesFor, Socket.sendAll, h]
      · simp [framesFor, h, Ne.symm h]

@[simp] theorem push_gateway (frames : List (SocketId × Frame)) :
    (server.push frames).gateway = server.gateway := by
  induction frames generalizing server with
  | nil => rfl
  | cons frame frames ih => exact @ih (server.update frame.1 (Socket.send frame.2))

@[simp] theorem push_clients (frames : List (SocketId × Frame)) :
    (server.push frames).clients = server.clients := by
  induction frames generalizing server with
  | nil => rfl
  | cons frame frames ih => exact @ih (server.update frame.1 (Socket.send frame.2))

@[simp] theorem push_resumes (frames : List (SocketId × Frame)) :
    (server.push frames).resumes = server.resumes := by
  induction frames generalizing server with
  | nil => rfl
  | cons frame frames ih => exact @ih (server.update frame.1 (Socket.send frame.2))

@[simp] theorem push_running (frames : List (SocketId × Frame)) :
    (server.push frames).running = server.running := by
  induction frames generalizing server with
  | nil => rfl
  | cons frame frames ih => exact @ih (server.update frame.1 (Socket.send frame.2))

/-! ## Every client is touched once -/

section

variable (change : Socket → Socket)

theorem foldl_update_sockets {clients : List SocketId} (h : clients.Nodup) (id : SocketId) :
    (clients.foldl (fun server id => server.update id change) server).sockets id =
      (server.sockets id).map fun socket => if id ∈ clients then change socket else socket := by
  induction clients generalizing server with
  | nil => simp
  | cons client clients ih =>
      obtain ⟨hfresh, hrest⟩ := List.nodup_cons.mp h
      rw [List.foldl_cons, ih hrest, update_sockets, Option.map_map]
      refine congrArg (Option.map · _) (funext fun socket => ?_)
      by_cases hid : id = client
      · simp [hid, hfresh]
      · simp [hid]

theorem foldl_update_rest (clients : List SocketId) :
    let after := clients.foldl (fun server id => server.update id change) server
    after.gateway = server.gateway ∧ after.clients = server.clients ∧
      after.resumes = server.resumes ∧ after.running = server.running := by
  induction clients generalizing server with
  | nil => exact ⟨rfl, rfl, rfl, rfl⟩
  | cons client clients ih => exact @ih (server.update client change)

end

/-! ## What a step does -/

/-- How an action changes where a socket stands. -/
def touched (server : WebSocketServer) (id : SocketId) : Action → Socket → Socket
  | .pong other, socket => if id = other then socket.pong else socket
  | .closing other, socket => if id = other then socket.leave else socket
  | .close other, socket => if id = other then { socket with readyState := .closed } else socket
  | .heartbeat, socket => if id ∈ server.clients then socket.beat else socket
  | .shutdown, socket => if id ∈ server.clients then socket.terminate else socket
  | _, socket => socket

/-- A socket that has just connected. -/
def accepted (id : SocketId) (query : List (String × String)) : Socket :=
  match admitted id query with
  | none => ⟨none, .closing, none, 0, false, []⟩
  | some conn => ⟨some conn, .isOpen, some true, 0, false, []⟩

def clientsAfter (clients : List SocketId) : Action → List SocketId
  | .connection id _ => clients ++ [id]
  | .close id => clients.erase id
  | _ => clients

/-- What a text that came in on a socket has the voice handler do. -/
def voiceAction (transport : Transport) (conn : ClientConnection) (raw : String) (throws : Bool) :
    Option VoiceMessageHandler.Action :=
  (parseInbound transport.numberOf raw).bind fun message =>
    match message.type with
    | .voiceStart => some (.start conn.toClientConnection)
    | .audioChunk => (message.text "audio").map fun audio =>
        .audioChunk conn.toClientConnection (transport.decode audio) throws
    | .voiceStop => some (.stop conn.toClientConnection)
    | .resume => none

/-- What an action has the gateway do. -/
def gatewayAction (transport : Transport) (server : WebSocketServer) :
    Action → Option RealtimeGateway.Action
  | .connection id query => (admitted id query).map .connect
  | .close id => ((server.sockets id).bind Socket.conn).map .disconnect
  | .message id raw throws =>
      ((server.sockets id).bind Socket.conn).bind fun conn =>
        (voiceAction transport conn raw throws).map .voice
  | .behind action => some action
  | .pong _ | .closing _ | .heartbeat | .readResume .. | .failResume _ | .answerResume _
  | .shutdown => none

/-- What an action sends by itself. -/
def ownFrames (transport : Transport) (server : WebSocketServer) :
    Action → List (SocketId × Frame)
  | .message id raw _ =>
      (((server.sockets id).bind Socket.conn).filter fun _ =>
          (parseInbound transport.numberOf raw).isNone).toList.map fun conn =>
        (conn.socket, .badMessage conn.session_id)
  | .answerResume index =>
      (server.resumes[index]?).toList.flatMap fun resume =>
        resume.snapshot.toList.map fun cart =>
          (resume.conn.socket, .resumed resume.session_id resume.cart_id cart.version cart)
  | _ => []

def framesOf (transport : Transport) (server next : WebSocketServer) (action : Action) :
    List (SocketId × Frame) :=
  ownFrames transport server action ++ framesSince server.gateway next.gateway

/-- All that a step does. -/
structure Stepped (transport : Transport) (server : WebSocketServer) (action : Action)
    (next : WebSocketServer) : Prop where
  gateway : (gatewayAction transport server action).elim (next.gateway = server.gateway)
    fun action => server.gateway.step transport.provider action = some next.gateway
  sockets : ∀ id socket, server.sockets id = some socket →
    next.sockets id = some
      ((server.touched id action socket).sendAll (framesFor id (framesOf transport server next action)))
  fresh : ∀ id, server.sockets id = none →
    (next.sockets id = none ∧ ∀ query, action ≠ .connection id query) ∨ ∃ query,
      action = .connection id query ∧ next.sockets id = some
        ((accepted id query).sendAll (framesFor id (framesOf transport server next action)))
  clients : next.clients = clientsAfter server.clients action

@[simp] theorem framesSince_self (gateway : RealtimeGateway) : framesSince gateway gateway = [] := by
  have hvoice : voiceFrames gateway.voice gateway.voice = [] := by
    simp [voiceFrames]
  have hspeech : speechFrames gateway.tts gateway.tts = [] := by
    refine List.flatMap_eq_nil_iff.mpr fun ref _ => ?_
    cases gateway.tts.replies ref with
    | none => rfl
    | some reply => simp
  simp [framesSince, hvoice, hspeech]

theorem proceed_sockets (gateway : RealtimeGateway) (id : SocketId) :
    (server.proceed gateway).sockets id =
      (server.sockets id).map (Socket.sendAll (framesFor id (framesSince server.gateway gateway))) :=
  push_sockets ..

theorem proceed_gateway (gateway : RealtimeGateway) : (server.proceed gateway).gateway = gateway :=
  push_gateway ..

theorem proceed_clients (gateway : RealtimeGateway) :
    (server.proceed gateway).clients = server.clients := push_clients ..

/-- A step in which the gateway moves on and no socket is touched. -/
theorem proceed_stepped {gateway : RealtimeGateway} {asked : RealtimeGateway.Action}
    (hasked : gatewayAction transport server action = some asked)
    (hgateway : server.gateway.step transport.provider asked = some gateway)
    (htouched : ∀ id socket, server.touched id action socket = socket)
    (hown : ownFrames transport server action = [])
    (hclients : clientsAfter server.clients action = server.clients)
    (hnot : ∀ id query, action ≠ .connection id query) :
    Stepped transport server action (server.proceed gateway) where
  gateway := by
    rw [hasked, proceed_gateway]
    exact hgateway
  sockets := fun id socket hs => by
    rw [proceed_sockets, hs, htouched, framesOf, hown, proceed_gateway]
    rfl
  fresh := fun id hnone => .inl ⟨by rw [proceed_sockets, hnone]; rfl, hnot id⟩
  clients := by rw [proceed_clients, hclients]

/-- A step that leaves the gateway and the clients, and sends nothing. -/
theorem quiet_stepped (hasked : gatewayAction transport server action = none)
    (hgateway : next.gateway = server.gateway)
    (hsockets : ∀ id, next.sockets id = (server.sockets id).map (server.touched id action))
    (hown : ownFrames transport server action = [])
    (hclients : next.clients = clientsAfter server.clients action)
    (hnot : ∀ id query, action ≠ .connection id query) :
    Stepped transport server action next where
  gateway := by
    rw [hasked]
    exact hgateway
  sockets := fun id socket hs => by
    rw [hsockets, hs, framesOf, hown, hgateway, framesSince_self]
    rfl
  fresh := fun id hnone => .inl ⟨by rw [hsockets, hnone]; rfl, hnot id⟩
  clients := hclients

theorem connection_stepped {query : List (String × String)} (hfresh : server.sockets id = none) :
    Stepped transport server (.connection id query) (server.onConnection id query) := by
  have hne : ∀ other socket, server.sockets other = some socket → other ≠ id := by
    rintro other socket hs rfl
    rw [hfresh] at hs
    cases hs
  cases hadmitted : admitted id query with
  | none =>
      have hnext : server.onConnection id query = server.enter id (accepted id query) := by
        simp [onConnection, accepted, hadmitted]
      rw [hnext]
      refine ⟨by simp [gatewayAction, hadmitted, enter], fun other socket hs => ?_, fun other hnone => ?_,
        rfl⟩
      · simp [enter, hne other socket hs, hs, touched, framesOf, ownFrames, framesFor]
      · by_cases hother : other = id
        · subst hother
          exact .inr ⟨query, rfl, by simp [enter, framesOf, ownFrames, framesFor]⟩
        · refine .inl ⟨by simp [enter, hother, hnone], ?_⟩
          rintro _ ⟨⟩
          exact hother rfl
  | some conn =>
      have hnext : server.onConnection id query = (server.enter id (accepted id query)).proceed
          (server.gateway.onConnect conn) := by
        simp [onConnection, accepted, hadmitted, enter]
      rw [hnext]
      have hframes : framesOf transport server
          ((server.enter id (accepted id query)).proceed (server.gateway.onConnect conn))
          (.connection id query) = framesSince server.gateway (server.gateway.onConnect conn) := by
        simp [framesOf, ownFrames, proceed_gateway]
      refine ⟨?_, fun other socket hs => ?_, fun other hnone => ?_, ?_⟩
      · rw [gatewayAction, hadmitted, proceed_gateway]
        rfl
      · rw [proceed_sockets, hframes]
        simp [enter, hne other socket hs, hs, touched]
      · rw [proceed_sockets, hframes]
        by_cases hother : other = id
        · subst hother
          exact .inr ⟨query, rfl, by simp [enter]⟩
        · refine .inl ⟨by simp [enter, hother, hnone], ?_⟩
          rintro _ ⟨⟩
          exact hother rfl
      · rw [proceed_clients]
        rfl

theorem close_stepped (hs : server.sockets id = some socket) :
    Stepped transport server (.close id) (server.onClose id socket) := by
  have hleft : ∀ other, ({ server with clients := server.clients.erase id }.update id
      fun socket => { socket with readyState := .closed }).sockets other =
        (server.sockets other).map (server.touched other (.close id)) := fun other => update_sockets ..
  cases hconn : socket.conn with
  | none =>
      rw [onClose, hconn]
      exact quiet_stepped (by simp [gatewayAction, hs, hconn]) rfl hleft rfl rfl (by rintro _ _ ⟨⟩)
  | some conn =>
      rw [onClose, hconn]
      refine ⟨?_, fun other found hfound => ?_, fun other hnone => ?_, ?_⟩
      · rw [gatewayAction, hs, Option.bind_some, hconn]
        exact congrArg some (proceed_gateway _).symm
      · rw [proceed_sockets, hleft, hfound, framesOf, proceed_gateway]
        rfl
      · exact .inl ⟨by rw [proceed_sockets, hleft, hnone]; rfl, by rintro _ ⟨⟩⟩
      · rw [proceed_clients]
        rfl

/-- A text makes the voice handler act, or it is answered, or a cart is asked for. -/
theorem message_stepped {conn : ClientConnection} {raw : String} {throws : Bool}
    (hconn : (server.sockets id).bind Socket.conn = some conn)
    (h : server.onRawMessage transport conn raw throws = some next) :
    Stepped transport server (.message id raw throws) next := by
  have hvoice : ∀ asked : VoiceMessageHandler.Action,
      voiceAction transport conn raw throws = some asked →
      (parseInbound transport.numberOf raw).isNone = false →
      (server.gateway.step transport.provider (.voice asked)).map server.proceed = some next →
      Stepped transport server (.message id raw throws) next := by
    intro asked hasked hsome hstep
    obtain ⟨gateway, hgateway, rfl⟩ := Option.map_eq_some_iff.mp hstep
    exact proceed_stepped (by simp [gatewayAction, hconn, hasked]) hgateway (fun _ _ => rfl)
      (by simp [ownFrames, hconn, hsome]) rfl (by rintro _ _ ⟨⟩)
  unfold onRawMessage at h
  dsimp only at h
  cases hparsed : parseInbound transport.numberOf raw with
  | none =>
      simp only [hparsed] at h
      obtain rfl := Option.some.inj h
      have hown : ownFrames transport server (.message id raw throws) =
          [(conn.socket, .badMessage conn.session_id)] := by
        simp [ownFrames, hconn, hparsed]
      refine ⟨by simp [gatewayAction, voiceAction, hconn, hparsed], fun other socket hs => ?_,
        fun other hnone => .inl ⟨?_, by rintro _ ⟨⟩⟩, push_clients _⟩
      · rw [push_sockets, hs, framesOf, hown, push_gateway, framesSince_self, List.append_nil]
        rfl
      · rw [push_sockets, hnone]
        rfl
  | some message =>
      have hsome : (parseInbound transport.numberOf raw).isNone = false := by rw [hparsed]; rfl
      have hquiet : next.gateway = server.gateway → next.sockets = server.sockets →
          next.clients = server.clients → voiceAction transport conn raw throws = none →
          Stepped transport server (.message id raw throws) next := by
        intro hgateway hsockets hclients hnone
        refine quiet_stepped (by simp [gatewayAction, hconn, hnone]) hgateway (fun other => ?_)
          (by simp [ownFrames, hconn, hsome]) hclients (by rintro _ _ ⟨⟩)
        rw [hsockets]
        exact Option.map_id'.symm
      simp only [hparsed] at h
      cases htype : message.type with
      | voiceStart =>
          simp only [htype] at h
          exact hvoice _ (by simp [voiceAction, hparsed, htype]) hsome h
      | voiceStop =>
          simp only [htype] at h
          exact hvoice _ (by simp [voiceAction, hparsed, htype]) hsome h
      | audioChunk =>
          simp only [htype] at h
          cases haudio : message.text "audio" with
          | none =>
              simp only [haudio] at h
              obtain rfl := Option.some.inj h
              exact hquiet rfl rfl rfl (by simp [voiceAction, hparsed, htype, haudio])
          | some audio =>
              simp only [haudio] at h
              exact hvoice _ (by simp [voiceAction, hparsed, htype, haudio]) hsome h
      | resume =>
          simp only [htype] at h
          split at h
          · obtain rfl := Option.some.inj h
            exact hquiet rfl rfl rfl (by simp [voiceAction, hparsed, htype])
          · cases h

theorem answerResume_stepped {index : ℕ} (h : server.answerResume index = some next) :
    Stepped transport server (.answerResume index) next := by
  obtain ⟨resume, hresume, h⟩ := Option.bind_eq_some_iff.mp h
  obtain ⟨cart, hcart, rfl⟩ := Option.map_eq_some_iff.mp h
  have hown : ownFrames transport server (.answerResume index) =
      [(resume.conn.socket, .resumed resume.session_id resume.cart_id cart.version cart)] := by
    simp [ownFrames, hresume, hcart]
  refine ⟨push_gateway _, fun other socket hs => ?_,
    fun other hnone => .inl ⟨?_, by rintro _ ⟨⟩⟩, push_clients _⟩
  · rw [push_sockets, framesOf, hown, push_gateway, framesSince_self, List.append_nil]
    exact congrArg _ hs
  · rw [push_sockets]
    exact congrArg _ hnone

theorem step_stepped (hnodup : server.clients.Nodup) (h : server.step transport action = some next) :
    Stepped transport server action next := by
  cases action with
  | connection id query =>
      obtain ⟨⟨hnone, -⟩, h⟩ := Option.ite_none_right_eq_some.mp h
      obtain rfl := Option.some.inj h
      exact connection_stepped (Option.isNone_iff_eq_none.mp hnone)
  | message id raw throws =>
      obtain ⟨-, h⟩ := Option.ite_none_right_eq_some.mp h
      obtain ⟨conn, hconn, h⟩ := Option.bind_eq_some_iff.mp h
      exact message_stepped hconn h
  | pong id | closing id =>
      obtain ⟨-, h⟩ := Option.ite_none_right_eq_some.mp h
      obtain rfl := Option.some.inj h
      exact quiet_stepped rfl rfl (fun other => update_sockets ..) rfl rfl (by rintro _ _ ⟨⟩)
  | close id =>
      obtain ⟨-, h⟩ := Option.ite_none_right_eq_some.mp h
      obtain ⟨socket, hs, rfl⟩ := Option.map_eq_some_iff.mp h
      exact close_stepped hs
  | heartbeat =>
      obtain ⟨-, h⟩ := Option.ite_none_right_eq_some.mp h
      obtain rfl := Option.some.inj h
      obtain ⟨hgateway, hclients, -⟩ := @foldl_update_rest server Socket.beat server.clients
      exact quiet_stepped rfl hgateway (foldl_update_sockets Socket.beat hnodup) rfl hclients
        (by rintro _ _ ⟨⟩)
  | behind action =>
      obtain ⟨-, h⟩ := Option.ite_none_right_eq_some.mp h
      obtain ⟨gateway, hgateway, rfl⟩ := Option.map_eq_some_iff.mp h
      exact proceed_stepped rfl hgateway (fun _ _ => rfl) rfl rfl (by rintro _ _ ⟨⟩)
  | readResume index found now =>
      obtain ⟨resume, -, rfl⟩ := Option.map_eq_some_iff.mp h
      exact quiet_stepped rfl rfl (fun other => Option.map_id'.symm) rfl rfl (by rintro _ _ ⟨⟩)
  | failResume index =>
      obtain ⟨resume, -, rfl⟩ := Option.map_eq_some_iff.mp h
      exact quiet_stepped rfl rfl (fun other => Option.map_id'.symm) rfl rfl (by rintro _ _ ⟨⟩)
  | answerResume index => exact answerResume_stepped h
  | shutdown =>
      obtain rfl := Option.some.inj h
      obtain ⟨hgateway, hclients, -⟩ :=
        @foldl_update_rest server Socket.terminate server.clients
      exact quiet_stepped rfl hgateway (foldl_update_sockets Socket.terminate hnodup) rfl hclients
        (by rintro _ _ ⟨⟩)

/-! ## The resumes under way -/

/-- Where the resume at an index stands after an action. It is gone once it has failed or was
answered. -/
def follow (index : ℕ) : Action → Option ℕ
  | .failResume gone | .answerResume gone =>
      if gone = index then none else some (if gone < index then index - 1 else index)
  | _ => some index

/-- The resumes after an action: one more is asked for, or the cart of one is read, or one ends. -/
inductive Resumes (transport : Transport) (server : WebSocketServer) : Action → List Resume → Prop where
  | asked (id raw throws conn session_id cart_id) :
      (server.sockets id).bind Socket.conn = some conn →
      AsksFor transport.numberOf raw session_id cart_id →
      Resumes transport server (.message id raw throws)
        (server.resumes ++ [⟨conn, session_id, cart_id, none⟩])
  | kept (action : Action) : (∀ index, follow index action = some index) →
      Resumes transport server action server.resumes
  | reads (index found now resume) : server.resumes[index]? = some resume →
      Resumes transport server (.readResume index found now) (server.resumes.set index { resume with
        snapshot := some (found.getD (emptyCart resume.cart_id resume.conn.pos_config_id none now)) })
  | failed (index) : Resumes transport server (.failResume index) (server.resumes.eraseIdx index)
  | answered (index) : Resumes transport server (.answerResume index) (server.resumes.eraseIdx index)

theorem onRawMessage_resumes {conn : ClientConnection} {raw : String} {throws : Bool}
    (h : server.onRawMessage transport conn raw throws = some next) :
    next.resumes = server.resumes ∨ ∃ session_id cart_id,
      AsksFor transport.numberOf raw session_id cart_id ∧
      next.resumes = server.resumes ++ [⟨conn, session_id, cart_id, none⟩] := by
  have hvoice : ∀ asked : VoiceMessageHandler.Action,
      (server.gateway.step transport.provider (.voice asked)).map server.proceed = some next →
      next.resumes = server.resumes := by
    intro asked hstep
    obtain ⟨gateway, -, rfl⟩ := Option.map_eq_some_iff.mp hstep
    exact push_resumes _
  unfold onRawMessage at h
  dsimp only at h
  cases hparsed : parseInbound transport.numberOf raw with
  | none =>
      simp only [hparsed] at h
      obtain rfl := Option.some.inj h
      exact .inl (push_resumes _)
  | some message =>
      simp only [hparsed] at h
      cases htype : message.type with
      | voiceStart | voiceStop =>
          simp only [htype] at h
          exact .inl (hvoice _ h)
      | audioChunk =>
          simp only [htype] at h
          split at h
          · obtain rfl := Option.some.inj h
            exact .inl rfl
          · exact .inl (hvoice _ h)
      | resume =>
          simp only [htype] at h
          split at h
          · rename_i session_id cart_id hsession hcart
            obtain rfl := Option.some.inj h
            exact .inr ⟨session_id, cart_id, ⟨message, hparsed, htype, hsession, hcart⟩, rfl⟩
          · cases h

theorem step_resumes (h : server.step transport action = some next) :
    Resumes transport server action next.resumes := by
  have hsame : next.resumes = server.resumes → (∀ index, follow index action = some index) →
      Resumes transport server action next.resumes := by
    intro heq hfollow
    rw [heq]
    exact .kept action hfollow
  cases action with
  | connection id query =>
      obtain ⟨-, h⟩ := Option.ite_none_right_eq_some.mp h
      obtain rfl := Option.some.inj h
      refine hsame ?_ fun _ => rfl
      unfold onConnection
      split
      · rfl
      · exact push_resumes _
  | message id raw throws =>
      obtain ⟨-, h⟩ := Option.ite_none_right_eq_some.mp h
      obtain ⟨conn, hconn, h⟩ := Option.bind_eq_some_iff.mp h
      rcases onRawMessage_resumes h with heq | ⟨session_id, cart_id, hasks, heq⟩
      · exact hsame heq fun _ => rfl
      · rw [heq]
        exact .asked id raw throws conn session_id cart_id hconn hasks
  | pong id | closing id =>
      obtain ⟨-, h⟩ := Option.ite_none_right_eq_some.mp h
      obtain rfl := Option.some.inj h
      exact hsame rfl fun _ => rfl
  | close id =>
      obtain ⟨-, h⟩ := Option.ite_none_right_eq_some.mp h
      obtain ⟨socket, -, rfl⟩ := Option.map_eq_some_iff.mp h
      refine hsame ?_ fun _ => rfl
      unfold onClose
      dsimp only
      split
      · rfl
      · exact push_resumes _
  | heartbeat =>
      obtain ⟨-, h⟩ := Option.ite_none_right_eq_some.mp h
      obtain rfl := Option.some.inj h
      exact hsame (foldl_update_rest Socket.beat server.clients).2.2.1 fun _ => rfl
  | behind action =>
      obtain ⟨-, h⟩ := Option.ite_none_right_eq_some.mp h
      obtain ⟨gateway, -, rfl⟩ := Option.map_eq_some_iff.mp h
      exact hsame (push_resumes _) fun _ => rfl
  | readResume index found now =>
      obtain ⟨read, hread, rfl⟩ := Option.map_eq_some_iff.mp h
      exact .reads index found now read hread
  | failResume index =>
      obtain ⟨read, -, rfl⟩ := Option.map_eq_some_iff.mp h
      exact .failed index
  | answerResume index =>
      obtain ⟨read, -, h⟩ := Option.bind_eq_some_iff.mp h
      obtain ⟨cart, -, rfl⟩ := Option.map_eq_some_iff.mp h
      rw [push_resumes]
      exact .answered index
  | shutdown =>
      obtain rfl := Option.some.inj h
      exact hsame (foldl_update_rest Socket.terminate server.clients).2.2.1 fun _ => rfl

theorem getElem?_eraseIdx_follow {resumes : List Resume} {gone index position : ℕ}
    (h : follow index (.answerResume gone) = some position) :
    (resumes.eraseIdx gone)[position]? = resumes[index]? := by
  obtain ⟨hne, hposition⟩ := Option.ite_none_left_eq_some.mp h
  obtain rfl := Option.some.inj hposition
  rw [List.getElem?_eraseIdx]
  rcases Nat.lt_or_gt_of_ne hne with hlt | hgt
  · rw [if_pos hlt, if_neg (show ¬ index - 1 < gone by omega), Nat.sub_add_cancel (by omega)]
  · rw [if_neg (show ¬ gone < index by omega), if_pos hgt]

/-- A resume stands where it is followed to, as it was, or with the cart that was read for it. -/
theorem follow_step (h : server.step transport action = some next) {index position : ℕ}
    {resume : Resume} (hresume : server.resumes[index]? = some resume)
    (hfollow : follow index action = some position) :
    next.resumes[position]? = some resume ∨ ∃ found now, action = .readResume index found now ∧
      next.resumes[position]? = some { resume with
        snapshot := some (found.getD (emptyCart resume.cart_id resume.conn.pos_config_id none now)) } := by
  have hresumes := step_resumes h
  generalize next.resumes = resumes at hresumes ⊢
  cases hresumes with
  | asked id raw throws conn session_id cart_id hconn hasks =>
      obtain rfl := Option.some.inj hfollow
      exact .inl (List.getElem?_append_left (List.getElem?_eq_some_iff.mp hresume).1 ▸ hresume)
  | kept _ hkept =>
      obtain rfl := Option.some.inj ((hkept index).symm.trans hfollow)
      exact .inl hresume
  | reads other found now read hread =>
      obtain rfl := Option.some.inj hfollow
      rw [List.getElem?_set]
      by_cases hother : other = index
      · subst hother
        obtain rfl := Option.some.inj (hresume.symm.trans hread)
        refine .inr ⟨found, now, rfl, ?_⟩
        rw [if_pos rfl, if_pos (List.getElem?_eq_some_iff.mp hread).1]
      · rw [if_neg hother]
        exact .inl hresume
  | failed gone | answered gone => exact .inl ((getElem?_eraseIdx_follow hfollow).trans hresume)

end WebSocketServer

end VoiceOrder.Realtime
