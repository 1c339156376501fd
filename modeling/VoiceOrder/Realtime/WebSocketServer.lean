import VoiceOrder.Realtime.Messages
import VoiceOrder.Realtime.SessionAuth

/-! # The WebSocket transport

It authenticates each socket, adapts it to a connection, forwards its messages and its close to
the gateway, and runs the heartbeat. What is sent to a socket that is not open goes nowhere. -/

namespace VoiceOrder.Realtime

open CartModule Tts
open Voice (VoiceMessageHandler Buffer)

/-- The identity of a socket. -/
abbrev SocketId := ℕ

inductive ReadyState where
  | isOpen
  | closing
  | closed
  deriving DecidableEq, Repr

structure Socket where
  /-- The connection it was adapted to; a rejected socket has none. -/
  conn : Option ClientConnection
  readyState : ReadyState
  /-- Its entry in the liveness map of the heartbeat. -/
  alive : Option Bool
  /-- How often it was pinged. -/
  pings : ℕ
  /-- The heartbeat, or the end of the server, has cut it off. -/
  terminated : Bool
  /-- What went out on it. -/
  delivered : List Frame
  deriving DecidableEq, Repr

namespace Socket

def send (frame : Frame) (socket : Socket) : Socket :=
  if socket.readyState = .isOpen then { socket with delivered := socket.delivered ++ [frame] }
  else socket

/-- No more is sent once the closing handshake has begun, or the socket was destroyed. -/
def leave (socket : Socket) : Socket :=
  { socket with
    readyState := if socket.readyState = .isOpen then .closing else socket.readyState }

def terminate (socket : Socket) : Socket := { socket.leave with terminated := true }

/-- One tick of the heartbeat: a socket that missed the last ping is cut off. -/
def beat (socket : Socket) : Socket :=
  if socket.alive = some false then socket.terminate
  else { socket with alive := some false, pings := socket.pings + 1 }

/-- An authenticated socket answers a ping. -/
def pong (socket : Socket) : Socket :=
  if socket.conn.isSome then { socket with alive := some true } else socket

end Socket

/-- A resume whose cart has been asked for, and the snapshot once it was read. -/
structure Resume where
  conn : ClientConnection
  session_id : SessionId
  cart_id : CartId
  snapshot : Option Cart
  deriving DecidableEq, Repr

structure WebSocketServer where
  gateway : RealtimeGateway
  sockets : SocketId → Option Socket
  /-- The sockets whose close has not fired. -/
  clients : List SocketId
  resumes : List Resume
  /-- The server has not been closed. -/
  running : Bool

/-- What the transport and the gateway run on. -/
structure Transport where
  provider : TtsProvider
  numberOf : List Char → ℚ
  /-- The bytes of a base64 text. -/
  decode : String → Buffer

namespace WebSocketServer

def create : WebSocketServer where
  gateway := .create
  sockets := fun _ => none
  clients := []
  resumes := []
  running := true

def update (id : SocketId) (change : Socket → Socket) (server : WebSocketServer) : WebSocketServer :=
  { server with
    sockets := Function.update server.sockets id ((server.sockets id).map change) }

/-- Hand frames to the sockets they are for, in order. -/
def push (frames : List (SocketId × Frame)) (server : WebSocketServer) : WebSocketServer :=
  frames.foldl (fun server frame => server.update frame.1 (Socket.send frame.2)) server

/-! ## What the gateway sends -/

/-- What the sessions and their callbacks have sent since an earlier state. -/
def voiceFrames (before after : VoiceMessageHandler) : List (SocketId × Frame) :=
  (List.range after.nextRef).flatMap fun ref =>
    let earlier := ((before.activations ref).elim [] Voice.Activation.outputs).length
    let later := (after.activations ref).elim [] Voice.Activation.outputs
    (later.drop earlier).filterMap fun output =>
      match output with
      | .send conn message => some (conn.socket, .ofVoice message)
      | .emit _ => none

/-- What the streams of speech have sent since an earlier state. -/
def speechFrames (before after : TtsService) : List (SocketId × Frame) :=
  (List.range after.nextRef).flatMap fun ref =>
    let earlier := ((before.replies ref).elim [] Reply.frames).length
    (after.replies ref).elim [] fun reply =>
      (reply.frames.drop earlier).map fun message => (reply.conn.socket, .ofSpeech message)

def framesSince (before after : RealtimeGateway) : List (SocketId × Frame) :=
  ((after.sent.drop before.sent.length).map fun sent => (sent.1.socket, Frame.ofGateway sent.2)) ++
    voiceFrames before.voice after.voice ++ speechFrames before.tts after.tts

/-- The gateway has moved on, and what it sent meanwhile goes out. -/
def proceed (gateway : RealtimeGateway) (server : WebSocketServer) : WebSocketServer :=
  { server with gateway := gateway }.push (framesSince server.gateway gateway)

/-! ## Sockets -/

def connectionOf (id : SocketId) (auth : AuthContext) : ClientConnection where
  socket := id
  session_id := auth.session_id
  cart_id := auth.cart_id
  pos_config_id := auth.pos_config_id
  device_id := auth.device_id
  table_id := auth.table_id

/-- The connection that a query authenticates a socket as. -/
def admitted (id : SocketId) (query : List (String × String)) : Option ClientConnection :=
  (authenticate (paramsFromUrl query)).toOption.map (connectionOf id)

/-- A new socket of the set of clients. -/
def enter (id : SocketId) (socket : Socket) (server : WebSocketServer) : WebSocketServer :=
  { server with
    sockets := Function.update server.sockets id (some socket)
    clients := server.clients ++ [id] }

/-- A socket without an identity is asked to leave at once. -/
def onConnection (id : SocketId) (query : List (String × String)) (server : WebSocketServer) :
    WebSocketServer :=
  match admitted id query with
  | none => server.enter id ⟨none, .closing, none, 0, false, []⟩
  | some conn =>
      let entered := server.enter id ⟨some conn, .isOpen, some true, 0, false, []⟩
      entered.proceed (entered.gateway.onConnect conn)

/-- The close event of a socket. Only an authenticated one is known to the gateway. -/
def onClose (id : SocketId) (socket : Socket) (server : WebSocketServer) : WebSocketServer :=
  let left := { server with clients := server.clients.erase id }.update id fun socket =>
    { socket with readyState := .closed }
  match socket.conn with
  | none => left
  | some conn => left.proceed (left.gateway.onDisconnect conn)

/-- Route a text that came in on a socket. A resume whose ids are no strings is left out. -/
def onRawMessage (transport : Transport) (conn : ClientConnection) (raw : String)
    (throws : Bool) (server : WebSocketServer) : Option WebSocketServer :=
  let voice (action : VoiceMessageHandler.Action) : Option WebSocketServer :=
    (server.gateway.step transport.provider (.voice action)).map server.proceed
  match parseInbound transport.numberOf raw with
  | none => some (server.push [(conn.socket, .badMessage conn.session_id)])
  | some message =>
      match message.type with
      | .voiceStart => voice (.start conn.toClientConnection)
      | .audioChunk =>
          match message.text "audio" with
          | none => some server
          | some audio => voice (.audioChunk conn.toClientConnection (transport.decode audio) throws)
      | .voiceStop => voice (.stop conn.toClientConnection)
      | .resume =>
          match message.text "session_id", message.text "cart_id" with
          | some session_id, some cart_id =>
              some { server with resumes := server.resumes ++ [⟨conn, session_id, cart_id, none⟩] }
          | _, _ => none

/-- The cart of a resume is read. -/
def readResume (index : ℕ) (found : Option Cart) (now : String) (server : WebSocketServer) :
    Option WebSocketServer :=
  (server.resumes[index]?).map fun resume =>
    let cart := found.getD (emptyCart resume.cart_id resume.conn.pos_config_id none now)
    { server with resumes := server.resumes.set index { resume with snapshot := some cart } }

/-- The snapshot is sent. -/
def answerResume (index : ℕ) (server : WebSocketServer) : Option WebSocketServer :=
  (server.resumes[index]?).bind fun resume =>
    resume.snapshot.map fun cart =>
      { server with resumes := server.resumes.eraseIdx index }.push
        [(resume.conn.socket, .resumed resume.session_id resume.cart_id cart.version cart)]

def heartbeat (server : WebSocketServer) : WebSocketServer :=
  server.clients.foldl (fun server id => server.update id Socket.beat) server

def close (server : WebSocketServer) : WebSocketServer :=
  { server.clients.foldl (fun server id => server.update id Socket.terminate) server with
    running := false }

/-! ## Steps -/

/-- The callbacks, timers and settlements that reach the gateway from behind. The sockets' own
messages come through the transport. -/
def fromBehind : RealtimeGateway.Action → Bool
  | .connect _ | .disconnect _ => false
  | .voice (.start _) | .voice (.stop _) | .voice (.audioChunk ..) => false
  | .publish _ | .voice _ | .settles .. => true

inductive Action where
  | connection (id : SocketId) (query : List (String × String))
  /-- `throws` says that the stream refuses the audio of the message. -/
  | message (id : SocketId) (raw : String) (throws : Bool)
  | pong (id : SocketId)
  /-- The closing handshake begins, or the network fails. -/
  | closing (id : SocketId)
  | close (id : SocketId)
  | heartbeat
  | behind (action : RealtimeGateway.Action)
  | readResume (index : ℕ) (found : Option Cart) (now : String)
  | failResume (index : ℕ)
  | answerResume (index : ℕ)
  | shutdown
  deriving DecidableEq, Repr

def step (transport : Transport) (server : WebSocketServer) : Action → Option WebSocketServer
  | .connection id query =>
      if (server.sockets id).isNone ∧ server.running then some (server.onConnection id query)
      else none
  | .message id raw throws =>
      if id ∈ server.clients then
        ((server.sockets id).bind Socket.conn).bind fun conn =>
          server.onRawMessage transport conn raw throws
      else none
  | .pong id => if id ∈ server.clients then some (server.update id Socket.pong) else none
  | .closing id => if id ∈ server.clients then some (server.update id Socket.leave) else none
  | .close id =>
      if id ∈ server.clients then (server.sockets id).map fun socket => server.onClose id socket
      else none
  | .heartbeat => if server.running then some server.heartbeat else none
  | .behind action =>
      if fromBehind action then
        (server.gateway.step transport.provider action).map server.proceed
      else none
  | .readResume index found now => server.readResume index found now
  | .failResume index =>
      (server.resumes[index]?).map fun _ =>
        { server with resumes := server.resumes.eraseIdx index }
  | .answerResume index => server.answerResume index
  | .shutdown => some server.close

end WebSocketServer

end VoiceOrder.Realtime
