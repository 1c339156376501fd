import VoiceOrder.App.Steps
import VoiceOrder.CartModule.DeviceOrders
import VoiceOrder.Ordering.TurnFreshness

/-! # What a socket sees of its cart

From its connect on a socket is sent every broadcast of its cart, in order, as long as it is
open. So the versions that it sees have no gap, and it is never more than one behind the store. -/

namespace VoiceOrder

open Async Runs CartModule Backend VoiceOrder.Ordering Realtime
open Realtime.WebSocketServer (Stands Addressed Registered Connected framesFor framesOf)

/-- The carts that a socket was sent, in order. -/
def Realtime.updatedCart? : Frame → Option Cart
  | .cartUpdated _ _ cart => some cart
  | _ => none

def Realtime.cartsOn (socket : Socket) : List Cart := socket.delivered.filterMap updatedCart?

theorem Realtime.updatedCart?_fromBackend : WebSocketServer.FromBackend updatedCart? where
  voice := fun message => by cases message <;> rfl
  speech := fun message => by cases message <;> rfl
  error := fun _ _ _ => rfl
  resumed := fun _ _ _ _ => rfl

namespace Realtime.WebSocketServer

variable {transport : Transport} {server next : WebSocketServer} {taken : List Action}
  {id : SocketId} {socket : Socket} {conn : ClientConnection}

/-- An open socket is connected. -/
theorem connected_of_open (hstands : Stands taken server) (hs : server.sockets id = some socket)
    (hconn : socket.conn = some conn) (hid : conn.socket = id) (hopen : socket.readyState = .isOpen) :
    server.Connected conn := by
  have hclient : id ∈ server.clients := by
    by_contra hgone
    exact hstands.left id socket hs (.inr (.inl hgone)) hopen
  exact ⟨hid ▸ hclient, socket, hid ▸ hs, hconn⟩

/-- Among the sockets of a cart a connected one is found once, if the cart is its own. -/
theorem filter_getByCart (hregistered : Registered server) (hconnected : server.Connected conn)
    (cartId : CartId) :
    (server.gateway.registry.getByCart cartId).filter (fun other => other.socket = conn.socket) =
      if conn.cart_id = cartId then [conn] else [] := by
  have hsame : ∀ other ∈ server.gateway.registry.getByCart cartId,
      decide (other.socket = conn.socket) = decide (other = conn) := by
    intro other hmem
    obtain ⟨-, -, found, hfound, hother⟩ := (hregistered.byCart cartId other).mp hmem
    obtain ⟨-, socket, hs, hconn⟩ := hconnected
    rw [decide_eq_decide]
    refine ⟨fun heq => ?_, fun heq => heq ▸ rfl⟩
    rw [heq, hs] at hfound
    cases hfound
    exact Option.some.inj (hother.symm.trans hconn)
  rw [List.filter_congr hsame, List.filter_eq]
  by_cases hcart : conn.cart_id = cartId
  · rw [if_pos hcart, List.count_eq_one_of_mem (hregistered.nodup cartId)
      ((hregistered.byCart cartId conn).mpr ⟨hcart, hconnected⟩)]
    rfl
  · rw [if_neg hcart, List.count_eq_zero_of_not_mem fun hmem =>
      hcart ((hregistered.byCart cartId conn).mp hmem).1]
    rfl

/-- An event is sent to a connected socket if it is a broadcast of its cart. -/
theorem carts_published (hregistered : Registered server) (hconnected : server.Connected conn)
    (event : Event) :
    ((server.gateway.sentBy (.publish event)).filter fun entry =>
        entry.1.socket = conn.socket).filterMap (fun entry => updatedCart? (.ofGateway entry.2)) =
      App.updatesOf conn.cart_id [event] := by
  cases event with
  | cartUpdated cart requestId =>
      have hfilter := filter_getByCart hregistered hconnected cart.cartId
      simp only [RealtimeGateway.sentBy, RealtimeGateway.messageOf, RealtimeGateway.recipients,
        Option.toList_some, List.flatMap_singleton, List.filter_map, Function.comp_def, hfilter]
      by_cases hcart : conn.cart_id = cart.cartId
      · simp [hcart, App.updatesOf, updatedCarts, updated?, Frame.ofGateway, updatedCart?]
      · simp [hcart, Ne.symm hcart, App.updatesOf, updatedCarts, updated?]
  | operationsProposed => rfl
  | orderReply | operationRejected | sessionFailed =>
      refine List.filterMap_eq_nil_iff.mpr fun entry hmem => ?_
      obtain ⟨message, hmessage, hmem⟩ := List.mem_flatMap.mp (List.mem_filter.mp hmem).1
      obtain ⟨target, -, rfl⟩ := List.mem_map.mp hmem
      obtain rfl := List.mem_singleton.mp hmessage
      rfl

/-- What one step adds to the carts that a socket was sent. -/
theorem cartsOn_step {action : Action} (hstands : Stands taken server)
    (haddressed : Addressed transport taken server) (hregistered : Registered server)
    (hs : server.sockets id = some socket) (hconn : socket.conn = some conn)
    (hstep : server.step transport action = some next) :
    ∃ after, next.sockets id = some after ∧ after.conn = some conn ∧
      (after.readyState = .isOpen → socket.readyState = .isOpen) ∧
      cartsOn after = cartsOn socket ++ if after.readyState = .isOpen then
        action.event?.elim [] fun event => App.updatesOf conn.cart_id [event] else [] := by
  obtain ⟨after, hafter, hconn', hwas, hcarts⟩ :=
    updatedCart?_fromBackend.delivered_step hstands haddressed hs hconn hstep
  refine ⟨after, hafter, hconn', hwas, hcarts.trans (congrArg (_ ++ ·) ?_)⟩
  split
  · rename_i hopen
    have hconnected := connected_of_open hstands hs hconn (haddressed.conn id socket conn hs hconn)
      (hwas hopen)
    cases action.event? with
    | none => rfl
    | some event => exact carts_published hregistered hconnected event
  · rfl

end Realtime.WebSocketServer

namespace App

variable {platform : Platform} {initial : Store} {earlier app next : App} {action : Action}
  {before during : List Action} {id : SocketId} {query : List (String × String)}
  {socket : Socket} {conn : ClientConnection}

/-- What a socket has seen of its cart since it connected, in the state `earlier`. -/
structure FollowsCart (initial : Store) (earlier app : App) (conn : ClientConnection)
    (socket : Socket) : Prop where
  /-- It was sent the broadcasts of its cart in their order, and all of them while it is open. -/
  seen : ∃ missed, updatesOf conn.cart_id app.published =
      updatesOf conn.cart_id earlier.published ++ cartsOn socket ++ missed ∧
    (socket.readyState = .isOpen → missed = [])
  /-- Their versions have no gap. -/
  versions : (cartsOn socket).map Cart.version =
    List.range' (storedVersion (initial.carts conn.cart_id) +
      (updatesOf conn.cart_id earlier.published).length + 1) (cartsOn socket).length
  own : ∀ cart ∈ cartsOn socket, cart.cartId = conn.cart_id
  /-- While it is open it is one version behind the store at most. -/
  lag : socket.readyState = .isOpen →
    storedVersion (app.process.state.carts conn.cart_id) ≤
      storedVersion (initial.carts conn.cart_id) +
        (updatesOf conn.cart_id earlier.published).length + (cartsOn socket).length + 1

/-- What the socket was sent is what went over the bus. -/
def Streams (earlier app : App) (id : SocketId) (conn : ClientConnection) : Prop :=
  ∃ socket, app.server.sockets id = some socket ∧ socket.conn = some conn ∧ ∃ missed,
    updatesOf conn.cart_id app.published =
      updatesOf conn.cart_id earlier.published ++ cartsOn socket ++ missed ∧
    (socket.readyState = .isOpen → missed = [])

theorem Streams.step (h : Streams earlier app id conn) (hcoherent : Coherent platform initial app)
    (hstep : step platform app action = some next) : Streams earlier next id conn := by
  obtain ⟨socket, hs, hconn, missed, hseen, hopen⟩ := h
  obtain ⟨taken, htaken⟩ := hcoherent.server
  obtain ⟨hstands, haddressed, hregistered⟩ := WebSocketServer.registered_run htaken
  cases step_moves hstep with
  | transport asked server hfrom hserver =>
      obtain ⟨after, hafter, hconn', hwas, hcarts⟩ :=
        WebSocketServer.cartsOn_step hstands haddressed hregistered hs hconn hserver
      have hnone : asked.event? = none := event?_fromTransport hfrom
      rw [hnone, Option.elim_none, ite_self, List.append_nil] at hcarts
      exact ⟨after, hafter, hconn', missed, hcarts ▸ hseen, fun hstill => hopen (hwas hstill)⟩
  | silent asked process hfrom hprocess hemitted => exact ⟨socket, hs, hconn, missed, hseen, hopen⟩
  | confirms cartId => exact ⟨socket, hs, hconn, missed, hseen, hopen⟩
  | emits asked process lane event server hfrom hprocess hemitted hserver =>
      obtain ⟨after, hafter, hconn', hwas, hcarts⟩ :=
        WebSocketServer.cartsOn_step hstands haddressed hregistered hs hconn hserver
      rw [show (WebSocketServer.Action.behind (.publish event)).event? = some event from rfl,
        Option.elim_some] at hcarts
      by_cases hstill : after.readyState = .isOpen
      · rw [if_pos hstill] at hcarts
        refine ⟨after, hafter, hconn', [], ?_, fun _ => rfl⟩
        rw [updatesOf_append, hseen, hopen (hwas hstill), hcarts]
        simp
      · rw [if_neg hstill, List.append_nil] at hcarts
        refine ⟨after, hafter, hconn', missed ++ updatesOf conn.cart_id [event], ?_,
          fun hnow => absurd hnow hstill⟩
        rw [updatesOf_append, hseen, hcarts]
        simp

/-- A socket has just connected. -/
theorem streams_connected (hcoherent : Coherent platform initial earlier)
    (hstep : step platform earlier (.transport (.connection id query)) = some next)
    (hconn : WebSocketServer.admitted id query = some conn) : Streams earlier next id conn := by
  obtain ⟨taken, htaken⟩ := hcoherent.server
  have hstands := (WebSocketServer.registered_run htaken).1
  cases step_moves hstep with
  | transport asked server hfrom hserver =>
      have hfresh : earlier.server.sockets id = none :=
        Option.isNone_iff_eq_none.mp (Option.ite_none_right_eq_some.mp hserver).1.1
      rcases (WebSocketServer.step_stepped hstands.nodup hserver).fresh id hfresh with
        ⟨-, hno⟩ | ⟨asked, haction, hs⟩
      · exact absurd rfl (hno query)
      · cases haction
        obtain ⟨hadmitted, hempty⟩ := WebSocketServer.accepted_conn id query
        refine ⟨_, hs, ?_, [], ?_, fun _ => rfl⟩
        · rw [Socket.sendAll_conn, hadmitted, hconn]
        · have hnothing : cartsOn ((WebSocketServer.accepted id query).sendAll (framesFor id
              (framesOf platform.toTransport earlier.server server (.connection id query)))) = [] := by
            rw [cartsOn, Socket.sendAll_eq]
            split
            · rw [List.filterMap_append, hempty,
                updatedCart?_fromBackend.framesOf hstands.nodup hserver]
              rfl
            · rw [hempty]
              rfl
          rw [hnothing, List.append_nil, List.append_nil]
          rfl

theorem streams_run (hcoherent : Coherent platform initial earlier)
    (h : exec (step platform) earlier (.transport (.connection id query) :: during) = some app)
    (hconn : WebSocketServer.admitted id query = some conn) :
    Coherent platform initial app ∧ Streams earlier app id conn := by
  obtain ⟨first, hfirst, hrest⟩ := Option.bind_eq_some_iff.mp h
  exact exec_invariant (fun _ app => Coherent platform initial app ∧ Streams earlier app id conn) hrest
    ⟨hcoherent.step hfirst, streams_connected hcoherent hfirst hconn⟩
    fun _ _ _ _ hinv hstep => ⟨hinv.1.step hstep, hinv.2.step hinv.1 hstep⟩

/-- The broadcasts of a cart so far have consecutive versions, and at most one is still to come
for what is stored. -/
theorem Coherent.versions (h : Coherent platform initial app) (hkeyed : ∀ cartId, initial.Keyed cartId)
    (cartId : CartId) :
    let sent := updatesOf cartId app.published
    let base := storedVersion (initial.carts cartId)
    sent.map Cart.version = List.range' (base + 1) sent.length ∧
      base + sent.length ≤ storedVersion (app.process.state.carts cartId) ∧
      storedVersion (app.process.state.carts cartId) ≤ base + sent.length + 1 := by
  obtain ⟨hversions, hone⟩ :=
    backend_counts.serial (h.serial hkeyed (.apply cartId)) fun _ _ => trivial
  have hstart : ((lanes anyOwner).view (.apply cartId) initial).carts cartId = initial.carts cartId :=
    restrict_carts
  rw [hstart] at hversions
  rw [← h.updates hkeyed cartId] at hone
  have hstored := hversions.stored
  rcases hone with hall | ⟨-, cart, -, hall⟩
  · rw [hall] at hstored
    exact ⟨hversions.broadcast (hall.trans (List.append_nil _).symm), by omega, by omega⟩
  · rw [hall, List.length_append, List.length_singleton] at hstored
    exact ⟨hversions.broadcast hall, by omega, by omega⟩

/-- In every run a socket is sent the broadcasts of its cart from its connect on: their versions
have no gap, and while it is open it is one version behind the store at most. -/
theorem socket_follows_cart (hkeyed : ∀ cartId, initial.Keyed cartId)
    (hbefore : exec (step platform) (create initial) before = some earlier)
    (h : exec (step platform) earlier (.transport (.connection id query) :: during) = some app)
    (hconn : WebSocketServer.admitted id query = some conn) :
    ∃ socket, app.server.sockets id = some socket ∧ FollowsCart initial earlier app conn socket := by
  obtain ⟨hcoherent, socket, hs, -, missed, hseen, hopen⟩ :=
    streams_run (coherent_run hbefore) h hconn
  obtain ⟨hversions, -, hlag⟩ := hcoherent.versions hkeyed conn.cart_id
  refine ⟨socket, hs, ⟨missed, hseen, hopen⟩, ?_, fun cart hmem => ?_, fun hstill => ?_⟩
  · rw [hseen, List.map_append, List.map_append, List.length_append, List.length_append,
      ← List.range'_append_1, ← List.range'_append_1] at hversions
    have hfirst := (List.append_inj hversions (by simp)).1
    rw [(List.append_inj hfirst (by simp)).2]
    congr 1
    omega
  · have hmem : cart ∈ updatesOf conn.cart_id app.published := by
      rw [hseen]
      exact List.mem_append_left _ (List.mem_append_right _ hmem)
    exact of_decide_eq_true (List.mem_filter.mp hmem).2
  · rw [hseen, hopen hstill, List.append_nil, List.length_append] at hlag
    omega

/-! ## A cola is ordered -/

def anyPlatform : Platform := { WebSocketServer.anyTransport with ttsLanguage := "en" }

/-- The query of a tablet at a table. -/
def tabletQuery : List (String × String) :=
  [("session_id", "session-1"), ("cart_id", "cart-1"), ("pos_config_id", "1"),
    ("device_id", "device-1")]

/-- The customer says "one cola". -/
def spokenSteps : List Action :=
  [.transport (.message 0 "\x7b\"type\": \"voice.start\"\x7d" false),
    .transport (.behind (.voice (.openResolves 0 none))),
    .transport (.behind (.voice (.finalArrives 0 "request-1" "one cola")))]

/-- The turn finds the empty cart, and ends with a proposal. -/
def spokenTurnSteps : List Backend.Action :=
  turnToCartSteps "request-1" "one cola" [] ++
    [.reply (.turns "cart-1") (.getCart "cart-1") (.ok (some createdCart)),
      .reply (.turns "cart-1") (.getItems 1 []) (.ok []),
      .reply (.turns "cart-1") (.runAgent "one cola" [] ⟨"cart-1", 1, 0, []⟩)
        (.ok (.proposed [.addItem "cola" 1 []] none)),
      .reply (.turns "cart-1") (.appendHistory 1 "cart-1" ⟨"one cola", none⟩) (.ok ()),
      .emit (.turns "cart-1"), .finish (.turns "cart-1")]

/-- The listeners submit the jobs, so the steps come without their submits. -/
def backendSteps (steps : List Backend.Action) : List Action :=
  (steps.filter fromBackend).map .backend

/-- What follows the connect of the tablet. -/
def spokenColaSteps : List Action :=
  backendSteps (connectSteps (.ok ())) ++ spokenSteps ++ backendSteps spokenTurnSteps ++
    backendSteps deviceColaSteps

/-- The tablet is sent the cart with the cola. -/
theorem socket_follows_cart_cola :
    ∃ app conn socket, exec (step anyPlatform) (create Store.empty)
        (.transport (.connection 0 tabletQuery) :: spokenColaSteps) = some app ∧
      app.server.sockets 0 = some socket ∧ cartsOn socket = [deviceCola] ∧
      FollowsCart Store.empty (create Store.empty) app conn socket := by
  have hends : (exec (step anyPlatform) (create Store.empty)
      (.transport (.connection 0 tabletQuery) :: spokenColaSteps)).any (fun app =>
        (app.server.sockets 0).any fun socket => cartsOn socket = [deviceCola]) = true := by
    decide +kernel
  obtain ⟨app, hexec, hsocket⟩ := (Option.any_eq_true _ _).mp hends
  obtain ⟨seen, hseen, hcarts⟩ := (Option.any_eq_true _ _).mp hsocket
  have hadmitted : (WebSocketServer.admitted 0 tabletQuery).isSome = true := by decide
  obtain ⟨conn, hconn⟩ := Option.isSome_iff_exists.mp hadmitted
  have hnothing : exec (step anyPlatform) (create Store.empty) [] = some (create Store.empty) := rfl
  obtain ⟨socket, hs, hfollows⟩ :=
    socket_follows_cart Store.keyed_empty hnothing hexec hconn
  rw [hseen] at hs
  obtain rfl := Option.some.inj hs
  exact ⟨app, conn, seen, hexec, hseen, of_decide_eq_true hcarts, hfollows⟩

end App

end VoiceOrder
