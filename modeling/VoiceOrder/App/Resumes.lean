import VoiceOrder.App.Broadcasts

/-! # What a client is sent when it resumes

The snapshot of a cart is read from the store, and may wait before it goes out while broadcasts
overtake it. It is never older than what was stored when it was asked for, so a client that
reconnects does not go back behind what it has seen on another socket. -/

namespace VoiceOrder

open Async Runs CartModule Backend Realtime

namespace App

variable {platform : Platform} {initial : Store} {earlier app next : App} {action : Action}
  {before during : List Action} {id : SocketId} {socket : Socket} {resume : Resume}
  {index position : ℕ}

/-! ## A resume under way -/

/-- Where the resume at an index stands after an action. -/
def follow (index : ℕ) : Action → Option ℕ
  | .transport asked => WebSocketServer.follow index asked
  | _ => some index

/-- The cart of the resume that stood at an index was read, and this is what the store held. -/
def ReadDuring (platform : Platform) (earlier : App) (index : ℕ) (resume : Resume)
    (during : List Action) (cart : Cart) : Prop :=
  ∃ first rest stood now middle,
    during = first ++ .transport (.readResume stood (middle.process.state.carts resume.cart_id) now) ::
      rest ∧
    exec follow index first = some stood ∧ exec (step platform) earlier first = some middle ∧
    cart = (middle.process.state.carts resume.cart_id).getD
      (emptyCart resume.cart_id resume.conn.pos_config_id none now)

theorem ReadDuring.append {cart : Cart} (h : ReadDuring platform earlier index resume during cart)
    (later : List Action) : ReadDuring platform earlier index resume (during ++ later) cart := by
  obtain ⟨first, rest, stood, now, middle, rfl, hrest⟩ := h
  exact ⟨first, rest ++ later, stood, now, middle, by simp, hrest⟩

/-- The resume waits at its position for its cart to be read, or for the cart that was read to be
sent. -/
def Waiting (platform : Platform) (earlier : App) (index : ℕ) (resume : Resume)
    (taken : List Action) (app : App) : Prop :=
  ∀ position, exec follow index taken = some position → ∃ snapshot,
    app.server.resumes[position]? = some { resume with snapshot := snapshot } ∧
    ∀ cart ∈ snapshot, ReadDuring platform earlier index resume taken cart

theorem Waiting.step {taken : List Action} (h : Waiting platform earlier index resume taken app)
    (htaken : exec (step platform) earlier taken = some app)
    (hstep : step platform app action = some next) :
    Waiting platform earlier index resume (taken ++ [action]) next := by
  intro position hfollow
  obtain ⟨stood, hstood, hmoved⟩ := exec_concat hfollow
  obtain ⟨snapshot, hwaits, hread⟩ := h stood hstood
  have hstill : next.server.resumes[position]? = some { resume with snapshot := snapshot } →
      ∃ snapshot, next.server.resumes[position]? = some { resume with snapshot := snapshot } ∧
        ∀ cart ∈ snapshot, ReadDuring platform earlier index resume (taken ++ [action]) cart :=
    fun hkept => ⟨snapshot, hkept, fun cart hcart => (hread cart hcart).append [action]⟩
  cases step_moves hstep with
  | transport asked server hfrom hserver =>
      rcases WebSocketServer.follow_step hserver hwaits hmoved with hkept | ⟨found, now, rfl, hnow⟩
      · exact hstill hkept
      · refine ⟨_, hnow, fun cart hcart => ?_⟩
        obtain rfl := Option.some.inj hcart
        rw [fromTransport, hwaits, Option.any_some] at hfrom
        obtain rfl := of_decide_eq_true hfrom
        exact ⟨taken, [], stood, now, app, rfl, hstood, htaken, rfl⟩
  | silent asked process hfrom hprocess hemitted =>
      obtain rfl := Option.some.inj hmoved
      exact hstill hwaits
  | emits asked process lane event server hfrom hprocess hemitted hserver =>
      obtain rfl := Option.some.inj hmoved
      rcases WebSocketServer.follow_step hserver hwaits rfl with hkept | ⟨found, now, heq, -⟩
      · exact hstill hkept
      · cases heq
  | confirms cartId =>
      obtain rfl := Option.some.inj hmoved
      exact hstill hwaits

/-- The store does not go back. -/
theorem stored_grows (h : Coherent platform initial app) (hkeyed : ∀ cartId, initial.Keyed cartId)
    (hstep : step platform app action = some next) (cartId : CartId) :
    storedVersion (app.process.state.carts cartId) ≤ storedVersion (next.process.state.carts cartId) := by
  have hgrows : ∀ {asked : Backend.Action} {process : Process}, fromBackend asked = true →
      app.process.step (backend platform.ttsLanguage) asked = some process →
      storedVersion (app.process.state.carts cartId) ≤ storedVersion (process.state.carts cartId) := by
    intro asked process hfrom hprocess
    have hserial := h.serial hkeyed
    rw [step_version hserial hprocess]
    exact Nat.le_add_right _ _
  have hsame : ∀ jobs, storedVersion (app.process.state.carts cartId) ≤
      storedVersion ((submitAll jobs app.process).state.carts cartId) := fun jobs => by
    rw [submitAll_state]
  cases step_moves hstep with
  | transport => exact hsame _
  | silent asked process hfrom hprocess => exact hgrows hfrom hprocess
  | emits asked process lane event server hfrom hprocess => exact hgrows hfrom hprocess
  | confirms => exact hsame _

theorem stored_grows_run (h : Coherent platform initial earlier)
    (hkeyed : ∀ cartId, initial.Keyed cartId) (hrun : exec (step platform) earlier during = some app)
    (cartId : CartId) : storedVersion (earlier.process.state.carts cartId) ≤
      storedVersion (app.process.state.carts cartId) :=
  (exec_invariant (fun _ app => Coherent platform initial app ∧
      storedVersion (earlier.process.state.carts cartId) ≤
        storedVersion (app.process.state.carts cartId)) hrun ⟨h, Nat.le_refl _⟩
    fun _ _ _ _ hinv hstep => ⟨hinv.1.step hstep, hinv.2.trans (stored_grows hinv.1 hkeyed hstep cartId)⟩).2

/-- What was read is not older than what was stored. -/
theorem ReadDuring.version {cart : Cart} (h : ReadDuring platform earlier index resume during cart)
    (hcoherent : Coherent platform initial earlier) (hkeyed : ∀ cartId, initial.Keyed cartId) :
    storedVersion (earlier.process.state.carts resume.cart_id) ≤ cart.version := by
  obtain ⟨first, rest, stood, now, middle, -, -, hfirst, rfl⟩ := h
  have hversion : ∀ stored : Option Cart, (stored.getD (emptyCart resume.cart_id
      resume.conn.pos_config_id none now)).version = storedVersion stored := by
    intro stored
    cases stored <;> rfl
  rw [hversion]
  exact stored_grows_run hcoherent hkeyed hfirst resume.cart_id

/-- What a socket has seen of a cart was broadcast. -/
def Shown (app : App) : Prop :=
  ∀ id socket, app.server.sockets id = some socket → ∀ cart ∈ cartsOn socket,
    cart ∈ updatesOf cart.cartId app.published

theorem mem_updatesOf {cartId : CartId} {events : List Event} {cart : Cart} :
    cart ∈ updatesOf cartId events ↔ cart ∈ updatedCarts events ∧ cart.cartId = cartId := by
  rw [updatesOf, List.mem_filter, decide_eq_true_iff]

theorem Shown.onServer {taken : List WebSocketServer.Action} {asked : WebSocketServer.Action}
    {server : WebSocketServer} {published : List Event} (h : Shown app)
    (htaken : exec (WebSocketServer.step platform.toTransport) .create taken = some app.server)
    (hstep : app.server.step platform.toTransport asked = some server)
    (hpublished : published = app.published ++ asked.event?.toList) :
    Shown { app with server := server, published := published } := by
  obtain ⟨hstands, haddressed, hregistered⟩ := WebSocketServer.registered_run htaken
  intro id socket hs cart hmem
  change cart ∈ updatesOf cart.cartId published
  rw [hpublished, updatesOf_append]
  rcases WebSocketServer.sockets_step hstands hstep hs with ⟨old, hold, hnew⟩ | ⟨query, haction, hnone, hnew⟩
  · obtain ⟨frame, hframe, -⟩ := List.mem_filterMap.mp hmem
    have haddressed' := haddressed.step hstands hstep
    obtain ⟨conn, hconn, -⟩ := haddressed'.delivered id socket hs frame hframe
    have hconn' : old.conn = some conn := by
      rw [← hconn, hnew, Socket.sendAll_conn, WebSocketServer.touched_conn]
    obtain ⟨after, hafter, -, -, hcarts⟩ :=
      WebSocketServer.cartsOn_step hstands haddressed hregistered hold hconn' hstep
    cases hs.symm.trans hafter
    rw [hcarts] at hmem
    rcases List.mem_append.mp hmem with hmem | hmem
    · exact List.mem_append_left _ (h id old hold cart hmem)
    · refine List.mem_append_right _ ?_
      split at hmem
      · cases hevent : asked.event? with
        | none =>
            rw [hevent] at hmem
            cases hmem
        | some event =>
            rw [hevent] at hmem
            obtain ⟨hupdated, -⟩ := mem_updatesOf.mp hmem
            exact mem_updatesOf.mpr ⟨hupdated, rfl⟩
      · cases hmem
  · subst haction
    rw [hnew, cartsOn, Socket.sendAll_eq] at hmem
    have hempty := (WebSocketServer.accepted_conn id query).2
    split at hmem
    · rw [List.filterMap_append, hempty,
        updatedCart?_fromBackend.framesOf hstands.nodup hstep] at hmem
      cases hmem
    · rw [hempty] at hmem
      cases hmem

theorem Shown.step (h : Shown app) (hcoherent : Coherent platform initial app)
    (hstep : step platform app action = some next) : Shown next := by
  obtain ⟨taken, htaken⟩ := hcoherent.server
  cases step_moves hstep with
  | transport asked server hfrom hserver =>
      have hsilent : asked.event? = none := event?_fromTransport hfrom
      exact h.onServer htaken hserver (by rw [hsilent]; exact (List.append_nil _).symm)
  | silent asked process hfrom hprocess hemitted => exact h
  | emits asked process lane event server hfrom hprocess hemitted hserver =>
      exact h.onServer htaken hserver rfl
  | confirms cartId => exact h

end App

end VoiceOrder
