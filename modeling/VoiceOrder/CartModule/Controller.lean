import VoiceOrder.Backend.Services

/-! # The cart controller

The only writer of cart state. Its three operations are programs; the lock of the cart that
they share is in the lanes they run in. -/

namespace VoiceOrder.CartModule

open Async VoiceOrder.Menu VoiceOrder.Backend

/-- The menu service, which reads its store at request time. -/
def menuService : MenuLookup Promise where
  resolveItemKey pos menuItemKey := ask (.resolveItemKey pos menuItemKey)
  findByTmplId pos tmpl := ask (.findByTmplId pos tmpl)
  getItems pos tmpls := ask (.getItems pos tmpls)

def runtime : Runtime Promise where
  newLineId := ask .newLineId
  nowIso := ask .nowIso

/-- A client socket attached to a cart. -/
structure ClientConnected where
  cartId : CartId
  posConfigId : PosConfigId
  sessionId : SessionId
  deviceId : DeviceId
  tableId : Option RestaurantTableId
  deriving DecidableEq, Repr

/-- The stored cart, or a new one without identity, which is stored nowhere. -/
def cartOrEmpty (cartId : CartId) (pos : PosConfigId) : Promise Cart := do
  match ← ask (.getCart cartId) with
  | some cart => pure cart
  | none => do
      let now ← runtime.nowIso
      pure (emptyCart cartId pos none now)

/-- Create the cart with its identity stamped. A cart that is there is left as it is. -/
def ensureCart (e : ClientConnected) : Promise Unit := do
  match ← ask (.getCart e.cartId) with
  | some _ => pure ()
  | none => do
      let now ← runtime.nowIso
      ask (.commitCreated
        (emptyCart e.cartId e.posConfigId (some ⟨some e.deviceId, e.tableId⟩) now))

/-! ## Applying a proposal -/

abbrev Rejection := CartOperation × CartRejectedError

/-- The fold of the operations of a proposal: the cart, how many were applied, and those
that were rejected. -/
structure Folded where
  cart : Cart
  applied : ℕ
  rejected : List Rejection

def applyOperations (pos : PosConfigId) : List CartOperation → Folded → Promise Folded
  | [], folded => pure folded
  | op :: ops, folded => do
      match ← applyOperation runtime menuService folded.cart op pos with
      | .ok cart => applyOperations pos ops { folded with cart := cart, applied := folded.applied + 1 }
      | .error error =>
          applyOperations pos ops { folded with rejected := folded.rejected ++ [(op, error)] }

/-- The cart at the prices of the quote, or as it is where the quote fails. -/
def requoted (cart : Cart) : Promise Cart := do
  match ← (ask (.quoteCart cart)).attempt with
  | .error _ => pure cart
  | .ok quote =>
      match applyQuoteToCart cart quote with
      | .error _ => pure cart
      | .ok cart => pure cart

def cartConfirmed : CartRejectedError where
  reason := "cart_confirmed"
  message := "That order has already been sent to the kitchen. Please ask a server for changes."

/-- What there is to publish once an attempt is persisted. -/
structure Persisted where
  updatedCart : Option Cart
  rejected : List Rejection

/-- The part of an attempt that may fail. A request that was processed before has nothing to
persist. -/
def persistProposal (proposal : OrderProposal) : Promise (Option Persisted) := do
  if ← ask (.wasProcessed proposal.requestId) then pure none
  else do
    let cart ← cartOrEmpty proposal.cartId proposal.posConfigId
    if cart.confirmedAt.isSome then do
      -- The guard sits after the ledger check and before the fold.
      ask (.markProcessed proposal.requestId .rejected)
      pure (some ⟨none, proposal.operations.map fun op => (op, cartConfirmed)⟩)
    else do
      let folded ← applyOperations proposal.posConfigId proposal.operations ⟨cart, 0, []⟩
      if 0 < folded.applied then do
        let cart ← requoted { folded.cart with version := folded.cart.version + 1 }
        ask (.commitApplied cart proposal.requestId)
        pure (some ⟨some cart, folded.rejected⟩)
      else do
        ask (.markProcessed proposal.requestId .rejected)
        pure (some ⟨none, folded.rejected⟩)

def internalError (proposal : OrderProposal) (sessionId : Option SessionId) : Event :=
  .operationRejected {
    cartId := proposal.cartId
    requestId := proposal.requestId
    reason := "internal_error"
    message := "Sorry, something went wrong. Please try again."
    operation := none
    sessionId := sessionId }

def rejection (proposal : OrderProposal) (sessionId : Option SessionId) (rejected : Rejection) :
    Event :=
  .operationRejected {
    cartId := proposal.cartId
    requestId := proposal.requestId
    reason := rejected.2.reason
    message := rejected.2.message
    operation := some rejected.1
    sessionId := sessionId }

def publish : List Event → Promise Unit
  | [] => pure ()
  | event :: events => do
      Program.send event
      publish events

/-- What an attempt publishes after it is persisted: the updated cart, then the rejections. -/
def outcomeEvents (proposal : OrderProposal) (sessionId : Option SessionId)
    (persisted : Persisted) : List Event :=
  (persisted.updatedCart.map fun cart => .cartUpdated cart proposal.requestId).toList ++
    persisted.rejected.map (rejection proposal sessionId)

def applyProposal (proposal : OrderProposal) (sessionId : Option SessionId) : Promise Unit := do
  match ← (persistProposal proposal).attempt with
  | .error _ => Program.send (internalError proposal sessionId)
  | .ok none => pure ()
  | .ok (some persisted) => publish (outcomeEvents proposal sessionId persisted)

/-! ## Confirming -/

/-- The cart with its confirmation lock set. -/
def Cart.confirmed (cart : Cart) (posOrderId : PosOrderId) (now : String) : Cart :=
  { cart with confirmedAt := some now, posOrderId := some posOrderId }

/-- Hand the cart to Odoo and lock it. A cart that is confirmed answers its order. -/
def confirm (cartId : CartId) : Promise PosOrderId := do
  match ← ask (.getCart cartId) with
  | none => .throw (.notFound ("unknown cart " ++ cartId))
  | some cart =>
      match cart.confirmedAt, cart.posOrderId with
      | some _, some posOrderId => pure posOrderId
      | _, _ => do
          let posOrderId ← ask (.confirmOrder cart)
          let now ← runtime.nowIso
          ask (.setCart (cart.confirmed posOrderId now))
          pure posOrderId

end VoiceOrder.CartModule
