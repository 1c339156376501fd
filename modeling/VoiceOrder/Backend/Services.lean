import VoiceOrder.Async.Lanes
import VoiceOrder.CartModule.Applier
import VoiceOrder.CartModule.Requests
import VoiceOrder.Ordering.CartView
import VoiceOrder.RateLimit.Types
import VoiceOrder.Shared.PlainObject

/-! # The services that the backend awaits

The cart cache and the cart repository behind it, the menu, Odoo, the language models and the
runtime. A call of the stores takes full effect or throws and has none. -/

namespace VoiceOrder.Backend

open Async VoiceOrder.Menu VoiceOrder.CartModule VoiceOrder.Ordering

/-- The outcome of a request in the idempotency ledger. -/
inductive LedgerOutcome where
  | applied
  | rejected
  | duplicate
  | superseded
  deriving DecidableEq, Repr

inductive AppError where
  | notFound (message : String)
  | rateLimited (error : RateLimit.RateLimitTimeoutError)
  | infrastructure (message : String)
  deriving DecidableEq, Repr

/-- Whether an utterance is worth a turn of the agent. -/
inductive Intent where
  | service
  | junk
  deriving DecidableEq, Repr

/-- How well an item sells, as a coarse band. -/
inductive PopularityTier where
  | top
  | popular
  deriving DecidableEq, Repr

/-- A menu item that the agent named, as the search result showed it. -/
structure MentionedItem where
  menuItemKey : String
  productTmplId : ProductTmplId
  name : String
  names : Option LangMap
  basePriceCents : Cents
  popularity : Option PopularityTier
  deriving DecidableEq, Repr

/-- What a reply mentions: an item, or whatever else the lookup of a key finds. -/
abbrev Mentioned := Property MentionedItem

/-- What the agent says, in the language it declared, if any. -/
structure Spoken where
  reply : String
  language : Option LangCode
  mentionedItems : List Mentioned
  deriving DecidableEq, Repr

/-- One earlier turn, as the agent is shown it again. -/
structure HistoryTurn where
  customerText : String
  agentReply : Option String
  deriving DecidableEq, Repr

/-- How the loop of the agent and its tools ended. -/
inductive AgentOutcome where
  | proposed (operations : List CartOperation) (spoken : Option Spoken)
  | spoke (spoken : Spoken)
  | failed (reason : String)
  deriving DecidableEq, Repr

inductive Call where
  | getCart (cartId : CartId)
  | setCart (cart : Cart)
  | wasProcessed (requestId : RequestId)
  | markProcessed (requestId : RequestId) (outcome : LedgerOutcome)
  /-- Persist the cart and mark the request in one atomic step. -/
  | commitApplied (cart : Cart) (requestId : RequestId)
  | commitCreated (cart : Cart)
  /-- Hand the cart to Odoo. -/
  | confirmOrder (cart : Cart)
  | quoteCart (cart : Cart)
  | resolveItemKey (pos : PosConfigId) (menuItemKey : String)
  | findByTmplId (pos : PosConfigId) (tmpl : ProductTmplId)
  | getItems (pos : PosConfigId) (tmpls : List ProductTmplId)
  | newLineId
  | nowIso
  /-- The history of a conversation, which the checkpointer keeps under restaurant and cart. -/
  | readHistory (pos : PosConfigId) (cartId : CartId)
  | appendHistory (pos : PosConfigId) (cartId : CartId) (turn : HistoryTurn)
  /-- The label that the intent model gave the utterance, if it is one. -/
  | completeIntent (text : String)
  /-- The chats and tool calls of a turn. They read the menu and the view, nothing else. -/
  | runAgent (text : String) (history : List HistoryTurn) (view : CartView)
  deriving DecidableEq, Repr

/-- The calls that write carts, their ledger or their lines in Odoo. -/
def Call.writes : Call → Bool
  | .setCart _ | .markProcessed _ _ | .commitApplied _ _ | .commitCreated _ | .confirmOrder _ => true
  | _ => false

abbrev Answer : Call → Type
  | .getCart _ => Option Cart
  | .setCart _ => Unit
  | .wasProcessed _ => Bool
  | .markProcessed _ _ => Unit
  | .commitApplied _ _ => Unit
  | .commitCreated _ => Unit
  | .confirmOrder _ => PosOrderId
  | .quoteCart _ => QuoteResponse
  | .resolveItemKey _ _ => Option MenuItem
  | .findByTmplId _ _ => Option MenuItem
  | .getItems _ _ => List MenuItem
  | .newLineId => LineId
  | .nowIso => String
  | .readHistory _ _ => List HistoryTurn
  | .appendHistory _ _ _ => Unit
  | .completeIntent _ => Option Intent
  | .runAgent _ _ _ => AgentOutcome

/-! ## Events -/

structure OperationRejected where
  cartId : CartId
  requestId : RequestId
  reason : String
  message : String
  operation : Option CartOperation
  sessionId : Option SessionId
  deriving DecidableEq, Repr

inductive Event where
  | operationsProposed (sessionId : SessionId) (proposal : OrderProposal)
  | orderReply (cartId : CartId) (sessionId : SessionId) (requestId : RequestId) (reply : String)
      (language : LangCode) (mentionedItems : List Mentioned)
  | cartUpdated (cart : Cart) (requestId : RequestId)
  | operationRejected (rejection : OperationRejected)
  | sessionFailed (sessionId : SessionId) (cartId : CartId) (reason message : String)
  deriving DecidableEq, Repr

/-- A program of the backend. -/
abbrev Promise : Type → Type := Program Answer Event AppError

/-- Await a call of a service. -/
abbrev ask (call : Call) : Promise (Answer call) := Program.call call

/-! ## The stores -/

@[ext]
structure Store where
  /-- The cart blobs, by cart id. -/
  carts : CartId → Option Cart
  ledger : RequestId → Option LedgerOutcome
  /-- The carts that came from a device. -/
  devices : DeviceId → List CartId
  /-- The carts ordered at a table. -/
  tables : RestaurantTableId → List CartId
  /-- The lines that Odoo has inserted, by the cart they came from. -/
  odoo : CartId → List RequestLine
  history : PosConfigId × CartId → List HistoryTurn

namespace Store

def empty : Store where
  carts := fun _ => none
  ledger := fun _ => none
  devices := fun _ => []
  tables := fun _ => []
  odoo := fun _ => []
  history := fun _ => []

/-- The turns of history that the agent is shown again. -/
def maxHistoryTurns : ℕ := 6

/-- Append the completed turns and keep the newest `cap`. -/
def mergeHistory (prev next : List HistoryTurn) (cap : ℕ) : List HistoryTurn :=
  (prev ++ next).drop ((prev ++ next).length - cap)

def setCart (cart : Cart) (store : Store) : Store :=
  { store with carts := Function.update store.carts cart.cartId (some cart) }

def mark (requestId : RequestId) (outcome : LedgerOutcome) (store : Store) : Store :=
  { store with ledger := Function.update store.ledger requestId (some outcome) }

/-- Add the cart to the index of a device or a table; without one it is indexed nowhere. -/
def index {κ : Type} [DecidableEq κ] (sets : κ → List CartId) (key : Option κ) (cartId : CartId) :
    κ → List CartId :=
  match key with
  | none => sets
  | some key => Function.update sets key (OrderedMap.add (sets key) cartId)

/-- The one atomic script of both commits: the cart, its mark and its indexes. -/
def commit (cart : Cart) (requestId : Option RequestId) (store : Store) : Store :=
  let marked := requestId.elim (store.setCart cart) fun requestId =>
    (store.setCart cart).mark requestId .applied
  { marked with
    devices := index store.devices cart.deviceId cart.cartId
    tables := index store.tables cart.tableId cart.cartId }

/-- The lines that an insert adds: those whose uuid, made of cart id and line id, is new. -/
def newLines (lines : List RequestLine) (request : InsertCartRequest) : List RequestLine :=
  request.items.filter fun line => line.lineId ∉ lines.map RequestLine.lineId

/-- The insert of a cart in Odoo only ever appends. -/
def insertCart (request : InsertCartRequest) (store : Store) : Store :=
  { store with
    odoo := Function.update store.odoo request.cartId
      (store.odoo request.cartId ++ newLines (store.odoo request.cartId) request) }

end Store

/-- What a call does to the stores when it gets a reply, and which replies it can get. The
menu, Odoo's prices and the models may answer anything. Any call may throw but for the clock,
the fresh ids and the history, which is kept in memory. -/
def handle : Handler Answer AppError Store
  | _, .newLineId, .error _ => none
  | _, .nowIso, .error _ => none
  | _, .readHistory _ _, .error _ => none
  | _, .appendHistory _ _ _, .error _ => none
  | store, _, .error _ => some store
  | store, .getCart cartId, .ok found => if found = store.carts cartId then some store else none
  | store, .setCart cart, .ok () => some (store.setCart cart)
  | store, .wasProcessed requestId, .ok processed =>
      if processed = (store.ledger requestId).isSome then some store else none
  | store, .markProcessed requestId outcome, .ok () => some (store.mark requestId outcome)
  | store, .commitApplied cart requestId, .ok () => some (store.commit cart (some requestId))
  | store, .commitCreated cart, .ok () => some (store.commit cart none)
  | store, .confirmOrder cart, .ok _ =>
      -- The uuid of a line is unique, so an insert with a repeated one does not resolve.
      let request := toInsertCartRequest cart
      let fresh := Store.newLines (store.odoo cart.cartId) request
      if (fresh.map RequestLine.lineId).Nodup then some (store.insertCart request) else none
  | store, .readHistory pos cartId, .ok history =>
      if history = store.history (pos, cartId) then some store else none
  | store, .appendHistory pos cartId turn, .ok () =>
      let merged := Store.mergeHistory (store.history (pos, cartId)) [turn] Store.maxHistoryTurns
      some { store with history := Function.update store.history (pos, cartId) merged }
  | store, _, .ok _ => some store

end VoiceOrder.Backend
