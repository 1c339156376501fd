import VoiceOrder.CartModule.Controller

/-! # The turns of a conversation

One turn takes a final transcript through the graph and publishes how it ended. It never
writes the cart; it reads it once, in `load_cart`. -/

namespace VoiceOrder.Ordering

open Async VoiceOrder.CartModule VoiceOrder.Backend

structure SttFinalTranscriptReceived where
  requestId : RequestId
  sessionId : SessionId
  cartId : CartId
  posConfigId : PosConfigId
  text : String
  deriving DecidableEq, Repr

/-- Trim the transcript and collapse its white space. -/
def normalizeTranscript (text : String) : String :=
  let words := (text.toList.splitOnP isWhiteSpace).filter fun word => ¬word.isEmpty
  String.ofList (List.intercalate [' '] words)

/-- How a turn of the graph ended. -/
inductive GraphTurnResult where
  | complete (operations : List CartOperation) (baseVersion : ℕ) (spoken : Option Spoken)
  | reply (spoken : Spoken)
  | junk
  | fail (reason : String)
  deriving DecidableEq, Repr

/-! ## The graph -/

/-- The label of the utterance. One that may answer a reply of the agent is served, and so
is one that the intent model fails to label. -/
def classify (text : String) (history : List HistoryTurn) : Promise Intent :=
  match history.getLast?.bind HistoryTurn.agentReply with
  | some _ => pure .service
  | none => do
      match ← (ask (.completeIntent text)).attempt with
      | .ok (some intent) => pure intent
      | _ => pure .service

/-- The cart snapshot of the turn; its version becomes the base version. -/
def loadCart (cartId : CartId) (pos : PosConfigId) : Promise Cart := cartOrEmpty cartId pos

/-- The reply that is kept in the history. -/
def agentReply : AgentOutcome → Option String
  | .proposed _ spoken => spoken.map Spoken.reply
  | .spoke spoken => some spoken.reply
  | .failed _ => none

def OrderGraph.interpret (baseVersion : ℕ) : AgentOutcome → GraphTurnResult
  | .proposed operations spoken => .complete operations baseVersion spoken
  | .spoke spoken => .reply spoken
  | .failed reason => .fail reason

def OrderGraph.start (e : SttFinalTranscriptReceived) : Promise GraphTurnResult := do
  let text := normalizeTranscript e.text
  let history ← ask (.readHistory e.posConfigId e.cartId)
  match ← classify text history with
  | .junk => pure .junk
  | .service => do
      let cart ← loadCart e.cartId e.posConfigId
      let view ← buildCartView menuService cart
      let outcome ← ask (.runAgent text history view)
      ask (.appendHistory e.posConfigId e.cartId ⟨text, agentReply outcome⟩)
      pure (OrderGraph.interpret cart.version outcome)

/-! ## The service -/

/-- A node that throws fails the turn. -/
def runTurn (e : SttFinalTranscriptReceived) : Promise GraphTurnResult := do
  match ← (OrderGraph.start e).attempt with
  | .ok result => pure result
  | .error (.rateLimited _) => pure (.fail "llm_rate_limited")
  | .error _ => pure (.fail "order_parse_failed")

/-- The spoken reply, in the language of the configuration where the agent declared none. -/
def speak (ttsLanguage : LangCode) (e : SttFinalTranscriptReceived) (spoken : Spoken) : Event :=
  .orderReply e.cartId e.sessionId e.requestId spoken.reply (spoken.language.getD ttsLanguage)
    spoken.mentionedItems

def propose (e : SttFinalTranscriptReceived) (operations : List CartOperation)
    (baseVersion : ℕ) : Event :=
  .operationsProposed e.sessionId {
    requestId := e.requestId
    cartId := e.cartId
    posConfigId := e.posConfigId
    baseVersion := baseVersion
    operations := operations }

/-- What the outcome of a turn publishes; the proposal goes out before the spoken words. -/
def dispatch (ttsLanguage : LangCode) (e : SttFinalTranscriptReceived) :
    GraphTurnResult → List Event
  | .junk => []
  | .fail reason =>
      [.sessionFailed e.sessionId e.cartId reason "Sorry, I could not process that. Please try again."]
  | .reply spoken => [speak ttsLanguage e spoken]
  | .complete operations baseVersion spoken =>
      propose e operations baseVersion :: (spoken.map (speak ttsLanguage e)).toList

/-- One turn of a cart, as it is queued. -/
def handleFinalTranscript (ttsLanguage : LangCode) (e : SttFinalTranscriptReceived) :
    Promise Unit := do
  let result ← runTurn e
  publish (dispatch ttsLanguage e result)

end VoiceOrder.Ordering
