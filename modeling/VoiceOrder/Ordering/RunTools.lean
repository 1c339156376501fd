import VoiceOrder.Ordering.AgentReply
import VoiceOrder.Ordering.MentionedItems
import VoiceOrder.Ordering.RequiredModifiers
import VoiceOrder.RateLimit.Arrival

/-! # The tools of the agent

A search feeds the agent, a proposal ends the turn. A call that is refused, or that fails in a way
worth a retry, is answered with its error. -/

namespace VoiceOrder.Ordering

open VoiceOrder.Menu VoiceOrder.CartModule VoiceOrder.Backend

/-! ## Arguments -/

inductive MenuSort where
  | relevance
  | popularity
  deriving DecidableEq, Repr

structure MenuSearchOptions where
  query : Option String
  sort : Option MenuSort
  maxPriceCents : Option ℤ
  minPriceCents : Option ℤ
  limit : Option ℤ
  deriving DecidableEq, Repr

/-- Every field may be absent, and unknown ones are ignored. -/
def searchArgs : Schema MenuSearchOptions := fun value => do
  let args ← Schema.object value
  let query ← Schema.optional Schema.nonemptyString (args.field "query")
  let sort ← Schema.optional
    (Schema.enumeration [("relevance", MenuSort.relevance), ("popularity", MenuSort.popularity)])
    (args.field "sort")
  let maxPriceCents ← Schema.optional Schema.nonnegative (args.field "max_price_cents")
  let minPriceCents ← Schema.optional Schema.nonnegative (args.field "min_price_cents")
  let limit ← Schema.optional Schema.positive (args.field "limit")
  pure { query, sort, maxPriceCents, minPriceCents, limit }

def modifierRef : Schema OpModifierRef := fun value => do
  let ref ← Schema.object value
  let modifierKey ← Schema.nonemptyString (ref.field "modifier_key")
  pure { modifierKey }

def addItem (op : Json) : Option CartOperation := do
  let menuItemKey ← Schema.nonemptyString (op.field "menu_item_key")
  let quantity ← Schema.positive (op.field "quantity")
  let modifiers ← Schema.withDefault [] (Schema.array modifierRef) (op.field "modifiers")
  pure (.addItem menuItemKey quantity modifiers)

def removeItem (op : Json) : Option CartOperation := do
  let lineId ← Schema.nonemptyString (op.field "line_id")
  pure (.removeItem lineId)

def updateQuantity (op : Json) : Option CartOperation := do
  let lineId ← Schema.nonemptyString (op.field "line_id")
  let quantity ← Schema.positive (op.field "quantity")
  pure (.updateQuantity lineId quantity)

def addModifier (op : Json) : Option CartOperation := do
  let lineId ← Schema.nonemptyString (op.field "line_id")
  let modifierKey ← Schema.nonemptyString (op.field "modifier_key")
  pure (.addModifier lineId modifierKey)

def removeModifier (op : Json) : Option CartOperation := do
  let lineId ← Schema.nonemptyString (op.field "line_id")
  let modifierKey ← Schema.nonemptyString (op.field "modifier_key")
  pure (.removeModifier lineId modifierKey)

/-- The action of an operation tells which fields it has. -/
def cartOperationSchema : Schema CartOperation := fun value => do
  let op ← Schema.object value
  match op.field "action" with
  | some (.str "add_item") => addItem op
  | some (.str "remove_item") => removeItem op
  | some (.str "update_quantity") => updateQuantity op
  | some (.str "add_modifier") => addModifier op
  | some (.str "remove_modifier") => removeModifier op
  | _ => none

/-- The operations of a proposal; none if the field is absent. -/
def parseOrderGraphOutput : Schema (List CartOperation) :=
  Schema.withDefault [] (Schema.array cartOperationSchema)

theorem modifierRef_ok {value : Option Json} {ref : OpModifierRef} (h : modifierRef value = some ref) :
    ref.modifierKey ≠ "" := by
  obtain ⟨obj, -, h⟩ := Option.bind_eq_some_iff.mp h
  obtain ⟨modifierKey, hkey, h⟩ := Option.bind_eq_some_iff.mp h
  cases h
  exact Schema.nonemptyString_ne hkey

theorem addItem_ok {obj : Json} {op : CartOperation} (h : addItem obj = some op) : op.schemaOk = true := by
  obtain ⟨menuItemKey, hkey, h⟩ := Option.bind_eq_some_iff.mp h
  obtain ⟨quantity, hquantity, h⟩ := Option.bind_eq_some_iff.mp h
  obtain ⟨modifiers, hmodifiers, h⟩ := Option.bind_eq_some_iff.mp h
  cases h
  have hrefs : ∀ ref ∈ modifiers, ref.modifierKey ≠ "" := by
    unfold Schema.withDefault at hmodifiers
    split at hmodifiers
    · cases hmodifiers
      exact fun _ hmem => nomatch hmem
    · exact Schema.array_forall (fun _ _ => modifierRef_ok) hmodifiers
  simpa [CartOperation.schemaOk, Schema.nonemptyString_ne hkey, Schema.positive_pos hquantity] using hrefs

/-- What the schema parses is an operation that the cart module accepts. -/
theorem cartOperationSchema_ok {value : Option Json} {op : CartOperation}
    (h : cartOperationSchema value = some op) : op.schemaOk = true := by
  obtain ⟨obj, -, h⟩ := Option.bind_eq_some_iff.mp h
  split at h
  · exact addItem_ok h
  · obtain ⟨lineId, hline, h⟩ := Option.bind_eq_some_iff.mp h
    cases h
    exact decide_eq_true (Schema.nonemptyString_ne hline)
  · obtain ⟨lineId, hline, h⟩ := Option.bind_eq_some_iff.mp h
    obtain ⟨quantity, hquantity, h⟩ := Option.bind_eq_some_iff.mp h
    cases h
    simp [CartOperation.schemaOk, Schema.nonemptyString_ne hline, Schema.positive_pos hquantity]
  · obtain ⟨lineId, hline, h⟩ := Option.bind_eq_some_iff.mp h
    obtain ⟨modifierKey, hkey, h⟩ := Option.bind_eq_some_iff.mp h
    cases h
    simp [CartOperation.schemaOk, Schema.nonemptyString_ne hline, Schema.nonemptyString_ne hkey]
  · obtain ⟨lineId, hline, h⟩ := Option.bind_eq_some_iff.mp h
    obtain ⟨modifierKey, hkey, h⟩ := Option.bind_eq_some_iff.mp h
    cases h
    simp [CartOperation.schemaOk, Schema.nonemptyString_ne hline, Schema.nonemptyString_ne hkey]
  · cases h

/-! ## Messages -/

/-- A tool call as a provider sends it, with the fields that only that provider knows. -/
structure RawToolCall where
  id : String
  type : String
  name : String
  /-- JSON text. -/
  arguments : String
  providerFields : List (String × Json)
  deriving Repr

structure ToolCall where
  id : String
  name : String
  arguments : Json
  /-- The original payload, to be replayed verbatim. -/
  raw : Option RawToolCall := none
  deriving Repr

/-- What a tool answers. The JSON of a search is kept as the items it shows. -/
inductive ToolContent where
  | items (items : List CandidateItem)
  | text (text : String)
  deriving DecidableEq, Repr

/-- The scratchpad of a turn. An assistant message without calls has none of them. -/
inductive AgentMessage where
  | system (content : String)
  | user (content : String)
  | assistant (content : Option String) (toolCalls : List ToolCall)
  | tool (toolCallId : String) (content : ToolContent)
  deriving Repr

/-- The usage of one call. A provider that reports no cache detail omits it. -/
structure LlmUsage where
  promptTokens : ℕ
  completionTokens : ℕ
  totalTokens : ℕ
  cachedTokens : Option ℕ
  deriving DecidableEq, Repr

structure ChatResult where
  text : Option String
  toolCalls : List ToolCall
  usage : Option LlmUsage := none
  deriving Repr

/-- The usage of the chats of a turn. -/
structure TurnUsage where
  promptTokens : ℕ
  completionTokens : ℕ
  totalTokens : ℕ
  cachedTokens : ℕ
  /-- The prompt tokens of the calls that reported cache detail. -/
  cachePromptTokens : ℕ
  cacheReported : Bool
  calls : ℕ
  deriving DecidableEq, Repr

def TurnUsage.zero : TurnUsage where
  promptTokens := 0
  completionTokens := 0
  totalTokens := 0
  cachedTokens := 0
  cachePromptTokens := 0
  cacheReported := false
  calls := 0

def addUsage (prev : TurnUsage) (next : LlmUsage) : TurnUsage where
  promptTokens := prev.promptTokens + next.promptTokens
  completionTokens := prev.completionTokens + next.completionTokens
  totalTokens := prev.totalTokens + next.totalTokens
  cachedTokens := prev.cachedTokens + next.cachedTokens.getD 0
  cachePromptTokens := prev.cachePromptTokens +
    (if next.cachedTokens.isSome then next.promptTokens else 0)
  cacheReported := prev.cacheReported || next.cachedTokens.isSome
  calls := prev.calls + 1

/-- What was thrown, with the classes that the tools tell apart. -/
structure Failure where
  error : RateLimit.Thrown
  /-- It is a `RateLimitTimeoutError`. -/
  rateLimited : Bool
  /-- It is a `TypeError`, a `RangeError` or a `ReferenceError`. -/
  bugShaped : Bool
  deriving DecidableEq, Repr

/-- What follows a call gets what the call returned. -/
theorem bind_ok {α β : Type} {ran : Except Failure α} {next : α → Except Failure β} {value : β}
    (h : ran >>= next = .ok value) : ∃ result, ran = .ok result ∧ next result = .ok value := by
  cases ran with
  | error failure => cases h
  | ok result => exact ⟨result, rfl, h⟩

/-- The menu as the agent and its tools read it. -/
structure MenuService extends MenuLookup (Except Failure) where
  searchMenu : PosConfigId → MenuSearchOptions → Except Failure (List CandidateItem)

/-- What the language and its packages make of a value: `JSON.parse`, and the text of the issues
that the schemas find. -/
structure Platform where
  parseJson : String → Option Json
  searchArgsError : Json → String
  outputError : Option Json → String

/-- The channels of the graph. -/
structure OrderState where
  requestId : RequestId
  sessionId : SessionId
  cartId : CartId
  posConfigId : PosConfigId
  customerText : String
  supportedLanguages : List LangCode := []
  intent : Intent
  cartView : Option CartView
  baseVersion : ℕ
  history : List HistoryTurn
  /-- The operations that `propose_cart` committed. -/
  output : Option (List CartOperation)
  reply : Option String
  replyLanguage : Option LangCode
  agentMessages : List AgentMessage
  agentSteps : ℕ
  searchResults : SearchResults
  mentionedItems : List Mentioned
  tokenUsage : TurnUsage := .zero
  failureReason : Option String

/-! ## One call -/

structure ToolExecResult where
  content : ToolContent
  output : Option (List CartOperation)
  reply : Option String
  replyLanguage : Option LangCode
  searchResults : Option SearchResults
  mentionedItemKeys : Option (List String)

/-- An answer that is nothing but words. -/
def ToolExecResult.said (text : String) : ToolExecResult where
  content := .text text
  output := none
  reply := none
  replyLanguage := none
  searchResults := none
  mentionedItemKeys := none

/-- A read that fails or misses leaves its item unknown, which the check skips. -/
def findViolations (menu : MenuService) (s : OrderState) (operations : List CartOperation) :
    List String :=
  findRequiredModifierViolations operations s.cartView fun key =>
    match menu.resolveItemKey s.posConfigId key with
    | .ok item => item
    | .error _ => none

def proposalAccepted : String := "Proposal accepted."

def noOperation : String :=
  "Validation error: propose_cart needs at least one operation. If there is nothing to change, do " ++
    "not call propose_cart — reply to the customer in words instead."

def runSearch (platform : Platform) (menu : MenuService) (s : OrderState) (call : ToolCall) :
    Except Failure ToolExecResult :=
  match searchArgs (some call.arguments) with
  | none => .ok (.said ("Invalid arguments: " ++ platform.searchArgsError call.arguments))
  | some args => do
      let items ← menu.searchMenu s.posConfigId args
      pure { ToolExecResult.said "" with
        content := .items items
        searchResults := some (Ordering.searchResults items) }

/-- A proposal may bundle a reply: it commits and speaks in one call. -/
def runPropose (platform : Platform) (menu : MenuService) (s : OrderState) (call : ToolCall) :
    ToolExecResult :=
  let operations := call.arguments.field "operations"
  match parseOrderGraphOutput operations with
  | none => .said ("Validation error: " ++ platform.outputError operations)
  | some [] => .said noOperation
  | some (op :: ops) =>
      match findViolations menu s (op :: ops) with
      | [] =>
          let agentReply := AgentReply.parseAgentReply call.arguments
          { content := .text proposalAccepted
            output := some (op :: ops)
            reply := agentReply.reply
            replyLanguage := agentReply.language
            searchResults := none
            mentionedItemKeys := agentReply.reply.map fun _ => agentReply.mentionedItems }
      | violations => .said ("Validation error: " ++ " ".intercalate violations)

def runToolCall (platform : Platform) (menu : MenuService) (s : OrderState) (call : ToolCall) :
    Except Failure ToolExecResult :=
  if call.name = "search_menu" then runSearch platform menu s call
  else if call.name = "propose_cart" then .ok (runPropose platform menu s call)
  else .ok (.said ("Error: unknown tool \"" ++ call.name ++ "\"."))

/-! ## Failures -/

/-- How far down the chain of causes to look for the evidence of a transport. -/
def maxToolCauseDepth : ℕ := 5

def ioEvidenceWithin : ℕ → RateLimit.Thrown → Bool
  | 0, _ => false
  | _ + 1, .primitive _ => false
  | depth + 1, .object fields cause =>
      fields.status.isSome || fields.statusCode.isSome || fields.code.isSome ||
        ioEvidenceWithin depth cause

def hasIoEvidence (error : RateLimit.Thrown) : Bool := ioEvidenceWithin maxToolCauseDepth error

/-- The agent can usefully retry: the failure is no bug of our own. -/
def isRetriableToolFailure (failure : Failure) : Bool :=
  failure.rateLimited || !failure.bugShaped || hasIoEvidence failure.error

def messageOf : RateLimit.Thrown → String
  | .primitive text => text
  | .object fields _ => if fields.isError then fields.message else fields.text

def executeToolCall (platform : Platform) (menu : MenuService) (s : OrderState) (call : ToolCall) :
    Except Failure ToolExecResult :=
  match runToolCall platform menu s call with
  | .ok res => .ok res
  | .error failure =>
      if !isRetriableToolFailure failure then .error failure
      else if failure.rateLimited then
        .ok (.said ("Error: " ++ call.name ++ " is temporarily unavailable (capacity). Do not repeat " ++
          "this call — end this turn with a spoken reply: answer from what you already know, or tell " ++
          "the customer you could not complete their request just now."))
      else .ok (.said ("Error: tool \"" ++ call.name ++ "\" failed: " ++ messageOf failure.error))

/-! ## The calls of one step -/

/-- What the loop over the calls accumulates. -/
structure Batch where
  output : Option (List CartOperation)
  reply : Option String
  replyLanguage : Option LangCode
  searchResults : Option SearchResults
  mentionedItems : Option (List Mentioned)
  toolMsgs : List AgentMessage

def Batch.start (s : OrderState) : Batch where
  output := s.output
  reply := none
  replyLanguage := none
  searchResults := none
  mentionedItems := none
  toolMsgs := []

/-- Each field is overwritten by the calls that set it. Keys are resolved against everything
found up to here. -/
def Batch.fold (s : OrderState) (call : ToolCall) (res : ToolExecResult) (batch : Batch) : Batch :=
  let searchResults := match res.searchResults with
    | none => batch.searchResults
    | some found => some ((batch.searchResults.getD s.searchResults).spread found)
  { output := res.output.or batch.output
    reply := res.reply.or batch.reply
    replyLanguage := res.replyLanguage.or batch.replyLanguage
    searchResults := searchResults
    mentionedItems := match res.mentionedItemKeys with
      | none => batch.mentionedItems
      | some keys => some (resolveMentionedItems keys (searchResults.getD s.searchResults))
    toolMsgs := batch.toolMsgs ++ [.tool call.id res.content] }

/-- `menu i` is the menu as the `i`-th call finds it. -/
def runCalls (platform : Platform) (menu : ℕ → MenuService) (s : OrderState) :
    ℕ → List ToolCall → Batch → Except Failure Batch
  | _, [], batch => .ok batch
  | i, call :: calls, batch => do
      let res ← executeToolCall platform (menu i) s call
      runCalls platform menu s (i + 1) calls (batch.fold s call res)

/-- The calls that the last message asks for. -/
def requestedCalls (s : OrderState) : List ToolCall :=
  match s.agentMessages.getLast? with
  | some (.assistant _ calls) => calls
  | _ => []

/-- Run the calls and patch the channels that they set. -/
def runTools (platform : Platform) (menu : ℕ → MenuService) (s : OrderState) :
    Except Failure OrderState := do
  let batch ← runCalls platform menu s 0 (requestedCalls s) (Batch.start s)
  pure { s with
    agentMessages := s.agentMessages ++ batch.toolMsgs
    output := batch.output
    reply := batch.reply.or s.reply
    replyLanguage := batch.replyLanguage.or s.replyLanguage
    searchResults := batch.searchResults.getD s.searchResults
    mentionedItems := batch.mentionedItems.getD s.mentionedItems }

end VoiceOrder.Ordering
