import VoiceOrder.Ordering.RunTools

/-! # The graph of a turn

`normalize → classify → load_cart → agent ⇄ tools → finalize`. The checkpointer keeps the
channels from turn to turn, and `normalize` resets those of the turn. -/

namespace VoiceOrder.Ordering

open VoiceOrder.Menu VoiceOrder.CartModule VoiceOrder.Backend

/-- The words that seed the scratchpad of a turn. -/
structure Prompts where
  system : String
  user : String → CartView → List HistoryTurn → String

/-- What a turn of the graph calls. A later call may be answered otherwise than an earlier one. -/
structure Services where
  platform : Platform
  prompts : Prompts
  /-- It degrades to `service` and never throws. -/
  classifyIntent : String → Intent
  getCart : CartId → Except Failure (Option Cart)
  nowIso : String
  /-- The menu as `load_cart` reads it. -/
  cartMenu : MenuLookup (Except Failure)
  /-- The `n`-th chat of the turn. -/
  chat : ℕ → List AgentMessage → Except Failure ChatResult
  /-- The menu as the calls of the `n`-th step of the agent find it, one by one. -/
  menu : ℕ → ℕ → MenuService

inductive Node where
  | normalize
  | classify
  | loadCart
  | agent
  | tools
  | finalize
  | done
  deriving DecidableEq, Repr

namespace AgentGraph

def maxAgentSteps : ℕ := 8

/-! ## The nodes -/

def normalize (s : OrderState) : OrderState :=
  { s with
    customerText := normalizeTranscript s.customerText
    output := none
    reply := none
    replyLanguage := none
    agentMessages := []
    agentSteps := 0
    searchResults := .empty
    mentionedItems := []
    tokenUsage := .zero
    failureReason := none }

/-- An utterance that may answer a spoken reply is served. -/
def classify (services : Services) (s : OrderState) : OrderState :=
  match s.history.getLast?.bind HistoryTurn.agentReply with
  | some _ => { s with intent := .service }
  | none => { s with intent := services.classifyIntent s.customerText }

def loadCart (services : Services) (s : OrderState) : Except Failure OrderState := do
  let found ← services.getCart s.cartId
  let cart := found.getD (emptyCart s.cartId s.posConfigId none services.nowIso)
  let view ← buildCartView services.cartMenu cart
  pure { s with cartView := some view, baseVersion := cart.version }

def seedMessages (prompts : Prompts) (s : OrderState) : List AgentMessage :=
  [.system prompts.system, .user (s.cartView.elim "" fun view => prompts.user s.customerText view s.history)]

/-- The messages that the agent sends: those of the turn so far, or the seed. -/
def chatMessages (services : Services) (s : OrderState) : List AgentMessage :=
  if s.agentMessages.isEmpty then seedMessages services.prompts s else s.agentMessages

/-- One chat. Without a tool call the agent ended the turn by speaking. -/
def agent (services : Services) (s : OrderState) : Except Failure OrderState :=
  let step := s.agentSteps + 1
  if maxAgentSteps < step then .ok { s with failureReason := some "agent_step_limit" }
  else do
    let messages := chatMessages services s
    let res ← services.chat step messages
    let base := { s with
      agentMessages := messages ++ [.assistant res.text res.toolCalls]
      agentSteps := step
      tokenUsage := res.usage.elim s.tokenUsage (addUsage s.tokenUsage) }
    if res.toolCalls.isEmpty then
      let parsed := AgentReply.parseSpokenReply services.platform.parseJson res.text
      match parsed.reply with
      | none => pure { base with failureReason := some "agent_no_terminal" }
      | some reply =>
          pure { base with
            reply := some reply
            replyLanguage := parsed.language.or s.replyLanguage
            mentionedItems := resolveMentionedItems parsed.mentionedItems s.searchResults }
    else pure base

/-- Record the completed turn, with what the agent said. -/
def finalize (s : OrderState) : OrderState :=
  { s with
    history := Store.mergeHistory s.history [⟨s.customerText, s.reply⟩] Store.maxHistoryTurns }

/-! ## The edges -/

def afterClassify (s : OrderState) : Node :=
  match s.intent with
  | .service => .loadCart
  | .junk => .done

def lastAssistantHasToolCalls (s : OrderState) : Bool := !(requestedCalls s).isEmpty

def afterAgent (s : OrderState) : Node :=
  if s.failureReason.isSome || s.reply.isSome then .finalize
  else if lastAssistantHasToolCalls s then .tools
  else .finalize

def afterTools (s : OrderState) : Node := if s.output.isSome then .finalize else .agent

/-- Run a node and follow its edge. A node that throws fails the turn. -/
def step (services : Services) : Node → OrderState → Except Failure (Node × OrderState)
  | .normalize, s => .ok (.classify, normalize s)
  | .classify, s =>
      let classified := classify services s
      .ok (afterClassify classified, classified)
  | .loadCart, s => do
      let loaded ← loadCart services s
      pure (.agent, loaded)
  | .agent, s => do
      let spoken ← agent services s
      pure (afterAgent spoken, spoken)
  | .tools, s => do
      let ran ← runTools services.platform (services.menu s.agentSteps) s
      pure (afterTools ran, ran)
  | .finalize, s => .ok (.done, finalize s)
  | .done, s => .ok (.done, s)

/-- The nodes that one invocation may run. -/
def recursionLimit : ℕ := 25

def recursionError : Failure where
  error := .object (RateLimit.ErrorFields.new "Recursion limit reached") .undefined
  rateLimited := false
  bugShaped := false

def run (services : Services) : ℕ → Node → OrderState → Except Failure OrderState
  | 0, node, s => if node = .done then .ok s else .error recursionError
  | limit + 1, node, s =>
      if node = .done then .ok s
      else do
        let (next, after) ← step services node s
        run services limit next after

/-- A turn, from the channels that the turn before it left. -/
def invoke (services : Services) (e : SttFinalTranscriptReceived) (s : OrderState) :
    Except Failure OrderState :=
  run services recursionLimit .normalize
    { s with
      requestId := e.requestId
      sessionId := e.sessionId
      cartId := e.cartId
      posConfigId := e.posConfigId
      customerText := e.text
      supportedLanguages := [] }

/-! ## The limit is out of reach -/

/-- How many nodes may run from here on. -/
def rank : Node → OrderState → ℕ
  | .normalize, _ => 21
  | .classify, s => 2 * (maxAgentSteps - s.agentSteps) + 4
  | .loadCart, s => 2 * (maxAgentSteps - s.agentSteps) + 3
  | .agent, s => 2 * (maxAgentSteps - s.agentSteps) + 2
  | .tools, s => 2 * (maxAgentSteps - s.agentSteps) + 3
  | .finalize, _ => 1
  | .done, _ => 0

section

variable {services : Services} {s after : OrderState} {node next : Node}

theorem afterClassify_rank : rank (afterClassify s) s < rank .classify s := by
  cases h : s.intent <;> simp [afterClassify, h, rank]

theorem loadCart_agentSteps (h : loadCart services s = .ok after) : after.agentSteps = s.agentSteps := by
  obtain ⟨cart, -, h⟩ := bind_ok h
  obtain ⟨view, -, h⟩ := bind_ok h
  cases h
  rfl

/-- Each chat uses up a step, until there is none left. -/
theorem agent_rank (h : agent services s = .ok after) : rank (afterAgent after) after < rank .agent s := by
  have hfinalize : ∀ state : OrderState, afterAgent state = .finalize →
      rank (afterAgent state) state < rank .agent s := by
    intro state hroute
    rw [hroute]
    exact Nat.lt_of_lt_of_le (Nat.lt_succ_self 1) (Nat.le_add_left 2 _)
  unfold agent at h
  dsimp only at h
  split at h
  · cases h
    exact hfinalize _ rfl
  · rename_i hroom
    obtain ⟨res, -, h⟩ := bind_ok h
    have hstepped : ∀ state : OrderState, state.agentSteps = s.agentSteps + 1 →
        rank (afterAgent state) state < rank .agent s := by
      intro state hsteps
      cases hroute : afterAgent state <;> simp only [afterAgent] at hroute <;> split_ifs at hroute
      · simp only [rank, hsteps]
        omega
      · exact Nat.lt_of_lt_of_le (Nat.lt_succ_self 1) (Nat.le_add_left 2 _)
      · exact Nat.lt_of_lt_of_le (Nat.lt_succ_self 1) (Nat.le_add_left 2 _)
    split at h
    · split at h
      · cases h
        exact hstepped _ rfl
      · cases h
        exact hstepped _ rfl
    · cases h
      exact hstepped _ rfl

theorem runTools_agentSteps {platform : Platform} {menu : ℕ → MenuService}
    (h : runTools platform menu s = .ok after) : after.agentSteps = s.agentSteps := by
  obtain ⟨batch, -, h⟩ := bind_ok h
  cases h
  rfl

theorem afterTools_rank : rank (afterTools s) s < rank .tools s := by
  cases h : s.output <;> simp [afterTools, h, rank]

theorem step_rank (hstep : step services node s = .ok (next, after)) (hnode : node ≠ .done) :
    rank next after < rank node s := by
  cases node with
  | normalize =>
      cases hstep
      exact Nat.lt_succ_self 20
  | classify =>
      cases hstep
      have hsteps : (classify services s).agentSteps = s.agentSteps := by
        unfold classify
        split <;> rfl
      have hrank := afterClassify_rank (s := classify services s)
      simp only [rank, hsteps] at hrank ⊢
      exact hrank
  | loadCart =>
      obtain ⟨loaded, hload, hstep⟩ := bind_ok hstep
      cases hstep
      simp only [rank, loadCart_agentSteps hload]
      exact Nat.lt_succ_self _
  | agent =>
      obtain ⟨spoken, hagent, hstep⟩ := bind_ok hstep
      cases hstep
      exact agent_rank hagent
  | tools =>
      obtain ⟨ran, hran, hstep⟩ := bind_ok hstep
      cases hstep
      have hrank := afterTools_rank (s := after)
      simp only [rank, runTools_agentSteps hran] at hrank ⊢
      exact hrank
  | finalize =>
      cases hstep
      exact Nat.zero_lt_one
  | done => exact absurd rfl hnode

/-- With room for its nodes a run is the same under any higher limit. -/
theorem run_of_rank {limit : ℕ} (more : ℕ) (h : rank node s ≤ limit) :
    run services (limit + more) node s = run services limit node s := by
  by_cases hdone : node = .done
  · subst hdone
    cases limit <;> cases more <;> simp [run]
  · induction limit generalizing node s with
    | zero =>
        cases node <;> simp_all [rank]
    | succ limit ih =>
        rw [Nat.succ_add, run, run, if_neg hdone, if_neg hdone]
        cases hstep : step services node s with
        | error failure => rfl
        | ok pair =>
            have hless := step_rank hstep hdone
            by_cases hnext : pair.1 = .done
            · obtain ⟨next, after⟩ := pair
              subst hnext
              cases limit <;> cases more <;> simp [bind, Except.bind, run]
            · exact ih (by omega) hnext

/-- What every node keeps on the way to the next one holds where the turn ends. -/
theorem run_holds {limit : ℕ} (Holds : Node → OrderState → Prop)
    (hkeep : ∀ node s next after, Holds node s → step services node s = .ok (next, after) →
      Holds next after)
    (h : Holds node s) (hrun : run services limit node s = .ok after) : Holds .done after := by
  induction limit generalizing node s with
  | zero =>
      rw [run] at hrun
      split at hrun
      case isTrue hdone =>
          cases hrun
          exact hdone ▸ h
      case isFalse => cases hrun
  | succ limit ih =>
      rw [run] at hrun
      split at hrun
      case isTrue hdone =>
          cases hrun
          exact hdone ▸ h
      case isFalse =>
          obtain ⟨pair, hstep, hrun⟩ := bind_ok hrun
          exact ih (hkeep node s pair.1 pair.2 h hstep) hrun

/-- No turn reaches the limit. -/
theorem invoke_of_limit (more : ℕ) (e : SttFinalTranscriptReceived) (s : OrderState) :
    invoke services e s = run services (recursionLimit + more) .normalize
      { s with
        requestId := e.requestId
        sessionId := e.sessionId
        cartId := e.cartId
        posConfigId := e.posConfigId
        customerText := e.text
        supportedLanguages := [] } := by
  have hroom : 21 ≤ recursionLimit := by decide
  exact (run_of_rank more hroom).symm

end

/-! ## Its outcome -/

/-- How the turn ended. -/
inductive TurnResult where
  | complete (operations : List CartOperation) (baseVersion : ℕ) (reply : Option String)
      (language : Option LangCode) (mentionedItems : Option (List Mentioned))
  | reply (reply : String) (language : Option LangCode) (mentionedItems : Option (List Mentioned))
  | junk
  | fail (reason : String)
  deriving DecidableEq, Repr

/-- An empty list is left out. -/
def nonempty (items : List Mentioned) : Option (List Mentioned) :=
  if items.isEmpty then none else some items

theorem nonempty_getD (items : List Mentioned) : (nonempty items).getD [] = items := by
  cases items <;> rfl

def interpret (out : OrderState) : TurnResult :=
  match out.intent, out.failureReason, out.output, out.reply with
  | .junk, _, _, _ => .junk
  | .service, some reason, _, _ => .fail reason
  | .service, none, some operations, none => .complete operations out.baseVersion none none none
  | .service, none, some operations, some reply =>
      .complete operations out.baseVersion (some reply) out.replyLanguage (nonempty out.mentionedItems)
  | .service, none, none, some reply => .reply reply out.replyLanguage (nonempty out.mentionedItems)
  | .service, none, none, none => .fail "agent_no_terminal"

/-- The `order.reply` event. -/
structure OrderReply where
  cartId : CartId
  sessionId : SessionId
  requestId : RequestId
  reply : String
  language : LangCode
  mentionedItems : Option (List Mentioned)
  deriving DecidableEq, Repr

def speak (ttsLanguage : LangCode) (e : SttFinalTranscriptReceived) (reply : String)
    (language : Option LangCode) (mentionedItems : Option (List Mentioned)) : OrderReply where
  cartId := e.cartId
  sessionId := e.sessionId
  requestId := e.requestId
  reply := reply
  language := language.getD ttsLanguage
  mentionedItems := mentionedItems.bind nonempty

/-- What the outcome of a turn has spoken, if anything. -/
def spoken (ttsLanguage : LangCode) (e : SttFinalTranscriptReceived) : TurnResult → Option OrderReply
  | .complete _ _ (some reply) language mentionedItems =>
      some (speak ttsLanguage e reply language mentionedItems)
  | .reply reply language mentionedItems => some (speak ttsLanguage e reply language mentionedItems)
  | _ => none

/-- What the turn proposes. -/
def TurnResult.operations : TurnResult → List CartOperation
  | .complete operations _ _ _ _ => operations
  | _ => []

end AgentGraph

end VoiceOrder.Ordering
