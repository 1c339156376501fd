import VoiceOrder.Ordering.AgentTurns
import VoiceOrder.Ordering.TurnTrace

/-! # A turn halts with one outcome

The loop is steered by channels that several nodes write, and the outcome is decoded from them
again. Whatever the model and the tools answer, it is one of four. -/

namespace VoiceOrder.Ordering.AgentGraph

open VoiceOrder.CartModule VoiceOrder.Backend

/-! ## What the service publishes -/

/-- The events that a turn may emit. -/
inductive TurnEvent where
  | operationsProposed (sessionId : SessionId) (proposal : OrderProposal)
  | orderReply (reply : OrderReply)
  | sessionFailed (sessionId : SessionId) (cartId : CartId) (reason message : String)
  deriving DecidableEq, Repr

def start (services : Services) (e : SttFinalTranscriptReceived) (s : OrderState) :
    Except Failure TurnResult := do
  let out ← invoke services e s
  pure (interpret out)

/-- A node that throws fails the turn. -/
def runTurn (services : Services) (e : SttFinalTranscriptReceived) (s : OrderState) : TurnResult :=
  match start services e s with
  | .ok result => result
  | .error failure =>
      if failure.rateLimited then .fail "llm_rate_limited" else .fail "order_parse_failed"

def propose (e : SttFinalTranscriptReceived) (operations : List CartOperation)
    (baseVersion : ℕ) : TurnEvent :=
  .operationsProposed e.sessionId {
    requestId := e.requestId
    cartId := e.cartId
    posConfigId := e.posConfigId
    baseVersion := baseVersion
    operations := operations }

def fail (e : SttFinalTranscriptReceived) (reason : String) : TurnEvent :=
  .sessionFailed e.sessionId e.cartId reason "Sorry, I could not process that. Please try again."

/-- What the outcome publishes; the proposal goes out before the spoken words. -/
def dispatch (ttsLanguage : LangCode) (e : SttFinalTranscriptReceived) :
    TurnResult → List TurnEvent
  | .junk => []
  | .fail reason => [fail e reason]
  | .reply reply language mentionedItems =>
      [.orderReply (speak ttsLanguage e reply language mentionedItems)]
  | .complete operations baseVersion reply language mentionedItems =>
      propose e operations baseVersion ::
        (reply.map fun reply =>
          .orderReply (speak ttsLanguage e reply language mentionedItems)).toList

/-- The turn as the service takes it, from the channels of the turn before. -/
def turnEvents (services : Services) (ttsLanguage : LangCode) (e : SttFinalTranscriptReceived)
    (s : OrderState) : List TurnEvent :=
  dispatch ttsLanguage e (runTurn services e s)

/-- The words of a turn go to its session and its cart. -/
structure Answers (e : SttFinalTranscriptReceived) (text : String) (spoken : OrderReply) : Prop where
  reply : spoken.reply = text
  requestId : spoken.requestId = e.requestId
  sessionId : spoken.sessionId = e.sessionId
  cartId : spoken.cartId = e.cartId

/-- A proposal of the turn, against the version of the cart that the turn read. -/
structure Proposed (e : SttFinalTranscriptReceived) (operations : List CartOperation)
    (baseVersion : ℕ) (proposal : OrderProposal) : Prop where
  some_operation : operations ≠ []
  operations : proposal.operations = operations
  baseVersion : proposal.baseVersion = baseVersion
  requestId : proposal.requestId = e.requestId
  cartId : proposal.cartId = e.cartId
  posConfigId : proposal.posConfigId = e.posConfigId

/-- The outcome of a turn and what it publishes, by the error that stopped its graph or the
channels with which the graph ended. They single out one of the four. -/
inductive Halted (e : SttFinalTranscriptReceived) :
    Except Failure OrderState → List TurnEvent → Prop where
  | junk (out) (hintent : out.intent = .junk) : Halted e (.ok out) []
  | thrown (failure reason message) :
      Halted e (.error failure) [.sessionFailed e.sessionId e.cartId reason message]
  | failure (out reason message) (hintent : out.intent = .service)
      (hfailed : out.failureReason = some reason ∨
        out.failureReason = none ∧ out.output = none ∧ out.reply = none) :
      Halted e (.ok out) [.sessionFailed e.sessionId e.cartId reason message]
  | reply (out text spoken) (hintent : out.intent = .service) (hfailed : out.failureReason = none)
      (houtput : out.output = none) (hreply : out.reply = some text)
      (hspoken : Answers e text spoken) :
      Halted e (.ok out) [.orderReply spoken]
  | complete (out operations proposal) (spoken : Option OrderReply) (hintent : out.intent = .service)
      (hfailed : out.failureReason = none) (houtput : out.output = some operations)
      (hproposal : Proposed e operations out.baseVersion proposal)
      (hsame : spoken.map OrderReply.reply = out.reply)
      (hspoken : ∀ reply ∈ spoken, Answers e reply.reply reply) :
      Halted e (.ok out)
        (.operationsProposed e.sessionId proposal :: (spoken.map TurnEvent.orderReply).toList)

section

variable {services : Services} {s after final : OrderState} {node next : Node} {limit : ℕ}
  {e : SttFinalTranscriptReceived}

/-! ## How many chats -/

theorem agent_agentSteps (h : agent services s = .ok after) :
    after.agentSteps =
      if maxAgentSteps < s.agentSteps + 1 then s.agentSteps else s.agentSteps + 1 := by
  unfold agent at h
  dsimp only at h
  split at h
  case isTrue hspent =>
      cases h
      rw [if_pos hspent]
  case isFalse hroom =>
      rw [if_neg hroom]
      obtain ⟨res, -, h⟩ := bind_ok h
      split at h
      · split at h <;> cases h <;> rfl
      · cases h
        rfl

/-- A node uses up a step for the chat that it makes. -/
theorem step_chat (hnode : node ≠ .normalize) (hstep : step services node s = .ok (next, after)) :
    next ≠ .normalize ∧
      (chatOf services (node, s)).toList.length + (maxAgentSteps - after.agentSteps) ≤
        maxAgentSteps - s.agentSteps := by
  cases node with
  | normalize => exact absurd rfl hnode
  | classify =>
      cases hstep
      have hsteps : (classify services s).agentSteps = s.agentSteps := by
        unfold classify
        split <;> rfl
      refine ⟨?_, by simp [chatOf, hsteps]⟩
      unfold afterClassify
      split <;> simp
  | loadCart =>
      obtain ⟨loaded, hload, hstep⟩ := bind_ok hstep
      cases hstep
      exact ⟨by simp, by simp [chatOf, loadCart_agentSteps hload]⟩
  | agent =>
      obtain ⟨spoken, hagent, hstep⟩ := bind_ok hstep
      cases hstep
      constructor
      · unfold afterAgent
        split_ifs <;> simp
      · rw [agent_agentSteps hagent, chatOf]
        by_cases hspent : maxAgentSteps < s.agentSteps + 1
        · simp [hspent]
        · simp only [if_neg hspent, Option.toList_some, List.length_singleton]
          omega
  | tools =>
      obtain ⟨ran, hran, hstep⟩ := bind_ok hstep
      cases hstep
      refine ⟨?_, by simp [chatOf, runTools_agentSteps hran]⟩
      unfold afterTools
      split_ifs <;> simp
  | finalize =>
      cases hstep
      exact ⟨by simp, by simp [chatOf, finalize]⟩
  | done =>
      cases hstep
      exact ⟨by simp, by simp [chatOf]⟩

theorem chatOf_room (services : Services) (node : Node) (s : OrderState) :
    (chatOf services (node, s)).toList.length ≤ maxAgentSteps - s.agentSteps := by
  cases node with
  | agent =>
      by_cases hspent : maxAgentSteps < s.agentSteps + 1
      · simp [chatOf, hspent]
      · simp only [chatOf, if_neg hspent, Option.toList_some, List.length_singleton]
        omega
  | _ => exact Nat.zero_le _

theorem filterMap_cons_length {α β : Type} (f : α → Option β) (a : α) (as : List α) :
    ((a :: as).filterMap f).length = (f a).toList.length + (as.filterMap f).length := by
  cases h : f a <;> simp [h, Nat.add_comm]

theorem chats_of_visits (hnode : node ≠ .normalize) :
    ((visits services limit node s).filterMap (chatOf services)).length ≤
      maxAgentSteps - s.agentSteps := by
  induction limit generalizing node s with
  | zero => exact Nat.zero_le _
  | succ limit ih =>
      by_cases hdone : node = .done
      · rw [hdone, visits_done]
        exact Nat.zero_le _
      · cases hstep : step services node s with
        | error failure =>
            rw [visits_error hdone hstep, filterMap_cons_length]
            exact chatOf_room services node s
        | ok pair =>
            obtain ⟨next, after⟩ := pair
            obtain ⟨hnext, hchat⟩ := step_chat hnode hstep
            have hrest : ((visits services limit next after).filterMap (chatOf services)).length ≤
                maxAgentSteps - after.agentSteps := ih hnext
            rw [visits_ok hdone hstep, filterMap_cons_length]
            omega

theorem chats_length (services : Services) (e : SttFinalTranscriptReceived) (s : OrderState) :
    (chats services e s).length ≤ maxAgentSteps := by
  have hnormalize : step services .normalize (input e s) =
      .ok (.classify, normalize (input e s)) := rfl
  have hrest : ((visits services 24 .classify (normalize (input e s))).filterMap
      (chatOf services)).length ≤ maxAgentSteps - (normalize (input e s)).agentSteps :=
    chats_of_visits (by simp)
  rw [chats, turnVisits, recursionLimit, visits_ok (by simp) hnormalize, filterMap_cons_length]
  simpa [chatOf, normalize] using hrest

/-! ## What is proposed -/

/-- An accepted proposal has operations. -/
def Proposes (s : OrderState) : Prop := ∀ operations, s.output = some operations → operations ≠ []

theorem runToolCall_output {platform : Platform} {menu : MenuService} {call : ToolCall}
    {res : ToolExecResult} {operations : List CartOperation}
    (h : runToolCall platform menu s call = .ok res) (houtput : res.output = some operations) :
    operations ≠ [] := by
  unfold runToolCall at h
  split_ifs at h
  · unfold runSearch at h
    split at h
    · cases h
      cases houtput
    · obtain ⟨items, -, h⟩ := bind_ok h
      cases h
      cases houtput
  · cases h
    unfold runPropose at houtput
    dsimp only at houtput
    split at houtput
    · cases houtput
    · cases houtput
    · split at houtput
      · cases houtput
        exact List.cons_ne_nil _ _
      · cases houtput
  · cases h
    cases houtput

theorem executeToolCall_output {platform : Platform} {menu : MenuService} {call : ToolCall}
    {res : ToolExecResult} {operations : List CartOperation}
    (h : executeToolCall platform menu s call = .ok res) (houtput : res.output = some operations) :
    operations ≠ [] := by
  unfold executeToolCall at h
  split at h
  case h_1 ran hran =>
      cases h
      exact runToolCall_output hran houtput
  case h_2 =>
      split_ifs at h
      · cases h
        cases houtput
      · cases h
        cases houtput

theorem runCalls_output {platform : Platform} {menu : ℕ → MenuService} {i : ℕ}
    {requested : List ToolCall} {batch last : Batch}
    (h : runCalls platform menu s i requested batch = .ok last)
    (hbatch : ∀ operations, batch.output = some operations → operations ≠ []) :
    ∀ operations, last.output = some operations → operations ≠ [] := by
  induction requested generalizing i batch with
  | nil =>
      cases h
      exact hbatch
  | cons call requested ih =>
      obtain ⟨res, hres, hrest⟩ := bind_ok h
      refine ih hrest fun operations houtput => ?_
      cases hout : res.output with
      | none =>
          rw [Batch.fold, hout] at houtput
          exact hbatch operations houtput
      | some proposed =>
          rw [Batch.fold, hout] at houtput
          cases houtput
          exact executeToolCall_output hres hout

theorem agent_output (h : agent services s = .ok after) : after.output = s.output := by
  unfold agent at h
  dsimp only at h
  split at h
  · cases h
    rfl
  · obtain ⟨res, -, h⟩ := bind_ok h
    split at h
    · split at h <;> cases h <;> rfl
    · cases h
      rfl

theorem step_proposes (h : node ≠ .normalize → Proposes s)
    (hstep : step services node s = .ok (next, after)) : Proposes after := by
  cases node with
  | normalize =>
      cases hstep
      exact fun _ houtput => nomatch houtput
  | classify =>
      cases hstep
      unfold classify
      split <;> exact h (by simp)
  | loadCart =>
      obtain ⟨loaded, hload, hstep⟩ := bind_ok hstep
      obtain ⟨cart, -, hload⟩ := bind_ok hload
      obtain ⟨view, -, hload⟩ := bind_ok hload
      cases hload
      cases hstep
      exact h (by simp)
  | agent =>
      obtain ⟨spoken, hagent, hstep⟩ := bind_ok hstep
      cases hstep
      rw [Proposes, agent_output hagent]
      exact h (by simp)
  | tools =>
      obtain ⟨ran, hran, hstep⟩ := bind_ok hstep
      cases hstep
      obtain ⟨batch, hrun, hran⟩ := bind_ok hran
      cases hran
      exact runCalls_output hrun (h (by simp))
  | finalize =>
      cases hstep
      exact h (by simp)
  | done =>
      cases hstep
      exact h (by simp)

theorem invoke_proposes (h : invoke services e s = .ok final) : Proposes final := by
  have hkeep : ∀ node s next after, (node ≠ .normalize → Proposes s) →
      step services node s = .ok (next, after) → next ≠ .normalize → Proposes after :=
    fun _ _ _ _ hproposes hstep _ => step_proposes hproposes hstep
  exact run_holds (fun node s => node ≠ .normalize → Proposes s) hkeep
    (fun hne => absurd rfl hne) h (by simp)

/-! ## The outcome -/

theorem speak_answers (ttsLanguage : LangCode) (e : SttFinalTranscriptReceived) (text : String)
    (language : Option LangCode) (mentionedItems : Option (List Mentioned)) :
    Answers e text (speak ttsLanguage e text language mentionedItems) :=
  ⟨rfl, rfl, rfl, rfl⟩

/-- Decoded from the channels, the outcome is the one that they single out. -/
theorem interpret_halted (ttsLanguage : LangCode) (e : SttFinalTranscriptReceived)
    (hproposes : Proposes final) :
    Halted e (.ok final) (dispatch ttsLanguage e (interpret final)) := by
  cases hintent : final.intent with
  | junk =>
      rw [interpret, hintent]
      exact .junk final hintent
  | service =>
      cases hfailed : final.failureReason with
      | some reason =>
          rw [interpret, hintent, hfailed]
          exact .failure final reason _ hintent (.inl hfailed)
      | none =>
          cases houtput : final.output with
          | none =>
              cases hreply : final.reply with
              | none =>
                  rw [interpret, hintent, hfailed, houtput, hreply]
                  exact .failure final _ _ hintent (.inr ⟨hfailed, houtput, hreply⟩)
              | some text =>
                  rw [interpret, hintent, hfailed, houtput, hreply]
                  exact .reply final text _ hintent hfailed houtput hreply
                    (speak_answers ttsLanguage e text _ _)
          | some operations =>
              have hproposal : Proposed e operations final.baseVersion
                  ⟨e.requestId, e.cartId, e.posConfigId, final.baseVersion, operations⟩ :=
                ⟨hproposes operations houtput, rfl, rfl, rfl, rfl, rfl⟩
              cases hreply : final.reply with
              | none =>
                  rw [interpret, hintent, hfailed, houtput, hreply]
                  exact .complete final operations _ none hintent hfailed houtput hproposal
                    hreply.symm (by simp)
              | some text =>
                  rw [interpret, hintent, hfailed, houtput, hreply]
                  refine .complete final operations _ (some (speak ttsLanguage e text _ _)) hintent
                    hfailed houtput hproposal hreply.symm fun reply hmem => ?_
                  cases hmem
                  exact speak_answers ttsLanguage e text _ _

theorem turnEvents_halted (services : Services) (ttsLanguage : LangCode)
    (e : SttFinalTranscriptReceived) (s : OrderState) :
    Halted e (invoke services e s) (turnEvents services ttsLanguage e s) := by
  rw [turnEvents, runTurn, start]
  cases hinvoke : invoke services e s with
  | error failure =>
      by_cases hlimited : failure.rateLimited = true
      · simp only [bind, Except.bind, hlimited]
        exact .thrown failure _ _
      · simp only [bind, Except.bind, hlimited]
        exact .thrown failure _ _
  | ok final => exact interpret_halted ttsLanguage e (invoke_proposes hinvoke)

/-- No turn both proposes and fails. -/
theorem Halted.not_both {ended : Except Failure OrderState} {events : List TurnEvent}
    (h : Halted e ended events) {sessionId : SessionId} {proposal : OrderProposal}
    (hproposed : .operationsProposed sessionId proposal ∈ events)
    (failed : SessionId) (cartId : CartId) (reason message : String) :
    .sessionFailed failed cartId reason message ∉ events := by
  cases h with
  | junk => cases hproposed
  | thrown => simp at hproposed
  | failure => simp at hproposed
  | reply => simp at hproposed
  | complete out operations proposal spoken => cases spoken <;> simp

/-- Every turn, whatever the channels held before, halts within its chats and its nodes, and
publishes exactly the outcome that its graph ended with. -/
theorem turn_halts (services : Services) (ttsLanguage : LangCode) (e : SttFinalTranscriptReceived)
    (s : OrderState) :
    (chats services e s).length ≤ maxAgentSteps ∧
      (turnVisits services e s).length ≤ 2 * maxAgentSteps + 5 ∧
      (∀ more, invoke services e s =
        run services (recursionLimit + more) .normalize (input e s)) ∧
      Halted e (invoke services e s) (turnEvents services ttsLanguage e s) ∧
      ∀ sessionId proposal,
        .operationsProposed sessionId proposal ∈ turnEvents services ttsLanguage e s →
        ∀ failed cartId reason message,
          .sessionFailed failed cartId reason message ∉ turnEvents services ttsLanguage e s := by
  have hhalted := turnEvents_halted services ttsLanguage e s
  exact ⟨chats_length services e s, visits_length, fun more => invoke_of_limit more e s, hhalted,
    fun _ _ hproposed => hhalted.not_both hproposed⟩

end

end VoiceOrder.Ordering.AgentGraph
