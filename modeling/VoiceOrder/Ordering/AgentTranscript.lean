import VoiceOrder.Ordering.AgentGraph

/-! # What the scratchpad of a turn records

The scratchpad pairs each call with its answer, so that it tells what was found, which proposals
were accepted and what the agent said. The loop over a batch folds just that. -/

namespace VoiceOrder.Ordering

open VoiceOrder.CartModule VoiceOrder.Backend AgentGraph

/-- A call of a tool and its answer. -/
abbrev Answered := ToolCall × ToolContent

/-- The answers that come first. -/
def toolContents : List AgentMessage → List ToolContent
  | .tool _ content :: messages => content :: toolContents messages
  | _ => []

/-- The calls of the scratchpad, in the order they ran. -/
def answered : List AgentMessage → List Answered
  | [] => []
  | .assistant _ calls :: messages => calls.zip (toolContents messages) ++ answered messages
  | _ :: messages => answered messages

def ToolContent.found : ToolContent → List CandidateItem
  | .items shown => shown
  | .text _ => []

/-- What the searches among the calls returned. -/
def found (calls : List Answered) : List CandidateItem := calls.flatMap fun call => call.2.found

/-- A reply, with what had been found when the agent declared its items. -/
structure Utterance where
  reply : AgentReply
  found : List CandidateItem
  deriving DecidableEq, Repr

/-- The items that the utterance mentions. -/
def Utterance.mentions (utterance : Utterance) : List Mentioned :=
  resolveMentionedItems utterance.reply.mentionedItems (searchResults utterance.found)

/-- A proposal that was accepted. -/
structure Accepted extends Utterance where
  operations : List CartOperation
  deriving DecidableEq, Repr

/-- The call as an accepted proposal, if it was answered so. -/
def accepted? (before : List CandidateItem) (call : Answered) : Option Accepted :=
  if call.1.name = "propose_cart" ∧ call.2 = .text proposalAccepted then
    some {
      reply := AgentReply.parseAgentReply call.1.arguments
      found := before
      operations := (parseOrderGraphOutput (call.1.arguments.field "operations")).getD [] }
  else none

/-- The accepted proposals among the calls, after the searches `before` them. -/
def accepted : List CandidateItem → List Answered → List Accepted
  | _, [] => []
  | before, call :: calls => (accepted? before call).toList ++ accepted (before ++ call.2.found) calls

/-- The proposals that bundle a reply. -/
def replying (calls : List Accepted) : List Accepted := calls.filter fun call => call.reply.reply.isSome

/-- What the agent said last: the text that ended the turn, or the reply of a proposal. -/
def uttered (parseJson : String → Option Json) (messages : List AgentMessage) : Option Utterance :=
  match messages.getLast? with
  | some (.assistant content []) =>
      some ⟨AgentReply.parseSpokenReply parseJson content, found (answered messages)⟩
  | _ => (replying (accepted [] (answered messages))).getLast?.map Accepted.toUtterance

/-! ## Reading the scratchpad -/

section

variable {calls later : List Answered} {before items : List CandidateItem}
  {front messages : List AgentMessage} {requested : List ToolCall} {content : Option String}

@[simp] theorem found_nil : found [] = [] := rfl

@[simp] theorem found_append : found (calls ++ later) = found calls ++ found later := List.flatMap_append

@[simp] theorem found_singleton (call : Answered) : found [call] = call.2.found := by simp [found]

theorem accepted_append :
    accepted before (calls ++ later) = accepted before calls ++ accepted (before ++ found calls) later := by
  induction calls generalizing before with
  | nil => simp [accepted]
  | cons call calls ih => simp [accepted, ih, found]

theorem accepted_singleton (call : Answered) : accepted before [call] = (accepted? before call).toList :=
  List.append_nil _

theorem searchResults_append (later : List CandidateItem) :
    searchResults (items ++ later) = (searchResults items).spread (searchResults later) := by
  have hown : (searchResults (items ++ later)).own =
      ((searchResults items).spread (searchResults later)).own := by
    funext key
    rw [PlainObject.spread_own, searchResults_own, searchResults_own, searchResults_own, lastFound_append]
    split <;> rfl
  exact congrArg PlainObject.mk hown

theorem toolContents_append_assistant :
    toolContents (front ++ .assistant content requested :: messages) = toolContents front := by
  induction front with
  | nil => rfl
  | cons message front ih => cases message <;> simp [toolContents, ih]

theorem answered_append_assistant :
    answered (front ++ .assistant content requested :: messages) =
      answered front ++ answered (.assistant content requested :: messages) := by
  induction front with
  | nil => rfl
  | cons message front ih =>
      cases message with
      | assistant text asked =>
          have hzip := congrArg (asked.zip (toolContents front) ++ ·) ih
          rw [List.cons_append, answered, toolContents_append_assistant]
          exact hzip.trans (List.append_assoc ..).symm
      | _ => exact ih

/-- The message that a call is answered with. -/
def toolMsg (call : Answered) : AgentMessage := .tool call.1.id call.2

theorem toolContents_toolMsgs : toolContents (calls.map toolMsg) = calls.map Prod.snd := by
  induction calls with
  | nil => rfl
  | cons call calls ih => exact congrArg (List.cons call.2) ih

theorem answered_toolMsgs : answered (calls.map toolMsg) = [] := by
  induction calls with
  | nil => rfl
  | cons call calls ih => exact ih

/-- A message that asks for calls, with their answers, adds them to the scratchpad. -/
theorem answered_batch :
    answered (front ++ .assistant content (calls.map Prod.fst) :: calls.map toolMsg) =
      answered front ++ calls := by
  have hzip : (calls.map Prod.fst).zip (calls.map Prod.snd) = calls := by
    rw [List.zip_map']
    exact List.map_id calls
  rw [answered_append_assistant, answered, toolContents_toolMsgs, answered_toolMsgs, hzip, List.append_nil]

/-- A message without an answer adds no call. -/
theorem answered_unanswered : answered (front ++ [.assistant content requested]) = answered front := by
  rw [answered_append_assistant]
  simp [answered, toolContents]

end

/-! ## What a call yields -/

/-- A search, an accepted proposal or an answer in other words. -/
inductive Outcome (call : ToolCall) : ToolExecResult → Prop where
  | searched (items : List CandidateItem) :
      Outcome call { ToolExecResult.said "" with
        content := .items items
        searchResults := some (searchResults items) }
  | proposed (operations : List CartOperation) : call.name = "propose_cart" →
      parseOrderGraphOutput (call.arguments.field "operations") = some operations →
      Outcome call {
        content := .text proposalAccepted
        output := some operations
        reply := (AgentReply.parseAgentReply call.arguments).reply
        replyLanguage := (AgentReply.parseAgentReply call.arguments).language
        searchResults := none
        mentionedItemKeys := (AgentReply.parseAgentReply call.arguments).reply.map fun _ =>
          (AgentReply.parseAgentReply call.arguments).mentionedItems }
  | refused (text : String) : text ≠ proposalAccepted → Outcome call (.said text)

section

variable {platform : Platform} {menu : MenuService} {s : OrderState} {call : ToolCall}
  {res : ToolExecResult}

/-- The words of a refusal start otherwise. -/
theorem Outcome.said {label : String} (c : Char) (hlabel : label.toList.head? = some c)
    (hne : c ≠ 'P') (text : String) : Outcome call (.said (label ++ text)) := by
  refine .refused _ ?_
  intro heq
  have hhead := congrArg (fun text => text.toList.head?) heq
  rw [String.toList_append, List.head?_append, hlabel] at hhead
  exact hne (Option.some.inj hhead)

theorem runSearch_outcome (h : runSearch platform menu s call = .ok res) : Outcome call res := by
  unfold runSearch at h
  cases hargs : searchArgs (some call.arguments) with
  | none =>
      rw [hargs] at h
      cases h
      exact .said 'I' (by decide +kernel) (by decide) _
  | some args =>
      rw [hargs] at h
      obtain ⟨items, -, hitems⟩ := bind_ok h
      cases hitems
      exact .searched items

theorem runPropose_outcome (hname : call.name = "propose_cart") :
    Outcome call (runPropose platform menu s call) := by
  unfold runPropose
  dsimp only
  split
  · exact .said 'V' (by decide +kernel) (by decide) _
  · exact .said 'V' (by decide +kernel) (by decide) _
  · rename_i op ops hparsed
    split
    · exact .proposed (op :: ops) hname hparsed
    · exact .said 'V' (by decide +kernel) (by decide) _

theorem executeToolCall_outcome (h : executeToolCall platform menu s call = .ok res) : Outcome call res := by
  unfold executeToolCall at h
  split at h
  · rename_i ran hran
    cases h
    unfold runToolCall at hran
    split_ifs at hran with hsearch hpropose
    · exact runSearch_outcome hran
    · cases hran
      exact runPropose_outcome hpropose
    · cases hran
      exact .said 'E' (by simp) (by decide) _
  · split_ifs at h
    · cases h
      exact .said 'E' (by simp) (by decide) _
    · cases h
      exact .said 'E' (by simp) (by decide) _

end

end VoiceOrder.Ordering
