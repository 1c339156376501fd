import VoiceOrder.Ordering.BatchFolding

/-! # How a turn ends

Until a proposal is accepted or the agent speaks, a turn has only searched. However it ends, its
channels hold what its scratchpad records, and nothing of the turn before. -/

namespace VoiceOrder.Ordering.AgentGraph

open VoiceOrder.CartModule VoiceOrder.Backend

/-- The proposals that the turn accepted. -/
def proposals (s : OrderState) : List Accepted := accepted [] (answered s.agentMessages)

/-- The turn has searched, and neither proposed nor spoken. -/
structure Working (s : OrderState) : Prop where
  output : s.output = none
  reply : s.reply = none
  replyLanguage : s.replyLanguage = none
  mentionedItems : s.mentionedItems = []
  failureReason : s.failureReason = none
  searchResults : s.searchResults = searchResults (foundBefore s)
  proposals : proposals s = []

/-- The turn is over. -/
inductive Ended (parseJson : String → Option Json) (s : OrderState) : Prop where
  /-- It was junk, or the agent gave up. -/
  | silent : s.output = none → s.reply = none → proposals s = [] → Ended parseJson s
  | spoke (utterance : Utterance) : s.output = none → proposals s = [] →
      uttered parseJson s.agentMessages = some utterance →
      s.reply = utterance.reply.reply → s.replyLanguage = utterance.reply.language →
      s.mentionedItems = utterance.mentions → Ended parseJson s
  | proposed (last : Accepted) : s.intent = .service → s.failureReason = none →
      (proposals s).getLast? = some last → s.output = some last.operations →
      uttered parseJson s.agentMessages = (replying (proposals s)).getLast?.map Accepted.toUtterance →
      s.reply = (replying (proposals s)).getLast?.bind (fun call => call.reply.reply) →
      s.replyLanguage = ((proposals s).filterMap fun call => call.reply.language).getLast? →
      s.mentionedItems = ((replying (proposals s)).getLast?.map fun call => call.mentions).getD [] →
      Ended parseJson s

/-- What holds where a turn stands. -/
def Stands (parseJson : String → Option Json) : Node → OrderState → Prop
  | .normalize, _ => True
  | .classify, s => Working s
  | .loadCart, s => Working s ∧ s.intent = .service
  | .agent, s => Working s ∧ s.intent = .service
  | .tools, s => Working s ∧ s.intent = .service ∧ ∃ front content requested,
      requested ≠ [] ∧ s.agentMessages = front ++ [.assistant content requested]
  | .finalize, s => Ended parseJson s
  | .done, s => Ended parseJson s

section

variable {services : Services} {parseJson : String → Option Json} {s after : OrderState} {node next : Node}

theorem Working.silent (h : Working s) : Ended parseJson s := .silent h.output h.reply h.proposals

theorem normalize_working : Working (normalize s) := by
  exact ⟨rfl, rfl, rfl, rfl, rfl, rfl, rfl⟩

theorem classify_working (h : Working s) : Working (classify services s) := by
  unfold classify
  split <;> exact ⟨h.output, h.reply, h.replyLanguage, h.mentionedItems, h.failureReason, h.searchResults,
    h.proposals⟩

theorem loadCart_working (h : Working s) (hload : loadCart services s = .ok after) :
    Working after ∧ after.intent = s.intent := by
  obtain ⟨cart, -, hload⟩ := bind_ok hload
  obtain ⟨view, -, hload⟩ := bind_ok hload
  cases hload
  exact ⟨⟨h.output, h.reply, h.replyLanguage, h.mentionedItems, h.failureReason, h.searchResults,
    h.proposals⟩, rfl⟩

/-! ## Where an edge leads -/

theorem Ended.afterAgent (h : Ended parseJson s) (hover : s.failureReason.isSome ∨ s.reply.isSome) :
    Stands parseJson (afterAgent s) s := by
  have hroute : AgentGraph.afterAgent s = .finalize := by
    rcases hover with hfailure | hreply
    · simp [AgentGraph.afterAgent, hfailure]
    · simp [AgentGraph.afterAgent, hreply]
  rw [hroute]
  exact h

theorem Working.afterAgent (h : Working s) (hintent : s.intent = .service) {front : List AgentMessage}
    {content : Option String} {requested : List ToolCall} (hrequested : requested ≠ [])
    (hlast : s.agentMessages = front ++ [.assistant content requested]) :
    Stands parseJson (afterAgent s) s := by
  have hroute : AgentGraph.afterAgent s = .tools := by
    simp [AgentGraph.afterAgent, h.failureReason, h.reply, lastAssistantHasToolCalls, requestedCalls, hlast,
      hrequested]
  rw [hroute]
  exact ⟨h, hintent, front, content, requested, hrequested, hlast⟩

theorem Ended.afterTools (h : Ended parseJson s) {operations : List CartOperation}
    (houtput : s.output = some operations) : Stands parseJson (afterTools s) s := by
  have hroute : AgentGraph.afterTools s = .finalize := by simp [AgentGraph.afterTools, houtput]
  rw [hroute]
  exact h

theorem Working.afterTools (h : Working s) (hintent : s.intent = .service) :
    Stands parseJson (afterTools s) s := by
  have hroute : AgentGraph.afterTools s = .agent := by simp [AgentGraph.afterTools, h.output]
  rw [hroute]
  exact ⟨h, hintent⟩

/-! ## What the nodes do -/

/-- The message of the agent adds no answered call. -/
theorem agent_answered (services : Services) (s : OrderState) (text : Option String)
    (requested : List ToolCall) :
    answered (chatMessages services s ++ [.assistant text requested]) =
      answered s.agentMessages := by
  rw [answered_unanswered]
  unfold chatMessages
  split
  · rename_i hempty
    rw [List.isEmpty_iff.mp hempty]
    rfl
  · rfl

/-- A chat asks for calls, speaks or gives up. -/
theorem agent_stands (h : Working s) (hintent : s.intent = .service)
    (hagent : agent services s = .ok after) :
    Stands services.platform.parseJson (afterAgent after) after := by
  unfold agent at hagent
  dsimp only at hagent
  split at hagent
  · cases hagent
    exact Ended.afterAgent (.silent h.output h.reply h.proposals) (.inl rfl)
  · obtain ⟨res, -, hagent⟩ := bind_ok hagent
    have hanswered := agent_answered services s res.text res.toolCalls
    generalize chatMessages services s = messages at hanswered hagent
    have hproposals : accepted [] (answered (messages ++ [.assistant res.text res.toolCalls])) = [] :=
      hanswered ▸ h.proposals
    split at hagent
    · rename_i hnone
      have hcalls : res.toolCalls = [] := List.isEmpty_iff.mp hnone
      split at hagent
      · cases hagent
        exact Ended.afterAgent (.silent h.output h.reply hproposals) (.inl rfl)
      · rename_i reply hreply
        cases hagent
        refine Ended.afterAgent (.spoke
          ⟨AgentReply.parseSpokenReply services.platform.parseJson res.text, foundBefore s⟩
          h.output hproposals ?_ hreply.symm ?_ ?_) (.inr rfl)
        · simp only [uttered, List.getLast?_concat, hcalls, foundBefore]
          rw [← hcalls, hanswered]
        · exact (congrArg _ h.replyLanguage).trans (Option.or_none ..)
        · exact congrArg (resolveMentionedItems _) h.searchResults
    · rename_i hsome
      cases hagent
      have hrequested : res.toolCalls ≠ [] := fun heq => hsome (List.isEmpty_iff.mpr heq)
      refine Working.afterAgent ⟨h.output, h.reply, h.replyLanguage, h.mentionedItems, h.failureReason, ?_,
        hproposals⟩ hintent hrequested rfl
      rw [foundBefore, hanswered]
      exact h.searchResults

/-- A batch of calls proposes, or the agent goes on with what was found. -/
theorem runTools_stands {menu : ℕ → MenuService} (h : Working s) (hintent : s.intent = .service)
    {front : List AgentMessage} {content : Option String} {requested : List ToolCall}
    (hlast : s.agentMessages = front ++ [.assistant content requested]) (hrequested : requested ≠ [])
    (hran : runTools services.platform menu s = .ok after) :
    Stands services.platform.parseJson (afterTools after) after := by
  have hasked : requestedCalls s = requested := by simp [requestedCalls, hlast]
  obtain ⟨batch, hrun, hran⟩ := bind_ok hran
  rw [hasked] at hrun
  obtain ⟨calls, hfst, hfolded⟩ := runCalls_folded hrun (folded_start h.searchResults)
  rw [List.nil_append] at hfolded
  have hmessages : s.agentMessages ++ batch.toolMsgs =
      front ++ .assistant content (calls.map Prod.fst) :: calls.map toolMsg := by
    rw [hlast, hfst, hfolded.toolMsgs, List.append_assoc, List.singleton_append]
  have hanswered : answered (s.agentMessages ++ batch.toolMsgs) = answered s.agentMessages ++ calls := by
    rw [hmessages, answered_batch, hlast, answered_unanswered]
  have hproposals : accepted [] (answered (s.agentMessages ++ batch.toolMsgs)) =
      accepted (foundBefore s) calls := by
    have hbefore : accepted [] (answered s.agentMessages) = [] := h.proposals
    rw [hanswered, accepted_append, hbefore]
    rfl
  have hfound : batch.searchResults.getD s.searchResults =
      searchResults (found (answered (s.agentMessages ++ batch.toolMsgs))) := by
    rw [hanswered, found_append]
    exact hfolded.searchResults
  cases hran
  cases hended : (accepted (foundBefore s) calls).getLast? with
  | none =>
      have hnil : accepted (foundBefore s) calls = [] := List.getLast?_eq_none_iff.mp hended
      refine Working.afterTools ⟨?_, ?_, ?_, ?_, h.failureReason, hfound, hproposals.trans hnil⟩ hintent
      · exact hfolded.output.trans (by rw [hnil, h.output]; rfl)
      · dsimp only
        rw [hfolded.reply, hnil, h.reply]
        rfl
      · dsimp only
        rw [hfolded.replyLanguage, hnil, h.replyLanguage]
        rfl
      · dsimp only
        rw [hfolded.mentionedItems, hnil, h.mentionedItems]
        rfl
  | some last =>
      have houtput : batch.output = some last.operations := by
        rw [hfolded.output, hended]
        rfl
      have huttered : uttered services.platform.parseJson (s.agentMessages ++ batch.toolMsgs) =
          (replying (accepted (foundBefore s) calls)).getLast?.map Accepted.toUtterance := by
        have hcalls : calls ≠ [] := by
          intro hnil
          rw [hnil] at hfst
          exact hrequested hfst.symm
        have htool : (s.agentMessages ++ batch.toolMsgs).getLast? = some (toolMsg (calls.getLast hcalls)) := by
          rw [hfolded.toolMsgs, List.getLast?_append, List.getLast?_map, List.getLast?_eq_some_getLast hcalls]
          rfl
        rw [uttered, htool, hproposals]
        rfl
      refine Ended.afterTools (.proposed last hintent h.failureReason ?_ houtput ?_ ?_ ?_ ?_) houtput
      · rw [proposals, hproposals]
        exact hended
      · rw [proposals, hproposals]
        exact huttered
      · rw [proposals, hproposals, ← hfolded.reply]
        exact (congrArg _ h.reply).trans (Option.or_none ..)
      · rw [proposals, hproposals, ← hfolded.replyLanguage]
        exact (congrArg _ h.replyLanguage).trans (Option.or_none ..)
      · rw [proposals, hproposals, ← hfolded.mentionedItems]
        exact congrArg batch.mentionedItems.getD h.mentionedItems

theorem finalize_ended (h : Ended parseJson s) : Ended parseJson (finalize s) := by
  cases h with
  | silent houtput hreply hproposals => exact .silent houtput hreply hproposals
  | spoke utterance houtput hproposals huttered hreply hlanguage hmentioned =>
      exact .spoke utterance houtput hproposals huttered hreply hlanguage hmentioned
  | proposed last hintent hfailure hlast houtput huttered hreply hlanguage hmentioned =>
      exact .proposed last hintent hfailure hlast houtput huttered hreply hlanguage hmentioned

/-- Every node leads from where a turn stands to where it stands next. -/
theorem step_stands (h : Stands services.platform.parseJson node s)
    (hstep : step services node s = .ok (next, after)) :
    Stands services.platform.parseJson next after := by
  cases node with
  | normalize =>
      cases hstep
      exact normalize_working
  | classify =>
      cases hstep
      have hworking : Working (classify services s) := classify_working h
      cases hintent : (classify services s).intent with
      | service => simpa [afterClassify, hintent] using ⟨hworking, hintent⟩
      | junk =>
          simp only [afterClassify, hintent]
          exact hworking.silent
  | loadCart =>
      obtain ⟨loaded, hload, hstep⟩ := bind_ok hstep
      cases hstep
      obtain ⟨hworking, hintent⟩ := loadCart_working h.1 hload
      exact ⟨hworking, hintent.trans h.2⟩
  | agent =>
      obtain ⟨spoken, hagent, hstep⟩ := bind_ok hstep
      cases hstep
      exact agent_stands h.1 h.2 hagent
  | tools =>
      obtain ⟨ran, hran, hstep⟩ := bind_ok hstep
      cases hstep
      obtain ⟨hworking, hintent, front, content, requested, hrequested, hlast⟩ := h
      exact runTools_stands hworking hintent hlast hrequested hran
  | finalize =>
      cases hstep
      exact finalize_ended h
  | done =>
      cases hstep
      exact h

theorem run_stands {limit : ℕ} (h : Stands services.platform.parseJson node s)
    (hrun : run services limit node s = .ok after) : Ended services.platform.parseJson after :=
  run_holds (Stands services.platform.parseJson) (fun _ _ _ _ => step_stands) h hrun

/-- Whatever the channels held before, a turn that ends has only its own record in them. -/
theorem invoke_ended {e : SttFinalTranscriptReceived} (h : invoke services e s = .ok after) :
    Ended services.platform.parseJson after := by
  have hstart : ∀ begun, Stands services.platform.parseJson .normalize begun := fun _ => trivial
  exact run_stands (hstart _) h

end

end VoiceOrder.Ordering.AgentGraph
