import VoiceOrder.Ordering.AgentTranscript

/-! # What a batch of calls leaves in the channels

Each channel is folded by a rule of its own. After any number of calls it holds what the
scratchpad tells of them. -/

namespace VoiceOrder.Ordering

open VoiceOrder.CartModule VoiceOrder.Backend AgentGraph

/-- What was found before the batch. -/
def foundBefore (s : OrderState) : List CandidateItem := found (answered s.agentMessages)

/-- The batch after the calls so far. -/
structure Folded (s : OrderState) (calls : List Answered) (batch : Batch) : Prop where
  toolMsgs : batch.toolMsgs = calls.map toolMsg
  searchResults : batch.searchResults.getD s.searchResults = searchResults (foundBefore s ++ found calls)
  output : batch.output =
    ((accepted (foundBefore s) calls).getLast?.map Accepted.operations).or s.output
  reply : batch.reply =
    (replying (accepted (foundBefore s) calls)).getLast?.bind fun call => call.reply.reply
  replyLanguage : batch.replyLanguage =
    ((accepted (foundBefore s) calls).filterMap fun call => call.reply.language).getLast?
  mentionedItems : batch.mentionedItems =
    (replying (accepted (foundBefore s) calls)).getLast?.map fun call => call.mentions

section

variable {platform : Platform} {menu : ℕ → MenuService} {s after : OrderState} {call : ToolCall}
  {res : ToolExecResult} {calls : List Answered} {batch last : Batch} {before : List CandidateItem}
  {requested : List ToolCall}

theorem folded_start (h : s.searchResults = searchResults (foundBefore s)) : Folded s [] (Batch.start s) := by
  refine ⟨rfl, ?_, rfl, rfl, rfl, rfl⟩
  rw [found_nil, List.append_nil]
  exact h

theorem accepted?_of_ne {content : ToolContent} (h : content ≠ .text proposalAccepted) :
    accepted? before (call, content) = none :=
  if_neg fun haccepted => h haccepted.2

/-- A call that yields no proposal leaves all but what was found. -/
theorem Folded.unaccepted (h : Folded s calls batch) {content : ToolContent} {results : Option SearchResults}
    (hne : content ≠ .text proposalAccepted)
    (hresults : (batch.fold s call ⟨content, none, none, none, results, none⟩).searchResults.getD s.searchResults =
      Ordering.searchResults (foundBefore s ++ found (calls ++ [(call, content)]))) :
    Folded s (calls ++ [(call, content)]) (batch.fold s call ⟨content, none, none, none, results, none⟩) := by
  have hsame : accepted (foundBefore s) (calls ++ [(call, content)]) = accepted (foundBefore s) calls := by
    rw [accepted_append, accepted_singleton, accepted?_of_ne hne]
    exact List.append_nil _
  refine ⟨?_, hresults, ?_, ?_, ?_, ?_⟩
  · rw [List.map_append, ← h.toolMsgs]
    rfl
  · rw [hsame, ← h.output]
    rfl
  · rw [hsame, ← h.reply]
    rfl
  · rw [hsame, ← h.replyLanguage]
    rfl
  · rw [hsame, ← h.mentionedItems]
    rfl

theorem Folded.searched (h : Folded s calls batch) (items : List CandidateItem) :
    Folded s (calls ++ [(call, .items items)])
      (batch.fold s call { ToolExecResult.said "" with
        content := .items items
        searchResults := some (Ordering.searchResults items) }) := by
  refine h.unaccepted (fun heq => nomatch heq) ?_
  have hfound : found (calls ++ [(call, ToolContent.items items)]) = found calls ++ items := by
    rw [found_append, found_singleton]
    rfl
  rw [hfound, ← List.append_assoc, searchResults_append, ← h.searchResults]
  rfl

theorem found_said (calls : List Answered) (call : ToolCall) (text : String) :
    found (calls ++ [(call, .text text)]) = found calls := by
  rw [found_append, found_singleton]
  exact List.append_nil _

theorem Folded.refused (h : Folded s calls batch) {text : String} (hne : text ≠ proposalAccepted) :
    Folded s (calls ++ [(call, .text text)]) (batch.fold s call (.said text)) := by
  refine h.unaccepted (fun heq => hne (ToolContent.text.inj heq)) ?_
  rw [found_said, ← h.searchResults]
  rfl

theorem Folded.proposed (h : Folded s calls batch) {operations : List CartOperation}
    (hname : call.name = "propose_cart")
    (hparsed : parseOrderGraphOutput (call.arguments.field "operations") = some operations) :
    Folded s (calls ++ [(call, .text proposalAccepted)])
      (batch.fold s call {
        content := .text proposalAccepted
        output := some operations
        reply := (AgentReply.parseAgentReply call.arguments).reply
        replyLanguage := (AgentReply.parseAgentReply call.arguments).language
        searchResults := none
        mentionedItemKeys := (AgentReply.parseAgentReply call.arguments).reply.map fun _ =>
          (AgentReply.parseAgentReply call.arguments).mentionedItems }) := by
  have hone : accepted? (foundBefore s ++ found calls) (call, .text proposalAccepted) =
      some {
        reply := AgentReply.parseAgentReply call.arguments
        found := foundBefore s ++ found calls
        operations := operations } := by
    rw [accepted?, if_pos ⟨hname, rfl⟩, hparsed]
    rfl
  have hmore : accepted (foundBefore s) (calls ++ [(call, .text proposalAccepted)]) =
      accepted (foundBefore s) calls ++ [{
        reply := AgentReply.parseAgentReply call.arguments
        found := foundBefore s ++ found calls
        operations := operations }] := by
    rw [accepted_append, accepted_singleton, hone]
    rfl
  refine ⟨?_, ?_, ?_, ?_, ?_, ?_⟩
  · rw [List.map_append, ← h.toolMsgs]
    rfl
  · rw [found_said, ← h.searchResults]
    rfl
  · rw [hmore, List.getLast?_concat]
    rfl
  all_goals
    rw [hmore]
    cases hreply : (AgentReply.parseAgentReply call.arguments).reply with
    | none =>
        -- Without a reply the call sets none of the fields that go with one.
        have hempty := AgentReply.parseAgentReply_of_none hreply
        simp [Batch.fold, replying, hempty, h.reply, h.replyLanguage, h.mentionedItems]
    | some reply =>
        simp [Batch.fold, replying, hreply, h.reply, h.replyLanguage, Utterance.mentions, h.searchResults]

theorem Folded.fold (h : Folded s calls batch) (hres : Outcome call res) :
    Folded s (calls ++ [(call, res.content)]) (batch.fold s call res) := by
  cases hres with
  | searched items => exact h.searched items
  | proposed operations hname hparsed => exact h.proposed hname hparsed
  | refused text hne => exact h.refused hne

/-- The loop answers the calls one by one, in their order. -/
theorem runCalls_folded {i : ℕ} (h : runCalls platform menu s i requested batch = .ok last)
    (hbatch : Folded s calls batch) :
    ∃ later, later.map Prod.fst = requested ∧ Folded s (calls ++ later) last := by
  induction requested generalizing i calls batch with
  | nil =>
      cases h
      exact ⟨[], rfl, (List.append_nil calls).symm ▸ hbatch⟩
  | cons call requested ih =>
      obtain ⟨res, hres, hrest⟩ := bind_ok h
      obtain ⟨later, hfst, hfolded⟩ := ih hrest (hbatch.fold (executeToolCall_outcome hres))
      refine ⟨(call, res.content) :: later, congrArg (List.cons call) hfst, ?_⟩
      rw [List.append_assoc] at hfolded
      exact hfolded

end

end VoiceOrder.Ordering
