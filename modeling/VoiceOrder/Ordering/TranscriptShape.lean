import VoiceOrder.Ordering.AgentTranscript
import VoiceOrder.Ordering.OpenAiCompatible
import VoiceOrder.Ordering.TurnTrace

/-! # The shape of the transcript

Providers reject a transcript with a tool result missing, extra or misplaced. Every chat of a
turn receives the seed and then whole rounds: calls, and one answer to each in their order. -/

namespace VoiceOrder.Ordering.AgentGraph

open VoiceOrder.CartModule VoiceOrder.Backend

/-- What the assistant said with its calls, and their answers. -/
structure Round where
  content : Option String
  calls : List Answered

def Round.messages (round : Round) : List AgentMessage :=
  .assistant round.content (round.calls.map Prod.fst) :: round.calls.map toolMsg

/-- One system and one user message, and then rounds of calls, at least one in each. Each call
satisfies `p`. -/
def Shaped (p : ToolCall → Prop) (messages : List AgentMessage) : Prop :=
  ∃ system user, ∃ rounds : List Round,
    (∀ round ∈ rounds, round.calls ≠ [] ∧ ∀ call ∈ round.calls, p call.1) ∧
      messages = .system system :: .user user :: rounds.flatMap Round.messages

def WellFormed (messages : List AgentMessage) : Prop := Shaped (fun _ => True) messages

/-- A round on the wire: its calls, each with the text of its answer. -/
structure WireRound where
  content : Option String
  calls : List (RawToolCall × String)

def WireRound.messages (round : WireRound) : List OpenAiMessage :=
  .assistant round.content (some (round.calls.map Prod.fst)) ::
    round.calls.map fun call => .tool call.1.id call.2

def WireWellFormed (messages : List OpenAiMessage) : Prop :=
  ∃ system user, ∃ rounds : List WireRound, (∀ round ∈ rounds, round.calls ≠ []) ∧
    messages = .system system :: .user user :: rounds.flatMap WireRound.messages

section

variable {p : ToolCall → Prop} {messages front : List AgentMessage} {text : JsonText}
  {services : Services} {s after : OrderState} {node next : Node}

/-! ## The translation -/

def Round.toWire (text : JsonText) (round : Round) : WireRound where
  content := round.content
  calls := round.calls.map fun call => (toOpenAiToolCall text call.1, text.content call.2)

theorem Round.toWire_messages {round : Round} (hcalls : round.calls ≠ [])
    (hreplayable : ∀ call ∈ round.calls, call.1.Replayable) :
    round.messages.map (toOpenAiMessage text) = (round.toWire text).messages := by
  have htools : round.calls.map (toOpenAiMessage text ∘ toolMsg) =
      round.calls.map fun call =>
        OpenAiMessage.tool (toOpenAiToolCall text call.1).id (text.content call.2) := by
    refine List.map_congr_left fun call hcall => ?_
    rw [(hreplayable call hcall).id text]
    rfl
  simp [Round.messages, WireRound.messages, Round.toWire, toOpenAiMessage, hcalls, htools]

theorem Shaped.wire (h : Shaped ToolCall.Replayable messages) :
    WireWellFormed (messages.map (toOpenAiMessage text)) := by
  obtain ⟨system, user, rounds, hrounds, rfl⟩ := h
  refine ⟨system, user, rounds.map (Round.toWire text), ?_, ?_⟩
  · intro wire hwire
    obtain ⟨round, hround, rfl⟩ := List.mem_map.mp hwire
    simpa [Round.toWire] using (hrounds round hround).1
  · have hflat : (rounds.flatMap Round.messages).map (toOpenAiMessage text) =
        (rounds.map (Round.toWire text)).flatMap WireRound.messages := by
      rw [List.map_flatMap, List.flatMap_map]
      refine List.flatMap_congr fun round hround => ?_
      exact Round.toWire_messages (hrounds round hround).1 (hrounds round hround).2
    rw [List.map_cons, List.map_cons, hflat]
    rfl

/-! ## The nodes -/

/-- What a turn has in its scratchpad where it stands. -/
def Paired (p : ToolCall → Prop) : Node → OrderState → Prop
  | .normalize, _ => True
  | .classify, s => s.agentMessages = []
  | .loadCart, s => s.agentMessages = []
  | .agent, s => s.agentMessages = [] ∨ Shaped p s.agentMessages
  | .tools, s => ∃ front content requested, Shaped p front ∧ requested ≠ [] ∧
      (∀ call ∈ requested, p call) ∧ s.agentMessages = front ++ [.assistant content requested]
  | .finalize, _ => True
  | .done, _ => True

theorem Shaped.snoc (h : Shaped p front) {round : Round} (hcalls : round.calls ≠ [])
    (hp : ∀ call ∈ round.calls, p call.1) : Shaped p (front ++ round.messages) := by
  obtain ⟨system, user, rounds, hrounds, rfl⟩ := h
  refine ⟨system, user, rounds ++ [round], ?_, by simp⟩
  intro one hone
  cases List.mem_append.mp hone with
  | inl hbefore => exact hrounds one hbefore
  | inr hlast =>
      rw [List.mem_singleton.mp hlast]
      exact ⟨hcalls, hp⟩

/-- What a chat receives is the seed or what the turn has so far. -/
theorem chatMessages_shaped (h : Paired p .agent s) : Shaped p (chatMessages services s) := by
  have hseed : Shaped p (seedMessages services.prompts s) :=
    ⟨_, _, [], by simp, rfl⟩
  unfold chatMessages
  split
  case isTrue => exact hseed
  case isFalse hsome => exact h.resolve_left fun hnil => hsome (List.isEmpty_iff.mpr hnil)

/-- The agent fails the turn, or appends what the model answered. -/
theorem agent_messages (h : agent services s = .ok after) :
    after.failureReason.isSome ∨ ∃ res,
      services.chat (s.agentSteps + 1) (chatMessages services s) = .ok res ∧
        after.agentMessages =
          chatMessages services s ++ [.assistant res.text res.toolCalls] := by
  unfold agent at h
  dsimp only at h
  split at h
  · cases h
    exact .inl rfl
  · obtain ⟨res, hres, h⟩ := bind_ok h
    split at h
    · split at h
      · cases h
        exact .inl rfl
      · cases h
        exact .inr ⟨res, hres, rfl⟩
    · cases h
      exact .inr ⟨res, hres, rfl⟩

theorem agent_paired (hchat : ∀ n messages res, services.chat n messages = .ok res →
      ∀ call ∈ res.toolCalls, p call)
    (h : Paired p .agent s) (hagent : agent services s = .ok after) :
    Paired p (afterAgent after) after := by
  unfold afterAgent
  split
  case isTrue => trivial
  case isFalse hopen =>
      split
      case isFalse => trivial
      case isTrue hcalls =>
          cases agent_messages hagent with
          | inl hfailed => simp [hfailed] at hopen
          | inr hanswered =>
              obtain ⟨res, hres, hmessages⟩ := hanswered
              refine ⟨chatMessages services s, res.text, res.toolCalls, chatMessages_shaped h, ?_,
                hchat _ _ res hres, hmessages⟩
              simpa [lastAssistantHasToolCalls, requestedCalls, hmessages] using hcalls

/-- The loop answers every call that it is given, in their order. -/
theorem runCalls_toolMsgs {platform : Platform} {menu : ℕ → MenuService} {i : ℕ}
    {requested : List ToolCall} {batch last : Batch}
    (h : runCalls platform menu s i requested batch = .ok last) :
    ∃ calls : List Answered, calls.map Prod.fst = requested ∧
      last.toolMsgs = batch.toolMsgs ++ calls.map toolMsg := by
  induction requested generalizing i batch with
  | nil =>
      cases h
      exact ⟨[], rfl, (List.append_nil _).symm⟩
  | cons call requested ih =>
      obtain ⟨res, -, hrest⟩ := bind_ok h
      obtain ⟨calls, hfst, htools⟩ := ih hrest
      refine ⟨(call, res.content) :: calls, congrArg (List.cons call) hfst, ?_⟩
      rw [htools, Batch.fold, List.append_assoc]
      rfl

theorem runTools_paired {platform : Platform} {menu : ℕ → MenuService} (h : Paired p .tools s)
    (hran : runTools platform menu s = .ok after) : Paired p (afterTools after) after := by
  obtain ⟨front, content, requested, hfront, hrequested, hp, hlast⟩ := h
  obtain ⟨batch, hrun, hran⟩ := bind_ok hran
  have hasked : requestedCalls s = requested := by simp [requestedCalls, hlast]
  rw [hasked] at hrun
  obtain ⟨calls, rfl, htools⟩ := runCalls_toolMsgs hrun
  have hmessages : after.agentMessages = front ++ (Round.mk content calls).messages := by
    cases hran
    rw [hlast, htools]
    simp [Round.messages, Batch.start]
  unfold afterTools
  split
  case isTrue => trivial
  case isFalse =>
      right
      rw [hmessages]
      refine hfront.snoc ?_ ?_
      · exact fun hnil => hrequested (List.map_eq_nil_iff.mpr hnil)
      · exact fun call hcall => hp call.1 (List.mem_map_of_mem hcall)

theorem step_paired (hchat : ∀ n messages res, services.chat n messages = .ok res →
      ∀ call ∈ res.toolCalls, p call)
    (h : Paired p node s) (hstep : step services node s = .ok (next, after)) :
    Paired p next after := by
  cases node with
  | normalize =>
      cases hstep
      rfl
  | classify =>
      cases hstep
      have hmessages : (classify services s).agentMessages = [] := by
        unfold classify
        split <;> exact h
      unfold afterClassify
      split
      · exact hmessages
      · trivial
  | loadCart =>
      obtain ⟨loaded, hload, hstep⟩ := bind_ok hstep
      obtain ⟨cart, -, hload⟩ := bind_ok hload
      obtain ⟨view, -, hload⟩ := bind_ok hload
      cases hload
      cases hstep
      exact .inl h
  | agent =>
      obtain ⟨spoken, hagent, hstep⟩ := bind_ok hstep
      cases hstep
      exact agent_paired hchat h hagent
  | tools =>
      obtain ⟨ran, hran, hstep⟩ := bind_ok hstep
      cases hstep
      exact runTools_paired h hran
  | finalize =>
      cases hstep
      trivial
  | done =>
      cases hstep
      trivial

/-- All chats of a turn are shaped, if the model returns only calls with the property. -/
theorem chats_shaped (hchat : ∀ n messages res, services.chat n messages = .ok res →
      ∀ call ∈ res.toolCalls, p call) (e : SttFinalTranscriptReceived) (s : OrderState) :
    ∀ messages ∈ chats services e s, Shaped p messages := by
  intro messages hmessages
  obtain ⟨visit, hvisit, hchatOf⟩ := List.mem_filterMap.mp hmessages
  obtain ⟨node, asked⟩ := visit
  have hbegins : Paired p .normalize (input e s) := trivial
  have hpaired : Paired p node asked :=
    visits_forall (Paired p) (fun _ _ _ _ => step_paired hchat) hbegins _ hvisit
  cases node with
  | agent =>
      simp only [chatOf] at hchatOf
      split at hchatOf
      · cases hchatOf
      · cases hchatOf
        exact chatMessages_shaped hpaired
  | _ => cases hchatOf

/-! ## What a turn takes from the model -/

theorem agent_congr_chat {chat : ℕ → List AgentMessage → Except Failure ChatResult}
    (h : ∀ messages, chatOf services (.agent, s) = some messages →
      chat (s.agentSteps + 1) messages = services.chat (s.agentSteps + 1) messages) :
    agent { services with chat := chat } s = agent services s := by
  unfold agent
  dsimp only
  split
  · rfl
  · rename_i hroom
    have hasked : chatMessages { services with chat := chat } s = chatMessages services s := rfl
    rw [hasked, h (chatMessages services s) (if_neg hroom)]

/-- A turn takes nothing from the model but the answers to these chats: under any other model
that gives the same answers it runs to the same end. -/
theorem run_congr_chat {chat : ℕ → List AgentMessage → Except Failure ChatResult}
    (h : ∀ asked messages, (.agent, asked) ∈ visits services limit node s →
      chatOf services (.agent, asked) = some messages →
      chat (asked.agentSteps + 1) messages = services.chat (asked.agentSteps + 1) messages) :
    run { services with chat := chat } limit node s = run services limit node s := by
  induction limit generalizing node s with
  | zero => rfl
  | succ limit ih =>
      by_cases hnode : node = .done
      · rw [run, run, if_pos hnode, if_pos hnode]
      · have hhere : (node, s) ∈ visits services (limit + 1) node s := by
          rw [visits, if_neg hnode]
          exact List.mem_cons_self
        have hsame : step { services with chat := chat } node s = step services node s := by
          cases node with
          | agent =>
              rw [step, step, agent_congr_chat fun messages => h s messages hhere]
          | _ => rfl
        rw [run, run, if_neg hnode, if_neg hnode, hsame]
        cases hstep : step services node s with
        | error failure => rfl
        | ok pair =>
            obtain ⟨next, after⟩ := pair
            refine ih fun asked messages hmem => h asked messages ?_
            rw [visits_ok hnode hstep]
            exact List.mem_cons_of_mem _ hmem

/-- Whatever the model and the tools answer, every chat of a turn receives a well-formed
transcript, and so does the API of the provider. -/
theorem chats_wellFormed (services : Services) (text : JsonText) (client : OpenAiClient)
    (e : SttFinalTranscriptReceived) (s : OrderState) :
    (∀ messages ∈ chats services e s, WellFormed messages) ∧
      ∀ messages ∈ chats (services.through text client) e s,
        WireWellFormed (messages.map (toOpenAiMessage text)) := by
  refine ⟨chats_shaped (fun _ _ _ _ _ _ => trivial) e s, fun messages hmessages => ?_⟩
  exact (chats_shaped (fun _ _ _ => OpenAiClient.chat_replayable) e s messages hmessages).wire

end

end VoiceOrder.Ordering.AgentGraph
