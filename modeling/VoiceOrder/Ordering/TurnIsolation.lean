import VoiceOrder.Ordering.MentionVerification
import VoiceOrder.Ordering.TurnOutcome

/-! # Turns share nothing but the history

A checkpoint keeps the channels of the turns before, however those ended. Every channel but the
history is written by a turn before the turn reads it. -/

namespace VoiceOrder.Ordering.AgentGraph

open VoiceOrder.CartModule VoiceOrder.Backend

/-! ## Two checkpoints -/

section

variable {services : Services} {s other after : OrderState} {node next : Node} {limit : ℕ}
  {e : SttFinalTranscriptReceived}

/-- The channels without those that `load_cart` writes. -/
def cartless (s : OrderState) : OrderState := { s with cartView := none, baseVersion := 0 }

/-- `normalize` leaves the label and the cart of the turn before; `classify` writes the label. -/
theorem classify_cartless (services : Services) (e : SttFinalTranscriptReceived) (s : OrderState) :
    cartless (classify services (normalize (input e s))) =
      cartless (classify services (normalize (input e { begun with history := s.history }))) := by
  have hhistory : (normalize (input e s)).history = s.history := rfl
  cases hlast : s.history.getLast?.bind HistoryTurn.agentReply with
  | none => simp [classify, normalize, input, hlast, cartless]
  | some reply => simp [classify, normalize, input, hlast, cartless]

theorem loadCart_cartless (services : Services) (s : OrderState) :
    loadCart services (cartless s) = loadCart services s := rfl

/-- The first two nodes of every turn. -/
def classified (services : Services) (e : SttFinalTranscriptReceived) (s : OrderState) :
    OrderState :=
  classify services (normalize (input e s))

theorem invoke_classified (services : Services) (e : SttFinalTranscriptReceived) (s : OrderState) :
    invoke services e s =
      run services 23 (afterClassify (classified services e s)) (classified services e s) := by
  have hnormalize : step services .normalize (input e s) =
      .ok (.classify, normalize (input e s)) := rfl
  have hclassify : step services .classify (normalize (input e s)) =
      .ok (afterClassify (classified services e s), classified services e s) := rfl
  rw [invoke_eq, recursionLimit, run_ok (by simp) hnormalize, run_ok (by simp) hclassify]

theorem turnCheckpoint_classified (services : Services) (e : SttFinalTranscriptReceived)
    (s : OrderState) :
    turnCheckpoint services e s =
      checkpoint services 23 (afterClassify (classified services e s))
        (classified services e s) := by
  have hnormalize : step services .normalize (input e s) =
      .ok (.classify, normalize (input e s)) := rfl
  have hclassify : step services .classify (normalize (input e s)) =
      .ok (afterClassify (classified services e s), classified services e s) := rfl
  rw [turnCheckpoint, recursionLimit, checkpoint_ok (by simp) hnormalize,
    checkpoint_ok (by simp) hclassify]

/-- From two labelled states that differ in the cart channels alone the turn goes on alike. -/
theorem labelled_agrees (services : Services) (h : cartless other = cartless s) :
    (do let out ← run services 23 (afterClassify other) other
        pure (interpret out) : Except Failure TurnResult) =
      (do let out ← run services 23 (afterClassify s) s
          pure (interpret out)) ∧
      (checkpoint services 23 (afterClassify other) other).history =
        (checkpoint services 23 (afterClassify s) s).history := by
  have hintent : other.intent = s.intent := congrArg (fun state => state.intent) h
  have hhistory : other.history = s.history := congrArg (fun state => state.history) h
  have hload : loadCart services other = loadCart services s := by
    rw [← loadCart_cartless, h, loadCart_cartless]
  cases hlabel : s.intent with
  | junk =>
      rw [hlabel] at hintent
      have hjunk : ∀ state : OrderState, state.intent = .junk → interpret state = .junk := by
        intro state hstate
        simp [interpret, hstate]
      have hnode : afterClassify other = .done ∧ afterClassify s = .done := by
        simp [afterClassify, hintent, hlabel]
      rw [hnode.1, hnode.2]
      refine ⟨?_, hhistory⟩
      exact congrArg Except.ok ((hjunk other hintent).trans (hjunk s hlabel).symm)
  | service =>
      rw [hlabel] at hintent
      have hnode : afterClassify other = .loadCart ∧ afterClassify s = .loadCart := by
        simp [afterClassify, hintent, hlabel]
      have hstep : step services .loadCart other = step services .loadCart s := by
        rw [step, step, hload]
      rw [hnode.1, hnode.2]
      cases hrun : step services .loadCart s with
      | error failure =>
          rw [hrun] at hstep
          rw [run, run, if_neg (by simp), if_neg (by simp), hstep, hrun,
            checkpoint_error (by simp) hstep, checkpoint_error (by simp) hrun]
          exact ⟨rfl, hhistory⟩
      | ok pair =>
          obtain ⟨next, after⟩ := pair
          rw [hrun] at hstep
          rw [run_ok (by simp) hstep, run_ok (by simp) hrun, checkpoint_ok (by simp) hstep,
            checkpoint_ok (by simp) hrun]
          exact ⟨rfl, rfl⟩

/-- Two checkpoints that agree on the history: the next turn has the same result, the same events
and the same new history. -/
theorem turn_agrees (services : Services) (ttsLanguage : LangCode) (e : SttFinalTranscriptReceived)
    (h : other.history = s.history) :
    start services e other = start services e s ∧
      turnEvents services ttsLanguage e other = turnEvents services ttsLanguage e s ∧
      (turnCheckpoint services e other).history = (turnCheckpoint services e s).history := by
  have hcartless : cartless (classified services e other) = cartless (classified services e s) := by
    rw [classified, classified, classify_cartless, h, ← classify_cartless]
  obtain ⟨hstart, hcheckpoint⟩ := labelled_agrees services hcartless
  have hresult : start services e other = start services e s := by
    rw [start, start, invoke_classified, invoke_classified]
    exact hstart
  refine ⟨hresult, ?_, ?_⟩
  · rw [turnEvents, turnEvents, runTurn, runTurn, hresult]
  · rw [turnCheckpoint_classified, turnCheckpoint_classified]
    exact hcheckpoint

end

/-! ## The history of a thread -/

/-- The reply that a node writes, if it writes one. -/
def setReply (services : Services) : Visit → Option String
  | (.agent, s) =>
      if maxAgentSteps < s.agentSteps + 1 then none
      else
        match services.chat (s.agentSteps + 1) (chatMessages services s) with
        | .ok res =>
            if res.toolCalls.isEmpty then
              (AgentReply.parseSpokenReply services.platform.parseJson res.text).reply
            else none
        | .error _ => none
  | (.tools, s) =>
      match runCalls services.platform (services.menu s.agentSteps) s 0 (requestedCalls s)
        (Batch.start s) with
      | .ok batch => batch.reply
      | .error _ => none
  | _ => none

/-- The last reply that the nodes write. -/
def lastReply (services : Services) (ran : List Visit) : Option String :=
  (ran.filterMap (setReply services)).getLast?

def Finalizes (ran : List Visit) : Bool := ran.any fun visit => visit.1 = .finalize

/-- What the history gains from a turn: one that reached `finalize` is recorded, with the reply
that it set. -/
def record (services : Services) (e : SttFinalTranscriptReceived) (s : OrderState) :
    Option HistoryTurn :=
  let ran := turnVisits services e s
  if Finalizes ran then some ⟨normalizeTranscript e.text, lastReply services ran⟩ else none

section

variable {services : Services} {s after : OrderState} {node next : Node} {limit : ℕ}
  {e : SttFinalTranscriptReceived}

theorem lastReply_cons (visit : Visit) (ran : List Visit) :
    lastReply services (visit :: ran) = (lastReply services ran).or (setReply services visit) := by
  unfold lastReply
  cases hset : setReply services visit with
  | none => simp [hset]
  | some reply =>
      rw [List.filterMap_cons_some hset, List.getLast?_cons]
      cases (ran.filterMap (setReply services)).getLast? <;> rfl

theorem agent_reply (h : agent services s = .ok after) :
    after.reply = (setReply services (.agent, s)).or s.reply := by
  unfold agent at h
  dsimp only at h
  unfold setReply
  dsimp only
  split at h
  case isTrue hspent =>
      cases h
      rw [if_pos hspent]
      rfl
  case isFalse hroom =>
      rw [if_neg hroom]
      obtain ⟨res, hres, h⟩ := bind_ok h
      rw [hres]
      dsimp only
      split at h
      case isTrue hspoke =>
          rw [if_pos hspoke]
          split at h
          case h_1 hnone =>
              cases h
              rw [hnone]
              rfl
          case h_2 reply hreply =>
              cases h
              rw [hreply]
              rfl
      case isFalse hcalls =>
          cases h
          rw [if_neg hcalls]
          rfl

theorem runTools_reply (h : step services .tools s = .ok (next, after)) :
    after.reply = (setReply services (.tools, s)).or s.reply := by
  obtain ⟨ran, hran, h⟩ := bind_ok h
  cases h
  obtain ⟨batch, hrun, hran⟩ := bind_ok hran
  cases hran
  unfold setReply
  dsimp only
  rw [hrun]

theorem agent_keeps (h : agent services s = .ok after) :
    after.history = s.history ∧ after.customerText = s.customerText := by
  unfold agent at h
  dsimp only at h
  split at h
  · cases h
    exact ⟨rfl, rfl⟩
  · obtain ⟨res, -, h⟩ := bind_ok h
    split at h
    · split at h <;> cases h <;> exact ⟨rfl, rfl⟩
    · cases h
      exact ⟨rfl, rfl⟩

/-- Between the first node and the last, a node leaves the history and the utterance alone, and
the reply is the one it writes or the one before. -/
theorem step_reply (hnormalize : node ≠ .normalize) (hfinalize : node ≠ .finalize)
    (hstep : step services node s = .ok (next, after)) :
    after.history = s.history ∧ after.customerText = s.customerText ∧
      after.reply = (setReply services (node, s)).or s.reply := by
  cases node with
  | normalize => exact absurd rfl hnormalize
  | classify =>
      cases hstep
      unfold classify
      split <;> exact ⟨rfl, rfl, rfl⟩
  | loadCart =>
      obtain ⟨loaded, hload, hstep⟩ := bind_ok hstep
      obtain ⟨cart, -, hload⟩ := bind_ok hload
      obtain ⟨view, -, hload⟩ := bind_ok hload
      cases hload
      cases hstep
      exact ⟨rfl, rfl, rfl⟩
  | agent =>
      obtain ⟨spoken, hagent, hstep⟩ := bind_ok hstep
      cases hstep
      exact ⟨(agent_keeps hagent).1, (agent_keeps hagent).2, agent_reply hagent⟩
  | tools =>
      refine ⟨?_, ?_, runTools_reply hstep⟩ <;>
      · obtain ⟨ran, hran, hstep⟩ := bind_ok hstep
        obtain ⟨batch, -, hran⟩ := bind_ok hran
        cases hran
        cases hstep
        rfl
  | finalize => exact absurd rfl hfinalize
  | done =>
      cases hstep
      exact ⟨rfl, rfl, rfl⟩

/-- The history after a run from past `normalize`: it is recorded if `finalize` is reached. -/
theorem checkpoint_history (hnormalize : node ≠ .normalize) :
    (checkpoint services limit node s).history =
      if Finalizes (visits services limit node s) then
        Store.mergeHistory s.history
          [⟨s.customerText, (lastReply services (visits services limit node s)).or s.reply⟩]
          Store.maxHistoryTurns
      else s.history := by
  induction limit generalizing node s with
  | zero => rfl
  | succ limit ih =>
      by_cases hdone : node = .done
      · rw [hdone, visits_done, checkpoint_done]
        rfl
      · by_cases hfinalize : node = .finalize
        · have hstep : step services .finalize s = .ok (.done, finalize s) := rfl
          rw [hfinalize, visits_ok (by simp) hstep, checkpoint_ok (by simp) hstep, visits_done,
            checkpoint_done]
          rfl
        · have hhere : ∀ ran, Finalizes ((node, s) :: ran) = Finalizes ran := by
            intro ran
            simp [Finalizes, hfinalize]
          cases hstep : step services node s with
          | error failure =>
              rw [visits_error hdone hstep, checkpoint_error hdone hstep, hhere]
              rfl
          | ok pair =>
              obtain ⟨next, after⟩ := pair
              obtain ⟨hhistory, htext, hreply⟩ := step_reply hnormalize hfinalize hstep
              have hnext : next ≠ .normalize := (step_chat hnormalize hstep).1
              rw [visits_ok hdone hstep, checkpoint_ok hdone hstep, hhere, lastReply_cons,
                Option.or_assoc, ← hreply, ← htext, ← hhistory]
              exact ih hnext

/-- A turn adds its record to the history, and nothing else. -/
theorem turnCheckpoint_history (services : Services) (e : SttFinalTranscriptReceived)
    (s : OrderState) :
    (turnCheckpoint services e s).history =
      (record services e s).elim s.history fun turn =>
        Store.mergeHistory s.history [turn] Store.maxHistoryTurns := by
  have hnormalize : step services .normalize (input e s) =
      .ok (.classify, normalize (input e s)) := rfl
  have hrest := @checkpoint_history services (normalize (input e s)) .classify 24 (by simp)
  have hran : turnVisits services e s = (.normalize, input e s) ::
      visits services 24 .classify (normalize (input e s)) := visits_ok (by simp) hnormalize
  have hkept : turnCheckpoint services e s =
      checkpoint services 24 .classify (normalize (input e s)) :=
    checkpoint_ok (by simp) hnormalize
  have hreply : (normalize (input e s)).reply = none := rfl
  have hset : setReply services (.normalize, input e s) = none := rfl
  have hhere : ∀ ran, Finalizes ((.normalize, input e s) :: ran) = Finalizes ran := by
    intro ran
    simp [Finalizes]
  rw [hreply, Option.or_none] at hrest
  rw [hkept, hrest, record, hran, hhere, lastReply_cons, hset, Option.or_none]
  split <;> rfl

end

/-! ### Turn after turn -/

/-- A turn, with all that it calls. -/
structure Turn where
  services : Services
  event : SttFinalTranscriptReceived

/-- The thread of a conversation after its turns, each from the checkpoint of the one before. -/
def threadFrom (s : OrderState) (turns : List Turn) : OrderState :=
  turns.foldl (fun s turn => turnCheckpoint turn.services turn.event s) s

/-- The records of the turns that reached `finalize`, in their order. -/
def recordsFrom : OrderState → List Turn → List HistoryTurn
  | _, [] => []
  | s, turn :: turns =>
      (record turn.services turn.event s).toList ++
        recordsFrom (turnCheckpoint turn.services turn.event s) turns

/-- The last `cap` of them. -/
def newestTurns (cap : ℕ) (turns : List HistoryTurn) : List HistoryTurn :=
  turns.drop (turns.length - cap)

theorem newestTurns_append (cap : ℕ) (turns later : List HistoryTurn) :
    newestTurns cap (newestTurns cap turns ++ later) = newestTurns cap (turns ++ later) := by
  have hdropped : turns.drop (turns.length - cap) ++ later =
      (turns ++ later).drop (turns.length - cap) :=
    (List.drop_append_of_le_length (Nat.sub_le _ _)).symm
  rw [newestTurns, newestTurns, newestTurns, hdropped, List.drop_drop]
  congr 1
  simp only [List.length_drop, List.length_append]
  omega

theorem mergeHistory_eq (prev next : List HistoryTurn) (cap : ℕ) :
    Store.mergeHistory prev next cap = newestTurns cap (prev ++ next) := rfl

/-- Through any sequence of turns the history is the newest of all records. -/
theorem threadFrom_history {s : OrderState} {turns : List Turn} {recorded : List HistoryTurn}
    (h : s.history = newestTurns Store.maxHistoryTurns recorded) :
    (threadFrom s turns).history =
      newestTurns Store.maxHistoryTurns (recorded ++ recordsFrom s turns) := by
  induction turns generalizing s recorded with
  | nil => simpa [threadFrom, recordsFrom] using h
  | cons turn turns ih =>
      have hturn := turnCheckpoint_history turn.services turn.event s
      have hnext : (turnCheckpoint turn.services turn.event s).history =
          newestTurns Store.maxHistoryTurns
            (recorded ++ (record turn.services turn.event s).toList) := by
        cases hrecord : record turn.services turn.event s with
        | none =>
            rw [hrecord] at hturn
            simpa [hturn] using h
        | some added =>
            rw [hrecord] at hturn
            rw [hturn, Option.elim_some, mergeHistory_eq, h, newestTurns_append]
            rfl
      have hrest := ih hnext
      rw [List.append_assoc] at hrest
      exact hrest

/-- A turn depends on nothing that earlier turns left in the channels but the history, and the
history of a thread is that of its newest recorded turns. -/
theorem turns_isolated :
    (∀ (services : Services) (ttsLanguage : LangCode) (e : SttFinalTranscriptReceived)
      (s other : OrderState), other.history = s.history →
        start services e other = start services e s ∧
        turnEvents services ttsLanguage e other = turnEvents services ttsLanguage e s ∧
        (turnCheckpoint services e other).history = (turnCheckpoint services e s).history) ∧
    ∀ turns : List Turn, (threadFrom begun turns).history =
      newestTurns Store.maxHistoryTurns (recordsFrom begun turns) :=
  ⟨fun services ttsLanguage e _ _ => turn_agrees services ttsLanguage e,
    fun turns => @threadFrom_history begun turns [] rfl⟩

/-- What a turn that threw half-way may have left behind. -/
def abandoned : OrderState :=
  { begun with
    intent := .junk
    baseVersion := 4
    output := some [.removeItem "ln_1"]
    reply := some "One burger."
    replyLanguage := some "es"
    agentSteps := 8
    mentionedItems := [.inherited "toString"]
    failureReason := some "agent_step_limit" }

theorem turns_isolated_abandoned :
    turnEvents (scripted (fun _ => none) (searchThenSpeak "Yes.")) "en" question abandoned =
      turnEvents (scripted (fun _ => none) (searchThenSpeak "Yes.")) "en" question begun :=
  (turns_isolated.1 _ "en" question begun abandoned rfl).2.1

end VoiceOrder.Ordering.AgentGraph
