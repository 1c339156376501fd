import VoiceOrder.CartModule.OperationAccounting
import VoiceOrder.Ordering.TurnOutcome

/-! # The turn of the backend is the turn of the graph

The backend awaits the loop of the agent and its tools as one call. Where this call ends as the loop
ends, and the others are answered as those of the graph, both turns publish the same and keep the
same history. -/

namespace VoiceOrder.Ordering.AgentGraph

open Async VoiceOrder.CartModule VoiceOrder.Backend

/-! ## What the calls are answered -/

/-- How the loop ended, by the channels that it left. -/
def outcome (out : OrderState) : AgentOutcome :=
  match out.failureReason, out.output, out.reply with
  | some reason, _, _ => .failed reason
  | none, some operations, reply =>
      .proposed operations (reply.map fun reply => ⟨reply, out.replyLanguage, out.mentionedItems⟩)
  | none, none, some reply => .spoke ⟨reply, out.replyLanguage, out.mentionedItems⟩
  | none, none, none => .failed "agent_no_terminal"

/-- The channels with which the loop begins. -/
def loopInput (e : SttFinalTranscriptReceived) (s : OrderState) (text : String)
    (history : List HistoryTurn) (view : CartView) : OrderState :=
  { normalize (input e s) with
    customerText := text
    history := history
    intent := .service
    cartView := some view
    baseVersion := view.version }

def agentLoop (services : Services) (e : SttFinalTranscriptReceived) (s : OrderState) (text : String)
    (history : List HistoryTurn) (view : CartView) : Except Failure AgentOutcome := do
  let out ← run services recursionLimit .agent (loopInput e s text history view)
  pure (outcome out)

def isRateLimited : AppError → Bool
  | .rateLimited _ => true
  | _ => false

/-- The same answer, or an error of the class of the failure. -/
inductive Like {α : Type} : Except Failure α → Except AppError α → Prop where
  | answered (answer : α) : Like (.ok answer) (.ok answer)
  | thrown (failure : Failure) (error : AppError) (hclass : isRateLimited error = failure.rateLimited) :
      Like (.error failure) (.error error)

/-- The reply to a call is the one that the graph gets. -/
def AnsweredAs (services : Services) (e : SttFinalTranscriptReceived) (s : OrderState) :
    (call : Call) → Except AppError (Answer call) → Prop
  | .readHistory _ _, reply => reply = .ok s.history
  | .completeIntent text, reply =>
      (match reply with
        | .ok (some intent) => intent
        | _ => .service) = services.classifyIntent text
  | .getCart cartId, reply => Like (services.getCart cartId) reply
  | .nowIso, reply => reply = .ok services.nowIso
  | .getItems pos tmpls, reply => Like (services.cartMenu.getItems pos tmpls) reply
  | .runAgent text history view, reply => Like (agentLoop services e s text history view) reply
  | .appendHistory _ _ _, reply => reply = .ok ()
  | _, _ => True

/-- So are all replies of a trace. -/
def AllAnsweredAs (services : Services) (e : SttFinalTranscriptReceived) (s : OrderState)
    (trace : Trace) : Prop :=
  ∀ call reply, .called call reply ∈ trace → AnsweredAs services e s call reply

/-- The turn that a step adds to the history. -/
def appended? : Step → Option HistoryTurn
  | .called (.appendHistory _ _ turn) (.ok _) => some turn
  | _ => none

def appended (trace : Trace) : List HistoryTurn := trace.filterMap appended?

/-- An event of the graph as the backend emits it. -/
def TurnEvent.toEvent : TurnEvent → Event
  | .operationsProposed sessionId proposal => .operationsProposed sessionId proposal
  | .orderReply spoken =>
      .orderReply spoken.cartId spoken.sessionId spoken.requestId spoken.reply spoken.language
        (spoken.mentionedItems.getD [])
  | .sessionFailed sessionId cartId reason message => .sessionFailed sessionId cartId reason message

/-- An outcome of the graph as the backend has it. -/
def TurnResult.toBackend : TurnResult → GraphTurnResult
  | .complete operations baseVersion said language mentionedItems =>
      .complete operations baseVersion (said.map fun said => ⟨said, language, mentionedItems.getD []⟩)
  | .reply said language mentionedItems => .reply ⟨said, language, mentionedItems.getD []⟩
  | .junk => .junk
  | .fail reason => .fail reason

section

variable {services : Services} {e : SttFinalTranscriptReceived} {s out : OrderState}
  {trace first second : Trace} {ttsLanguage : LangCode}

theorem allAnsweredAs_append : AllAnsweredAs services e s (first ++ second) ↔
    AllAnsweredAs services e s first ∧ AllAnsweredAs services e s second := by
  simp only [AllAnsweredAs, List.mem_append, or_imp, forall_and]

theorem AllAnsweredAs.only {call : Call} {reply : Except AppError (Answer call)}
    (h : AllAnsweredAs services e s [.called call reply]) : AnsweredAs services e s call reply :=
  h call reply (List.mem_singleton.mpr rfl)

theorem appended_append : appended (first ++ second) = appended first ++ appended second := by
  simp [appended]

/-! ## Outcomes and events -/

theorem bind_nonempty (mentionedItems : Option (List Mentioned)) :
    (mentionedItems.bind nonempty).getD [] = mentionedItems.getD [] := by
  cases mentionedItems with
  | none => rfl
  | some items => exact nonempty_getD items

theorem dispatch_toEvent (result : TurnResult) :
    Ordering.dispatch ttsLanguage e result.toBackend =
      (dispatch ttsLanguage e result).map TurnEvent.toEvent := by
  cases result with
  | complete operations baseVersion reply language mentionedItems =>
      cases reply with
      | none => rfl
      | some reply =>
          simp [TurnResult.toBackend, dispatch, Ordering.dispatch, TurnEvent.toEvent,
            Ordering.speak, speak, Ordering.propose, propose, bind_nonempty]
  | reply reply language mentionedItems =>
      simp [TurnResult.toBackend, dispatch, Ordering.dispatch, TurnEvent.toEvent,
        Ordering.speak, speak, bind_nonempty]
  | junk => rfl
  | fail reason => rfl

/-- The outcome of the loop decodes to that of the graph. -/
theorem interpret_outcome (hintent : out.intent = .service) :
    OrderGraph.interpret out.baseVersion (outcome out) = (interpret out).toBackend := by
  unfold outcome interpret
  rw [hintent]
  cases out.failureReason with
  | some reason => rfl
  | none =>
      cases out.output with
      | some operations =>
          cases out.reply with
          | none => rfl
          | some reply =>
              simp [OrderGraph.interpret, TurnResult.toBackend, nonempty_getD]
      | none =>
          cases out.reply with
          | none => rfl
          | some reply => simp [OrderGraph.interpret, TurnResult.toBackend, nonempty_getD]

end

/-! ## The loop -/

/-- What holds in the loop of the agent and its tools, from where it began with a history. -/
structure Looping (services : Services) (text : String) (history : List HistoryTurn) (baseVersion : ℕ)
    (node : Node) (s : OrderState) : Prop where
  stands : Stands services.platform.parseJson node s
  inside : node ≠ .normalize ∧ node ≠ .classify ∧ node ≠ .loadCart
  intent : s.intent = .service
  baseVersion : s.baseVersion = baseVersion
  customerText : s.customerText = text
  /-- A turn that failed has not spoken. -/
  unspoken : s.failureReason.isSome → s.reply = none
  history : s.history =
    if node = .done then Store.mergeHistory history [⟨text, s.reply⟩] Store.maxHistoryTurns else history

section

variable {services : Services} {text : String} {history : List HistoryTurn} {baseVersion : ℕ}
  {node next : Node} {s after : OrderState}

/-- A chat that fails the turn leaves the reply as it was. -/
theorem agent_unspoken (h : agent services s = .ok after) (hfailure : s.failureReason = none)
    (hfailed : after.failureReason.isSome) : after.reply = s.reply := by
  unfold agent at h
  dsimp only at h
  split at h
  · cases h
    rfl
  · obtain ⟨res, -, h⟩ := bind_ok h
    split at h
    · split at h
      · cases h
        rfl
      · cases h
        rw [hfailure] at hfailed
        cases hfailed
    · cases h
      rfl

/-- The channels that the loop leaves as they are. -/
structure Framed (s after : OrderState) : Prop where
  intent : after.intent = s.intent
  baseVersion : after.baseVersion = s.baseVersion
  customerText : after.customerText = s.customerText
  history : after.history = s.history

theorem agent_framed (h : agent services s = .ok after) : Framed s after := by
  unfold agent at h
  dsimp only at h
  split at h
  · cases h
    exact ⟨rfl, rfl, rfl, rfl⟩
  · obtain ⟨res, -, h⟩ := bind_ok h
    split at h
    · split at h <;> cases h <;> exact ⟨rfl, rfl, rfl, rfl⟩
    · cases h
      exact ⟨rfl, rfl, rfl, rfl⟩

theorem runTools_framed {menu : ℕ → MenuService} (h : runTools services.platform menu s = .ok after) :
    Framed s after ∧ after.failureReason = s.failureReason := by
  obtain ⟨batch, -, h⟩ := bind_ok h
  cases h
  exact ⟨⟨rfl, rfl, rfl, rfl⟩, rfl⟩

theorem afterAgent_inside (s : OrderState) : afterAgent s = .finalize ∨ afterAgent s = .tools := by
  unfold afterAgent
  split_ifs <;> simp

theorem afterTools_inside (s : OrderState) : afterTools s = .finalize ∨ afterTools s = .agent := by
  unfold afterTools
  split_ifs <;> simp

theorem Looping.framed (h : Looping services text history baseVersion node s) (hnode : node ≠ .done)
    (hframed : Framed s after) (hstands : Stands services.platform.parseJson next after)
    (hnext : next = .finalize ∨ next = .agent ∨ next = .tools)
    (hunspoken : after.failureReason.isSome → after.reply = none) :
    Looping services text history baseVersion next after where
  stands := hstands
  inside := by rcases hnext with rfl | rfl | rfl <;> simp
  intent := hframed.intent.trans h.intent
  baseVersion := hframed.baseVersion.trans h.baseVersion
  customerText := hframed.customerText.trans h.customerText
  unspoken := hunspoken
  history := by
    have hhistory := h.history
    rw [if_neg hnode] at hhistory
    rw [if_neg (by rcases hnext with rfl | rfl | rfl <;> simp)]
    exact hframed.history.trans hhistory

theorem Looping.step (h : Looping services text history baseVersion node s)
    (hstep : AgentGraph.step services node s = .ok (next, after)) :
    Looping services text history baseVersion next after := by
  have hstands := step_stands h.stands hstep
  cases node with
  | normalize => exact absurd rfl h.inside.1
  | classify => exact absurd rfl h.inside.2.1
  | loadCart => exact absurd rfl h.inside.2.2
  | agent =>
      obtain ⟨spoken, hagent, hstep⟩ := bind_ok hstep
      cases hstep
      have hworking : Working s := h.stands.1
      refine h.framed (by simp) (agent_framed hagent) hstands ((afterAgent_inside after).imp_right .inr)
        fun hfailed => ?_
      exact (agent_unspoken hagent hworking.failureReason hfailed).trans hworking.reply
  | tools =>
      obtain ⟨ran, hran, hstep⟩ := bind_ok hstep
      cases hstep
      have hworking : Working s := h.stands.1
      obtain ⟨hframed, hfailure⟩ := runTools_framed hran
      refine h.framed (by simp) hframed hstands ((afterTools_inside after).imp_right .inl)
        fun hfailed => ?_
      rw [hfailure, hworking.failureReason] at hfailed
      cases hfailed
  | finalize =>
      cases hstep
      refine ⟨hstands, by simp, h.intent, h.baseVersion, h.customerText, h.unspoken, ?_⟩
      have hbefore : s.history = history := h.history
      rw [if_pos rfl, finalize, hbefore, h.customerText]
  | done =>
      cases hstep
      exact h

theorem Looping.reply (h : Looping services text history baseVersion node s) :
    agentReply (outcome s) = s.reply := by
  unfold outcome
  cases hfailed : s.failureReason with
  | some reason =>
      rw [h.unspoken (by rw [hfailed]; rfl)]
      rfl
  | none =>
      cases s.output with
      | some operations => cases s.reply <;> rfl
      | none => cases s.reply <;> rfl

theorem loopInput_looping (services : Services) (e : SttFinalTranscriptReceived) (s : OrderState)
    (text : String) (history : List HistoryTurn) (view : CartView) :
    Looping services text history view.version .agent (loopInput e s text history view) where
  stands := ⟨⟨rfl, rfl, rfl, rfl, rfl, rfl, rfl⟩, rfl⟩
  inside := by simp
  intent := rfl
  baseVersion := rfl
  customerText := rfl
  unspoken := fun hfailed => (nomatch hfailed)
  history := rfl

end

/-! ## The graph, cut where the backend cuts it -/

/-- The cart of the turn. -/
def cartOf (services : Services) (e : SttFinalTranscriptReceived) : Except Failure Cart := do
  let found ← services.getCart e.cartId
  pure (found.getD (emptyCart e.cartId e.posConfigId none services.nowIso))

/-- What `classify` makes of the turn. -/
def labelled (services : Services) (e : SttFinalTranscriptReceived) (s : OrderState) : OrderState :=
  classify services (normalize (input e s))

section

variable {services : Services} {e : SttFinalTranscriptReceived} {s out : OrderState} {view : CartView}
  {failure : Failure}

theorem labelled_eq (hintent : (labelled services e s).intent = .service) :
    labelled services e s = { normalize (input e s) with intent := .service } := by
  unfold labelled classify at hintent ⊢
  split
  · rfl
  · rename_i hnone
    rw [hnone] at hintent
    dsimp only at hintent
    rw [hintent]

theorem labelled_history : (labelled services e s).history = s.history := by
  unfold labelled classify
  split <;> rfl

theorem buildCartView_version {cart : Cart} (h : buildCartView services.cartMenu cart = .ok view) :
    view.version = cart.version := by
  obtain ⟨items, -, h⟩ := bind_ok h
  cases h
  rfl

theorem loadCart_eq (hintent : (labelled services e s).intent = .service) :
    loadCart services (labelled services e s) = (do
      let cart ← cartOf services e
      let view ← buildCartView services.cartMenu cart
      pure (loopInput e s (normalizeTranscript e.text) s.history view)) := by
  rw [labelled_eq hintent, loadCart, cartOf]
  change (services.getCart e.cartId >>= _) = _
  cases services.getCart e.cartId with
  | error failure => rfl
  | ok found =>
      change (buildCartView services.cartMenu
          (found.getD (emptyCart e.cartId e.posConfigId none services.nowIso)) >>= fun view =>
            pure { normalize (input e s) with
              intent := .service
              cartView := some view
              baseVersion := (found.getD (emptyCart e.cartId e.posConfigId none services.nowIso)).version }) =
        (buildCartView services.cartMenu
          (found.getD (emptyCart e.cartId e.posConfigId none services.nowIso)) >>= _)
      generalize found.getD (emptyCart e.cartId e.posConfigId none services.nowIso) = cart
      cases hview : buildCartView services.cartMenu cart with
      | error failure => rfl
      | ok view =>
          simp only [bind, Except.bind, pure, Except.pure, loopInput, buildCartView_version hview]
          rfl

theorem invoke_junk (hintent : (labelled services e s).intent = .junk) :
    invoke services e s = .ok (labelled services e s) ∧
      turnCheckpoint services e s = labelled services e s := by
  have hnext : afterClassify (labelled services e s) = .done := by rw [afterClassify, hintent]
  have hclassify : step services .classify (normalize (input e s)) =
      .ok (.done, labelled services e s) := by
    rw [← hnext]
    rfl
  have hnormalize : step services .normalize (input e s) = .ok (.classify, normalize (input e s)) := rfl
  rw [invoke_eq, turnCheckpoint, recursionLimit, run_ok (by simp) hnormalize, run_ok (by simp) hclassify,
    checkpoint_ok (by simp) hnormalize, checkpoint_ok (by simp) hclassify]
  exact ⟨rfl, rfl⟩

/-- A turn that is served begins where its labelled channels are loaded. -/
theorem invoke_service (hintent : (labelled services e s).intent = .service) :
    invoke services e s = run services 23 .loadCart (labelled services e s) ∧
      turnCheckpoint services e s = checkpoint services 23 .loadCart (labelled services e s) := by
  have hnext : afterClassify (labelled services e s) = .loadCart := by rw [afterClassify, hintent]
  have hclassify : step services .classify (normalize (input e s)) =
      .ok (.loadCart, labelled services e s) := by
    rw [← hnext]
    rfl
  have hnormalize : step services .normalize (input e s) = .ok (.classify, normalize (input e s)) := rfl
  rw [invoke_eq, turnCheckpoint, recursionLimit, run_ok (by simp) hnormalize, run_ok (by simp) hclassify,
    checkpoint_ok (by simp) hnormalize, checkpoint_ok (by simp) hclassify]
  exact ⟨rfl, rfl⟩

/-- The loop has room for its nodes, in what the three nodes before it leave of the limit too. -/
theorem run_loopInput (text : String) (history : List HistoryTurn) :
    run services recursionLimit .agent (loopInput e s text history view) =
      run services 22 .agent (loopInput e s text history view) := by
  have hrank : rank .agent (loopInput e s text history view) = 18 := rfl
  exact run_of_rank 3 (hrank.trans_le (by decide))

/-- A turn whose cart cannot be shown leaves the history as it was. -/
theorem invoke_unloaded (hintent : (labelled services e s).intent = .service)
    (hload : loadCart services (labelled services e s) = .error failure) :
    invoke services e s = .error failure ∧ (turnCheckpoint services e s).history = s.history := by
  obtain ⟨hinvoke, hcheckpoint⟩ := invoke_service hintent
  have hstep : step services .loadCart (labelled services e s) = .error failure := by
    rw [step, hload]
    rfl
  rw [hinvoke, hcheckpoint, run, if_neg (by simp), hstep, checkpoint_error (by simp) hstep]
  exact ⟨rfl, labelled_history⟩

theorem invoke_loaded (hintent : (labelled services e s).intent = .service) {loaded : OrderState}
    (hload : loadCart services (labelled services e s) = .ok loaded) :
    invoke services e s = run services 22 .agent loaded ∧
      turnCheckpoint services e s = checkpoint services 22 .agent loaded := by
  obtain ⟨hinvoke, hcheckpoint⟩ := invoke_service hintent
  have hstep : step services .loadCart (labelled services e s) = .ok (.agent, loaded) := by
    rw [step, hload]
    rfl
  rw [hinvoke, hcheckpoint, run_ok (by simp) hstep, checkpoint_ok (by simp) hstep]
  exact ⟨rfl, rfl⟩

theorem loop_failed {text : String} {history : List HistoryTurn}
    (hrun : run services 22 .agent (loopInput e s text history view) = .error failure) :
    (checkpoint services 22 .agent (loopInput e s text history view)).history = history := by
  obtain ⟨stopped, hstopped, hlooping⟩ := checkpoint_of_error _ (fun _ _ _ _ => Looping.step)
    (loopInput_looping services e s text history view) hrun
  rw [hlooping.history, if_neg hstopped]

theorem loop_ended {text : String} {history : List HistoryTurn}
    (hrun : run services 22 .agent (loopInput e s text history view) = .ok out) :
    out.intent = .service ∧ out.baseVersion = view.version ∧
      (checkpoint services 22 .agent (loopInput e s text history view)).history =
        Store.mergeHistory history [⟨text, agentReply (outcome out)⟩] Store.maxHistoryTurns := by
  have hlooping : Looping services text history view.version .done out := run_holds _
    (fun _ _ _ _ => Looping.step) (loopInput_looping services e s text history view) hrun
  refine ⟨hlooping.intent, hlooping.baseVersion, ?_⟩
  rw [checkpoint_of_run hrun, hlooping.history, if_pos rfl, hlooping.reply]

end

/-! ## The turn of the backend -/

section

variable {services : Services} {e : SttFinalTranscriptReceived} {s : OrderState} {trace : Trace}
  {α β : Type}

/-- The history after the turns that a trace has appended. -/
def remembered (history : List HistoryTurn) (trace : Trace) : List HistoryTurn :=
  (appended trace).foldl (fun history turn => Store.mergeHistory history [turn] Store.maxHistoryTurns)
    history

/-- A program that ends on its own. -/
abbrev Ends (program : Promise α) (trace : Trace) (result : Except AppError α) : Prop :=
  Completes (fun _ _ _ => some ()) program () trace result ()

/-- Nothing is published and nothing appended. -/
structure Idle (trace : Trace) : Prop where
  published : published trace = []
  appended : appended trace = []

theorem Idle.append {first second : Trace} (hfirst : Idle first) (hsecond : Idle second) :
    Idle (first ++ second) where
  published := by rw [published_append, hfirst.published, hsecond.published]; rfl
  appended := by rw [appended_append, hfirst.appended, hsecond.appended]; rfl

/-- Answered as the graph is, the program ends as the part of the graph does. -/
def Agrees (services : Services) (e : SttFinalTranscriptReceived) (s : OrderState)
    (part : Except Failure α) (program : Promise α) : Prop :=
  ∀ trace result, Ends program trace result → AllAnsweredAs services e s trace →
    Like part result ∧ Idle trace

/-- What fails is not gone on with. -/
theorem Like.bind_error {part : Except Failure α} {error : AppError}
    (h : Like part (.error error : Except AppError α)) (rest : α → Except Failure β) :
    Like (part >>= rest) (.error error : Except AppError β) := by
  cases h with
  | thrown failure _ hclass => exact .thrown failure error hclass

namespace Agrees

variable {part : Except Failure α} {program : Promise α}

theorem pure (value : α) : Agrees services e s (.ok value) (Pure.pure value) := by
  intro trace result h _
  obtain ⟨rfl, rfl, -⟩ := Completes.pure h
  exact ⟨.answered value, rfl, rfl⟩

theorem call (call : Call) {part : Except Failure (Answer call)}
    (hlike : ∀ reply, AnsweredAs services e s call reply → Like part reply)
    (hidle : ∀ reply, appended? (.called call reply) = none) :
    Agrees services e s part (ask call) := by
  intro trace result h hanswered
  obtain ⟨rfl, -⟩ := h.call
  exact ⟨hlike result hanswered.only, rfl, by simp [appended, hidle]⟩

theorem bind {rest : α → Except Failure β} {next : α → Promise β}
    (h : Agrees services e s part program)
    (hnext : ∀ value, part = .ok value → Agrees services e s (rest value) (next value)) :
    Agrees services e s (part >>= rest) (program >>= next) := by
  intro trace result hends hanswered
  rcases Completes.bind hends with ⟨value, _, first, second, rfl, hfirst, hsecond⟩ |
    ⟨error, rfl, hthrown⟩
  · obtain ⟨hleft, hright⟩ := allAnsweredAs_append.mp hanswered
    obtain ⟨hlike, hidle⟩ := h _ _ hfirst hleft
    cases hlike
    obtain ⟨hlike', hidle'⟩ := hnext value rfl _ _ hsecond hright
    exact ⟨hlike', hidle.append hidle'⟩
  · obtain ⟨hlike, hidle⟩ := h _ _ hthrown hanswered
    cases hlike with
    | thrown failure _ hclass => exact ⟨.thrown failure error hclass, hidle⟩

end Agrees

theorem cart_agrees :
    Agrees services e s (cartOf services e) (Ordering.loadCart e.cartId e.posConfigId) := by
  have hread : Agrees services e s (services.getCart e.cartId) (ask (.getCart e.cartId)) :=
    .call (.getCart e.cartId) (fun _ hreply => hreply) fun _ => rfl
  refine hread.bind fun found _ => ?_
  cases found with
  | some cart => exact .pure cart
  | none =>
      have hnow : Agrees services e s (.ok services.nowIso) runtime.nowIso :=
        .call .nowIso (fun reply hreply => by
          cases hreply
          exact .answered _) fun _ => rfl
      have hempty : Agrees services e s
          (.ok services.nowIso >>= fun now => .ok (emptyCart e.cartId e.posConfigId none now))
          (runtime.nowIso >>= fun now => pure (emptyCart e.cartId e.posConfigId none now)) :=
        hnow.bind fun now _ => .pure _
      exact hempty

theorem view_agrees (cart : Cart) :
    Agrees services e s (buildCartView services.cartMenu cart) (buildCartView menuService cart) := by
  have hread : Agrees services e s (services.cartMenu.getItems cart.posConfigId (lineTmpls cart.items))
      (ask (.getItems cart.posConfigId (lineTmpls cart.items))) :=
    .call (.getItems cart.posConfigId (lineTmpls cart.items)) (fun _ hreply => hreply) fun _ => rfl
  exact hread.bind fun items _ => .pure _

/-- The label is that of the graph. -/
theorem classify_agrees : Agrees services e s (.ok (labelled services e s).intent)
    (Ordering.classify (normalizeTranscript e.text) s.history) := by
  have hhistory : (normalize (input e s)).history = s.history := rfl
  rw [labelled, AgentGraph.classify, hhistory, Ordering.classify]
  cases s.history.getLast?.bind HistoryTurn.agentReply with
  | some reply => exact .pure _
  | none =>
      intro trace result hends hanswered
      rcases Completes.bind hends with ⟨reply, _, first, second, rfl, hasked, hrest⟩ |
        ⟨error, rfl, hasked⟩
      · obtain ⟨inner, hinner, hcalled⟩ := hasked.attempt
        cases hinner
        obtain ⟨rfl, -⟩ := hcalled.call
        have hintent : _ = services.classifyIntent (normalizeTranscript e.text) :=
          (allAnsweredAs_append.mp hanswered).1.only
        change Like (.ok (services.classifyIntent (normalizeTranscript e.text))) result ∧ _
        rw [← hintent]
        rcases reply with error | _ | intent
        all_goals
          obtain ⟨rfl, rfl, -⟩ := Completes.pure hrest
          exact ⟨.answered _, rfl, rfl⟩
      · obtain ⟨inner, hinner, -⟩ := hasked.attempt
        cases hinner

/-- Up to its dispatch, the turn of the backend is that of the graph. -/
structure SameTurn (services : Services) (e : SttFinalTranscriptReceived) (s : OrderState) (trace : Trace)
    (result : Except AppError GraphTurnResult) : Prop where
  result : Like ((start services e s).map TurnResult.toBackend) result
  published : published trace = []
  /-- What is appended is what the thread keeps. -/
  history : (turnCheckpoint services e s).history = remembered s.history trace

namespace SameTurn

variable {first later : Trace} {result : Except AppError GraphTurnResult} {failure : Failure}
  {error : AppError}

theorem after (hidle : Idle first) (h : SameTurn services e s later result) :
    SameTurn services e s (first ++ later) result where
  result := h.result
  published := by rw [published_append, hidle.published, h.published]; rfl
  history := by
    rw [h.history, remembered, remembered, appended_append, hidle.appended]
    rfl

theorem failed (hidle : Idle trace) (hinvoke : invoke services e s = .error failure)
    (hhistory : (turnCheckpoint services e s).history = s.history)
    (hclass : isRateLimited error = failure.rateLimited) : SameTurn services e s trace (.error error) where
  result := by
    rw [start, hinvoke]
    exact .thrown failure error hclass
  published := hidle.published
  history := by
    rw [hhistory, remembered, hidle.appended]
    rfl

/-- A turn whose cart cannot be shown. -/
theorem unloaded (hintent : (labelled services e s).intent = .service) (hidle : Idle trace)
    (hload : Like (loadCart services (labelled services e s)) (.error error)) :
    SameTurn services e s trace (.error error) := by
  generalize hloaded : loadCart services (labelled services e s) = part at hload
  cases hload with
  | thrown failure _ hclass =>
      obtain ⟨hinvoke, hhistory⟩ := invoke_unloaded hintent hloaded
      exact failed hidle hinvoke hhistory hclass

end SameTurn

/-- The call of the agent ends as the loop does. -/
theorem loop_agrees {view : CartView} {result : Except AppError GraphTurnResult}
    (hinvoke : invoke services e s = run services 22 .agent
      (loopInput e s (normalizeTranscript e.text) s.history view))
    (hcheckpoint : turnCheckpoint services e s = checkpoint services 22 .agent
      (loopInput e s (normalizeTranscript e.text) s.history view))
    (h : Ends (do
      let outcome ← ask (.runAgent (normalizeTranscript e.text) s.history view)
      ask (.appendHistory e.posConfigId e.cartId ⟨normalizeTranscript e.text, agentReply outcome⟩)
      pure (OrderGraph.interpret view.version outcome)) trace result)
    (hanswered : AllAnsweredAs services e s trace) : SameTurn services e s trace result := by
  have hloop : agentLoop services e s (normalizeTranscript e.text) s.history view =
      (invoke services e s).map outcome := by
    rw [agentLoop, run_loopInput, hinvoke]
    rfl
  rcases Completes.bind h with ⟨ended, _, first, later, rfl, hasked, hkeep⟩ | ⟨error, rfl, hasked⟩
  · obtain ⟨rfl, -⟩ := hasked.call
    obtain ⟨hfirst, hlater⟩ := allAnsweredAs_append.mp hanswered
    have hlike : Like (agentLoop services e s (normalizeTranscript e.text) s.history view) (.ok ended) :=
      hfirst.only
    rw [hloop] at hlike
    cases hran : invoke services e s with
    | error failure =>
        rw [hran] at hlike
        cases hlike
    | ok out =>
        rw [hran] at hlike
        cases hlike
        obtain ⟨hintent, hbase, hhistory⟩ := loop_ended (hinvoke ▸ hran)
        rw [← hcheckpoint] at hhistory
        rcases Completes.bind hkeep with ⟨_, _, kept, last, rfl, hkept, hlast⟩ | ⟨error, -, hkept⟩
        · obtain ⟨rfl, -⟩ := hkept.call
          obtain ⟨rfl, rfl, -⟩ := Completes.pure hlast
          refine ⟨?_, rfl, hhistory⟩
          rw [start, hran, ← hbase, interpret_outcome hintent]
          exact .answered _
        · obtain ⟨rfl, -⟩ := hkept.call
          cases hlater.only
  · obtain ⟨rfl, -⟩ := hasked.call
    have hlike : Like (agentLoop services e s (normalizeTranscript e.text) s.history view)
        (.error error) := hanswered.only
    rw [hloop] at hlike
    cases hran : invoke services e s with
    | ok out =>
        rw [hran] at hlike
        cases hlike
    | error failure =>
        rw [hran] at hlike
        cases hlike with
        | thrown _ _ hclass =>
            refine .failed ⟨rfl, rfl⟩ hran ?_ hclass
            rw [hcheckpoint]
            exact loop_failed (hinvoke ▸ hran)

/-- A turn that is served. -/
theorem service_agrees {result : Except AppError GraphTurnResult}
    (hintent : (labelled services e s).intent = .service)
    (h : Ends (do
      let cart ← Ordering.loadCart e.cartId e.posConfigId
      let view ← buildCartView menuService cart
      let outcome ← ask (.runAgent (normalizeTranscript e.text) s.history view)
      ask (.appendHistory e.posConfigId e.cartId ⟨normalizeTranscript e.text, agentReply outcome⟩)
      pure (OrderGraph.interpret cart.version outcome)) trace result)
    (hanswered : AllAnsweredAs services e s trace) : SameTurn services e s trace result := by
  have hload := loadCart_eq hintent
  rcases Completes.bind h with ⟨cart, _, first, later, rfl, hcart, hshow⟩ | ⟨error, rfl, hcart⟩
  · obtain ⟨hfirst, hlater⟩ := allAnsweredAs_append.mp hanswered
    obtain ⟨hlike, hidle⟩ := cart_agrees _ _ hcart hfirst
    generalize cartOf services e = found at hlike hload
    cases hlike
    refine .after hidle ?_
    rcases Completes.bind hshow with ⟨view, _, second, rest, rfl, hview, hloop⟩ | ⟨error, rfl, hview⟩
    · obtain ⟨hsecond, hrest⟩ := allAnsweredAs_append.mp hlater
      obtain ⟨hlike, hidle⟩ := view_agrees cart _ _ hview hsecond
      generalize hshown : buildCartView services.cartMenu cart = shown at hlike
      cases hlike
      have hloaded : loadCart services (labelled services e s) =
          .ok (loopInput e s (normalizeTranscript e.text) s.history view) := by
        rw [hload]
        change (buildCartView services.cartMenu cart >>= _) = _
        rw [hshown]
        rfl
      obtain ⟨hinvoke, hcheckpoint⟩ := invoke_loaded hintent hloaded
      rw [← buildCartView_version hshown] at hloop
      exact .after hidle (loop_agrees hinvoke hcheckpoint hloop hrest)
    · obtain ⟨hlike, hidle⟩ := view_agrees cart _ _ hview hlater
      refine .unloaded hintent hidle ?_
      rw [hload]
      exact hlike.bind_error _
  · obtain ⟨hlike, hidle⟩ := cart_agrees _ _ hcart hanswered
    refine .unloaded hintent hidle ?_
    rw [hload]
    exact hlike.bind_error _

theorem start_agrees {result : Except AppError GraphTurnResult} (h : Ends (OrderGraph.start e) trace result)
    (hanswered : AllAnsweredAs services e s trace) : SameTurn services e s trace result := by
  rcases Completes.bind h with ⟨history, _, first, later, rfl, hread, hserve⟩ | ⟨error, -, hread⟩
  · obtain ⟨rfl, -⟩ := hread.call
    obtain ⟨hfirst, hlater⟩ := allAnsweredAs_append.mp hanswered
    cases hfirst.only
    refine .after ⟨rfl, rfl⟩ ?_
    rcases Completes.bind hserve with ⟨intent, _, second, rest, rfl, hlabel, hturn⟩ |
      ⟨error, rfl, hlabel⟩
    · obtain ⟨hsecond, hrest⟩ := allAnsweredAs_append.mp hlater
      obtain ⟨hlike, hidle⟩ := classify_agrees _ _ hlabel hsecond
      generalize hintent : (labelled services e s).intent = label at hlike
      cases hlike
      refine .after hidle ?_
      cases intent with
      | service => exact service_agrees hintent hturn hrest
      | junk =>
          obtain ⟨rfl, rfl, -⟩ := Completes.pure hturn
          obtain ⟨hinvoke, hcheckpoint⟩ := invoke_junk hintent
          refine ⟨?_, rfl, ?_⟩
          · have hjunk : interpret (labelled services e s) = .junk := by rw [interpret, hintent]
            rw [start, hinvoke]
            change Like (.ok (interpret (labelled services e s)).toBackend) _
            rw [hjunk]
            exact .answered _
          · rw [hcheckpoint]
            exact labelled_history
    · cases (classify_agrees _ _ hlabel hlater).1
  · obtain ⟨rfl, -⟩ := hread.call
    cases hanswered.only

/-- The service makes the same of what its graph has thrown. -/
theorem runTurn_agrees {ended : GraphTurnResult} (h : Ends (Ordering.runTurn e) trace (.ok ended))
    (hanswered : AllAnsweredAs services e s trace) :
    ended = (runTurn services e s).toBackend ∧ published trace = [] ∧
      (turnCheckpoint services e s).history = remembered s.history trace := by
  obtain ⟨caught, _, first, last, rfl, hstart, hcatch⟩ := Completes.bind_ok h
  obtain ⟨result, hresult, hgraph⟩ := hstart.attempt
  cases hresult
  obtain ⟨hfirst, -⟩ := allAnsweredAs_append.mp hanswered
  have hsame := start_agrees hgraph hfirst
  have hlast : last = [] ∧ ended = (runTurn services e s).toBackend := by
    have hlike := hsame.result
    rw [runTurn]
    cases hstarted : start services e s with
    | ok result =>
        rw [hstarted] at hlike
        cases hlike
        obtain ⟨rfl, hended, -⟩ := Completes.pure hcatch
        cases hended
        exact ⟨rfl, rfl⟩
    | error failure =>
        rw [hstarted] at hlike
        cases hlike with
        | thrown _ error hclass =>
            dsimp only
            rw [← hclass]
            cases error with
            | rateLimited | notFound | infrastructure =>
                obtain ⟨rfl, hended, -⟩ := Completes.pure hcatch
                cases hended
                exact ⟨rfl, rfl⟩
  obtain ⟨rfl, hended⟩ := hlast
  rw [List.append_nil]
  exact ⟨hended, hsame.published, hsame.history⟩

/-- The service catches whatever its graph throws. -/
theorem runTurn_returns {result : Except AppError GraphTurnResult}
    (h : Ends (Ordering.runTurn e) trace result) : ∃ ended, result = .ok ended := by
  rcases Completes.bind h with ⟨caught, _, first, last, rfl, -, hcatch⟩ | ⟨error, rfl, hstart⟩
  · rcases caught with (_ | _ | _) | ended
    all_goals
      obtain ⟨-, rfl, -⟩ := Completes.pure hcatch
      exact ⟨_, rfl⟩
  · obtain ⟨inner, hinner, -⟩ := hstart.attempt
    cases hinner

/-! ### There are such answers -/

theorem exists_like (part : Except Failure α) : ∃ reply, Like part reply := by
  cases part with
  | ok answer => exact ⟨_, .answered answer⟩
  | error failure =>
      cases hlimited : failure.rateLimited with
      | true => exact ⟨_, .thrown failure (.rateLimited ⟨.deadline, ""⟩) hlimited.symm⟩
      | false => exact ⟨_, .thrown failure (.infrastructure "") hlimited.symm⟩

theorem exists_answer (services : Services) (e : SttFinalTranscriptReceived) (s : OrderState)
    (call : Call) : ∃ reply, AnsweredAs services e s call reply := by
  cases call with
  | readHistory pos cartId => exact ⟨.ok s.history, rfl⟩
  | completeIntent text => exact ⟨.ok (some (services.classifyIntent text)), rfl⟩
  | getCart cartId => exact exists_like _
  | nowIso => exact ⟨.ok services.nowIso, rfl⟩
  | getItems pos tmpls => exact exists_like _
  | runAgent text history view => exact exists_like _
  | appendHistory pos cartId turn => exact ⟨.ok (), rfl⟩
  | _ => exact ⟨.error (.infrastructure ""), trivial⟩

theorem exists_ends (services : Services) (e : SttFinalTranscriptReceived) (s : OrderState)
    (program : Promise α) :
    ∃ trace result, Ends program trace result ∧ AllAnsweredAs services e s trace := by
  induction program with
  | done value => exact ⟨[], _, .done value (), fun _ _ hmem => (nomatch hmem)⟩
  | throw error => exact ⟨[], _, .throw error (), fun _ _ hmem => (nomatch hmem)⟩
  | emit event rest ih =>
      obtain ⟨trace, result, hends, hanswered⟩ := ih
      refine ⟨_, result, .emit hends, fun call reply hmem => ?_⟩
      cases hmem with
      | tail _ hlater => exact hanswered call reply hlater
  | await call resume ih =>
      obtain ⟨reply, hreply⟩ := exists_answer services e s call
      obtain ⟨trace, result, hends, hanswered⟩ := ih reply
      refine ⟨_, result, .await rfl hends, fun other given hmem => ?_⟩
      cases hmem with
      | head => exact hreply
      | tail _ hlater => exact hanswered other given hlater

/-- Answered as the graph is, as it can be, a turn of the backend publishes what the graph publishes,
and appends to the history what the thread of the graph keeps. -/
theorem backend_turn_agrees (services : Services) (ttsLanguage : LangCode) (e : SttFinalTranscriptReceived)
    (s : OrderState) :
    (∃ trace result, Ends (handleFinalTranscript ttsLanguage e) trace result ∧
      AllAnsweredAs services e s trace) ∧
    ∀ trace result, Ends (handleFinalTranscript ttsLanguage e) trace result →
      AllAnsweredAs services e s trace →
      published trace = (turnEvents services ttsLanguage e s).map TurnEvent.toEvent ∧
        (turnCheckpoint services e s).history = remembered s.history trace := by
  refine ⟨exists_ends services e s _, fun trace result h hanswered => ?_⟩
  rcases Completes.bind h with ⟨ended, _, first, last, rfl, hturn, hpublish⟩ | ⟨error, -, hturn⟩
  · obtain ⟨rfl, -⟩ := publish_completes hpublish
    obtain ⟨hfirst, -⟩ := allAnsweredAs_append.mp hanswered
    obtain ⟨rfl, hsilent, hhistory⟩ := runTurn_agrees hturn hfirst
    have hlater : ∀ events : List Event, appended (events.map .emitted) = [] := by
      intro events
      induction events with
      | nil => rfl
      | cons event events ih => exact ih
    constructor
    · rw [published_append, hsilent, published_emit, dispatch_toEvent]
      rfl
    · rw [hhistory, remembered, remembered, appended_append, hlater, List.append_nil]
  · obtain ⟨ended, hended⟩ := runTurn_returns hturn
    cases hended

end

end VoiceOrder.Ordering.AgentGraph
