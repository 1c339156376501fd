import VoiceOrder.CartModule.VersionDiscipline
import VoiceOrder.Ordering.TurnFreshness
import VoiceOrder.Shared.LockRefinement

/-! # The order of a cart's turns

The turns of a cart go through the lock of the turn queue, its proposals through the lock of
the cart; the bus joins the two within one emit. Turns may fail, propose nothing or take their
time: what they propose leaves in the order in which they arrived, and is applied in that order. -/

namespace VoiceOrder.Ordering

open Async Runs VoiceOrder.CartModule VoiceOrder.Backend

abbrev LockedProcess : Type := LockedMachine Answer Event AppError LaneKey Job Store

/-- What comes from outside. Proposals come from the bus. -/
def fromOutside (lane : LaneKey) (job : Job) : Prop :=
  lane = job.lane ∧ ∀ proposal sessionId, job ≠ .applyProposal proposal sessionId

instance (lane : LaneKey) (job : Job) : Decidable (fromOutside lane job) :=
  match job with
  | .applyProposal _ _ => .isFalse fun h => h.2 _ _ rfl
  | .ensureCart _ | .turn _ | .confirm _ =>
      decidable_of_iff (lane = Job.lane _) ⟨fun h => ⟨h, fun _ _ heq => (nomatch heq)⟩, And.left⟩

def transcript? : Job → Option SttFinalTranscriptReceived
  | .turn e => some e
  | _ => none

/-- A proposal that the bus has handed to the cart controller. -/
def applied? : Job → Option (SessionId × OrderProposal)
  | .applyProposal proposal (some sessionId) => some (sessionId, proposal)
  | _ => none

def proposed? : Event → Option (SessionId × OrderProposal)
  | .operationsProposed sessionId proposal => some (sessionId, proposal)
  | _ => none

theorem proposals_eq (trace : Trace) : proposals trace = (published trace).filterMap proposed? := rfl

def proposedTo (cartId : CartId) : Event → Option (SessionId × OrderProposal)
  | .operationsProposed sessionId proposal =>
      if proposal.cartId = cartId then some (sessionId, proposal) else none
  | _ => none

/-- The transcripts among the calls of a lock. -/
def transcripts (calls : List (ℕ × Job)) : List SttFinalTranscriptReceived :=
  calls.filterMap fun call => transcript? call.2

/-- The proposals among the calls of a lock. -/
def applies (calls : List (ℕ × Job)) : List (SessionId × OrderProposal) :=
  calls.filterMap fun call => applied? call.2

/-- The proposals for a cart, in the order in which they were emitted. -/
def emittedFor (cartId : CartId) (process : LockedProcess) : List (SessionId × OrderProposal) :=
  process.emitted.filterMap fun entry => proposedTo cartId entry.2

/-- The proposal carries the header of the transcript. -/
structure Answers (e : SttFinalTranscriptReceived) (proposed : SessionId × OrderProposal) : Prop where
  session : proposed.1 = e.sessionId
  request : proposed.2.requestId = e.requestId
  cart : proposed.2.cartId = e.cartId
  pos : proposed.2.posConfigId = e.posConfigId

structure InOrder (cartId : CartId) (process : LockedProcess) : Prop where
  /-- At most one turn of the cart runs at a time, and at most one job of its controller. -/
  exclusive : ∀ lane : LaneKey, lane.cartId = cartId → ∀ first second running other,
    process.running first = some (lane, running) → process.running second = some (lane, other) →
      first = second
  /-- The turns begin in the order in which their transcripts arrived. -/
  turns : transcripts (process.startsOn (.turns cartId)) <+: transcripts (process.callsOn (.turns cartId))
  /-- Some of the transcripts are answered, each by one proposal, in the order of their arrival. -/
  answered : ∃ answered, answered.Sublist (transcripts (process.callsOn (.turns cartId))) ∧
    List.Forall₂ Answers answered (emittedFor cartId process)
  /-- Each proposal is handed to the controller once, when it is emitted. -/
  handed : applies (process.callsOn (.apply cartId)) = emittedFor cartId process
  /-- The controller begins with the proposals in the order in which they were emitted. -/
  applied : applies (process.startsOn (.apply cartId)) <+: emittedFor cartId process

/-! ## What a job proposes -/

section

variable {σ : Type} {handler : Handler Answer AppError σ} {view after : σ} {trace : Trace}
  {last : Promise Unit} {ttsLanguage : LangCode} {job : Job}

theorem proposals_append (trace later : Trace) :
    proposals (trace ++ later) = proposals trace ++ proposals later := by simp [proposals]

theorem proposals_silent (h : published trace = []) : proposals trace = [] := by
  rw [proposals, h]
  rfl

/-- The reports on a proposal are carts and rejections. -/
theorem proposed?_reports {proposal : OrderProposal} {sessionId : Option SessionId}
    {result : Except AppError (Option Persisted)} {event : Event}
    (hmem : event ∈ reports proposal sessionId result) : proposed? event = none := by
  cases result with
  | error error =>
      cases List.mem_singleton.mp hmem
      rfl
  | ok outcome =>
      cases outcome with
      | none => cases hmem
      | some persisted =>
          rcases List.mem_append.mp hmem with hcart | hrejection
          · obtain ⟨cart, -, rfl⟩ := Option.map_eq_some_iff.mp (Option.mem_toList.mp hcart)
            rfl
          · obtain ⟨rejected, -, rfl⟩ := List.mem_map.mp hrejection
            rfl

theorem applyProposal_proposals {proposal : OrderProposal} {sessionId : Option SessionId}
    (h : Executes handler (applyProposal proposal sessionId) view trace last after) :
    proposals trace = [] := by
  rcases applyProposal_executes h with ⟨left, hpersist⟩ | ⟨result, first, sent, hpersist, hsent, rfl⟩
  · exact proposals_silent (persistProposal_silent.executes hpersist)
  · rw [proposals_append, proposals_silent (persistProposal_silent.completes hpersist), List.nil_append,
      proposals_eq, published_emit]
    exact List.filterMap_eq_nil_iff.mpr fun event hmem => proposed?_reports (hsent.subset hmem)

/-- A turn proposes once at most, and answers its transcript. -/
theorem turn_answers {e : SttFinalTranscriptReceived}
    (h : Executes handler (handleFinalTranscript ttsLanguage e) view trace last after) :
    proposals trace = [] ∨ ∃ proposed, Answers e proposed ∧ proposals trace = [proposed] := by
  obtain ⟨result, hpublished⟩ := turn_published h
  have hproposed := hpublished.filterMap proposed?
  rw [← proposals_eq] at hproposed
  cases result with
  | junk | fail | reply => exact .inl (List.prefix_nil.mp hproposed)
  | complete operations baseVersion spoken =>
      have hspoken : (dispatch ttsLanguage e (.complete operations baseVersion spoken)).filterMap
          proposed? = [(e.sessionId,
            ⟨e.requestId, e.cartId, e.posConfigId, baseVersion, operations⟩)] := by
        cases spoken <;> rfl
      rw [hspoken] at hproposed
      cases htrace : proposals trace with
      | nil => exact .inl rfl
      | cons proposed rest =>
          rw [htrace] at hproposed
          obtain ⟨rfl, hrest⟩ := List.cons_prefix_cons.mp hproposed
          cases List.prefix_nil.mp hrest
          exact .inr ⟨_, ⟨rfl, rfl, rfl, rfl⟩, rfl⟩

/-- One lemma for every job: it proposes nothing, or it is a turn that answers its transcript. -/
theorem job_answers (h : Executes handler (job.program ttsLanguage) view trace last after) :
    proposals trace = [] ∨
      ∃ e proposed, job = .turn e ∧ Answers e proposed ∧ proposals trace = [proposed] := by
  cases job with
  | ensureCart e => exact .inl (proposals_silent ((ensureCart_silent e).executes h))
  | applyProposal proposal sessionId => exact .inl (applyProposal_proposals h)
  | confirm cartId => exact .inl (proposals_silent ((confirmJob_silent cartId).executes h))
  | turn e =>
      rcases turn_answers h with hnone | ⟨proposed, hanswers, hproposed⟩
      · exact .inl hnone
      · exact .inr ⟨e, proposed, rfl, hanswers, hproposed⟩

end

/-! ## What the lanes of a cart propose -/

/-- The lane of a job. -/
def placed (lane : LaneKey) (job : Job) : Prop := lane = job.lane

theorem backend_blind (ttsLanguage : LangCode) : Isolated (backend ttsLanguage) (.blind placed) :=
  blind_isolated fun event target htarget => by
    cases event with
    | operationsProposed sessionId proposal =>
        cases List.mem_singleton.mp htarget
        rfl
    | _ => cases htarget

section

variable {ttsLanguage : LangCode} {cartId : CartId} {lane : LaneKey} {start : Unit} {state : Store}
  {content : Lane Answer Event AppError Job Store}

theorem exists_sublist {ι α β : Type} {R : α → β → Prop} {items : List ι} {f : ι → List α}
    {g : ι → List β} (h : ∀ item ∈ items, ∃ kept, kept.Sublist (f item) ∧ List.Forall₂ R kept (g item)) :
    ∃ kept, kept.Sublist (items.flatMap f) ∧ List.Forall₂ R kept (items.flatMap g) := by
  induction items with
  | nil => exact ⟨[], List.Sublist.refl _, .nil⟩
  | cons item items ih =>
      obtain ⟨first, hfirst, hanswers⟩ := h item List.mem_cons_self
      obtain ⟨rest, hrest, hanswers'⟩ := ih fun other hmem => h other (List.mem_cons_of_mem _ hmem)
      rw [List.flatMap_cons, List.flatMap_cons]
      exact ⟨first ++ rest, hfirst.append hrest, List.rel_append hanswers hanswers'⟩

theorem filterMap_proposedTo (events : List Event) : events.filterMap (proposedTo cartId) =
    (events.filterMap proposed?).filter fun proposed => proposed.2.cartId = cartId := by
  rw [List.filter_filterMap]
  refine List.filterMap_congr fun event _ => ?_
  cases event with
  | operationsProposed sessionId proposal =>
      by_cases h : proposal.cartId = cartId
      · simp [proposedTo, proposed?, h, Option.filter]
      · simp [proposedTo, proposed?, h, Option.filter]
  | _ => rfl

/-- The turns of a cart answer some of their transcripts, in order. -/
theorem lane_answers (h : Serial (backend ttsLanguage) (.blind placed) (.turns cartId) start state content) :
    ∃ answered, answered.Sublist (transcripts content.begun) ∧
      List.Forall₂ Answers answered (content.published.filterMap (proposedTo cartId)) := by
  have hbegun : transcripts content.begun =
      content.attempts.flatMap fun attempt => (transcript? attempt.1).toList := by
    have hjobs : transcripts content.begun = (content.begun.map Prod.snd).filterMap transcript? := by
      rw [List.filterMap_map]
      rfl
    rw [hjobs, Lane.begun_attempts, List.filterMap_map, List.filterMap_eq_flatMap_toList]
    rfl
  rw [hbegun, Lane.published_attempts, List.filterMap_flatMap]
  refine exists_sublist fun attempt hmem => ?_
  obtain ⟨hplaced, before, last, after, hexec⟩ := h.attempts attempt hmem
  rw [filterMap_proposedTo]
  rcases job_answers hexec with hnone | ⟨e, proposed, hjob, hanswers, hproposed⟩
  · refine ⟨[], List.nil_sublist _, ?_⟩
    rw [proposals_eq, published] at hnone
    rw [hnone]
    exact .nil
  · have hcart : LaneKey.turns cartId = .turns e.cartId := hplaced.trans (congrArg Job.lane hjob)
    cases hcart
    rw [proposals_eq, published] at hproposed
    rw [hjob, hproposed]
    refine ⟨[e], List.Sublist.refl _, ?_⟩
    simpa [hanswers.cart] using hanswers

/-- Only the turns of a cart propose for it. -/
theorem lane_own (h : Serial (backend ttsLanguage) (.blind placed) lane start state content)
    (hlane : lane ≠ .turns cartId) {event : Event} (hevent : event ∈ content.published) :
    proposedTo cartId event = none := by
  rw [Lane.published_attempts] at hevent
  obtain ⟨attempt, hmem, hevent⟩ := List.mem_flatMap.mp hevent
  obtain ⟨hplaced, before, last, after, hexec⟩ := h.attempts attempt hmem
  cases hproposed : proposedTo cartId event with
  | none => rfl
  | some proposed =>
      have hmem : proposed ∈ (published attempt.2).filterMap (proposedTo cartId) :=
        List.mem_filterMap.mpr ⟨event, hevent, hproposed⟩
      rw [filterMap_proposedTo, ← proposals_eq, List.mem_filter] at hmem
      obtain ⟨hmem, hcart⟩ := hmem
      rcases job_answers hexec with hnone | ⟨e, other, hjob, hanswers, hother⟩
      · rw [hnone] at hmem
        cases hmem
      · rw [hother] at hmem
        cases List.mem_singleton.mp hmem
        have hturn : lane = .turns e.cartId := hplaced.trans (congrArg Job.lane hjob)
        rw [← hanswers.cart, of_decide_eq_true hcart] at hturn
        exact absurd hturn hlane

end

/-! ## The hand-over to the controller -/

section

variable {ttsLanguage : LangCode} {cartId : CartId} {initial : Store} {process next : LockedProcess}
  {machine : Process} {actions : List (LockedAction Answer AppError LaneKey Job)}
  {action : LockedAction Answer AppError LaneKey Job}

theorem applies_append (calls later : List (ℕ × Job)) :
    applies (calls ++ later) = applies calls ++ applies later := List.filterMap_append

/-- The listeners of an event hand its proposal to the controller of its cart. -/
theorem applies_react (cartId : CartId) (first : ℕ) (event : Event) :
    applies (Machine.arrivals (.apply cartId) first ((backend ttsLanguage).react event)) =
      (proposedTo cartId event).toList := by
  cases event with
  | operationsProposed sessionId proposal =>
      by_cases h : proposal.cartId = cartId
      · simp [backend, react, Machine.arrivals, Job.lane, proposedTo, applies, applied?, h]
      · simp [backend, react, Machine.arrivals, Job.lane, proposedTo, applies, h]
  | _ => rfl

theorem applies_outside {lane : LaneKey} {job : Job} (h : fromOutside lane job) (first : ℕ) :
    applies (Machine.arrivals (.apply cartId) first [(lane, job)]) = [] := by
  refine List.filterMap_eq_nil_iff.mpr fun call hcall => ?_
  have hjob := Machine.mem_arrivals hcall
  rw [List.mem_singleton] at hjob
  cases hcalled : call.2 with
  | applyProposal proposal sessionId =>
      rw [hcalled] at hjob
      cases hjob
      exact absurd rfl (h.2 proposal sessionId)
  | _ => rfl

/-- Every proposal that was emitted has been handed over. -/
def Handed (process : LockedProcess) : Prop :=
  ∀ cartId, applies (process.callsOn (.apply cartId)) = emittedFor cartId process

theorem Handed.step (h : Handed process) (hmeets : LockedMachine.submitsOnly fromOutside process action)
    (hstep : process.step (backend ttsLanguage) action = some next) : Handed next := by
  have hsame : ∀ {other : LockedProcess}, other.arrivals = process.arrivals →
      other.emitted = process.emitted → Handed other := by
    intro other harrivals hemitted cartId
    rw [LockedMachine.callsOn, harrivals, emittedFor, hemitted]
    exact h cartId
  cases action with
  | submit lane job =>
      cases hstep
      intro cartId
      rw [LockedMachine.callsOn_submit, applies_append, applies_outside hmeets, List.append_nil]
      exact h cartId
  | start id =>
      obtain ⟨lock, target, -, -, rfl⟩ := LockedMachine.start_some hstep
      exact hsame rfl rfl
  | emit id =>
      obtain ⟨lane, running, event, rest, -, -, rfl⟩ := LockedMachine.emit_some hstep
      intro cartId
      rw [LockedMachine.callsOn_submits, applies_append, applies_react, emittedFor,
        LockedMachine.submits_emitted, List.filterMap_append]
      refine congrArg₂ (· ++ ·) (h cartId) ?_
      cases hproposed : proposedTo cartId event <;> simp [hproposed]
  | reply id call reply =>
      obtain ⟨lane, running, resume, state, -, -, -, rfl⟩ := LockedMachine.reply_some hstep
      exact hsame rfl rfl
  | finish id =>
      obtain ⟨lane, running, result, lock, -, -, -, rfl⟩ := LockedMachine.finish_some hstep
      exact hsame rfl rfl
  | follow id | settleTail id | cleanUp id =>
      obtain ⟨lock, -, rfl⟩ := Option.map_eq_some_iff.mp hstep
      exact hsame rfl rfl

/-! ## Runs -/

/-- What the lanes of a machine publish is what was emitted. -/
theorem emittedFor_published (hserial : AllSerial (backend ttsLanguage) (.blind placed) initial machine)
    (h : process.Refines machine) : emittedFor cartId process =
      (machine.lanes (.turns cartId)).published.filterMap (proposedTo cartId) := by
  have hown : ∀ entry ∈ process.emitted, entry.1 ≠ .turns cartId →
      proposedTo cartId entry.2 = none := by
    intro entry hentry hlane
    have hpublished : entry.2 ∈ (machine.lanes entry.1).published := by
      rw [h.published]
      exact List.mem_map.mpr ⟨entry, List.mem_filter.mpr ⟨hentry, by simp⟩, rfl⟩
    exact lane_own (hserial entry.1) hlane hpublished
  rw [h.published, Machine.fromLane, List.filterMap_map, List.filterMap_filter]
  refine List.filterMap_congr fun entry hentry => ?_
  by_cases hlane : entry.1 = .turns cartId
  · simp [hlane]
  · rw [hown entry hentry hlane]
    simp [hlane]

/-- In every run the turns of a cart run one at a time, and its proposals are emitted and applied
in the order in which its transcripts arrived. -/
theorem turns_in_order
    (h : Run (LockedMachine.step (backend ttsLanguage)) (LockedMachine.submitsOnly fromOutside)
      (.create initial) actions process) : ∀ cartId, InOrder cartId process := by
  have hlanes : process.Sound ∧ ∃ laneActions machine, Run (Machine.step (backend ttsLanguage))
      (submitsFit (.blind placed)) (.create initial) laneActions machine ∧ process.Refines machine :=
    LockedMachine.refines_run (fun _ _ houtside => houtside.1) h
  obtain ⟨hsound, laneActions, machine, hrun, hrefines⟩ := hlanes
  have hserial := serial_of_run (backend_blind ttsLanguage) (fun _ => trivial) hrun
  have hhanded : Handed process := h.invariant Handed (fun _ => rfl)
    fun _ _ _ hhanded hmeets hstep => hhanded.step hmeets hstep
  have hstarts : ∀ lane, process.startsOn lane <+: process.callsOn lane := fun lane => by
    rw [← hrefines.begun, ← hrefines.jobs, Lane.jobs_begun]
    exact List.prefix_append _ _
  intro cartId
  refine ⟨fun lane _ first second running other hfirst hsecond => hsound.exclusive hfirst hsecond,
    (hstarts _).filterMap _, ?_, hhanded cartId, ?_⟩
  · obtain ⟨answered, hsublist, hanswers⟩ := lane_answers (hserial (.turns cartId))
    refine ⟨answered, hsublist.trans ?_, ?_⟩
    · rw [hrefines.begun]
      exact ((hstarts (.turns cartId)).filterMap _).sublist
    · rw [emittedFor_published hserial hrefines]
      exact hanswers
  · rw [← hhanded cartId]
    exact (hstarts (.apply cartId)).filterMap _

/-- The turn of a call: it reads the empty cart and proposes to add an item. -/
def lockedTurnSteps (id : CallId) (text : String) (history : List HistoryTurn) (item : String) :
    List (LockedAction Answer AppError LaneKey Job) :=
  [.start id, .reply id (.readHistory 1 "cart-1") (.ok history),
    .reply id (.completeIntent text) (.ok (some .service)), .reply id (.getCart "cart-1") (.ok none),
    .reply id .nowIso (.ok "noon"), .reply id (.getItems 1 []) (.ok []),
    .reply id (.runAgent text history ⟨"cart-1", 1, 0, []⟩) (.ok (.proposed [.addItem item 1 []] none)),
    .reply id (.appendHistory 1 "cart-1" ⟨text, none⟩) (.ok ()), .emit id, .finish id, .follow id,
    .settleTail id]

/-- Two sessions speak to one cart at once; the controller begins with the first proposal when
the second turn has ended. -/
theorem turns_in_order_two :
    ∃ process, InOrder "cart-1" process ∧
      (applies (process.startsOn (.apply "cart-1"))).map (fun proposed => proposed.2.requestId) =
        ["request-1"] ∧
      (emittedFor "cart-1" process).map (fun proposed => proposed.2.requestId) =
        ["request-1", "request-2"] := by
  have hrun : ∃ process, Run (LockedMachine.step (backend "en"))
      (LockedMachine.submitsOnly fromOutside) (.create Store.empty)
      ([.submit (.turns "cart-1") (.turn ⟨"request-1", "session-1", "cart-1", 1, "one cola"⟩),
        .submit (.turns "cart-1") (.turn ⟨"request-2", "session-2", "cart-1", 1, "one water"⟩)] ++
        lockedTurnSteps 0 "one cola" [] "cola" ++
        lockedTurnSteps 1 "one water" [⟨"one cola", none⟩] "water" ++ [.start 2]) process ∧
      decide ((applies (process.startsOn (.apply "cart-1"))).map
          (fun proposed => proposed.2.requestId) = ["request-1"] ∧
        (emittedFor "cart-1" process).map (fun proposed => proposed.2.requestId) =
          ["request-1", "request-2"]) = true :=
    exists_run (by decide +kernel)
  obtain ⟨process, hrun, hholds⟩ := hrun
  exact ⟨process, turns_in_order hrun "cart-1", of_decide_eq_true hholds⟩

end

end VoiceOrder.Ordering
