import VoiceOrder.CartModule.Attempts

/-! # The lanes of the backend are serial

Every job keeps to the calls and events of its lane, so each cart's jobs run one after the
other on what belongs to the cart, whatever the other lanes do in between. -/

namespace VoiceOrder.Backend

open Async Runs VoiceOrder.CartModule VoiceOrder.Ordering

/-! ## What a job leaves behind -/

section

variable {owner : Owner} {cartId : CartId} {before view : Store} {trace : Trace}

theorem keyed_restrict (h : before.Keyed cartId) : (before.restrict owner cartId).Keyed cartId := by
  intro cart hcart
  rw [restrict_carts] at hcart
  exact h cart hcart

theorem atRest_setCart {cart : Cart} (hcart : cart.cartId = cartId) :
    AtRest owner cartId ((before.setCart cart).restrict owner cartId) := by
  refine ⟨keyed_restrict fun stored hstored => ?_, restrict_local⟩
  rw [setCart_stored hcart] at hstored
  exact Option.some.inj hstored ▸ hcart

theorem atRest_commit {cart : Cart} {requestId : Option RequestId} (hcart : cart.cartId = cartId) :
    AtRest owner cartId ((before.commit cart requestId).restrict owner cartId) := by
  refine ⟨keyed_restrict fun stored hstored => ?_, restrict_local⟩
  rw [commit_stored hcart] at hstored
  exact Option.some.inj hstored ▸ hcart

theorem attempt_atRest {proposal : OrderProposal} (hrest : AtRest owner proposal.cartId before)
    (h : Attempt owner before proposal view trace) : AtRest owner proposal.cartId view := by
  cases h with
  | untouched h => exact h.view ▸ hrest
  | committed cart h =>
      obtain ⟨base, hbase, -, hheader⟩ := h.base
      have hcart : cart.cartId = base.cartId := congrArg Header.cartId hheader
      exact h.view ▸ atRest_commit (hcart.trans (hbase.cartId hrest.1))
  | rejected h => exact h.view ▸ ⟨keyed_restrict hrest.1, restrict_local⟩

theorem creation_atRest {e : ClientConnected} (hrest : AtRest owner e.cartId before)
    (h : Creation owner before e view trace) : AtRest owner e.cartId view := by
  cases h with
  | untouched h => exact h.view ▸ hrest
  | created now cart hnone hcart hview => exact hview ▸ atRest_commit (hcart ▸ rfl)

theorem confirmation_atRest (hrest : AtRest owner cartId before)
    (h : Confirmation owner before cartId view trace) : AtRest owner cartId view := by
  cases h with
  | untouched h => exact h.view ▸ hrest
  | handedOver cart h => exact h.view ▸ ⟨keyed_restrict hrest.1, restrict_local⟩
  | confirmed cart posOrderId now between h hview =>
      exact hview ▸ atRest_setCart (hrest.1 cart h.stored)

end

/-! ## A turn only reads and publishes -/

section

variable {owner : Owner} {cartId : CartId} {view : Store} {trace : Trace} {α : Type}

/-- The program keeps to the lane of a cart's turns. -/
abbrev OnTurns (owner : Owner) (cartId : CartId) (program : Promise α) : Prop :=
  ∀ view trace, Holds (laneHandle owner (.turns cartId)) (footprint owner (.turns cartId))
    (fun _ _ => True) (fun _ _ _ => True) program view trace

theorem onTurns_pure (value : α) : OnTurns owner cartId (pure value) :=
  fun _ _ => ⟨trivial, trivial⟩

theorem onTurns_ask {call : Call} (hcall : (footprint owner (.turns cartId)).calls call) :
    OnTurns owner cartId (ask call) :=
  fun _ _ => .call trivial hcall fun _ _ _ => ⟨trivial, trivial⟩

theorem onTurns_bind {β : Type} {program : Promise α} {next : α → Promise β}
    (h : OnTurns owner cartId program) (hnext : ∀ value, OnTurns owner cartId (next value)) :
    OnTurns owner cartId (program >>= next) := fun view trace =>
  .bind ((h view trace).mono (fun _ _ hnow => hnow) fun result _ _ _ _ => by
    cases result with
    | ok value => exact hnext value _ _
    | error error => trivial)

theorem onTurns_attempt {program : Promise α} (h : OnTurns owner cartId program) :
    OnTurns owner cartId program.attempt := fun view trace => .attempt (h view trace)

theorem classify_onTurns (text : String) (history : List HistoryTurn) :
    OnTurns owner cartId (classify text history) := by
  unfold classify
  split
  · exact onTurns_pure _
  · refine onTurns_bind (onTurns_attempt (onTurns_ask trivial)) fun label => ?_
    split
    · exact onTurns_pure _
    · exact onTurns_pure _

theorem loadCart_onTurns (cartId : CartId) (pos : PosConfigId) :
    OnTurns owner cartId (loadCart cartId pos) := by
  refine onTurns_bind (onTurns_ask rfl) fun found => ?_
  cases found with
  | some cart => exact onTurns_pure _
  | none => exact onTurns_bind (onTurns_ask trivial) fun now => onTurns_pure _

theorem start_onTurns (e : SttFinalTranscriptReceived) :
    OnTurns owner e.cartId (OrderGraph.start e) := by
  refine onTurns_bind (onTurns_ask trivial) fun history =>
    onTurns_bind (classify_onTurns _ _) fun intent => ?_
  cases intent with
  | junk => exact onTurns_pure _
  | service =>
      refine onTurns_bind (loadCart_onTurns _ _) fun cart => onTurns_bind ?_ fun outcome =>
        onTurns_bind (onTurns_ask trivial) fun reply => onTurns_bind (onTurns_ask trivial)
          fun _ => onTurns_pure _
      exact onTurns_bind (onTurns_ask trivial) fun items => onTurns_pure _

theorem runTurn_onTurns (e : SttFinalTranscriptReceived) : OnTurns owner e.cartId (runTurn e) := by
  refine onTurns_bind (onTurns_attempt (start_onTurns e)) fun result => ?_
  split
  · exact onTurns_pure _
  · exact onTurns_pure _
  · exact onTurns_pure _

theorem dispatch_allowed (ttsLanguage : LangCode) (e : SttFinalTranscriptReceived)
    (huses : owner.uses e.cartId e.requestId) (result : GraphTurnResult) :
    ∀ event ∈ dispatch ttsLanguage e result,
      (footprint owner (.turns e.cartId)).events event := by
  intro event hmem
  cases result with
  | junk => cases hmem
  | fail reason =>
      cases List.mem_singleton.mp hmem
      trivial
  | reply spoken =>
      cases List.mem_singleton.mp hmem
      trivial
  | complete operations baseVersion spoken =>
      rcases List.mem_cons.mp hmem with rfl | hspoken
      · exact ⟨rfl, huses⟩
      · obtain ⟨words, -, rfl⟩ := Option.map_eq_some_iff.mp (Option.mem_toList.mp hspoken)
        trivial

theorem turn_onTurns (ttsLanguage : LangCode) (e : SttFinalTranscriptReceived)
    (huses : owner.uses e.cartId e.requestId) :
    OnTurns owner e.cartId (handleFinalTranscript ttsLanguage e) :=
  onTurns_bind (runTurn_onTurns e) fun result _ _ =>
    publish_holds _ (dispatch_allowed ttsLanguage e huses result) (fun _ => trivial) trivial

end

/-! ## The lanes -/

section

variable {owner : Owner} {ttsLanguage : LangCode}

theorem job_holds {lane : LaneKey} {job : Job} {view : Store} (hfits : fits owner lane job)
    (hrest : (lanes owner).rest lane view) :
    Holds (laneHandle owner lane) (footprint owner lane) (fun _ _ => True)
      (fun _ view _ => (lanes owner).rest lane view) (job.program ttsLanguage) view [] := by
  obtain ⟨hlane, hrequest⟩ := hfits
  subst hlane
  cases job with
  | ensureCart e =>
      exact (ensureCart_holds e hrest.2).mono (fun _ _ _ => trivial)
        fun _ _ _ h _ => creation_atRest hrest h
  | applyProposal proposal sessionId =>
      exact (applyProposal_holds hrest.2 hrest.1 (hrequest _ rfl)).mono (fun _ _ _ => trivial)
        fun _ _ _ h _ => attempt_atRest hrest h
  | confirm cartId =>
      refine .bind ((confirm_holds cartId hrest.2 hrest.1).mono (fun _ _ _ => trivial)
        fun result view trace h _ => ?_)
      have hafter := confirmation_atRest hrest h
      cases result with
      | ok posOrderId => exact ⟨trivial, hafter⟩
      | error error => exact hafter
  | turn e =>
      exact (turn_onTurns ttsLanguage e (hrequest _ rfl) view []).mono (fun _ _ _ => trivial)
        fun _ _ _ _ _ => trivial

theorem backend_isolated : Isolated (backend ttsLanguage) (lanes owner) where
  own := fun lane state call reply next hcall hnext => laneHandle_own hcall hnext
  frame := fun lane other state call reply next hne hcall hnext => by
    cases lane with
    | apply cartId => exact Store.restrict_eq_iff.mpr (handle_foreign hne hcall hnext)
    | turns cartId => rfl
  listeners := fun lane event hevent target htarget => by
    cases event with
    | operationsProposed sessionId proposal =>
        cases List.mem_singleton.mp htarget
        cases lane with
        | apply cartId => exact hevent.elim
        | turns cartId =>
            refine ⟨rfl, fun requestId hrequest => ?_⟩
            cases hrequest
            have huses : owner.uses proposal.cartId proposal.requestId := by
              rw [hevent.1]
              exact hevent.2
            exact huses
    | _ => cases htarget
  jobs := fun lane job view hfits hrest => job_holds hfits hrest

theorem lanes_rest {initial : Store} (hkeyed : ∀ cartId, initial.Keyed cartId) (lane : LaneKey) :
    (lanes owner).rest lane ((lanes owner).view lane initial) := by
  cases lane with
  | apply cartId => exact ⟨keyed_restrict (hkeyed cartId), restrict_local⟩
  | turns cartId => trivial

/-- From any well-keyed store, every lane runs its jobs one after the other. -/
theorem backend_serial {initial : Store} {actions : List Action} {process : Process}
    (hkeyed : ∀ cartId, initial.Keyed cartId)
    (h : Run (Machine.step (backend ttsLanguage)) (submitsFit (lanes owner)) (.create initial)
      actions process) :
    AllSerial (backend ttsLanguage) (lanes owner) initial process :=
  serial_of_run backend_isolated (lanes_rest hkeyed) h

/-! ## What the jobs of a cart's lane have written -/

/-- What a job can have written at any moment. -/
def Effect (owner : Owner) (before : Store) (job : Job) (view : Store) (trace : Trace) : Prop :=
  match job with
  | .ensureCart e => Creation owner before e view trace
  | .applyProposal proposal _ => Attempt owner before proposal view trace
  | .confirm cartId => Confirmation owner before cartId view trace
  | .turn _ => True

variable {cartId : CartId} {before view : Store} {trace : Trace} {job : Job} {last : Promise Unit}

theorem job_effect (hfits : fits owner (.apply cartId) job) (hrest : AtRest owner cartId before)
    (h : Executes (laneHandle owner (.apply cartId)) (job.program ttsLanguage) before trace last view) :
    Effect owner before job view trace := by
  obtain ⟨hlane, hrequest⟩ := hfits
  cases job with
  | ensureCart e =>
      cases hlane
      exact ((ensureCart_holds e hrest.2).executes h).now
  | applyProposal proposal sessionId =>
      cases hlane
      exact ((applyProposal_holds hrest.2 hrest.1 (hrequest _ rfl)).executes h).now
  | confirm cartId =>
      cases hlane
      have hconfirm := confirm_holds cartId hrest.2 hrest.1
      have hjob : OnLane owner cartId (Confirmation owner before cartId) (fun _ _ _ => True)
          (Job.program ttsLanguage (.confirm cartId)) before [] :=
        .bind (hconfirm.mono (fun _ _ hnow => hnow) fun result _ _ hnow _ => by
          cases result with
          | ok posOrderId => exact ⟨hnow, trivial⟩
          | error error => trivial)
      exact (hjob.executes h).now
  | turn e => trivial

theorem attempt_ended {proposal : OrderProposal} {sessionId : Option SessionId}
    {result : Except AppError Unit} (hfits : fits owner (.apply cartId) (.applyProposal proposal sessionId))
    (hrest : AtRest owner cartId before)
    (h : Executes (laneHandle owner (.apply cartId)) (applyProposal proposal sessionId) before trace
      last view) (hresult : last.result? = some result) :
    result = .ok () ∧ Ended owner before proposal sessionId view trace := by
  obtain ⟨hlane, hrequest⟩ := hfits
  cases hlane
  simpa using ((applyProposal_holds hrest.2 hrest.1 (hrequest _ rfl)).executes h).result hresult

end

end VoiceOrder.Backend
