import VoiceOrder.Backend.Serial

/-! # Proposals are applied atomically and at most once -/

namespace VoiceOrder.CartModule

open Async Runs VoiceOrder.Backend

/-- Every request is used for one cart only, its home. -/
def homeOwner (home : RequestId → CartId) : Owner where
  owns := fun cartId requestId => home requestId = cartId
  uses := fun cartId requestId => home requestId = cartId
  exclusive := fun hown huse => huse.symm.trans (of_decide_eq_true hown)

/-- One request of one cart, and no other. -/
def soleOwner (cartId : CartId) (requestId : RequestId) : Owner where
  owns := fun other request => other = cartId ∧ request = requestId
  uses := fun other request => other = cartId ↔ request = requestId
  exclusive := fun hown huse => by
    obtain ⟨rfl, rfl⟩ := of_decide_eq_true hown
    exact huse.mpr rfl

instance (home : RequestId → CartId) (cartId : CartId) (requestId : RequestId) :
    Decidable ((homeOwner home).uses cartId requestId) :=
  inferInstanceAs (Decidable (home requestId = cartId))

theorem homeOwner_owns {home : RequestId → CartId} {cartId : CartId} {requestId : RequestId}
    (h : home requestId = cartId) : (homeOwner home).owns cartId requestId = true :=
  decide_eq_true h

theorem soleOwner_owns (cartId : CartId) (requestId : RequestId) :
    (soleOwner cartId requestId).owns cartId requestId = true :=
  decide_eq_true ⟨rfl, rfl⟩

def isCommitOf (requestId : RequestId) : Call → Bool
  | .commitApplied _ request => request = requestId
  | _ => false

/-- How often the operations of a request have landed in the cart. -/
def commits (requestId : RequestId) (trace : Trace) : ℕ :=
  (landed trace).countP (isCommitOf requestId)

/-- The blob of the cart after a list of writes. -/
def lastWritten : Option Cart → List Call → Option Cart :=
  List.foldl fun stored call =>
    match call with
    | .setCart cart | .commitApplied cart _ | .commitCreated cart => some cart
    | _ => stored

/-! ## What a lane has recorded -/

section

variable {requestId : RequestId} {trace later : Trace}

theorem commits_append :
    commits requestId (trace ++ later) = commits requestId trace + commits requestId later := by
  simp [commits]

theorem commits_of_landed {calls : List Call} (h : landed trace = calls)
    (hcalls : ∀ call ∈ calls, isCommitOf requestId call = false) : commits requestId trace = 0 := by
  rw [commits, h, List.countP_eq_zero]
  exact fun call hmem => by simp [hcalls call hmem]

end

/-- The view of a cart after what its lane has done. -/
structure Recorded (home : RequestId → CartId) (cartId : CartId) (start : Store) (trace : Trace)
    (view : Store) : Prop where
  once : ∀ requestId, commits requestId trace ≤ 1
  onlyHome : ∀ requestId, 0 < commits requestId trace → home requestId = cartId
  stored : view.carts cartId = lastWritten (start.carts cartId) (landed trace)
  ledger : ∀ requestId, home requestId = cartId →
    (view.ledger requestId = some .applied ↔ 0 < commits requestId trace)

namespace Recorded

variable {home : RequestId → CartId} {cartId : CartId} {start before view : Store}
  {trace later : Trace}

/-- Writes that are no commit of a request leave the counts as they are. -/
theorem extend (h : Recorded home cartId start trace before) {calls : List Call}
    (hlanded : landed later = calls) (hcalls : ∀ requestId, ∀ call ∈ calls, isCommitOf requestId call = false)
    (hstored : view.carts cartId = lastWritten (before.carts cartId) calls)
    (hledger : ∀ requestId, home requestId = cartId →
      (view.ledger requestId = some .applied ↔ before.ledger requestId = some .applied)) :
    Recorded home cartId start (trace ++ later) view := by
  have hcommits : ∀ requestId, commits requestId (trace ++ later) = commits requestId trace :=
    fun requestId => by rw [commits_append, commits_of_landed hlanded (hcalls requestId)]; rfl
  refine ⟨fun requestId => ?_, fun requestId => ?_, ?_, fun requestId hhome => ?_⟩
  · rw [hcommits]
    exact h.once requestId
  · rw [hcommits]
    exact h.onlyHome requestId
  · rw [hstored, h.stored, landed_append, hlanded]
    simp [lastWritten]
  · rw [hcommits, hledger requestId hhome]
    exact h.ledger requestId hhome

theorem attempt {proposal : OrderProposal} (h : Recorded home proposal.cartId start trace before)
    (hhome : home proposal.requestId = proposal.cartId)
    (hrest : AtRest (homeOwner home) proposal.cartId before)
    (hattempt : Attempt (homeOwner home) before proposal view later) :
    Recorded home proposal.cartId start (trace ++ later) view := by
  cases hattempt with
  | untouched h' =>
      exact h.extend h'.landed (fun _ _ hmem => (nomatch hmem)) (h'.view ▸ rfl) fun _ _ => by
        rw [h'.view]
  | rejected h' =>
      refine h.extend h'.landed (fun requestId call hmem => ?_) ?_ fun requestId hown => ?_
      · cases List.mem_singleton.mp hmem
        rfl
      · rw [h'.view, restrict_carts]
        rfl
      · rw [h'.view, restrict_ledger (homeOwner_owns hown), mark_ledger]
        split
        · rename_i heq
          subst heq
          simp [h'.unprocessed (homeOwner_owns hown)]
        · exact Iff.rfl
  | committed cart h' =>
      obtain ⟨base, hbase, -, hheader⟩ := h'.base
      have hcart : cart.cartId = proposal.cartId :=
        (congrArg Header.cartId hheader).trans (hbase.cartId hrest.1)
      have hnone : before.ledger proposal.requestId = none := h'.unprocessed (homeOwner_owns hhome)
      have hzero : commits proposal.requestId trace = 0 := by
        by_contra hne
        have := (h.ledger _ hhome).mpr (Nat.pos_of_ne_zero hne)
        simp [hnone] at this
      have hcommits : ∀ requestId, commits requestId (trace ++ later) =
          commits requestId trace + if proposal.requestId = requestId then 1 else 0 := by
        intro requestId
        rw [commits_append, commits, commits, h'.landed]
        by_cases heq : proposal.requestId = requestId <;> simp [isCommitOf, heq]
      refine ⟨fun requestId => ?_, fun requestId => ?_, ?_, fun requestId hown => ?_⟩
      · rw [hcommits]
        split
        · rename_i heq
          rw [← heq, hzero]
        · exact h.once requestId
      · rw [hcommits]
        split
        · rename_i heq
          exact fun _ => heq ▸ hhome
        · exact h.onlyHome requestId
      · rw [h'.view, restrict_carts, commit_stored hcart, landed_append, h'.landed]
        simp [lastWritten]
      · rw [h'.view, restrict_ledger (homeOwner_owns hown), commit_ledger, hcommits]
        by_cases heq : proposal.requestId = requestId
        · simp [heq]
        · simpa [heq] using h.ledger requestId hown

theorem creation {e : ClientConnected} (h : Recorded home e.cartId start trace before)
    (hcreation : Creation (homeOwner home) before e view later) :
    Recorded home e.cartId start (trace ++ later) view := by
  cases hcreation with
  | untouched h' =>
      exact h.extend h'.landed (fun _ _ hmem => (nomatch hmem)) (h'.view ▸ rfl) fun _ _ => by
        rw [h'.view]
  | created now cart hnone hcart hview hlanded =>
      refine h.extend hlanded (fun requestId call hmem => ?_) ?_ fun requestId hown => ?_
      · cases List.mem_singleton.mp hmem
        rfl
      · rw [hview, restrict_carts, commit_stored (hcart ▸ rfl)]
        rfl
      · rw [hview, restrict_ledger (homeOwner_owns hown), commit_ledger]
        simp

theorem confirmation (h : Recorded home cartId start trace before)
    (hrest : AtRest (homeOwner home) cartId before)
    (hconfirmation : Confirmation (homeOwner home) before cartId view later) :
    Recorded home cartId start (trace ++ later) view := by
  have hover : ∀ {cart between}, HandedOver (homeOwner home) before cartId cart between →
      ∀ requestId, home requestId = cartId →
        between.ledger requestId = before.ledger requestId := fun hhanded requestId hown => by
    rw [hhanded.view, restrict_ledger (homeOwner_owns hown)]
    rfl
  cases hconfirmation with
  | untouched h' =>
      exact h.extend h'.landed (fun _ _ hmem => (nomatch hmem)) (h'.view ▸ rfl) fun _ _ => by
        rw [h'.view]
  | handedOver cart h' hlanded =>
      refine h.extend hlanded (fun requestId call hmem => ?_) ?_ fun requestId hown => ?_
      · cases List.mem_singleton.mp hmem
        rfl
      · rw [h'.view, restrict_carts]
        rfl
      · rw [hover h' requestId hown]
  | confirmed cart posOrderId now between h' hview hlanded =>
      have hcart : (cart.confirmed posOrderId now).cartId = cartId := hrest.1 cart h'.stored
      refine h.extend hlanded (fun requestId call hmem => ?_) ?_ fun requestId hown => ?_
      · rcases List.mem_cons.mp hmem with rfl | hmem
        · rfl
        · cases List.mem_singleton.mp hmem
          rfl
      · rw [hview, restrict_carts, setCart_stored hcart]
        simp [lastWritten]
      · rw [hview, restrict_ledger (homeOwner_owns hown), ← hover h' requestId hown]
        rfl

/-- One lemma for every job of the lane. -/
theorem effect {job : Job} (h : Recorded home cartId start trace before)
    (hfits : fits (homeOwner home) (.apply cartId) job)
    (hrest : AtRest (homeOwner home) cartId before)
    (heffect : Effect (homeOwner home) before job view later) :
    Recorded home cartId start (trace ++ later) view := by
  obtain ⟨hlane, hrequest⟩ := hfits
  cases job with
  | ensureCart e =>
      cases hlane
      exact h.creation heffect
  | applyProposal proposal sessionId =>
      cases hlane
      exact h.attempt (hrequest _ rfl) hrest heffect
  | confirm asked =>
      cases hlane
      exact h.confirmation hrest heffect
  | turn e => cases hlane

end Recorded

section

variable {home : RequestId → CartId} {ttsLanguage : LangCode} {cartId : CartId}
  {start view : Store} {history : List (Finished Answer Event AppError Job Store)}

theorem recorded_of_chain (hledger : ∀ requestId, start.ledger requestId = none)
    (h : Chain (backend ttsLanguage) (lanes (homeOwner home)) (.apply cartId) start history view) :
    Recorded home cartId start (history.flatMap Finished.entries) view := by
  induction h with
  | nil =>
      exact ⟨fun _ => Nat.zero_le _, fun _ hpos => (nomatch hpos), rfl,
        fun requestId _ => by simp [hledger, commits, landed]⟩
  | @snoc history view job last next hchain hfits hbefore hrest hexec hresult hafter ih =>
      rw [List.flatMap_append, List.flatMap_singleton]
      exact ih.effect hfits hrest (job_effect hfits hrest hexec)

/-- The lane's view is the record of what its jobs have done. -/
theorem recorded_of_serial {store : Store} {content : Lane Answer Event AppError Job Store}
    (hledger : ∀ requestId, start.ledger requestId = none)
    (h : Serial (backend ttsLanguage) (lanes (homeOwner home)) (.apply cartId) start store content) :
    Recorded home cartId start content.entries (store.restrict (homeOwner home) cartId) := by
  cases hrunning : content.running with
  | none =>
      have hentries : content.entries = content.history.flatMap Finished.entries := by
        simp [Lane.entries, hrunning]
      rw [hentries]
      exact recorded_of_chain hledger (h.idle hrunning).1
  | some running =>
      have hentries : content.entries =
          content.history.flatMap Finished.entries ++ running.entries := by
        simp [Lane.entries, hrunning]
      obtain ⟨hfits, hchain, hrest, hexec⟩ := h.busy running hrunning
      rw [hentries]
      exact (recorded_of_chain hledger hchain).effect hfits hrest (job_effect hfits hrest hexec)

end

/-! ## What can be said of every run -/

/-- What a retry of the request can see. -/
def seen (cartId : CartId) (requestId : RequestId) (store : Store) :
    Option Cart × Option LedgerOutcome :=
  (store.carts cartId, store.ledger requestId)

/-- What holds of the proposals of all carts, whatever has failed so far. -/
structure AppliedAtomically (home : RequestId → CartId) (initial : Store) (process : Process) :
    Prop where
  /-- The operations of a request land at most once, and only on its own cart. -/
  once : ∀ cartId requestId, commits requestId (process.lanes (.apply cartId)).entries ≤ 1
  onlyHome : ∀ cartId requestId,
    0 < commits requestId (process.lanes (.apply cartId)).entries → home requestId = cartId
  /-- The stored cart is the last one that landed. -/
  stored : ∀ cartId, process.state.carts cartId =
    lastWritten (initial.carts cartId) (landed (process.lanes (.apply cartId)).entries)
  ledger : ∀ requestId, process.state.ledger requestId = some .applied ↔
    0 < commits requestId (process.lanes (.apply (home requestId))).entries
  /-- A failed attempt leaves the cart and the ledger as they were and says so once. -/
  failed : ∀ cartId, ∀ attempt ∈ (process.lanes (.apply cartId)).history, ∀ proposal sessionId,
    attempt.job = .applyProposal proposal sessionId → failures attempt.entries ≠ [] →
      attempt.after.carts cartId = attempt.before.carts cartId ∧
      (∀ requestId, home requestId = cartId →
        attempt.after.ledger requestId = attempt.before.ledger requestId) ∧
      published attempt.entries = [internalError proposal sessionId]
  /-- A retry of a request of which every attempt has failed runs as a first attempt could, and
  a first attempt on the same cart could run in no other way. -/
  retried : ∀ cartId earlier retry later proposal sessionId,
    (process.lanes (.apply cartId)).history = earlier ++ retry :: later →
    retry.job = .applyProposal proposal sessionId →
    (∀ attempt ∈ earlier, attempt.job.requestId? = some proposal.requestId →
      failures attempt.entries ≠ []) →
    retry.before.ledger proposal.requestId = none ∧
    (∃ last : Promise Unit, last.result? = some retry.result ∧
      (retry.entries, last, seen cartId proposal.requestId retry.after) ∈
        behaviours handle (seen cartId proposal.requestId) (applyProposal proposal sessionId)
          retry.before) ∧
    ∀ fresh : Store, fresh.Agree (soleOwner cartId proposal.requestId) cartId retry.before →
      behaviours handle (seen cartId proposal.requestId) (applyProposal proposal sessionId) fresh =
        behaviours handle (seen cartId proposal.requestId) (applyProposal proposal sessionId)
          retry.before

section

variable {home : RequestId → CartId} {ttsLanguage : LangCode} {cartId : CartId}
  {start view before : Store} {trace : Trace} {requestId : RequestId}

/-- A job that is no settled attempt of a request leaves its ledger entry as it is. -/
theorem effect_unmarked {job : Job} (hhome : home requestId = cartId)
    (hfits : fits (homeOwner home) (.apply cartId) job)
    (hfailed : job.requestId? = some requestId → failures trace ≠ [])
    (heffect : Effect (homeOwner home) before job view trace) :
    view.ledger requestId = before.ledger requestId := by
  have howns : (homeOwner home).owns cartId requestId = true := homeOwner_owns hhome
  obtain ⟨hlane, -⟩ := hfits
  cases job with
  | ensureCart e =>
      cases hlane
      cases heffect with
      | untouched h => rw [h.view]
      | created now cart hnone hcart hview hlanded =>
          rw [hview, restrict_ledger howns, commit_ledger]
          simp
  | applyProposal proposal sessionId =>
      cases hlane
      have hother : failures trace = [] → proposal.requestId ≠ requestId := fun hnone heq =>
        hfailed (congrArg some heq) hnone
      cases heffect with
      | untouched h => rw [h.view]
      | committed cart h =>
          rw [h.view, restrict_ledger howns, commit_ledger,
            if_neg fun heq => hother h.failures (Option.some.inj heq)]
      | rejected h => rw [h.view, restrict_ledger howns, mark_ledger, if_neg (hother h.failures)]
  | confirm asked =>
      cases hlane
      cases heffect with
      | untouched h => rw [h.view]
      | handedOver cart h hlanded =>
          rw [h.view, restrict_ledger howns]
          rfl
      | confirmed cart posOrderId now between h hview hlanded =>
          have hbetween : between.ledger requestId = before.ledger requestId := by
            rw [h.view, restrict_ledger howns]
            rfl
          rw [hview, restrict_ledger howns, ← hbetween]
          rfl
  | turn e => cases hlane

theorem chain_unmarked {history : List (Finished Answer Event AppError Job Store)}
    (hhome : home requestId = cartId)
    (h : Chain (backend ttsLanguage) (lanes (homeOwner home)) (.apply cartId) start history view)
    (hfailed : ∀ job ∈ history, job.job.requestId? = some requestId → failures job.entries ≠ []) :
    view.ledger requestId = start.ledger requestId := by
  induction h with
  | nil => rfl
  | @snoc history view job last next hchain hfits hbefore hrest hexec hresult hafter ih =>
      have hjob := hfailed job (List.mem_append_right _ List.mem_cons_self)
      rw [effect_unmarked hhome hfits hjob (job_effect hfits hrest hexec)]
      exact ih fun other hmem => hfailed other (List.mem_append_left _ hmem)

/-- An attempt that failed has left its view as it was. -/
theorem ended_failed {owner : Owner} {proposal : OrderProposal} {sessionId : Option SessionId}
    (h : Ended owner before proposal sessionId view trace) (hfailures : failures trace ≠ []) :
    view = before ∧ published trace = [internalError proposal sessionId] := by
  cases h with
  | failed h _ hpublished => exact ⟨h.view, hpublished⟩
  | duplicate h hnone => exact (hfailures hnone).elim
  | settled persisted h =>
      have hnone : failures trace = [] := by
        unfold Settled at h
        split at h
        · exact h.failures
        · exact h.failures
      exact (hfailures hnone).elim

/-- An attempt runs in the same way on two stores that agree on its cart and its request. -/
theorem behaviours_agree {proposal : OrderProposal} {sessionId : Option SessionId}
    {store other : Store} (hkeyed : store.Keyed proposal.cartId)
    (hagree : store.Agree (soleOwner proposal.cartId proposal.requestId) proposal.cartId other) :
    behaviours handle (seen proposal.cartId proposal.requestId) (applyProposal proposal sessionId)
        store ⊆
      behaviours handle (seen proposal.cartId proposal.requestId) (applyProposal proposal sessionId)
        other := by
  have hview : OnLane (soleOwner proposal.cartId proposal.requestId) proposal.cartId
      (Attempt _ _ proposal) (fun result view trace => result = .ok () ∧ Ended _ _ proposal sessionId
        view trace) (applyProposal proposal sessionId)
      (store.restrict (soleOwner proposal.cartId proposal.requestId) proposal.cartId) [] :=
    applyProposal_holds restrict_local (keyed_restrict hkeyed) (iff_of_true rfl rfl)
  intro behaviour hbehaviour
  obtain ⟨final, hexec, hseen⟩ := hbehaviour
  obtain ⟨after, hcopy, hafter⟩ := hexec.simulate
    (fun state copy : Store => copy.Agree (soleOwner proposal.cartId proposal.requestId) proposal.cartId state)
    hagree.symm (hview.pullback fun _ _ _ _ hcall hnext => laneHandle_own hcall hnext)
    fun state copy call reply next hrel hcall hnext => handle_agree hrel hcall
      (fun requestId heq => by
        subst heq
        exact decide_eq_true ⟨rfl, hcall.mp rfl⟩) hnext
  refine ⟨after, hcopy, hseen ▸ ?_⟩
  exact congrArg₂ Prod.mk hafter.carts (hafter.ledger proposal.requestId (soleOwner_owns _ _))

/-- What an attempt did on the view of its lane it could do on the store. -/
theorem attempt_behaviour {proposal : OrderProposal} {sessionId : Option SessionId}
    {last : Promise Unit} {store after : Store} (hkeyed : store.Keyed proposal.cartId)
    (hhome : home proposal.requestId = proposal.cartId)
    (h : Executes (laneHandle (homeOwner home) (.apply proposal.cartId))
      (applyProposal proposal sessionId) (store.restrict (homeOwner home) proposal.cartId) trace last
      (after.restrict (homeOwner home) proposal.cartId)) :
    (trace, last, seen proposal.cartId proposal.requestId after) ∈
      behaviours handle (seen proposal.cartId proposal.requestId) (applyProposal proposal sessionId)
        store := by
  have hview : OnLane (homeOwner home) proposal.cartId (Attempt _ _ proposal)
      (fun result view trace => result = .ok () ∧ Ended _ _ proposal sessionId view trace)
      (applyProposal proposal sessionId) (store.restrict (homeOwner home) proposal.cartId) [] :=
    applyProposal_holds restrict_local (keyed_restrict hkeyed) hhome
  obtain ⟨final, hexec, hfinal⟩ := h.simulate
    (fun view store : Store => view = store.restrict (homeOwner home) proposal.cartId) rfl hview
    fun view store call reply next hrel hcall hnext => by
      subst hrel
      exact laneHandle_store (fun requestId huses => homeOwner_owns huses) hcall hnext
  have hagree := Store.restrict_eq_iff.mp hfinal
  exact ⟨final, hexec, (congrArg₂ Prod.mk hagree.carts
    (hagree.ledger proposal.requestId (homeOwner_owns hhome))).symm⟩

end

section

variable {home : RequestId → CartId} {ttsLanguage : LangCode} {initial : Store}
  {process : Process} {actions : List Action}

/-- In every run the proposals of all carts are applied atomically and at most once. -/
theorem applied_atomically (hkeyed : ∀ cartId, initial.Keyed cartId)
    (hledger : ∀ requestId, initial.ledger requestId = none)
    (h : Run (Machine.step (backend ttsLanguage)) (submitsFit (lanes (homeOwner home)))
      (.create initial) actions process) :
    AppliedAtomically home initial process := by
  have hserial := backend_serial hkeyed h
  have hstart : ∀ cartId requestId,
      (initial.restrict (homeOwner home) cartId).ledger requestId = none := fun cartId requestId => by
    simp [Store.restrict, hledger]
  have hrecorded : ∀ cartId, Recorded home cartId (initial.restrict (homeOwner home) cartId)
      (process.lanes (.apply cartId)).entries (process.state.restrict (homeOwner home) cartId) :=
    fun cartId => recorded_of_serial (hstart cartId) (hserial (.apply cartId))
  refine ⟨fun cartId => (hrecorded cartId).once, fun cartId => (hrecorded cartId).onlyHome,
    fun cartId => ?_, fun requestId => ?_, ?_, ?_⟩
  · simpa [restrict_carts] using (hrecorded cartId).stored
  · rw [← (hrecorded (home requestId)).ledger requestId rfl, restrict_ledger (homeOwner_owns rfl)]
  · intro cartId attempt hmem proposal sessionId hjob hfailures
    obtain ⟨view, hchain⟩ := (hserial (.apply cartId)).chain
    obtain ⟨earlier, later, heq⟩ := List.append_of_mem hmem
    obtain ⟨-, hfits, hrest, last, hresult, hexec⟩ := hchain.at heq
    rw [hjob] at hfits hexec
    obtain ⟨hview, hpublished⟩ := ended_failed (attempt_ended hfits hrest hexec hresult).2 hfailures
    obtain ⟨hlane, -⟩ := hfits
    cases hlane
    have hagree := Store.restrict_eq_iff.mp hview
    exact ⟨hagree.carts, fun requestId hhome => hagree.ledger requestId (homeOwner_owns hhome),
      hpublished⟩
  · intro cartId earlier retry later proposal sessionId heq hjob hfailed
    obtain ⟨view, hchain⟩ := (hserial (.apply cartId)).chain
    obtain ⟨hbefore, hfits, hrest, last, hresult, hexec⟩ := hchain.at heq
    rw [hjob] at hfits hexec
    have hhome := hfits.2 _ rfl
    obtain ⟨hlane, -⟩ := hfits
    cases hlane
    have hretry : retry.before.Keyed proposal.cartId := fun cart hcart =>
      hrest.1 cart (restrict_carts.trans hcart)
    refine ⟨?_, ⟨last, hresult, attempt_behaviour hretry hhome hexec⟩, fun fresh hagree => ?_⟩
    · rw [← restrict_ledger (homeOwner_owns hhome)]
      exact (chain_unmarked hhome hbefore hfailed).trans (hstart _ _)
    · have hfresh : fresh.Keyed proposal.cartId := fun cart hcart =>
        hretry cart (hagree.carts ▸ hcart)
      exact Set.Subset.antisymm (behaviours_agree hfresh hagree)
        (behaviours_agree hretry hagree.symm)

end

/-! ## A failed attempt and its retry -/

def cola : Menu.MenuItem where
  productTmplId := 7
  menuItemKey := "cola"
  names := [("en_US", "Cola")]
  basePriceCents := 250
  available := true
  modifiers := []

def addCola : OrderProposal where
  requestId := "request-1"
  cartId := "cart-1"
  posConfigId := 1
  baseVersion := 0
  operations := [.addItem "cola" 1 []]

/-- The cart once the proposal is applied, at the local prices. -/
def colaCart : Cart :=
  { emptyCart "cart-1" 1 none "noon" with
    version := 1
    items := [⟨"line-1", 7, "Cola", [("en_US", "Cola")], 1, [], 250⟩]
    subtotalCents := 250
    totalCents := 250 }

/-- Apply the proposal to a cart that is not stored yet, while Odoo gives no quote. -/
def addColaSteps : List Action :=
  [.begin (.apply "cart-1"), .reply (.apply "cart-1") (.wasProcessed "request-1") (.ok false),
    .reply (.apply "cart-1") (.getCart "cart-1") (.ok none),
    .reply (.apply "cart-1") .nowIso (.ok "noon"),
    .reply (.apply "cart-1") (.resolveItemKey 1 "cola") (.ok (some cola)),
    .reply (.apply "cart-1") .newLineId (.ok "line-1"),
    .reply (.apply "cart-1") (.getItems 1 [7]) (.ok [cola]),
    .reply (.apply "cart-1") .nowIso (.ok "noon"),
    .reply (.apply "cart-1") (.quoteCart colaCart) (.error (.infrastructure "odoo is down")),
    .reply (.apply "cart-1") (.commitApplied colaCart "request-1") (.ok ()),
    .emit (.apply "cart-1"), .finish (.apply "cart-1")]

theorem applied_atomically_retry :
    ∃ process, AppliedAtomically (fun _ => "cart-1") Store.empty process ∧
      (process.lanes (.apply "cart-1")).history.map (fun attempt => (failures attempt.entries).length) =
        [1, 0] ∧ commits "request-1" (process.lanes (.apply "cart-1")).entries = 1 := by
  have hrun : ∃ process, Run (Machine.step (backend "en"))
      (submitsFit (lanes (homeOwner fun _ => "cart-1"))) (.create Store.empty)
      ([.submit (.apply "cart-1") (.applyProposal addCola none),
        .submit (.apply "cart-1") (.applyProposal addCola none), .begin (.apply "cart-1"),
        .reply (.apply "cart-1") (.wasProcessed "request-1") (.ok false),
        .reply (.apply "cart-1") (.getCart "cart-1") (.error (.infrastructure "redis is down")),
        .emit (.apply "cart-1"), .finish (.apply "cart-1")] ++ addColaSteps) process ∧
      decide ((process.lanes (.apply "cart-1")).history.map
          (fun attempt => (failures attempt.entries).length) = [1, 0] ∧
        commits "request-1" (process.lanes (.apply "cart-1")).entries = 1) = true :=
    exists_run (by decide +kernel)
  obtain ⟨process, hrun, hholds⟩ := hrun
  exact ⟨process, applied_atomically Store.keyed_empty (fun _ => rfl) hrun,
    of_decide_eq_true hholds⟩

end VoiceOrder.CartModule
