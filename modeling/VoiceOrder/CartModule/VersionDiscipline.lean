import VoiceOrder.Async.Bus
import VoiceOrder.CartModule.ConfirmationFreeze
import VoiceOrder.CartModule.OperationAccounting

/-! # Versions and broadcasts of a cart

The version of the stored cart counts the proposals that were applied to it, and each of them
is broadcast once, as it is stored. -/

namespace VoiceOrder.CartModule

open Async Runs VoiceOrder.Ordering VoiceOrder.Backend

/-- The cart that a write stores for a proposal. -/
def applied? : Call → Option Cart
  | .commitApplied cart _ => some cart
  | _ => none

/-- The carts that were stored for proposals, in order. -/
def appliedCarts (trace : Trace) : List Cart := (landed trace).filterMap applied?

def updated? : Event → Option Cart
  | .cartUpdated cart _ => some cart
  | _ => none

def updatedCarts (events : List Event) : List Cart := events.filterMap updated?

/-- The broadcasts of a cart among the events of all lanes, in order of emission. -/
def broadcasts (cartId : CartId) (events : List (LaneKey × Event)) : List Cart :=
  (updatedCarts (events.map Prod.snd)).filter fun cart => cart.cartId = cartId

/-- What a version of the cart stands for. -/
def Cart.seal (cart : Cart) : Order.Sealed :=
  ⟨cart.items, cart.version, cart.subtotalCents, cart.taxCents, cart.totalCents⟩

/-- A later state of a stored cart has a higher version, or the same items and totals. -/
def Cart.Follows (cart earlier : Cart) : Prop :=
  earlier.version < cart.version ∨ cart.seal = earlier.seal

theorem Cart.Follows.trans {cart middle earlier : Cart} (h : cart.Follows middle)
    (hearlier : middle.Follows earlier) : cart.Follows earlier := by
  have hversion : ∀ {cart other : Cart}, cart.seal = other.seal → cart.version = other.version :=
    fun h => congrArg Order.Sealed.version h
  rcases h with hlater | hsame
  · rcases hearlier with hlater' | hsame'
    · exact .inl (by omega)
    · exact .inl (by rw [← hversion hsame']; exact hlater)
  · rcases hearlier with hlater' | hsame'
    · exact .inl (by rw [hversion hsame]; exact hlater')
    · exact .inr (hsame.trans hsame')

@[simp] theorem appliedCarts_append (trace later : Trace) :
    appliedCarts (trace ++ later) = appliedCarts trace ++ appliedCarts later := by
  simp [appliedCarts]

@[simp] theorem updatedCarts_append (events later : List Event) :
    updatedCarts (events ++ later) = updatedCarts events ++ updatedCarts later := by
  simp [updatedCarts]

/-! ## What a proposal publishes -/

section

variable {before after : Store} {trace : Trace} {proposal : OrderProposal}
  {sessionId : Option SessionId} {last : Promise Unit}

theorem updatedCarts_rejections (rejections : List Rejection) :
    updatedCarts (rejections.map (rejection proposal sessionId)) = [] := by
  induction rejections with
  | nil => rfl
  | cons rejected rejections ih => exact ih

theorem updatedCarts_outcome (persisted : Persisted) :
    updatedCarts (outcomeEvents proposal sessionId persisted) = persisted.updatedCart.toList := by
  rw [outcomeEvents, updatedCarts_append, updatedCarts_rejections, List.append_nil]
  cases persisted.updatedCart <;> rfl

theorem cartOrEmpty_silent (cartId : CartId) (pos : PosConfigId) : Silent (cartOrEmpty cartId pos) := by
  refine .bind (.call _) fun found => ?_
  split
  · exact .pure _
  · exact .bind (.call _) fun now => .pure _

theorem persistProposal_silent : Silent (persistProposal proposal) := by
  refine .bind (.call _) fun processed => ?_
  split
  · exact .pure _
  · refine .bind (cartOrEmpty_silent _ _) fun cart => ?_
    split
    · exact .bind (.call _) fun _ => .pure _
    · refine .bind (.reads (applyOperations_reads _ _ _)) fun folded => ?_
      split
      · refine .bind (.bind (.attempt (.call _)) fun quote => ?_) fun cart =>
          .bind (.call _) fun _ => .pure _
        split
        · exact .pure _
        · split
          · exact .pure _
          · exact .pure _
      · exact .bind (.call _) fun _ => .pure _

theorem publish_executes {σ : Type} {handler : Handler Answer AppError σ} {view final : σ}
    {events : List Event} (h : Executes handler (publish events) view trace last final) :
    ∃ sent, sent <+: events ∧ trace = sent.map .emitted ∧ final = view := by
  induction events generalizing trace with
  | nil =>
      cases h
      exact ⟨[], List.nil_prefix, rfl, rfl⟩
  | cons event events ih =>
      change Executes handler (.emit event (publish events)) view trace last final at h
      cases h with
      | here => exact ⟨[], List.nil_prefix, rfl, rfl⟩
      | emit hrest =>
          obtain ⟨sent, hsent, rfl, rfl⟩ := ih hrest
          exact ⟨event :: sent, List.cons_prefix_cons.mpr ⟨rfl, hsent⟩, rfl, rfl⟩

/-- What is sent once the result of persisting a proposal is known. -/
def reports (proposal : OrderProposal) (sessionId : Option SessionId) :
    Except AppError (Option Persisted) → List Event
  | .error _ => [internalError proposal sessionId]
  | .ok none => []
  | .ok (some persisted) => outcomeEvents proposal sessionId persisted

/-- A proposal is still being persisted, or it was and its reports are sent one by one. -/
theorem applyProposal_executes {σ : Type} {handler : Handler Answer AppError σ} {view final : σ}
    (h : Executes handler (applyProposal proposal sessionId) view trace last final) :
    (∃ left, Executes handler (persistProposal proposal) view trace left final) ∨
    ∃ result first sent, Completes handler (persistProposal proposal) view first result final ∧
      sent <+: reports proposal sessionId result ∧ trace = first ++ sent.map .emitted := by
  rcases h.bind with ⟨rest, rfl, htried⟩ | ⟨result, middle, first, second, rfl, htried, hlast⟩
  · obtain ⟨left, rfl, hpersist⟩ := htried.attempt
    exact .inl ⟨left, hpersist⟩
  · obtain ⟨outcome, hinner, hpersist⟩ := htried.attempt
    cases hinner
    have hreports : Executes handler (publish (reports proposal sessionId result)) middle second last
        final := by
      cases result with
      | error error => exact hlast
      | ok outcome =>
          cases outcome with
          | none => exact hlast
          | some persisted => exact hlast
    obtain ⟨sent, hsent, rfl, rfl⟩ := publish_executes hreports
    exact .inr ⟨result, first, sent, hpersist, hsent, rfl⟩

/-- At any moment a proposal has broadcast nothing, or what it has persisted. -/
theorem applyProposal_published (hrest : AtRest anyOwner proposal.cartId before)
    (h : Executes (laneHandle anyOwner (.apply proposal.cartId)) (applyProposal proposal sessionId)
      before trace last after) :
    updatedCarts (published trace) = [] ∨
    ∃ persisted, Settled anyOwner before proposal persisted after trace ∧
      published trace <+: outcomeEvents proposal sessionId persisted := by
  rcases applyProposal_executes h with ⟨left, hpersist⟩ | ⟨result, first, sent, hpersist, hsent, rfl⟩
  · have hsilent : published trace = [] := persistProposal_silent.executes hpersist
    exact .inl (by rw [hsilent]; rfl)
  · have hsilent : published first = [] := persistProposal_silent.completes hpersist
    have hpersists := (persistProposal_holds hrest.2 hrest.1 trivial).completes hpersist
    rw [List.nil_append] at hpersists
    rw [published_append, hsilent, List.nil_append, published_emit]
    have hbroadcast := hsent.filterMap updated?
    cases result with
    | error error => exact .inl (List.prefix_nil.mp hbroadcast)
    | ok outcome =>
        cases outcome with
        | none => exact .inl (List.prefix_nil.mp hbroadcast)
        | some persisted => exact .inr ⟨persisted, hpersists.1.emit _, hsent⟩

end

/-! ## What a job does to the version -/

/-- What a job has done to the version of the stored cart, and what it has broadcast. -/
inductive Progress (before after : Option Cart) (trace : Trace) : Prop where
  | level (happlied : appliedCarts trace = []) (hupdated : updatedCarts (published trace) = [])
      (hversion : storedVersion after = storedVersion before)
  | raised (cart : Cart) (happlied : appliedCarts trace = [cart]) (hstored : after = some cart)
      (hversion : cart.version = storedVersion before + 1)
      (hupdated : updatedCarts (published trace) <+: [cart])

section

variable {before after : Store} {trace : Trace} {proposal : OrderProposal}
  {sessionId : Option SessionId} {last : Promise Unit} {cartId : CartId} {ttsLanguage : LangCode}
  {job : Job} {result : Except AppError Unit}

theorem appliedCarts_of_landed {calls : List Call} (h : landed trace = calls) :
    appliedCarts trace = calls.filterMap applied? := by rw [appliedCarts, h]

theorem Settled.appliedCarts {persisted : Persisted}
    (h : Settled anyOwner before proposal persisted after trace) :
    appliedCarts trace = persisted.updatedCart.toList := by
  cases hcart : persisted.updatedCart with
  | none =>
      simp only [Settled, hcart] at h
      exact appliedCarts_of_landed h.landed
  | some cart =>
      simp only [Settled, hcart] at h
      exact appliedCarts_of_landed h.landed

/-- Only what is applied is broadcast. -/
theorem attempt_broadcast (hrest : AtRest anyOwner proposal.cartId before)
    (h : Executes (laneHandle anyOwner (.apply proposal.cartId)) (applyProposal proposal sessionId)
      before trace last after) : updatedCarts (published trace) <+: appliedCarts trace := by
  rcases applyProposal_published hrest h with hnothing | ⟨persisted, hsettled, hsent⟩
  · rw [hnothing]
    exact List.nil_prefix
  · rw [hsettled.appliedCarts, ← updatedCarts_outcome]
    exact hsent.filterMap updated?

theorem attempt_progress (hrest : AtRest anyOwner proposal.cartId before)
    (h : Executes (laneHandle anyOwner (.apply proposal.cartId)) (applyProposal proposal sessionId)
      before trace last after) :
    Progress (before.carts proposal.cartId) (after.carts proposal.cartId) trace := by
  have hattempt : Attempt anyOwner before proposal after trace :=
    ((applyProposal_holds hrest.2 hrest.1 trivial).executes h).now
  have hbroadcast := attempt_broadcast hrest h
  cases hattempt with
  | untouched hnone =>
      have happlied := appliedCarts_of_landed hnone.landed
      rw [happlied] at hbroadcast
      exact .level happlied (List.prefix_nil.mp hbroadcast) (by rw [hnone.view])
  | rejected hrejected =>
      have happlied := appliedCarts_of_landed hrejected.landed
      rw [happlied] at hbroadcast
      exact .level happlied (List.prefix_nil.mp hbroadcast) (by rw [hrejected.carts])
  | committed cart hcommitted =>
      have happlied := appliedCarts_of_landed hcommitted.landed
      rw [happlied] at hbroadcast
      obtain ⟨hstored, hversion⟩ := hcommitted.carts hrest.1
      exact .raised cart happlied hstored hversion hbroadcast

theorem creation_applied {e : ClientConnected} (h : Creation anyOwner before e after trace) :
    appliedCarts trace = [] := by
  cases h with
  | untouched h => exact appliedCarts_of_landed h.landed
  | created now cart _ _ _ hlanded => exact appliedCarts_of_landed hlanded

theorem creation_version {e : ClientConnected} (h : Creation anyOwner before e after trace) :
    storedVersion (after.carts e.cartId) = storedVersion (before.carts e.cartId) := by
  cases h with
  | untouched h => rw [h.view]
  | created now cart hnone hcart hview _ =>
      rw [hview, restrict_carts, commit_stored (hcart ▸ rfl), hnone, hcart]
      rfl

theorem confirmation_applied (h : Confirmation anyOwner before cartId after trace) :
    appliedCarts trace = [] := by
  cases h with
  | untouched h => exact appliedCarts_of_landed h.landed
  | handedOver cart h hlanded => exact appliedCarts_of_landed hlanded
  | confirmed cart posOrderId now between h hview hlanded => exact appliedCarts_of_landed hlanded

theorem confirmation_version (hkeyed : before.Keyed cartId)
    (h : Confirmation anyOwner before cartId after trace) :
    storedVersion (after.carts cartId) = storedVersion (before.carts cartId) := by
  cases h with
  | untouched h => rw [h.view]
  | handedOver cart h _ =>
      rw [h.view, restrict_carts]
      rfl
  | confirmed cart posOrderId now between h hview _ =>
      have hcart : (cart.confirmed posOrderId now).cartId = cartId := hkeyed cart h.stored
      rw [hview, restrict_carts, setCart_stored hcart, h.stored]
      rfl

theorem ensureCart_silent (e : ClientConnected) : Silent (ensureCart e) := by
  refine .bind (.call _) fun found => ?_
  split
  · exact .pure _
  · exact .bind (.call _) fun now => .call _

theorem confirm_silent (cartId : CartId) : Silent (confirm cartId) := by
  refine .bind (.call _) fun found => ?_
  split
  · exact trivial
  · split
    · exact .pure _
    · exact .bind (.call _) fun _ => .bind (.call _) fun _ => .bind (.call _) fun _ => .pure _

theorem confirmJob_silent (cartId : CartId) : Silent (Job.program ttsLanguage (.confirm cartId)) :=
  .bind (confirm_silent cartId) fun _ => .pure _

/-- One lemma for every job of the lane. -/
theorem job_progress (hfits : fits anyOwner (.apply cartId) job) (hrest : AtRest anyOwner cartId before)
    (h : Executes (laneHandle anyOwner (.apply cartId)) (job.program ttsLanguage) before trace last
      after) : Progress (before.carts cartId) (after.carts cartId) trace := by
  have heffect := job_effect hfits hrest h
  obtain ⟨hlane, -⟩ := hfits
  cases job with
  | ensureCart e =>
      cases hlane
      have hsilent : published trace = [] := (ensureCart_silent e).executes h
      exact .level (creation_applied heffect) (by rw [hsilent]; rfl) (creation_version heffect)
  | applyProposal proposal sessionId =>
      cases hlane
      exact attempt_progress hrest h
  | confirm asked =>
      cases hlane
      have hsilent : published trace = [] := (confirmJob_silent cartId).executes h
      exact .level (confirmation_applied heffect) (by rw [hsilent]; rfl)
        (confirmation_version hrest.1 heffect)
  | turn e => cases hlane

/-- A job that has ended has broadcast what it has applied. -/
theorem job_broadcast (hfits : fits anyOwner (.apply cartId) job) (hrest : AtRest anyOwner cartId before)
    (h : Executes (laneHandle anyOwner (.apply cartId)) (job.program ttsLanguage) before trace last
      after) (hresult : last.result? = some result) :
    updatedCarts (published trace) = appliedCarts trace := by
  have heffect := job_effect hfits hrest h
  cases job with
  | ensureCart e =>
      have hsilent : published trace = [] := (ensureCart_silent e).executes h
      rw [hsilent, creation_applied heffect]
      rfl
  | applyProposal proposal sessionId =>
      cases (attempt_ended hfits hrest h hresult).2 with
      | failed hnone _ hpublished =>
          rw [hpublished, appliedCarts_of_landed hnone.landed]
          rfl
      | duplicate hnone _ hpublished _ =>
          rw [hpublished, appliedCarts_of_landed hnone.landed]
          rfl
      | settled persisted hsettled hpublished =>
          obtain ⟨hlane, -⟩ := hfits
          cases hlane
          rw [hpublished, updatedCarts_outcome, hsettled.appliedCarts]
  | confirm asked =>
      obtain ⟨hlane, -⟩ := hfits
      cases hlane
      have hsilent : published trace = [] := (confirmJob_silent cartId).executes h
      rw [hsilent, confirmation_applied heffect]
      rfl
  | turn e => cases hfits.1

end

/-! ## What a turn publishes -/

section

variable {σ : Type} {view after : σ} {trace : Trace} {last : Promise Unit} {ttsLanguage : LangCode}
  {handler : Handler Answer AppError σ}

theorem classify_silent (text : String) (history : List HistoryTurn) :
    Silent (classify text history) := by
  unfold classify
  split
  · exact .pure _
  · refine .bind (.attempt (.call _)) fun label => ?_
    split
    · exact .pure _
    · exact .pure _

theorem start_silent (e : SttFinalTranscriptReceived) : Silent (OrderGraph.start e) := by
  refine .bind (.call _) fun history => .bind (classify_silent _ _) fun intent => ?_
  split
  · exact .pure _
  · refine .bind (cartOrEmpty_silent _ _) fun cart => .bind (.bind (.call _) fun items => .pure _)
      fun view => ?_
    exact .bind (.call _) fun outcome => .bind (.call _) fun _ => .pure _

theorem runTurn_silent (e : SttFinalTranscriptReceived) : Silent (runTurn e) := by
  refine .bind (.attempt (start_silent e)) fun result => ?_
  split
  · exact .pure _
  · exact .pure _
  · exact .pure _

theorem updatedCarts_dispatch (e : SttFinalTranscriptReceived) (result : GraphTurnResult) :
    updatedCarts (dispatch ttsLanguage e result) = [] := by
  cases result with
  | junk | fail | reply => rfl
  | complete operations baseVersion spoken => cases spoken <;> rfl

/-- A turn publishes what its result dispatches, as far as it has come. -/
theorem turn_published {e : SttFinalTranscriptReceived}
    (h : Executes handler (handleFinalTranscript ttsLanguage e) view trace last after) :
    ∃ result, published trace <+: dispatch ttsLanguage e result := by
  rcases h.bind with ⟨rest, rfl, hran⟩ | ⟨result, middle, first, second, rfl, hran, hlast⟩
  · have hsilent : published trace = [] := (runTurn_silent e).executes hran
    exact ⟨.junk, by rw [hsilent]; exact List.nil_prefix⟩
  · have hsilent : published first = [] := (runTurn_silent e).completes hran
    obtain ⟨sent, hsent, rfl, -⟩ := publish_executes hlast
    exact ⟨result, by rwa [published_append, hsilent, published_emit]⟩

/-- A turn broadcasts no cart. -/
theorem turn_broadcast {e : SttFinalTranscriptReceived}
    (h : Executes handler (handleFinalTranscript ttsLanguage e) view trace last after) :
    updatedCarts (published trace) = [] := by
  obtain ⟨result, hpublished⟩ := turn_published h
  have hupdated := hpublished.filterMap updated?
  rw [show (dispatch ttsLanguage e result).filterMap updated? = [] from
    updatedCarts_dispatch e result] at hupdated
  exact List.prefix_nil.mp hupdated

end

/-! ## The lane of a cart -/

/-- The carts that were stored for proposals carry consecutive versions, and the stored cart has
the last of them. -/
structure Versions (start stored : Option Cart) (trace : Trace) : Prop where
  consecutive : (appliedCarts trace).map Cart.version =
    List.range' (storedVersion start + 1) (appliedCarts trace).length
  stored : storedVersion stored = storedVersion start + (appliedCarts trace).length

/-- What has been broadcast so far carries consecutive versions as well. -/
theorem Versions.broadcast {start stored : Option Cart} {trace : Trace} {sent rest : List Cart}
    (h : Versions start stored trace) (happlied : appliedCarts trace = sent ++ rest) :
    sent.map Cart.version = List.range' (storedVersion start + 1) sent.length := by
  have hall := h.consecutive
  rw [happlied, List.map_append, List.length_append, ← List.range'_append_1] at hall
  exact (List.append_inj hall (by simp)).1

theorem Versions.extend {start before after : Option Cart} {trace later : Trace}
    (h : Versions start before trace) (hprogress : Progress before after later) :
    Versions start after (trace ++ later) := by
  cases hprogress with
  | level happlied _ hversion =>
      refine ⟨?_, ?_⟩
      · rw [appliedCarts_append, happlied, List.append_nil]
        exact h.consecutive
      · rw [appliedCarts_append, happlied, List.append_nil, hversion]
        exact h.stored
  | raised cart happlied hstored hversion _ =>
      have hnext : cart.version = storedVersion start + 1 + (appliedCarts trace).length := by
        rw [hversion, h.stored]
        omega
      refine ⟨?_, ?_⟩
      · rw [appliedCarts_append, happlied, List.map_append, List.length_append, h.consecutive,
          List.length_singleton, List.range'_1_concat, List.map_singleton, hnext]
      · rw [appliedCarts_append, happlied, List.length_append, hstored]
        simp only [storedVersion, Option.map_some, Option.getD_some, List.length_singleton]
        rw [hnext]
        simp only [storedVersion]
        omega

/-- Lanes of the backend whose jobs count the versions of their carts, as long as their entries
are fine. -/
structure Counts (ttsLanguage : LangCode) (design : Design Answer Event AppError LaneKey Job Store)
    (iso : Isolation Answer Event AppError LaneKey Job Store Store) (fine : Step → Prop) : Prop where
  program : design.program = Job.program ttsLanguage
  view : ∀ cartId store, iso.view (.apply cartId) store = store.restrict anyOwner cartId
  fits : ∀ lane job, iso.fits lane job → fits anyOwner lane job
  emitted : ∀ event, fine (.emitted event)
  progress : ∀ {cartId job before trace last after}, iso.fits (.apply cartId) job →
    iso.rest (.apply cartId) before →
    Executes (iso.handle (.apply cartId)) (job.program ttsLanguage) before trace last after →
    (∀ entry ∈ trace, fine entry) →
    Progress (before.carts cartId) (after.carts cartId) trace ∧ after.Keyed cartId ∧
      ∀ result, last.result? = some result → updatedCarts (published trace) = appliedCarts trace

section

variable {ttsLanguage : LangCode} {design : Design Answer Event AppError LaneKey Job Store}
  {iso : Isolation Answer Event AppError LaneKey Job Store Store} {fine : Step → Prop}
  {cartId : CartId} {start view store : Store}
  {history : List (Finished Answer Event AppError Job Store)}
  {content : Lane Answer Event AppError Job Store}

theorem Counts.chain (hcounts : Counts ttsLanguage design iso fine)
    (h : Chain design iso (.apply cartId) start history view)
    (hfine : ∀ entry ∈ history.flatMap Finished.entries, fine entry) :
    Versions (start.carts cartId) (view.carts cartId) (history.flatMap Finished.entries) ∧
      updatedCarts (published (history.flatMap Finished.entries)) =
        appliedCarts (history.flatMap Finished.entries) := by
  induction h with
  | nil => exact ⟨⟨rfl, rfl⟩, rfl⟩
  | @snoc history view job last next hchain hfits hbefore hrest hexec hresult hafter ih =>
      rw [List.flatMap_append, List.flatMap_singleton] at hfine ⊢
      obtain ⟨hversions, hbroadcast⟩ := ih fun entry hmem => hfine entry (List.mem_append_left _ hmem)
      rw [hcounts.program] at hexec
      obtain ⟨hprogress, -, hended⟩ := hcounts.progress hfits hrest hexec fun entry hmem =>
        hfine entry (List.mem_append_right _ hmem)
      refine ⟨hversions.extend hprogress, ?_⟩
      rw [published_append, updatedCarts_append, appliedCarts_append, hbroadcast, hended _ hresult]

/-- The lane has broadcast what it has applied, but for a cart that is stored and about to be
broadcast. -/
theorem Counts.serial (hcounts : Counts ttsLanguage design iso fine)
    (h : Serial design iso (.apply cartId) start store content)
    (hfine : ∀ entry ∈ content.entries, fine entry) :
    Versions (start.carts cartId) (store.carts cartId) content.entries ∧
      (appliedCarts content.entries = updatedCarts content.published ∨
        content.running.isSome ∧ ∃ cart, store.carts cartId = some cart ∧
          appliedCarts content.entries = updatedCarts content.published ++ [cart]) := by
  have hview : (iso.view (.apply cartId) store).carts cartId = store.carts cartId := by
    rw [hcounts.view, restrict_carts]
  cases hrunning : content.running with
  | none =>
      have hentries : content.entries = content.history.flatMap Finished.entries := by
        simp [Lane.entries, hrunning]
      rw [hentries] at hfine
      obtain ⟨hversions, hbroadcast⟩ := hcounts.chain (h.idle hrunning).1 hfine
      rw [hview] at hversions
      exact ⟨hentries ▸ hversions, .inl (by rw [Lane.published, hentries]; exact hbroadcast.symm)⟩
  | some running =>
      have hentries : content.entries =
          content.history.flatMap Finished.entries ++ running.entries := by
        simp [Lane.entries, hrunning]
      rw [hentries] at hfine
      obtain ⟨hfits, hchain, hrest, hexec⟩ := h.busy running hrunning
      obtain ⟨hversions, hbroadcast⟩ := hcounts.chain hchain fun entry hmem =>
        hfine entry (List.mem_append_left _ hmem)
      rw [hcounts.program] at hexec
      obtain ⟨hprogress, -⟩ := hcounts.progress hfits hrest hexec fun entry hmem =>
        hfine entry (List.mem_append_right _ hmem)
      have hpublished : updatedCarts content.published =
          appliedCarts (content.history.flatMap Finished.entries) ++
            updatedCarts (published running.entries) := by
        rw [← hbroadcast, Lane.published, hentries]
        exact (congrArg updatedCarts (published_append _ _)).trans (updatedCarts_append _ _)
      rw [hview] at hprogress
      refine ⟨hentries ▸ hversions.extend hprogress, ?_⟩
      rw [hpublished, hentries, appliedCarts_append]
      cases hprogress with
      | level happlied hupdated _ => exact .inl (by rw [happlied, hupdated])
      | raised cart happlied hstored _ hupdated =>
          rw [happlied]
          rcases List.prefix_cons_iff.mp hupdated with hnone | ⟨rest, hsome, hrest⟩
          · exact .inr ⟨rfl, cart, hstored, by rw [hnone, List.append_nil]⟩
          · exact .inl (by rw [hsome, List.prefix_nil.mp hrest])

/-! ## The moment of a broadcast -/

variable {initial : Store} {process : Process} {action : Action}

/-- A cart is broadcast by its own lane, as it is stored at that moment. -/
theorem Counts.broadcast_stored (hcounts : Counts ttsLanguage design iso fine)
    (h : AllSerial design iso initial process)
    (hfine : ∀ lane, ∀ entry ∈ (process.lanes lane).entries, fine entry)
    {lane : LaneKey} {cart : Cart} {requestId : RequestId}
    (hemitted : process.emitted? action = some (lane, .cartUpdated cart requestId)) :
    lane = .apply cart.cartId ∧ process.state.carts cart.cartId = some cart := by
  obtain ⟨running, rest, hrunning, hfits, hrest, hmore⟩ := Machine.emitting (h lane) hemitted
  have hupdated : updatedCarts (published (running.entries ++ [.emitted (.cartUpdated cart requestId)])) =
      updatedCarts (published running.entries) ++ [cart] := by
    rw [published_append, updatedCarts_append]
    rfl
  have hentries : ∀ entry ∈ running.entries ++ [.emitted (.cartUpdated cart requestId)],
      fine entry := by
    intro entry hmem
    rcases List.mem_append.mp hmem with hearlier | hlast
    · refine hfine lane entry ?_
      rw [Lane.entries, hrunning]
      exact List.mem_append_right _ hearlier
    · rw [List.mem_singleton.mp hlast]
      exact hcounts.emitted _
  rw [hcounts.program] at hmore
  cases lane with
  | turns cartId =>
      obtain ⟨hlane, -⟩ := hcounts.fits _ _ hfits
      cases hjob : running.job with
      | turn e =>
          rw [hjob] at hmore
          have hnone := turn_broadcast hmore
          rw [hupdated] at hnone
          exact (List.append_ne_nil_of_right_ne_nil _ (List.cons_ne_nil _ _) hnone).elim
      | _ => cases hjob ▸ hlane
  | apply cartId =>
      obtain ⟨hprogress, hkeyed, -⟩ := hcounts.progress hfits hrest hmore hentries
      cases hprogress with
      | level _ hnone _ =>
          rw [hupdated] at hnone
          exact (List.append_ne_nil_of_right_ne_nil _ (List.cons_ne_nil _ _) hnone).elim
      | raised other _ hstored _ hunder =>
          rw [hupdated] at hunder
          have hsame : cart = other := by
            have hmem : cart ∈ [other] := hunder.subset (List.mem_append_right _ List.mem_cons_self)
            exact List.mem_singleton.mp hmem
          subst hsame
          have hcart : cart.cartId = cartId := hkeyed cart hstored
          subst hcart
          rw [hcounts.view, restrict_carts] at hstored
          exact ⟨rfl, hstored⟩

/-- The broadcasts of a cart are those of its lane. -/
theorem broadcasts_eq {events : List (LaneKey × Event)}
    (h : ∀ entry ∈ events, ∀ cart, updated? entry.2 = some cart → entry.1 = .apply cart.cartId) :
    broadcasts cartId events = updatedCarts (Machine.fromLane (.apply cartId) events) := by
  induction events with
  | nil => rfl
  | cons entry events ih =>
      have hrest := ih fun other hmem => h other (List.mem_cons_of_mem _ hmem)
      have hfirst := h entry List.mem_cons_self
      unfold broadcasts updatedCarts Machine.fromLane at hrest ⊢
      cases hupdated : updated? entry.2 with
      | none =>
          rw [List.map_cons, List.filterMap_cons_none hupdated, hrest]
          by_cases hlane : entry.1 = .apply cartId
          · simp [hlane, hupdated]
          · simp [hlane]
      | some cart =>
          have hlane := hfirst cart hupdated
          rw [List.map_cons, List.filterMap_cons_some hupdated, List.filter_cons, hrest]
          by_cases hcart : cart.cartId = cartId
          · simp [hlane, hcart, hupdated]
          · simp [hlane, hcart]

/-- What a run broadcasts comes from the lanes of the carts. -/
theorem Counts.emissions_own (hcounts : Counts ttsLanguage design iso fine)
    {meets : Process → Action → Prop} {actions : List Action} {Inv : Process → Prop}
    (h : Run (Machine.step design) meets (.create initial) actions process)
    (hinit : Inv (.create initial))
    (hkeep : ∀ process action next, Inv process → meets process action →
      process.step design action = some next → Inv next)
    (hinv : ∀ process, Inv process → AllSerial design iso initial process ∧
      ∀ lane, ∀ entry ∈ (process.lanes lane).entries, fine entry) :
    ∀ entry ∈ Machine.emissions design (.create initial) actions, ∀ cart,
      updated? entry.2 = some cart → entry.1 = .apply cart.cartId := by
  refine Machine.run_emissions h hinit fun process action next hnow hmeets hstep => ?_
  refine ⟨hkeep _ _ _ hnow hmeets hstep, fun entry hemitted cart hupdated => ?_⟩
  obtain ⟨hserial, hfine⟩ := hinv process hnow
  obtain ⟨lane, event⟩ := entry
  cases event with
  | cartUpdated other requestId =>
      cases hupdated
      exact (hcounts.broadcast_stored hserial hfine hemitted).1
  | _ => cases hupdated

end

/-! ## The backend -/

section

variable {ttsLanguage : LangCode} {cartId : CartId} {before view initial : Store} {trace : Trace}
  {job : Job} {process next : Process} {action : Action}

theorem effect_atRest (hfits : fits anyOwner (.apply cartId) job) (hrest : AtRest anyOwner cartId before)
    (h : Effect anyOwner before job view trace) : AtRest anyOwner cartId view := by
  obtain ⟨hlane, -⟩ := hfits
  cases job with
  | ensureCart e =>
      cases hlane
      exact creation_atRest hrest h
  | applyProposal proposal sessionId =>
      cases hlane
      exact attempt_atRest hrest h
  | confirm asked =>
      cases hlane
      exact confirmation_atRest hrest h
  | turn e => cases hlane

theorem backend_counts :
    Counts ttsLanguage (backend ttsLanguage) (lanes anyOwner) fun _ => True where
  program := rfl
  view := fun _ _ => rfl
  fits := fun _ _ hfits => hfits
  emitted := fun _ => trivial
  progress := fun hfits hrest hexec _ => ⟨job_progress hfits hrest hexec,
    (effect_atRest hfits hrest (job_effect hfits hrest hexec)).1,
    fun _ hresult => job_broadcast hfits hrest hexec hresult⟩

theorem emissions_own {actions : List Action} (hkeyed : ∀ cartId, initial.Keyed cartId)
    (h : Run (Machine.step (backend ttsLanguage)) (submitsFit (lanes anyOwner)) (.create initial)
      actions process) :
    ∀ entry ∈ Machine.emissions (backend ttsLanguage) (.create initial) actions, ∀ cart,
      updated? entry.2 = some cart → entry.1 = .apply cart.cartId :=
  backend_counts.emissions_own h (create_serial (lanes_rest hkeyed))
    (fun _ _ _ hserial hsubmits hstep => hserial.step backend_isolated hsubmits hstep)
    fun _ hserial => ⟨hserial, fun _ _ _ => trivial⟩

/-! ## One step -/

theorem order_version {order later : Order} {write : Call} (h : Order.Step cartId order write later) :
    storedVersion later.cart = storedVersion order.cart + if (applied? write).isSome then 1 else 0 := by
  cases h with
  | created e now cart hnone hcart =>
      rw [hnone, hcart]
      rfl
  | applied base cart requestId hbase _ hheader =>
      have hversion : cart.version = base.version + 1 := congrArg Header.version hheader
      rcases hbase with hbase | ⟨hnone, pos, now, rfl⟩
      · simp [hbase, storedVersion, applied?, hversion]
      · simp [hnone, storedVersion, applied?, hversion, emptyCart]
  | marked requestId outcome => rfl
  | handedOver cart hcart _ => rfl
  | confirmed cart posOrderId now hcart _ =>
      rw [hcart]
      rfl

/-- The proposals that are applied are the writes of a cart's order that raise its version. -/
theorem appliedTo?_landed (cartId : CartId) (action : Action) :
    appliedTo? action = some cartId ↔
      ∃ write, landedBy (fun _ => false) cartId action = some write ∧ (applied? write).isSome := by
  constructor
  · intro h
    unfold appliedTo? at h
    split at h
    · cases h
      exact ⟨_, landedBy_iff.mpr ⟨rfl, _, _, rfl, rfl⟩, rfl⟩
    · cases h
  · rintro ⟨write, hlanded, happlied⟩
    obtain ⟨-, reply, answer, rfl, hanswer⟩ := landedBy_iff.mp hlanded
    rw [atStore_never] at hanswer
    subst hanswer
    cases write with
    | commitApplied cart requestId => rfl
    | _ => cases happlied

theorem step_version (h : AllSerial (backend ttsLanguage) (lanes anyOwner) initial process)
    (hstep : process.step (backend ttsLanguage) action = some next) :
    storedVersion (next.state.carts cartId) = storedVersion (process.state.carts cartId) +
      if appliedTo? action = some cartId then 1 else 0 := by
  rcases backend_order_step h hstep cartId with ⟨hidle, hsame⟩ | ⟨write, hwrite, horder⟩
  · have hnone : appliedTo? action ≠ some cartId := fun happlied => by
      obtain ⟨write, hwrite, -⟩ := (appliedTo?_landed cartId action).mp happlied
      rw [hidle] at hwrite
      cases hwrite
    have hcart : next.state.carts cartId = process.state.carts cartId := congrArg Order.cart hsame
    rw [if_neg hnone, hcart, Nat.add_zero]
  · have hversion := order_version horder
    have happlied : appliedTo? action = some cartId ↔ (applied? write).isSome := by
      rw [appliedTo?_landed, hwrite]
      simp
    simp only [happlied]
    exact hversion

end

end VoiceOrder.CartModule
