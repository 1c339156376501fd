import VoiceOrder.Async.Completion
import VoiceOrder.CartModule.Idempotency
import VoiceOrder.CartModule.OrderRefinement

/-! # Every operation of a proposal is accounted for

An operation of an attempt is in the fold whose result is persisted, or it is reported to the
customer; a rejected one leaves nothing behind in the fold. -/

namespace VoiceOrder.CartModule

open Async Runs VoiceOrder.Backend

/-! ## The fold and its verdicts -/

/-- An operation of a proposal, the answers it got from the menu and the runtime, and why it
was rejected, if it was. -/
structure Verdict where
  operation : CartOperation
  answers : Trace
  error : Option CartRejectedError

def accepted (verdicts : List Verdict) : List Verdict :=
  verdicts.filter fun verdict => verdict.error.isNone

def rejected (verdicts : List Verdict) : List Rejection :=
  verdicts.filterMap fun verdict => verdict.error.map fun error => (verdict.operation, error)

/-- The fold of `applyOperation` over operations that are all applied. -/
inductive FoldsTo (pos : PosConfigId) : Cart → List Verdict → Cart → Prop where
  | nil (cart) : FoldsTo pos cart [] cart
  | cons {cart edited folded verdict verdicts} :
      Returns (applyOperation runtime menuService cart verdict.operation pos) verdict.answers
        (.ok edited) →
      FoldsTo pos edited verdicts folded → FoldsTo pos cart (verdict :: verdicts) folded

/-- Each verdict is the one of `applyOperation` on the cart that the operations before it have
left. -/
inductive Judged (pos : PosConfigId) : Cart → List Verdict → Cart → Prop where
  | nil (cart) : Judged pos cart [] cart
  | accept {cart edited folded op answers verdicts} :
      Returns (applyOperation runtime menuService cart op pos) answers (.ok edited) →
      Judged pos edited verdicts folded → Judged pos cart (⟨op, answers, none⟩ :: verdicts) folded
  | reject {cart folded op answers error verdicts} :
      Returns (applyOperation runtime menuService cart op pos) answers (.error error) →
      Judged pos cart verdicts folded →
      Judged pos cart (⟨op, answers, some error⟩ :: verdicts) folded

/-- Without the rejected operations the fold is the same. -/
theorem Judged.foldsTo {pos : PosConfigId} {cart folded : Cart} {verdicts : List Verdict}
    (h : Judged pos cart verdicts folded) : FoldsTo pos cart (accepted verdicts) folded := by
  induction h with
  | nil cart => exact .nil cart
  | accept hreturns _ ih => exact .cons hreturns ih
  | reject _ _ ih => exact ih

/-- The line without its price, which the quote may overwrite. -/
def CartLine.unpriced (line : CartLine) : CartLine := { line with priceCents := 0 }

def Cart.unpricedItems (cart : Cart) : List CartLine := cart.items.map CartLine.unpriced

/-- The cart that is sent to be quoted, if the step asks for a quote. -/
def quoted? : Step → Option Cart
  | .called (.quoteCart cart) _ => some cart
  | _ => none

def quotes (trace : Trace) : List Cart := trace.filterMap quoted?

/-- The ledger has answered that the request was processed before. -/
def isDuplicate (trace : Trace) : Bool :=
  trace.any fun
    | .called (.wasProcessed _) (.ok true) => true
    | _ => false

@[simp] theorem quotes_append (trace later : Trace) :
    quotes (trace ++ later) = quotes trace ++ quotes later := by simp [quotes]

/-! ## An attempt, part by part -/

section

variable {σ : Type} {handler : Handler Answer AppError σ} {state final : σ} {trace : Trace}
  {proposal : OrderProposal} {pos : PosConfigId}

theorem quotes_lookups (h : Fetched Call.Lookup trace) : quotes trace = [] := by
  refine List.filterMap_eq_nil_iff.mpr fun step hmem => ?_
  obtain ⟨call, answer, hlookup, rfl⟩ := h step hmem
  cases call with
  | quoteCart cart => exact hlookup.elim
  | _ => rfl

theorem quotes_emit (events : List Event) : quotes (events.map .emitted) = [] := by
  induction events with
  | nil => rfl
  | cons event events ih => exact ih

theorem applyOperations_judged {ops : List CartOperation} {start folded : Folded}
    (h : Completes handler (applyOperations pos ops start) state trace (.ok folded) final) :
    ∃ verdicts : List Verdict, verdicts.map Verdict.operation = ops ∧
      trace = verdicts.flatMap Verdict.answers ∧ Judged pos start.cart verdicts folded.cart ∧
      folded.applied = start.applied + (accepted verdicts).length ∧
      folded.rejected = start.rejected ++ rejected verdicts := by
  induction ops generalizing start state trace with
  | nil =>
      obtain ⟨rfl, hresult, -⟩ := Completes.pure h
      cases hresult
      exact ⟨[], rfl, rfl, .nil _, rfl, (List.append_nil _).symm⟩
  | cons op ops ih =>
      obtain ⟨result, middle, answers, later, rfl, happlied, hrest⟩ := Completes.bind_ok h
      cases result with
      | ok edited =>
          obtain ⟨verdicts, hops, rfl, hjudged, hcount, hrejected⟩ := ih hrest
          refine ⟨⟨op, answers, none⟩ :: verdicts, congrArg (op :: ·) hops, rfl,
            .accept happlied.returns hjudged, ?_, hrejected⟩
          rw [hcount]
          simp [accepted]
          omega
      | error error =>
          obtain ⟨verdicts, hops, rfl, hjudged, hcount, hrejected⟩ := ih hrest
          refine ⟨⟨op, answers, some error⟩ :: verdicts, congrArg (op :: ·) hops, rfl,
            .reject happlied.returns hjudged, hcount, ?_⟩
          rw [hrejected]
          simp [rejected]

/-- The quote is asked for once, and changes no more of a line than its price. -/
theorem requoted_completes {cart quoted : Cart}
    (h : Completes handler (requoted cart) state trace (.ok quoted) final) :
    quotes trace = [cart] ∧ quoted.unpricedItems = cart.unpricedItems := by
  obtain ⟨reply, middle, asked, later, rfl, hasked, hrest⟩ := Completes.bind_ok h
  obtain ⟨inner, hinner, hasked⟩ := hasked.attempt
  obtain ⟨rfl, -⟩ := hasked.call
  cases hinner
  cases reply with
  | error error =>
      obtain ⟨rfl, hresult, -⟩ := Completes.pure hrest
      cases hresult
      exact ⟨rfl, rfl⟩
  | ok quote =>
      dsimp only at hrest
      cases hquote : applyQuoteToCart cart quote with
      | error message =>
          rw [hquote] at hrest
          obtain ⟨rfl, hresult, -⟩ := Completes.pure hrest
          cases hresult
          exact ⟨rfl, rfl⟩
      | ok priced =>
          rw [hquote] at hrest
          obtain ⟨rfl, hresult, -⟩ := Completes.pure hrest
          cases hresult
          refine ⟨rfl, ?_⟩
          simp only [applyQuoteToCart] at hquote
          split at hquote
          · cases hquote
          · cases hquote
            simp only [Cart.unpricedItems, List.map_map]
            refine List.map_congr_left fun line _ => ?_
            simp only [Function.comp_apply]
            split <;> rfl

theorem publish_completes {events : List Event} {result : Except AppError Unit}
    (h : Completes handler (publish events) state trace result final) :
    trace = events.map .emitted ∧ final = state := by
  induction events generalizing state trace with
  | nil =>
      obtain ⟨rfl, -, rfl⟩ := Completes.pure h
      exact ⟨rfl, rfl⟩
  | cons event events ih =>
      rcases Completes.bind h with ⟨_, middle, sent, later, rfl, hsent, hrest⟩ | ⟨error, -, hsent⟩
      · obtain ⟨rfl, -, rfl⟩ := hsent.send
        obtain ⟨rfl, rfl⟩ := ih hrest
        exact ⟨rfl, rfl⟩
      · cases hsent.send.2.1

end

/-! ## What is persisted -/

/-- What an attempt persists is what its verdicts say. -/
inductive Accounts (proposal : OrderProposal) (base : Cart) (verdicts : List Verdict) (trace : Trace) :
    Persisted → Prop where
  | confirmed (hconfirmed : base.confirmedAt.isSome)
      (hverdicts : verdicts = proposal.operations.map fun op => ⟨op, [], some cartConfirmed⟩)
      (hquotes : quotes trace = []) :
      Accounts proposal base verdicts trace ⟨none, rejected verdicts⟩
  | refused (hopen : base.confirmedAt = none) (folded : Cart)
      (hjudged : Judged proposal.posConfigId base verdicts folded) (hnone : accepted verdicts = [])
      (hquotes : quotes trace = []) :
      Accounts proposal base verdicts trace ⟨none, rejected verdicts⟩
  | applied (hopen : base.confirmedAt = none) (folded cart : Cart)
      (hjudged : Judged proposal.posConfigId base verdicts folded) (hsome : accepted verdicts ≠ [])
      (hitems : cart.unpricedItems = folded.unpricedItems)
      (hquotes : quotes trace = [{ folded with version := folded.version + 1 }]) :
      Accounts proposal base verdicts trace ⟨some cart, rejected verdicts⟩

section

variable {cartId : CartId} {before after : Store} {trace : Trace} {proposal : OrderProposal}
  {persisted : Persisted}

theorem cartOrEmpty_completes {pos : PosConfigId}
    {base : Cart} (h : Completes (laneHandle anyOwner (.apply cartId)) (cartOrEmpty cartId pos) before
      trace (.ok base) after) :
    quotes trace = [] ∧ (before.carts cartId = some base ∨ before.carts cartId = none ∧
      ∃ now, base = emptyCart cartId pos none now) := by
  obtain ⟨found, middle, asked, later, rfl, hasked, hrest⟩ := Completes.bind_ok h
  obtain ⟨rfl, hmiddle⟩ := hasked.call
  have hfound : found = before.carts cartId := laneHandle_getCart hmiddle
  cases found with
  | some cart =>
      obtain ⟨rfl, hresult, -⟩ := Completes.pure hrest
      cases hresult
      exact ⟨rfl, .inl hfound.symm⟩
  | none =>
      obtain ⟨now, clock, ticked, last, rfl, hticked, hlast⟩ := Completes.bind_ok hrest
      obtain ⟨rfl, -⟩ := hticked.call
      obtain ⟨rfl, hresult, -⟩ := Completes.pure hlast
      cases hresult
      exact ⟨rfl, .inr ⟨hfound.symm, now, rfl⟩⟩

/-- A write and its result ask for no quote. -/
theorem write_completes {call : Call} {result outcome : Option Persisted}
    (h : Completes (laneHandle anyOwner (.apply cartId)) (do let _ ← ask call; pure result) before trace
      (.ok outcome) after) (hcall : ∀ cart, call ≠ .quoteCart cart) :
    quotes trace = [] ∧ outcome = result := by
  obtain ⟨answer, middle, asked, later, rfl, hasked, hrest⟩ := Completes.bind_ok h
  obtain ⟨rfl, -⟩ := hasked.call
  obtain ⟨rfl, hresult, -⟩ := Completes.pure hrest
  refine ⟨?_, Except.ok.inj hresult⟩
  cases call with
  | quoteCart cart => exact (hcall cart rfl).elim
  | _ => rfl

/-- A request that was processed before is left alone; any other one is accounted for. -/
theorem persistProposal_accounts (hlocal : before.Local anyOwner proposal.cartId)
    {outcome : Option Persisted}
    (h : Completes (laneHandle anyOwner (.apply proposal.cartId)) (persistProposal proposal) before
      trace (.ok outcome) after) :
    (outcome = none ∧ after = before ∧
      trace = [.called (.wasProcessed proposal.requestId) (.ok true)]) ∨
    ∃ base verdicts persisted, outcome = some persisted ∧ Base before proposal base ∧
      verdicts.map Verdict.operation = proposal.operations ∧
      verdicts.flatMap Verdict.answers <:+: trace ∧
      Accounts proposal base verdicts trace persisted := by
  obtain ⟨processed, middle, asked, later, rfl, hasked, hrest⟩ := Completes.bind_ok h
  obtain ⟨rfl, hmiddle⟩ := hasked.call
  have hsame : middle = before := laneHandle_reads hlocal rfl hmiddle
  subst hsame
  cases processed with
  | true =>
      obtain ⟨rfl, hresult, rfl⟩ := Completes.pure hrest
      exact .inl ⟨Except.ok.inj hresult, rfl, rfl⟩
  | false =>
      obtain ⟨base, based, read, later, rfl, hread, hrest⟩ := Completes.bind_ok hrest
      obtain ⟨hread, hbase⟩ := cartOrEmpty_completes hread
      cases hconfirmed : base.confirmedAt with
      | some confirmedAt =>
          simp only [hconfirmed, Option.isSome_some, if_true] at hrest
          obtain ⟨hmarked, hpersisted⟩ := write_completes hrest fun _ heq => (nomatch heq)
          refine .inr ⟨base, proposal.operations.map fun op => ⟨op, [], some cartConfirmed⟩, _,
            hpersisted, hbase, ?_, ?_, ?_⟩
          · simp [Function.comp_def]
          · rw [List.flatMap_map, List.flatMap_eq_nil_iff.mpr fun _ _ => rfl]
            exact List.nil_infix
          · have hrejected : proposal.operations.map (fun op => (op, cartConfirmed)) =
                rejected (proposal.operations.map fun op => ⟨op, [], some cartConfirmed⟩) := by
              simp [rejected, List.filterMap_map]
            rw [hrejected]
            refine .confirmed ?_ rfl ?_
            · rw [hconfirmed]
              rfl
            · rw [quotes_append, quotes_append, hread, hmarked]
              rfl
      | none =>
          simp only [hconfirmed, Option.isSome_none, Bool.false_eq_true, if_false] at hrest
          obtain ⟨folded, judged, looked, later, rfl, hlooked, hrest⟩ := Completes.bind_ok hrest
          obtain ⟨verdicts, hops, hanswers, hjudged, hcount, hrejected⟩ := applyOperations_judged hlooked
          have hlookups := quotes_lookups ((applyOperations_reads _ _ _).completes hlooked).1
          simp only [Nat.zero_add] at hcount
          rw [List.nil_append] at hrejected
          have hinfix : verdicts.flatMap Verdict.answers <:+:
              [.called (.wasProcessed proposal.requestId) (.ok false)] ++ (read ++ (looked ++ later)) :=
            ⟨[.called (.wasProcessed proposal.requestId) (.ok false)] ++ read, later, by
              rw [← hanswers]
              simp only [List.append_assoc]⟩
          split at hrest
          · rename_i hsome
            obtain ⟨quoted, priced, asked, last, rfl, hasked, hrest⟩ := Completes.bind_ok hrest
            obtain ⟨hquoted, hitems⟩ := requoted_completes hasked
            obtain ⟨hcommitted, hpersisted⟩ := write_completes hrest fun _ heq => (nomatch heq)
            refine .inr ⟨base, verdicts, _, hpersisted, hbase, hops, hinfix, ?_⟩
            rw [hrejected]
            refine .applied hconfirmed folded.cart quoted hjudged ?_ hitems ?_
            · intro hnone
              simp [hnone] at hcount
              omega
            · simp only [quotes_append, hread, hlookups, hquoted, hcommitted]
              rfl
          · rename_i hnone
            obtain ⟨hmarked, hpersisted⟩ := write_completes hrest fun _ heq => (nomatch heq)
            refine .inr ⟨base, verdicts, _, hpersisted, hbase, hops, hinfix, ?_⟩
            rw [hrejected]
            refine .refused hconfirmed folded.cart hjudged (List.eq_nil_of_length_eq_zero (by omega)) ?_
            simp only [quotes_append, hread, hlookups, hmarked]
            rfl

end

/-! ## Every operation of an attempt -/

/-- The items of a stored cart, up to their prices; one that is not stored has none. -/
def storedItems (stored : Option Cart) : List CartLine := (stored.map Cart.unpricedItems).getD []

def storedVersion (stored : Option Cart) : ℕ := (stored.map Cart.version).getD 0

/-- The verdicts account for every operation of a proposal: `before` and `after` are the stored
carts, `trace` is what the attempt has done. -/
structure Accounted (proposal : OrderProposal) (sessionId : Option SessionId)
    (before after : Option Cart) (trace : Trace) (verdicts : List Verdict) : Prop where
  /-- There is one verdict for each operation, in the order of the proposal. -/
  operations : verdicts.map Verdict.operation = proposal.operations
  answers : verdicts.flatMap Verdict.answers <:+: trace
  /-- What is persisted is the fold of the accepted operations alone. -/
  fold : (∀ cart ∈ before, cart.confirmedAt = none) → ∃ base folded,
    (before = some base ∨ before = none ∧
      ∃ now, base = emptyCart proposal.cartId proposal.posConfigId none now) ∧
    Judged proposal.posConfigId base verdicts folded ∧
    FoldsTo proposal.posConfigId base (accepted verdicts) folded ∧
    storedItems after = folded.unpricedItems
  confirmed : (∃ cart ∈ before, cart.confirmedAt.isSome) →
    (∀ verdict ∈ verdicts, verdict.error = some cartConfirmed) ∧ after = before
  /-- With an accepted operation the version rises by one, and the new cart is quoted once and
  published. -/
  applied : accepted verdicts ≠ [] → storedVersion after = storedVersion before + 1 ∧
    (quotes trace).length = 1 ∧ ∃ cart, after = some cart ∧ published trace =
      .cartUpdated cart proposal.requestId :: (rejected verdicts).map (rejection proposal sessionId)
  /-- Without one nothing is changed, quoted or published but the rejections. -/
  refused : accepted verdicts = [] → after = before ∧ quotes trace = [] ∧
    published trace = (rejected verdicts).map (rejection proposal sessionId)

section

variable {before after : Store} {trace : Trace} {proposal : OrderProposal}
  {sessionId : Option SessionId} {result : Except AppError Unit}

theorem Judged.refused {pos : PosConfigId} {cart folded : Cart} {verdicts : List Verdict}
    (h : Judged pos cart verdicts folded) (hnone : accepted verdicts = []) : folded = cart := by
  induction h with
  | nil cart => rfl
  | accept _ _ _ => cases hnone
  | reject _ _ ih => exact ih hnone

theorem Base.items {base : Cart} (h : Base before proposal base) :
    storedItems (before.carts proposal.cartId) = base.unpricedItems := by
  rcases h with hstored | ⟨hnone, now, rfl⟩
  · rw [hstored]
    rfl
  · rw [hnone]
    rfl

theorem Base.version {base : Cart} (h : Base before proposal base) :
    storedVersion (before.carts proposal.cartId) = base.version := by
  rcases h with hstored | ⟨hnone, now, rfl⟩
  · rw [hstored]
    rfl
  · rw [hnone]
    rfl

/-- The stored cart is confirmed where the cart of the attempt is. -/
theorem Base.confirmed_iff {base : Cart} (h : Base before proposal base) :
    (∃ cart ∈ before.carts proposal.cartId, cart.confirmedAt.isSome) ↔ base.confirmedAt.isSome := by
  rcases h with hstored | ⟨hnone, now, rfl⟩
  · simp [hstored]
  · simp [hnone, emptyCart]

theorem Rejected.carts (h : Rejected anyOwner before proposal after trace) :
    after.carts proposal.cartId = before.carts proposal.cartId := by
  rw [h.view, restrict_carts]
  rfl

theorem Committed.carts {cart : Cart} (h : Committed anyOwner before proposal cart after trace)
    (hkeyed : before.Keyed proposal.cartId) : after.carts proposal.cartId = some cart ∧
      cart.version = storedVersion (before.carts proposal.cartId) + 1 := by
  obtain ⟨base, hbase, -, hheader⟩ := h.base
  have hcart : cart.cartId = proposal.cartId :=
    (congrArg Header.cartId hheader).trans (hbase.cartId hkeyed)
  refine ⟨?_, ?_⟩
  · rw [h.view, restrict_carts]
    exact commit_stored hcart _
  · rw [hbase.version]
    exact congrArg Header.version hheader

theorem Base.unconfirmed {base : Cart} (h : Base before proposal base)
    (hopen : base.confirmedAt = none) :
    ¬∃ cart ∈ before.carts proposal.cartId, cart.confirmedAt.isSome := by
  rw [h.confirmed_iff, hopen]
  exact Bool.false_ne_true

/-- What an attempt persists and publishes accounts for its operations. -/
theorem Accounts.accounted {base : Cart} {verdicts : List Verdict} {persisted : Persisted}
    (h : Accounts proposal base verdicts trace persisted) (hbase : Base before proposal base)
    (hkeyed : before.Keyed proposal.cartId)
    (hoperations : verdicts.map Verdict.operation = proposal.operations)
    (hanswers : verdicts.flatMap Verdict.answers <:+: trace)
    (hsettled : Settled anyOwner before proposal persisted after trace)
    (hpublished : published trace = []) :
    Accounted proposal sessionId (before.carts proposal.cartId) (after.carts proposal.cartId)
      (trace ++ (outcomeEvents proposal sessionId persisted).map .emitted) verdicts := by
  have hinfix := hanswers.trans
    (List.prefix_append trace ((outcomeEvents proposal sessionId persisted).map .emitted)).isInfix
  have hreports : published (trace ++ (outcomeEvents proposal sessionId persisted).map .emitted) =
      outcomeEvents proposal sessionId persisted := by
    rw [published_append, published_emit, hpublished, List.nil_append]
  have hquotes : quotes (trace ++ (outcomeEvents proposal sessionId persisted).map .emitted) =
      quotes trace := by
    rw [quotes_append, quotes_emit, List.append_nil]
  cases h with
  | confirmed hconfirmed hverdicts hquoted =>
      have hsame := Rejected.carts hsettled
      have hnone : accepted verdicts = [] := by
        rw [hverdicts]
        simp [accepted]
      obtain ⟨cart, hcart, hlocked⟩ := hbase.confirmed_iff.mpr hconfirmed
      refine ⟨hoperations, hinfix, fun hopen => ?_, fun _ => ⟨?_, hsame⟩, fun hsome => ?_, fun _ => ?_⟩
      · simp [hopen cart hcart] at hlocked
      · rw [hverdicts]
        intro verdict hmem
        obtain ⟨op, -, rfl⟩ := List.mem_map.mp hmem
        rfl
      · exact (hsome hnone).elim
      · exact ⟨hsame, hquotes.trans hquoted, hreports⟩
  | refused hopen folded hjudged hnone hquoted =>
      have hsame := Rejected.carts hsettled
      refine ⟨hoperations, hinfix, fun _ => ⟨base, folded, hbase, hjudged, hjudged.foldsTo, ?_⟩,
        fun hconfirmed => (hbase.unconfirmed hopen hconfirmed).elim,
        fun hsome => (hsome hnone).elim, fun _ => ?_⟩
      · rw [hsame, hbase.items, hjudged.refused hnone]
      · exact ⟨hsame, hquotes.trans hquoted, hreports⟩
  | applied hopen folded cart hjudged hsome hitems hquoted =>
      obtain ⟨hstored, hversion⟩ := Committed.carts hsettled hkeyed
      refine ⟨hoperations, hinfix, fun _ => ⟨base, folded, hbase, hjudged, hjudged.foldsTo, ?_⟩,
        fun hconfirmed => (hbase.unconfirmed hopen hconfirmed).elim,
        fun _ => ⟨?_, ?_, cart, hstored, hreports⟩, fun hnone => (hsome hnone).elim⟩
      · rw [hstored]
        exact hitems
      · rw [hstored]
        exact hversion
      · rw [hquotes, hquoted]
        rfl

/-- An attempt that did not fail has accounted for its operations, unless its request was
processed before. -/
theorem applyProposal_accounted (hrest : AtRest anyOwner proposal.cartId before)
    (h : Completes (laneHandle anyOwner (.apply proposal.cartId)) (applyProposal proposal sessionId)
      before trace result after)
    (hfailures : failures trace = []) :
    (after = before ∧ trace = [.called (.wasProcessed proposal.requestId) (.ok true)]) ∨
    ∃ verdicts, Accounted proposal sessionId (before.carts proposal.cartId)
      (after.carts proposal.cartId) trace verdicts := by
  rcases Completes.bind h with ⟨inner, middle, first, second, rfl, htried, hlast⟩ | ⟨error, -, htried⟩
  · obtain ⟨outcome, hinner, hpersist⟩ := htried.attempt
    cases hinner
    have hpersists := (persistProposal_holds hrest.2 hrest.1 trivial).completes hpersist
    rw [List.nil_append] at hpersists
    rw [failures_append] at hfailures
    cases inner with
    | error error => exact (hpersists.2.failures (List.append_eq_nil_iff.mp hfailures).1).elim
    | ok outcome =>
        rcases persistProposal_accounts hrest.2 hpersist with ⟨rfl, rfl, rfl⟩ |
          ⟨base, verdicts, persisted, rfl, hbase, hops, hanswers, haccounts⟩
        · obtain ⟨rfl, -, rfl⟩ := Completes.pure hlast
          exact .inl ⟨rfl, rfl⟩
        · obtain ⟨rfl, rfl⟩ := publish_completes hlast
          obtain ⟨hsettled, hpublished⟩ := hpersists
          exact .inr ⟨verdicts, haccounts.accounted hbase hrest.1 hops hanswers hsettled hpublished⟩
  · obtain ⟨outcome, hthrown, -⟩ := htried.attempt
    cases hthrown

end

/-! ## Every attempt of a run -/

section

variable {ttsLanguage : LangCode} {initial : Store} {process : Process} {actions : List Action}

end

end VoiceOrder.CartModule
