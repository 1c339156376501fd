import VoiceOrder.Backend.Traces

/-! # What the jobs of the controller do

Each job is followed once, through every answer and failure of its calls, on the view of its
cart. What it has written at any moment, and what it has published in the end, are read off
the result. -/

namespace VoiceOrder.CartModule

open Async VoiceOrder.Backend

/-- What an edit of the items leaves as it is. -/
structure Header where
  cartId : CartId
  posConfigId : PosConfigId
  deviceId : Option DeviceId
  tableId : Option RestaurantTableId
  version : ℕ
  confirmedAt : Option String
  posOrderId : Option PosOrderId
  deriving DecidableEq, Repr

def Cart.header (cart : Cart) : Header where
  cartId := cart.cartId
  posConfigId := cart.posConfigId
  deviceId := cart.deviceId
  tableId := cart.tableId
  version := cart.version
  confirmedAt := cart.confirmedAt
  posOrderId := cart.posOrderId

theorem applyQuoteToCart_header {cart quoted : Cart} {quote : QuoteResponse}
    (h : applyQuoteToCart cart quote = .ok quoted) : quoted.header = cart.header := by
  simp only [applyQuoteToCart] at h
  split at h
  · cases h
  · cases h
    rfl

/-! ## The fold only looks things up -/

theorem priced_reads (cart : Cart) (items : List CartLine) (pos : PosConfigId) :
    Reads Call.Lookup (fun edited => edited.header = cart.header)
      (priced runtime menuService cart items pos) :=
  .bind (.call trivial) fun _ _ => .bind (.call trivial) fun _ _ => .pure rfl

theorem editModifiers_reads (cart : Cart) (pos : PosConfigId) (lineId : LineId)
    (modifierKey : String) (edit) :
    Reads Call.Lookup (fun result => ∀ edited, result = .ok edited → edited.header = cart.header)
      (editModifiers runtime menuService cart pos lineId modifierKey edit) := by
  rw [editModifiers]
  split
  · exact .pure fun _ h => (nomatch h)
  · refine .bind (.call trivial) fun found _ => ?_
    dsimp only
    split
    · exact .pure fun _ h => (nomatch h)
    · exact .bind (priced_reads _ _ _) fun priced hpriced => .pure fun _ h => by
        cases h
        exact hpriced

theorem applyOperation_reads (cart : Cart) (op : CartOperation) (pos : PosConfigId) :
    Reads Call.Lookup (fun result => ∀ edited, result = .ok edited → edited.header = cart.header)
      (applyOperation runtime menuService cart op pos) := by
  have hpriced : ∀ items,
      Reads Call.Lookup (fun result => ∀ edited, result = .ok edited → edited.header = cart.header)
        (do let cart ← priced runtime menuService cart items pos; pure (.ok cart) :
          Promise (Except CartRejectedError Cart)) := fun items =>
    .bind (priced_reads _ _ _) fun priced hpriced => .pure fun _ h => by
      cases h
      exact hpriced
  cases op with
  | addItem menuItemKey quantity refs =>
      refine .bind (.call trivial) fun found _ => ?_
      dsimp only
      split
      · exact .pure fun _ h => (nomatch h)
      · split
        · exact .pure fun _ h => (nomatch h)
        · exact .bind (.call trivial) fun lineId _ => hpriced _
  | removeItem lineId =>
      rw [applyOperation]
      split
      · exact hpriced _
      · exact .pure fun _ h => (nomatch h)
  | updateQuantity lineId quantity =>
      rw [applyOperation]
      split
      · split
        · exact .pure fun _ h => (nomatch h)
        · exact hpriced _
      · exact .pure fun _ h => (nomatch h)
  | addModifier lineId modifierKey => exact editModifiers_reads _ _ _ _ _
  | removeModifier lineId modifierKey => exact editModifiers_reads _ _ _ _ _

theorem applyOperations_reads (pos : PosConfigId) (ops : List CartOperation) (folded : Folded) :
    Reads Call.Lookup (fun result => result.cart.header = folded.cart.header)
      (applyOperations pos ops folded) := by
  induction ops generalizing folded with
  | nil => exact .pure rfl
  | cons op ops ih =>
      refine .bind (applyOperation_reads _ _ _) fun result hresult => ?_
      cases result with
      | ok edited =>
          have hrest := ih { folded with cart := edited, applied := folded.applied + 1 }
          rw [show edited.header = folded.cart.header from hresult edited rfl] at hrest
          exact hrest
      | error error => exact ih { folded with rejected := folded.rejected ++ [(op, error)] }

/-! ## What an attempt can have done -/

section

variable (owner : Owner) (before : Store) (proposal : OrderProposal)

/-- The cart that an attempt works on. -/
def Base (cart : Cart) : Prop :=
  before.carts proposal.cartId = some cart ∨ before.carts proposal.cartId = none ∧
    ∃ now, cart = emptyCart proposal.cartId proposal.posConfigId none now

/-- The ledger, as far as it belongs to the cart, has no mark of the request. -/
def Unprocessed : Prop :=
  owner.owns proposal.cartId proposal.requestId = true → before.ledger proposal.requestId = none

/-- Nothing is written, in particular where a call has failed. -/
structure Untouched (view : Store) (trace : Trace) : Prop where
  view : view = before
  landed : landed trace = []

/-- The new cart and the mark of the request have landed together. -/
structure Committed (cart : Cart) (view : Store) (trace : Trace) : Prop where
  unprocessed : Unprocessed owner before proposal
  base : ∃ base, Base before proposal base ∧ base.confirmedAt = none ∧
    cart.header = { base.header with version := base.version + 1 }
  view : view = (before.commit cart (some proposal.requestId)).restrict owner proposal.cartId
  landed : landed trace = [.commitApplied cart proposal.requestId]
  failures : failures trace = []

/-- The request is marked as rejected; the cart is as it was. -/
structure Rejected (view : Store) (trace : Trace) : Prop where
  unprocessed : Unprocessed owner before proposal
  view : view = (before.mark proposal.requestId .rejected).restrict owner proposal.cartId
  landed : landed trace = [.markProcessed proposal.requestId .rejected]
  failures : failures trace = []

/-- What an attempt can have written at any moment. -/
inductive Attempt (view : Store) (trace : Trace) : Prop where
  | untouched (h : Untouched before view trace)
  | committed (cart : Cart) (h : Committed owner before proposal cart view trace)
  | rejected (h : Rejected owner before proposal view trace)

/-- What is persisted once there is something to publish. -/
def Settled (persisted : Persisted) (view : Store) (trace : Trace) : Prop :=
  match persisted.updatedCart with
  | some cart => Committed owner before proposal cart view trace
  | none => Rejected owner before proposal view trace

/-- How an attempt ended. -/
inductive Ended (sessionId : Option SessionId) (view : Store) (trace : Trace) : Prop where
  | failed (h : Untouched before view trace) (hfailures : failures trace ≠ [])
      (hpublished : published trace = [internalError proposal sessionId])
  | duplicate (h : Untouched before view trace) (hfailures : failures trace = [])
      (hpublished : published trace = [])
      (hledger : owner.owns proposal.cartId proposal.requestId = true →
        before.ledger proposal.requestId ≠ none)
  | settled (persisted : Persisted) (h : Settled owner before proposal persisted view trace)
      (hpublished : published trace = outcomeEvents proposal sessionId persisted)

end

theorem Base.cartId {before : Store} {proposal : OrderProposal} {cart : Cart}
    (h : Base before proposal cart) (hkeyed : before.Keyed proposal.cartId) :
    cart.cartId = proposal.cartId := by
  rcases h with hstored | ⟨-, now, rfl⟩
  · exact hkeyed cart hstored
  · rfl

/-! ## An attempt, call by call -/

section

variable {owner : Owner} {before view : Store} {proposal : OrderProposal}
  {sessionId : Option SessionId} {trace : Trace} {always : Store → Trace → Prop}

theorem cartOrEmpty_looks (cartId : CartId) (pos : PosConfigId) (hlocal : before.Local owner cartId)
    (halways : ∀ trace, landed trace = [] → always before trace) (htrace : Quiet trace) :
    OnLane owner cartId always
      (Looks before fun cart => before.carts cartId = some cart ∨
        before.carts cartId = none ∧ ∃ now, cart = emptyCart cartId pos none now)
      (cartOrEmpty cartId pos) before trace := by
  have hget : OnLane owner cartId always (Looks before fun found => found = before.carts cartId)
      (ask (.getCart cartId)) before trace :=
    looks_call hlocal halways htrace rfl rfl rfl fun _ _ => laneHandle_getCart
  refine looks_bind hget (fun found trace hfound hquiet => ?_) fun _ _ hfailed => ⟨rfl, hfailed⟩
  cases found with
  | some cart => exact looks_reads hlocal halways hquiet (.pure (.inl hfound.symm))
  | none =>
      exact looks_reads hlocal halways hquiet
        (.bind (.call trivial) fun now _ => .pure (.inr ⟨hfound.symm, now, rfl⟩))

theorem requoted_holds {post : Except AppError Cart → Store → Trace → Prop} (cart : Cart)
    (hlocal : before.Local owner proposal.cartId)
    (halways : ∀ trace, landed trace = [] → always before trace) (htrace : Quiet trace)
    (hpost : ∀ quoted trace, quoted.header = cart.header → Quiet trace → post (.ok quoted) before trace) :
    OnLane owner proposal.cartId always post (requoted cart) before trace := by
  refine .bind (.attempt (.call (halways _ htrace.landed) trivial fun reply next hnext => ?_))
  have hsame : next = before := laneHandle_reads hlocal rfl hnext
  subst hsame
  cases reply with
  | error error =>
      have hquiet : Quiet (trace ++ [.called (.quoteCart cart) (.error error)]) :=
        htrace.append ⟨rfl, rfl, rfl⟩
      have hnow := halways _ hquiet.landed
      exact ⟨hnow, hnow, hpost cart _ rfl hquiet⟩
  | ok quote =>
      have hquiet : Quiet (trace ++ [.called (.quoteCart cart) (.ok quote)]) :=
        htrace.called rfl quote
      have hnow := halways _ hquiet.landed
      refine ⟨hnow, ?_⟩
      cases hquote : applyQuoteToCart cart quote with
      | error message => simpa [hquote] using ⟨hnow, hpost cart _ rfl hquiet⟩
      | ok quoted =>
          simpa [hquote] using ⟨hnow, hpost quoted _ (applyQuoteToCart_header hquote) hquiet⟩

/-- What the part of an attempt that may fail has come to. -/
def Persists (owner : Owner) (before : Store) (proposal : OrderProposal) :
    Except AppError (Option Persisted) → Store → Trace → Prop
  | .error _, view, trace => view = before ∧ Failed trace
  | .ok none, view, trace => view = before ∧ Quiet trace ∧
      (owner.owns proposal.cartId proposal.requestId = true → before.ledger proposal.requestId ≠ none)
  | .ok (some persisted), view, trace =>
      Settled owner before proposal persisted view trace ∧ published trace = []

variable (hlocal : before.Local owner proposal.cartId) (hkeyed : before.Keyed proposal.cartId)
  (huses : owner.uses proposal.cartId proposal.requestId)

include hlocal huses in
theorem markProcessed_holds (rejected : List Rejection)
    (hunprocessed : Unprocessed owner before proposal) (htrace : Quiet trace) :
    OnLane owner proposal.cartId (Attempt owner before proposal) (Persists owner before proposal)
      (do ask (.markProcessed proposal.requestId .rejected); pure (some ⟨none, rejected⟩))
      before trace := by
  refine .bind (writes_call hlocal (fun _ h => .untouched ⟨rfl, h⟩) htrace huses rfl
    (fun _ after trace hafter hwrote => ?_) fun _ _ hfailed => ⟨rfl, hfailed⟩)
  have hrejected : Rejected owner before proposal (after.restrict owner proposal.cartId) trace :=
    ⟨hunprocessed, Option.some.inj hafter ▸ rfl, hwrote.landed, hwrote.failures⟩
  exact ⟨.rejected hrejected, .rejected hrejected, hrejected, hwrote.published⟩

include hlocal huses hkeyed in
theorem commitApplied_holds {base quoted : Cart} (rejected : List Rejection)
    (hunprocessed : Unprocessed owner before proposal) (hbase : Base before proposal base)
    (hopen : base.confirmedAt = none)
    (hheader : quoted.header = { base.header with version := base.version + 1 })
    (htrace : Quiet trace) :
    OnLane owner proposal.cartId (Attempt owner before proposal) (Persists owner before proposal)
      (do ask (.commitApplied quoted proposal.requestId); pure (some ⟨some quoted, rejected⟩))
      before trace := by
  have hcart : quoted.cartId = proposal.cartId := by
    have hsame : quoted.cartId = base.cartId := congrArg Header.cartId hheader
    exact hsame.trans (hbase.cartId hkeyed)
  refine .bind (writes_call hlocal (fun _ h => .untouched ⟨rfl, h⟩) htrace ⟨hcart, huses⟩ rfl
    (fun _ after trace hafter hwrote => ?_) fun _ _ hfailed => ⟨rfl, hfailed⟩)
  have hcommitted : Committed owner before proposal quoted
      (after.restrict owner proposal.cartId) trace :=
    ⟨hunprocessed, ⟨base, hbase, hopen, hheader⟩, Option.some.inj hafter ▸ rfl, hwrote.landed,
      hwrote.failures⟩
  exact ⟨.committed quoted hcommitted, .committed quoted hcommitted, hcommitted, hwrote.published⟩

include hlocal huses hkeyed in
theorem persistProposal_holds :
    OnLane owner proposal.cartId (Attempt owner before proposal) (Persists owner before proposal)
      (persistProposal proposal) before [] := by
  have halways : ∀ trace, landed trace = [] → Attempt owner before proposal before trace :=
    fun _ h => .untouched ⟨rfl, h⟩
  have hasked : OnLane owner proposal.cartId (Attempt owner before proposal)
      (Looks before fun processed : Bool => owner.owns proposal.cartId proposal.requestId = true →
        processed = (before.ledger proposal.requestId).isSome)
      (ask (.wasProcessed proposal.requestId)) before [] :=
    looks_call hlocal halways .nil huses rfl rfl fun _ _ hnext howner =>
      laneHandle_wasProcessed howner hnext
  refine looks_bind hasked (fun processed trace hprocessed htrace => ?_) fun _ _ h => ⟨rfl, h⟩
  cases processed with
  | true =>
      refine ⟨halways _ htrace.landed, rfl, htrace, fun howner hnone => ?_⟩
      simpa [hnone] using hprocessed howner
  | false =>
      have hunprocessed : Unprocessed owner before proposal := fun howner => by
        simpa using (hprocessed howner).symm
      refine looks_bind (cartOrEmpty_looks _ _ hlocal halways htrace)
        (fun base trace hbase htrace => ?_) fun _ _ h => ⟨rfl, h⟩
      cases hconfirmed : base.confirmedAt with
      | some confirmedAt =>
          simp only [Option.isSome_some, if_true]
          exact markProcessed_holds hlocal huses _ hunprocessed htrace
      | none =>
          refine looks_bind (looks_reads hlocal halways htrace (applyOperations_reads _ _ _))
            (fun folded trace hfolded htrace => ?_) fun _ _ h => ⟨rfl, h⟩
          split
          · refine .bind (requoted_holds _ hlocal halways htrace fun quoted trace hquoted htrace => ?_)
            have hheader : quoted.header = { base.header with version := base.version + 1 } := by
              have hversion : folded.cart.version = base.version := congrArg Header.version hfolded
              rw [hquoted, ← hfolded, ← hversion]
              rfl
            exact commitApplied_holds hlocal hkeyed huses _ hunprocessed hbase hconfirmed hheader
              htrace
          · exact markProcessed_holds hlocal huses _ hunprocessed htrace

theorem published_emit (events : List Event) : published (events.map .emitted) = events := by
  induction events with
  | nil => rfl
  | cons event events ih => exact congrArg (event :: ·) ih

theorem landed_emit (events : List Event) : landed (events.map .emitted) = [] := by
  induction events with
  | nil => rfl
  | cons event events ih => exact ih

theorem failures_emit (events : List Event) : failures (events.map .emitted) = [] := by
  induction events with
  | nil => rfl
  | cons event events ih => exact ih

/-- Publishing is a matter of the trace alone. -/
theorem publish_holds {handler : Handler Answer AppError Store} {allowed : Footprint Call Event}
    {post : Except AppError Unit → Store → Trace → Prop} (events : List Event)
    (hevents : ∀ event ∈ events, allowed.events event)
    (halways : ∀ later : List Event, always view (trace ++ later.map .emitted))
    (hpost : post (.ok ()) view (trace ++ events.map .emitted)) :
    Holds handler allowed always post (publish events) view trace := by
  induction events generalizing trace with
  | nil =>
      rw [List.map_nil, List.append_nil] at hpost
      exact ⟨by simpa using halways [], hpost⟩
  | cons event events ih =>
      have hfirst : always view (trace ++ [.emitted event]) := halways [event]
      refine .bind (.send (by simpa using halways []) (hevents event List.mem_cons_self)
        ⟨hfirst, ih (fun other hmem => hevents other (List.mem_cons_of_mem _ hmem))
          (fun later => ?_) ?_⟩)
      · simpa using halways (event :: later)
      · simpa using hpost

theorem Committed.emit {cart : Cart} (h : Committed owner before proposal cart view trace)
    (events : List Event) :
    Committed owner before proposal cart view (trace ++ events.map .emitted) :=
  { h with
    landed := by rw [landed_append, landed_emit, h.landed]; rfl
    failures := by rw [failures_append, failures_emit, h.failures]; rfl }

theorem Rejected.emit (h : Rejected owner before proposal view trace) (events : List Event) :
    Rejected owner before proposal view (trace ++ events.map .emitted) :=
  { h with
    landed := by rw [landed_append, landed_emit, h.landed]; rfl
    failures := by rw [failures_append, failures_emit, h.failures]; rfl }

theorem Attempt.emit (h : Attempt owner before proposal view trace) (events : List Event) :
    Attempt owner before proposal view (trace ++ events.map .emitted) := by
  cases h with
  | untouched h =>
      exact .untouched ⟨h.view, by rw [landed_append, landed_emit, h.landed]; rfl⟩
  | committed cart h => exact .committed cart (h.emit events)
  | rejected h => exact .rejected (h.emit events)

theorem Settled.emit {persisted : Persisted} (h : Settled owner before proposal persisted view trace)
    (events : List Event) :
    Settled owner before proposal persisted view (trace ++ events.map .emitted) := by
  cases hcart : persisted.updatedCart with
  | some cart =>
      simp only [Settled, hcart] at h ⊢
      exact h.emit events
  | none =>
      simp only [Settled, hcart] at h ⊢
      exact h.emit events

theorem outcomeEvents_allowed (persisted : Persisted) :
    ∀ event ∈ outcomeEvents proposal sessionId persisted,
      (footprint owner (.apply proposal.cartId)).events event := by
  intro event hmem
  rcases List.mem_append.mp hmem with hupdated | hrejected
  · obtain ⟨cart, -, rfl⟩ := Option.map_eq_some_iff.mp (Option.mem_toList.mp hupdated)
    trivial
  · obtain ⟨rejected, -, rfl⟩ := List.mem_map.mp hrejected
    trivial

include hlocal huses hkeyed in
/-- An attempt never throws, and it ends in one of three ways. -/
theorem applyProposal_holds :
    OnLane owner proposal.cartId (Attempt owner before proposal)
      (fun result view trace => result = .ok () ∧ Ended owner before proposal sessionId view trace)
      (applyProposal proposal sessionId) before [] := by
  refine .bind (.attempt ((persistProposal_holds hlocal hkeyed huses).mono (fun _ _ hnow => hnow)
    fun result view trace hnow hpersists => ?_))
  cases result with
  | error error =>
      obtain ⟨rfl, hfailed⟩ := hpersists
      have hlanded : landed (trace ++ [.emitted (internalError proposal sessionId)]) = [] := by
        rw [landed_append, hfailed.landed]
        rfl
      refine .send hnow trivial ⟨hnow.emit [_], rfl, .failed ⟨rfl, hlanded⟩ ?_ ?_⟩
      · rw [failures_append, failures_emitted, List.append_nil]
        exact hfailed.failures
      · rw [published_append, hfailed.published]
        rfl
  | ok persisted =>
      cases persisted with
      | none =>
          obtain ⟨rfl, hquiet, hledger⟩ := hpersists
          exact ⟨hnow, rfl, .duplicate ⟨rfl, hquiet.landed⟩ hquiet.failures hquiet.published hledger⟩
      | some persisted =>
          obtain ⟨hsettled, hpublished⟩ := hpersists
          refine publish_holds _ (outcomeEvents_allowed persisted) (fun later => hnow.emit later)
            ⟨rfl, .settled persisted (hsettled.emit _) ?_⟩
          rw [published_append, published_emit, hpublished]
          rfl

end

/-! ## Connects and confirmations -/

section

variable (owner : Owner) (before : Store)

/-- What a connect can have written at any moment. -/
inductive Creation (e : ClientConnected) (view : Store) (trace : Trace) : Prop where
  | untouched (h : Untouched before view trace)
  | created (now : String) (cart : Cart) (hnone : before.carts e.cartId = none)
      (hcart : cart = emptyCart e.cartId e.posConfigId (some ⟨some e.deviceId, e.tableId⟩) now)
      (hview : view = (before.commit cart none).restrict owner e.cartId)
      (hlanded : landed trace = [.commitCreated cart])

/-- Odoo took the stored cart, which was not confirmed. -/
structure HandedOver (cartId : CartId) (cart : Cart) (view : Store) : Prop where
  stored : before.carts cartId = some cart
  unconfirmed : cart.confirmedAt = none ∨ cart.posOrderId = none
  nodup : ((Store.newLines (before.odoo cart.cartId) (toInsertCartRequest cart)).map
    RequestLine.lineId).Nodup
  view : view = (before.insertCart (toInsertCartRequest cart)).restrict owner cartId

/-- What a confirmation can have written at any moment. -/
inductive Confirmation (cartId : CartId) (view : Store) (trace : Trace) : Prop where
  | untouched (h : Untouched before view trace)
  | handedOver (cart : Cart) (h : HandedOver owner before cartId cart view)
      (hlanded : landed trace = [.confirmOrder cart])
  | confirmed (cart : Cart) (posOrderId : PosOrderId) (now : String) (between : Store)
      (h : HandedOver owner before cartId cart between)
      (hview : view = (between.setCart (cart.confirmed posOrderId now)).restrict owner cartId)
      (hlanded : landed trace = [.confirmOrder cart,
        .setCart (cart.confirmed posOrderId now)])

end

section

variable {owner : Owner} {before : Store}

theorem ensureCart_holds (e : ClientConnected) (hlocal : before.Local owner e.cartId) :
    OnLane owner e.cartId (Creation owner before e) (fun _ _ _ => True) (ensureCart e) before [] := by
  have halways : ∀ trace, landed trace = [] → Creation owner before e before trace :=
    fun _ h => .untouched ⟨rfl, h⟩
  have hget : OnLane owner e.cartId (Creation owner before e)
      (Looks before fun found => found = before.carts e.cartId) (ask (.getCart e.cartId)) before [] :=
    looks_call hlocal halways .nil rfl rfl rfl fun _ _ => laneHandle_getCart
  refine looks_bind hget (fun found trace hfound htrace => ?_) fun _ _ _ => trivial
  cases found with
  | some cart => exact ⟨halways _ htrace.landed, trivial⟩
  | none =>
      have hnow : OnLane owner e.cartId (Creation owner before e) (Looks before fun _ => True)
          runtime.nowIso before trace := looks_reads hlocal halways htrace (.call trivial)
      refine looks_bind hnow (fun now trace _ htrace => ?_) fun _ _ _ => trivial
      refine writes_call hlocal halways htrace rfl rfl (fun _ after trace hafter hwrote => ?_)
        fun _ _ _ => trivial
      exact ⟨.created now _ hfound.symm rfl (Option.some.inj hafter ▸ rfl) hwrote.landed, trivial⟩

/-- From the moment that Odoo has taken the cart. -/
theorem confirm_handed_holds {cartId : CartId} {cart : Cart} {between : Store} {trace : Trace}
    (posOrderId : PosOrderId) (hlocal : between.Local owner cartId) (hcart : cart.cartId = cartId)
    (h : HandedOver owner before cartId cart between) (hlanded : landed trace = [.confirmOrder cart]) :
    OnLane owner cartId (Confirmation owner before cartId) (fun _ _ _ => True)
      (do
        let now ← runtime.nowIso
        ask (.setCart (cart.confirmed posOrderId now))
        pure posOrderId)
      between trace := by
  have halways : ∀ step : Step, landed [step] = [] →
      Confirmation owner before cartId between (trace ++ [step]) := fun step hstep =>
    .handedOver cart h (by rw [landed_append, hlanded, hstep]; rfl)
  have hnow : Confirmation owner before cartId between trace := .handedOver cart h hlanded
  refine .bind (.call hnow trivial fun reply next hnext => ?_)
  obtain rfl : next = between := laneHandle_reads hlocal rfl hnext
  cases reply with
  | error error => exact ⟨halways _ rfl, trivial⟩
  | ok now =>
      have hstamped := halways (.called .nowIso (.ok now)) rfl
      refine ⟨hstamped, .bind (.call hstamped hcart fun reply after hafter => ?_)⟩
      have hlater : ∀ write : Step,
          landed (trace ++ [.called .nowIso (.ok now)] ++ [write]) =
            .confirmOrder cart :: landed [write] := fun write => by
        rw [landed_append, landed_append, hlanded]
        rfl
      cases reply with
      | error error =>
          obtain rfl := laneHandle_error hlocal hafter
          exact ⟨.handedOver cart h (hlater _), trivial⟩
      | ok _ =>
          have hconfirmed : Confirmation owner before cartId after
              (trace ++ [.called .nowIso (.ok now)] ++
                [.called (.setCart (cart.confirmed posOrderId now)) (.ok ())]) :=
            .confirmed cart posOrderId now next h (Option.some.inj hafter).symm (hlater _)
          exact ⟨hconfirmed, hconfirmed, trivial⟩

theorem confirm_holds (cartId : CartId) (hlocal : before.Local owner cartId)
    (hkeyed : before.Keyed cartId) :
    OnLane owner cartId (Confirmation owner before cartId) (fun _ _ _ => True) (confirm cartId)
      before [] := by
  have halways : ∀ trace, landed trace = [] → Confirmation owner before cartId before trace :=
    fun _ h => .untouched ⟨rfl, h⟩
  have hget : OnLane owner cartId (Confirmation owner before cartId)
      (Looks before fun found => found = before.carts cartId) (ask (.getCart cartId)) before [] :=
    looks_call hlocal halways .nil rfl rfl rfl fun _ _ => laneHandle_getCart
  refine looks_bind hget (fun found trace hfound htrace => ?_) fun _ _ _ => trivial
  cases found with
  | none => exact ⟨halways _ htrace.landed, trivial⟩
  | some cart =>
      have hcart : cart.cartId = cartId := hkeyed cart hfound.symm
      have hhandOver : cart.confirmedAt = none ∨ cart.posOrderId = none →
          OnLane owner cartId (Confirmation owner before cartId) (fun _ _ _ => True)
            (do
              let posOrderId ← ask (.confirmOrder cart)
              let now ← runtime.nowIso
              ask (.setCart (cart.confirmed posOrderId now))
              pure posOrderId)
            before trace := fun hunconfirmed => by
        refine .bind (writes_call hlocal halways htrace hcart rfl
          (fun posOrderId after trace hafter hwrote => ?_) fun _ _ _ => trivial)
        simp only [handle] at hafter
        split at hafter
        · rename_i hnodup
          have hview := Option.some.inj hafter
          have hover : HandedOver owner before cartId cart (after.restrict owner cartId) :=
            ⟨hfound.symm, hunconfirmed, hnodup, hview ▸ rfl⟩
          exact ⟨.handedOver cart hover hwrote.landed,
            confirm_handed_holds posOrderId restrict_local hcart hover hwrote.landed⟩
        · cases hafter
      cases hconfirmed : cart.confirmedAt with
      | none => simpa [hconfirmed] using hhandOver (.inl hconfirmed)
      | some confirmedAt =>
          cases horder : cart.posOrderId with
          | none => simpa [hconfirmed, horder] using hhandOver (.inr horder)
          | some posOrderId => simpa [hconfirmed, horder] using ⟨halways _ htrace.landed, trivial⟩

end

end VoiceOrder.CartModule
