import VoiceOrder.Async.Due
import VoiceOrder.Backend.LostReplies

/-! # When a write is due

The jobs of a cart write it in three places. What they know of the stored cart there is said
once, for stores whose replies may be lost; what the writes keep then holds in every state. -/

namespace VoiceOrder.CartModule

open Async Runs VoiceOrder.Backend

/-- The cart that was sent to be quoted, at the prices of the reply if there are any. -/
def withQuote (sent : Cart) : Except AppError QuoteResponse → Cart
  | .error _ => sent
  | .ok quote => (applyQuoteToCart sent quote).toOption.getD sent

/-- The cart that a call writes under its id. -/
def written? : Call → Option Cart
  | .commitCreated cart | .commitApplied cart _ | .setCart cart => some cart
  | _ => none

/-- The stored cart, or one made of nothing where none is stored. -/
def StoredOrEmpty (cartId : CartId) (view : Store) (base : Cart) : Prop :=
  view.carts cartId = some base ∨
    view.carts cartId = none ∧ ∃ pos now, base = emptyCart cartId pos none now

/-- The stored cart is not yet both confirmed and bound to its order in Odoo. -/
def Cart.Open (cart : Cart) : Prop := cart.confirmedAt = none ∨ cart.posOrderId = none

/-- What a job knows where it makes a write. -/
def WriteDue (cartId : CartId) (view : Store) (entries : Trace) : Call → Prop
  | .commitCreated cart => view.carts cartId = none ∧ ∃ (e : ClientConnected) (now : String),
      cart = emptyCart cartId e.posConfigId (some ⟨some e.deviceId, e.tableId⟩) now
  | .commitApplied cart _ => ∃ base sent reply, StoredOrEmpty cartId view base ∧
      base.confirmedAt = none ∧ sent.header = { base.header with version := base.version + 1 } ∧
      entries.getLast? = some (.called (.quoteCart sent) reply) ∧ cart = withQuote sent reply
  | .confirmOrder cart => view.carts cartId = some cart ∧ cart.Open
  | .setCart cart => ∃ stored posOrderId now, view.carts cartId = some stored ∧ stored.Open ∧
      cart = stored.confirmed posOrderId now ∧ .called (.confirmOrder stored) (.ok posOrderId) ∈ entries
  | _ => True

/-- Where the jobs of a cart make their calls. -/
def cartDues (cartId : CartId) : Dues Answer Event AppError Store where
  calls := fun view entries call =>
    (footprint anyOwner (.apply cartId)).calls call ∧ WriteDue cartId view entries call
  events := (footprint anyOwner (.apply cartId)).events

section

variable {lost : AppError → Bool} {cartId : CartId} {view : Store} {trace : Trace} {α β : Type}

theorem withQuote_header (sent : Cart) (reply : Except AppError QuoteResponse) :
    (withQuote sent reply).header = sent.header := by
  cases reply with
  | error error => rfl
  | ok quote =>
      cases hquote : applyQuoteToCart sent quote with
      | error message => simp [withQuote, hquote, Except.toOption]
      | ok quoted => simpa [withQuote, hquote, Except.toOption] using applyQuoteToCart_header hquote

theorem storedOrEmpty_cartId {base : Cart} (h : StoredOrEmpty cartId view base)
    (hkeyed : view.Keyed cartId) : base.cartId = cartId := by
  rcases h with hstored | ⟨-, pos, now, rfl⟩
  · exact hkeyed base hstored
  · rfl

/-- The calls of a program that runs in a cart's lane are due. -/
abbrev DueOnLane (lost : AppError → Bool) (cartId : CartId) (program : Promise α) (view : Store)
    (trace : Trace) : Prop :=
  Due (lossy lost (laneHandle anyOwner (.apply cartId))) (cartDues cartId) program view trace

theorem lookup_due {call : Call} (h : call.Lookup) : (cartDues cartId).calls view trace call := by
  cases call with
  | resolveItemKey | findByTmplId | getItems | newLineId | nowIso => exact ⟨trivial, trivial⟩
  | _ => exact h.elim

theorem looked_due {program : Promise α} {next : α → Promise β} {returns : α → Prop}
    (h : DueOnLane lost cartId program view trace)
    (hlooked : OnLossyLane lost cartId (fun _ => True) (Looked view returns) program view trace)
    (hnext : ∀ value trace, returns value → DueOnLane lost cartId (next value) view trace) :
    DueOnLane lost cartId (program >>= next) view trace := by
  refine h.bind hlooked fun value after trace hvalue => ?_
  obtain ⟨rfl, hreturns⟩ := hvalue
  exact hnext value trace (hreturns value rfl)

theorem reads_due {program : Promise α} {next : α → Promise β} {returns : α → Prop}
    (hlocal : view.Local anyOwner cartId) (h : Reads Call.Lookup returns program)
    (hnext : ∀ value trace, returns value → DueOnLane lost cartId (next value) view trace) :
    DueOnLane lost cartId (program >>= next) view trace :=
  looked_due (.reads h fun _ _ _ => lookup_due) (looked_reads hlocal trivial h) hnext

theorem getCart_due {next : Option Cart → Promise β} (hlocal : view.Local anyOwner cartId)
    (hnext : ∀ trace, DueOnLane lost cartId (next (view.carts cartId)) view trace) :
    DueOnLane lost cartId (ask (.getCart cartId) >>= next) view trace := by
  refine looked_due (.call ⟨rfl, trivial⟩)
    (looked_call hlocal trivial rfl rfl fun found _ => laneHandle_getCart) fun found trace hfound => ?_
  rw [hfound]
  exact hnext trace

theorem ensureCart_due (e : ClientConnected) (h : AtRest anyOwner e.cartId view) :
    DueOnLane lost e.cartId (ensureCart e) view trace := by
  refine getCart_due h.2 fun trace => ?_
  cases hfound : view.carts e.cartId with
  | some cart => trivial
  | none =>
      refine reads_due h.2 (.call trivial) fun now trace _ => .call ⟨rfl, hfound, e, now, rfl⟩

theorem cartOrEmpty_due {pos : PosConfigId} {next : Cart → Promise β}
    (hlocal : view.Local anyOwner cartId)
    (hnext : ∀ base trace, StoredOrEmpty cartId view base →
      DueOnLane lost cartId (next base) view trace) :
    DueOnLane lost cartId (cartOrEmpty cartId pos >>= next) view trace := by
  have hdue : DueOnLane lost cartId (cartOrEmpty cartId pos) view trace := by
    refine getCart_due hlocal fun trace => ?_
    cases view.carts cartId with
    | some cart => trivial
    | none => exact reads_due hlocal (.call trivial) fun _ _ _ => trivial
  have hlooked : OnLossyLane lost cartId (fun _ => True)
      (Looked view (StoredOrEmpty cartId view)) (cartOrEmpty cartId pos) view trace := by
    refine looked_bind (looked_call hlocal trivial rfl rfl fun found _ => laneHandle_getCart)
      (fun found trace hfound => ?_) fun _ => ⟨rfl, fun _ heq => (nomatch heq)⟩
    cases found with
    | some cart => exact looked_reads hlocal trivial (.pure (.inl hfound.symm))
    | none =>
        exact looked_reads hlocal trivial
          (.bind (.call trivial) fun now _ => .pure (.inr ⟨hfound.symm, pos, now, rfl⟩))
  exact looked_due hdue hlooked hnext

/-- The program goes on with the quoted cart right after the reply. -/
theorem requoted_due {next : Cart → Promise β} (sent : Cart) (hlocal : view.Local anyOwner cartId)
    (hnext : ∀ reply, DueOnLane lost cartId (next (withQuote sent reply)) view
      (trace ++ [.called (.quoteCart sent) reply])) :
    DueOnLane lost cartId (requoted sent >>= next) view trace := by
  refine ⟨⟨trivial, trivial⟩, fun reply after hafter => ?_⟩
  obtain rfl := lossy_reads hlocal rfl hafter
  have hreply := hnext reply
  cases reply with
  | error error => exact hreply
  | ok quote =>
      dsimp only [Program.attempt, Program.bind]
      cases hquote : applyQuoteToCart sent quote with
      | error message =>
          rw [withQuote, hquote] at hreply
          exact hreply
      | ok quoted =>
          rw [withQuote, hquote] at hreply
          exact hreply

theorem markProcessed_due (requestId : RequestId) (value : α) :
    DueOnLane lost cartId (do ask (.markProcessed requestId .rejected); pure value) view trace :=
  Due.bind_of_all (.call ⟨trivial, trivial⟩) fun _ _ _ => trivial

theorem persistProposal_due (proposal : OrderProposal) (h : AtRest anyOwner proposal.cartId view) :
    DueOnLane lost proposal.cartId (persistProposal proposal) view trace := by
  have hasked : OnLossyLane lost proposal.cartId (fun _ => True) (Looked view fun _ => True)
      (ask (.wasProcessed proposal.requestId)) view trace :=
    looked_call h.2 trivial trivial rfl fun _ _ _ => trivial
  refine looked_due (.call ⟨trivial, trivial⟩) hasked fun processed trace _ => ?_
  cases processed with
  | true => trivial
  | false =>
      refine cartOrEmpty_due h.2 fun base trace hbase => ?_
      cases hconfirmed : base.confirmedAt with
      | some confirmedAt =>
          simp only [Option.isSome_some, if_true]
          exact markProcessed_due _ _
      | none =>
          refine reads_due h.2 (applyOperations_reads _ _ _) fun folded trace hfolded => ?_
          split
          · refine requoted_due _ h.2 fun reply => ?_
            have hsent : { folded.cart with version := folded.cart.version + 1 }.header =
                { base.header with version := base.version + 1 } := by
              have hversion : folded.cart.version = base.version := congrArg Header.version hfolded
              rw [← hfolded, ← hversion]
              rfl
            have hcart : (withQuote { folded.cart with version := folded.cart.version + 1 }
                reply).cartId = proposal.cartId := by
              have hheader := (withQuote_header _ reply).trans hsent
              exact (congrArg Header.cartId hheader).trans (storedOrEmpty_cartId hbase h.1)
            exact Due.bind_of_all (.call ⟨⟨hcart, trivial⟩, base, _, reply, hbase, hconfirmed,
              hsent, List.getLast?_concat, rfl⟩) fun _ _ _ => trivial
          · exact markProcessed_due _ _

theorem publish_due {events : List Event}
    (h : ∀ event ∈ events, (cartDues cartId).events event) :
    DueOnLane lost cartId (publish events) view trace := by
  induction events generalizing trace with
  | nil => trivial
  | cons event events ih =>
      exact ⟨h event List.mem_cons_self, ih fun event hmem => h event (List.mem_cons_of_mem _ hmem)⟩

theorem applyProposal_due (proposal : OrderProposal) (sessionId : Option SessionId)
    (h : AtRest anyOwner proposal.cartId view) :
    DueOnLane lost proposal.cartId (applyProposal proposal sessionId) view trace := by
  refine Due.bind_of_all (persistProposal_due proposal h).attempt fun result view trace => ?_
  cases result with
  | error error => exact .send trivial
  | ok persisted =>
      cases persisted with
      | none => trivial
      | some persisted => exact publish_due (@outcomeEvents_allowed anyOwner _ _ persisted)

/-- The stored cart is still the one that was read where it is locked. -/
theorem handOver_due {cart : Cart} (h : AtRest anyOwner cartId view)
    (hfound : view.carts cartId = some cart) (hopen : cart.Open) :
    DueOnLane lost cartId
      (do
        let posOrderId ← ask (.confirmOrder cart)
        let now ← runtime.nowIso
        ask (.setCart (cart.confirmed posOrderId now))
        pure posOrderId)
      view trace := by
  have hcart : cart.cartId = cartId := h.1 cart hfound
  refine .call_bind ⟨hcart, hfound, hopen⟩ fun posOrderId taken htaken => ?_
  have hkept : taken.Local anyOwner cartId ∧ taken.carts cartId = some cart := by
    obtain ⟨after, hafter, rfl⟩ := Option.map_eq_some_iff.mp htaken
    simp only [handle, atStore] at hafter
    split at hafter
    · cases hafter
      exact ⟨restrict_local, restrict_carts.trans hfound⟩
    · cases hafter
  refine .call_bind ⟨trivial, trivial⟩ fun now after hafter => ?_
  obtain rfl := lossy_reads hkept.1 rfl hafter
  exact Due.bind_of_all (.call ⟨hcart, cart, posOrderId, now, hkept.2, hopen, rfl, by simp⟩)
    fun _ _ _ => trivial

theorem confirm_due (h : AtRest anyOwner cartId view) :
    DueOnLane lost cartId (confirm cartId) view trace := by
  refine getCart_due h.2 fun trace => ?_
  cases hfound : view.carts cartId with
  | none => trivial
  | some cart =>
      have hhandOver : cart.Open → DueOnLane lost cartId _ view trace := handOver_due h hfound
      cases hconfirmed : cart.confirmedAt with
      | none => simpa [hconfirmed] using hhandOver (.inl hconfirmed)
      | some confirmedAt =>
          cases horder : cart.posOrderId with
          | none => simpa [hconfirmed, horder] using hhandOver (.inr horder)
          | some posOrderId =>
              have hnothing : DueOnLane lost cartId (pure posOrderId) view trace := trivial
              simpa [hconfirmed, horder] using hnothing

theorem job_due {ttsLanguage : LangCode} {job : Job} (hfits : fits anyOwner (.apply cartId) job)
    (h : AtRest anyOwner cartId view) :
    DueOnLane lost cartId (job.program ttsLanguage) view trace := by
  obtain ⟨hlane, -⟩ := hfits
  cases job with
  | ensureCart e =>
      cases hlane
      exact ensureCart_due e h
  | applyProposal proposal sessionId =>
      cases hlane
      exact applyProposal_due proposal sessionId h
  | confirm asked =>
      cases hlane
      exact Due.bind_of_all (confirm_due h) fun _ _ _ => trivial
  | turn e => cases hlane

end

end VoiceOrder.CartModule
