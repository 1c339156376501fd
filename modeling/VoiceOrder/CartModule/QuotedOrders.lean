import VoiceOrder.CartModule.Identity

/-! # The order that is confirmed is the one that was quoted

The quote is taken on the cart in memory, before its prices are overlaid; the insert request is
built later, from the stored cart. -/

namespace VoiceOrder.CartModule

open Async Runs VoiceOrder.Backend

/-- The cents of an amount are less than one away from it; where the amount is a number of whole
cents, as the nearest double, they are that number. -/
structure InCents (amount : ℚ) (cents : Cents) : Prop where
  near : |amount * 100| < 2 ^ 52 → |(cents : ℚ) - amount * 100| < 1
  whole : ∀ written : ℤ, |(written : ℚ)| ≤ 2 ^ 50 → amount = Double.nearest (written / 100) →
    cents = written

theorem toCents_inCents (amount : ℚ) : InCents amount (toCents amount) where
  near := Double.round_nearest_error
  whole := fun written hwritten hamount => by
    rw [toCents, hamount]
    exact Double.round_fraction (by norm_num) (by norm_num) hwritten

/-- The insert request of the cart asks for what was quoted, at the amounts of the quote. -/
structure AsQuoted (sent : Cart) (quote : QuoteResponse) (cart : Cart) : Prop where
  posConfigId : (toInsertCartRequest cart).posConfigId = (toQuoteRequest sent).posConfigId
  items : (toInsertCartRequest cart).items = (toQuoteRequest sent).items
  subtotal : InCents quote.amountSubtotal cart.subtotalCents
  tax : InCents quote.amountTax cart.taxCents
  total : InCents quote.amountTotal cart.totalCents

/-- The step commits an applied proposal of the cart, and the store takes the commit. -/
def applies (lost : AppError → Bool) (cartId : CartId) : Action → Bool
  | .reply lane (.commitApplied cart requestId) reply =>
      decide (lane = .apply cartId) && (atStore lost (.commitApplied cart requestId) reply).isOk
  | _ => false

/-- The steps after the last applied proposal of the cart. -/
abbrev appliesNothing (lost : AppError → Bool) (cartId : CartId) (_ : Process)
    (action : Action) : Prop :=
  applies lost cartId action = false

section

variable {lost : AppError → Bool} {ttsLanguage : LangCode} {cartId : CartId}
  {process after last : Process} {action : Action} {sent cart : Cart} {quote : QuoteResponse}

theorem asQuoted_withQuote (hplaces : quote.decimalPlaces = 2) :
    AsQuoted sent quote (withQuote sent (.ok quote)) := by
  have hquoted : ∃ quoted, applyQuoteToCart sent quote = .ok quoted := by
    simp [applyQuoteToCart, hplaces]
  obtain ⟨quoted, hquoted⟩ := hquoted
  have hcart : withQuote sent (.ok quote) = quoted := by
    rw [withQuote, hquoted]
    rfl
  rw [hcart]
  simp only [applyQuoteToCart, hplaces, ne_eq, not_true_eq_false, if_false] at hquoted
  cases hquoted
  refine ⟨rfl, ?_, toCents_inCents _, toCents_inCents _, toCents_inCents _⟩
  simp only [toInsertCartRequest, toQuoteRequest, List.map_map]
  refine List.map_congr_left fun line _ => ?_
  simp only [Function.comp_apply]
  -- A line of the request has no price.
  split
  · rfl
  · rfl

theorem AsQuoted.confirmed (h : AsQuoted sent quote cart) (posOrderId : PosOrderId) (now : String) :
    AsQuoted sent quote (cart.confirmed posOrderId now) :=
  ⟨h.posConfigId, h.items, h.subtotal, h.tax, h.total⟩

/-- A write of the stored cart is an applied proposal or leaves the order as it was quoted. -/
theorem asQuoted_rewritten {entries : Trace} {call : Call} {written : Cart}
    (h : Rewrites lost cartId process action entries call written)
    (hkeeps : applies lost cartId action = false)
    (hstored : process.state.carts cartId = some cart) (hquoted : AsQuoted sent quote cart) :
    AsQuoted sent quote written := by
  obtain ⟨reply, answer, rfl, heffective⟩ := h.action
  have hview := (@restrict_carts anyOwner cartId process.state).trans hstored
  have hdue := h.due.2
  have hwritten := h.written
  cases call with
  | commitCreated created =>
      have hnone := hdue.1
      rw [hview] at hnone
      cases hnone
  | commitApplied applied requestId => simp [applies, heffective, Except.isOk, Except.toBool] at hkeeps
  | setCart confirmed =>
      cases hwritten
      obtain ⟨found, posOrderId, now, hfound, -, rfl, -⟩ := hdue
      rw [hview] at hfound
      cases hfound
      exact hquoted.confirmed posOrderId now
  | _ => cases hwritten

theorem asQuoted_later (h : Keeping lost ttsLanguage anyView process)
    (hlater : LeadsTo lost ttsLanguage (appliesNothing lost cartId) process last)
    (hstored : process.state.carts cartId = some cart) (hquoted : AsQuoted sent quote cart) :
    ∃ stored, last.state.carts cartId = some stored ∧ AsQuoted sent quote stored := by
  induction hlater with
  | here => exact ⟨cart, hstored, hquoted⟩
  | @step process middle action hearlier _ hkeeps hstep ih =>
      obtain ⟨stored, hstored, hquoted⟩ := ih
      obtain ⟨initial, hserial⟩ := h.leadsTo anyView_kept hearlier
      rcases cart_step anyView_kept hserial hstep cartId with
        hsame | ⟨entries, call, written, hrewrites, hwritten⟩
      · exact ⟨stored, hsame.trans hstored, hquoted⟩
      · exact ⟨written, hwritten, asQuoted_rewritten hrewrites hkeeps hstored hquoted⟩
  | restart _ ih => exact ih

/-- The cart that a lane hands over is the stored one. -/
theorem handedOver_stored {running : Running Answer Event AppError Job Store}
    {resume : Except AppError PosOrderId → Promise Unit}
    (h : Keeping lost ttsLanguage anyView process)
    (hrunning : (process.lanes (.apply cartId)).running = some running)
    (hawait : running.rest = .await (.confirmOrder cart) resume) :
    process.state.carts cartId = some cart := by
  obtain ⟨initial, hserial⟩ := h
  have hdue : (cartDues cartId).calls (process.state.restrict anyOwner cartId) running.entries
      (.confirmOrder cart) := asked_due hserial hrunning hawait
  exact restrict_carts.symm.trans hdue.2.1

/-- The job asks for a quote right before it commits, and commits what the quote makes of the
cart. -/
theorem applied_quoted (h : Keeping lost ttsLanguage anyView process)
    (hstep : process.step (lossyBackend lost ttsLanguage) action = some after)
    (happlies : applies lost cartId action = true) :
    ∃ running sent reply, (process.lanes (.apply cartId)).running = some running ∧
      running.entries.getLast? = some (.called (.quoteCart sent) reply) ∧
      after.state.carts cartId = some (withQuote sent reply) := by
  obtain ⟨initial, hserial⟩ := h
  cases action with
  | reply lane call reply =>
      cases call with
      | commitApplied cart requestId =>
          obtain ⟨hlane, hok⟩ := Bool.and_eq_true_iff.mp happlies
          obtain rfl := of_decide_eq_true hlane
          obtain ⟨running, hrunning, hcall, base, sent, quoted, -, -, -, hlast, rfl⟩ :=
            reply_due hserial hstep
          obtain ⟨_, _, -, -, hnext, -⟩ := Machine.reply_some hstep
          refine ⟨running, sent, quoted, hrunning, hlast, ?_⟩
          change handle process.state _ (atStore lost _ reply) = some after.state at hnext
          cases heffective : atStore lost (.commitApplied (withQuote sent quoted) requestId) reply with
          | error error =>
              rw [heffective] at hok
              cases hok
          | ok answer =>
              rw [heffective] at hnext
              exact written_carts rfl hcall hnext
      | _ => cases happlies
  | submit | begin | emit | finish => cases happlies

/-- Whatever is refused or fails after the last applied proposal of a cart, whoever reconnects,
through restarts too: if that proposal was quoted, the stored cart is the quoted order at the
quoted amounts, and so is the cart that a confirmation hands over. -/
theorem quoted_is_confirmed
    (h : LeadsTo lost ttsLanguage anyStep (.create Store.empty) process)
    (hstep : process.step (lossyBackend lost ttsLanguage) action = some after)
    (happlies : applies lost cartId action = true)
    (hlater : LeadsTo lost ttsLanguage (appliesNothing lost cartId) after last) :
    ∃ running sent reply, (process.lanes (.apply cartId)).running = some running ∧
      running.entries.getLast? = some (.called (.quoteCart sent) reply) ∧
      ∀ quote, reply = .ok quote → quote.decimalPlaces = 2 →
        (∃ stored, last.state.carts cartId = some stored ∧ AsQuoted sent quote stored) ∧
        ∀ confirming cart resume, (last.lanes (.apply cartId)).running = some confirming →
          confirming.rest = .await (.confirmOrder cart) resume → AsQuoted sent quote cart := by
  have hkeeping : Keeping lost ttsLanguage anyView process :=
    (keeping_empty fun _ => trivial).leadsTo anyView_kept h
  have hfits : submitsFit (lanes anyOwner) process action := by
    cases action with
    | submit lane job => cases happlies
    | begin | emit | reply | finish => trivial
  have hstepped : LeadsTo lost ttsLanguage anyStep process after :=
    (LeadsTo.here process).step hfits trivial hstep
  have hafter := hkeeping.leadsTo anyView_kept hstepped
  obtain ⟨running, sent, reply, hrunning, hlast, hstored⟩ := applied_quoted hkeeping hstep happlies
  refine ⟨running, sent, reply, hrunning, hlast, fun quote hreply hplaces => ?_⟩
  subst hreply
  obtain ⟨stored, hkept, hquoted⟩ :=
    asQuoted_later hafter hlater hstored (asQuoted_withQuote hplaces)
  refine ⟨⟨stored, hkept, hquoted⟩, fun confirming cart resume hconfirming hawait => ?_⟩
  have hcart := handedOver_stored (hafter.leadsTo anyView_kept hlater) hconfirming hawait
  rw [hkept] at hcart
  cases hcart
  exact hquoted

end

/-! ## A quoted cola -/

def deviceColaQuote : QuoteResponse where
  decimalPlaces := 2
  lines := some [⟨"line-1", some 3⟩]
  amountSubtotal := 3
  amountTax := Double.nearest (2 / 5)
  amountTotal := Double.nearest (17 / 5)

def quotedDeviceCola : Cart := withQuote deviceCola (.ok deviceColaQuote)

/-- The proposal of `deviceColaSteps` up to its commit, with a quote that succeeds. -/
def quotedDeviceSteps : List Action :=
  deviceColaSteps.take 8 ++ [.reply (.apply "cart-1") (.quoteCart deviceCola) (.ok deviceColaQuote)]

def takesDeviceQuote (process : Process) : Bool :=
  match (process.lanes (.apply "cart-1")).running.bind (·.entries.getLast?) with
  | some (.called (.quoteCart sent) (.ok quote)) => decide (sent = deviceCola ∧ quote = deviceColaQuote)
  | _ => false

/-- A second device connects after a restart, a confirmation fails and another one begins. -/
def retriedSteps : List Action :=
  [.submit (.apply "cart-1") (.ensureCart joined), .begin (.apply "cart-1"),
    .reply (.apply "cart-1") (.getCart "cart-1") (.ok (some quotedDeviceCola)), .finish (.apply "cart-1"),
    .submit (.apply "cart-1") (.confirm "cart-1"), .begin (.apply "cart-1"),
    .reply (.apply "cart-1") (.getCart "cart-1") (.ok (some quotedDeviceCola)),
    .reply (.apply "cart-1") (.confirmOrder quotedDeviceCola) (.error (.infrastructure "odoo is down")),
    .finish (.apply "cart-1"), .submit (.apply "cart-1") (.confirm "cart-1"), .begin (.apply "cart-1"),
    .reply (.apply "cart-1") (.getCart "cart-1") (.ok (some quotedDeviceCola))]

theorem quoted_is_confirmed_cola :
    ∃ after last stored, LeadsTo (fun _ => true) "en" (appliesNothing (fun _ => true) "cart-1")
        after last ∧
      last.state.carts "cart-1" = some stored ∧ AsQuoted deviceCola deviceColaQuote stored := by
  have hrun : ∃ process, Run (Machine.step (lossyBackend (fun _ => true) "en"))
      (fun process action => submitsFit (lanes anyOwner) process action ∧ anyStep process action)
      (.create Store.empty) (connectSteps (.ok ()) ++ quotedDeviceSteps) process ∧
      (takesDeviceQuote process && (process.step (lossyBackend (fun _ => true) "en")
        (.reply (.apply "cart-1") (.commitApplied quotedDeviceCola "request-1") (.ok ()))).any fun after =>
          (exec (guarded (Machine.step (lossyBackend (fun _ => true) "en")) fun process action =>
            submitsFit (lanes anyOwner) process action ∧
              appliesNothing (fun _ => true) "cart-1" process action)
            (.create after.state) retriedSteps).any fun _ => true) = true :=
    exists_run (by decide +kernel)
  obtain ⟨process, hrun, hholds⟩ := hrun
  obtain ⟨htaken, hafter⟩ := Bool.and_eq_true_iff.mp hholds
  obtain ⟨after, hstep, hretried⟩ := (Option.any_eq_true _ _).mp hafter
  obtain ⟨last, hretried, -⟩ := exists_run hretried
  have hreached := (LeadsTo.here (.create Store.empty)).run hrun
  have hlater := ((LeadsTo.here after).restart).run hretried
  obtain ⟨running, sent, reply, hrunning, hlast, hquoted⟩ :=
    quoted_is_confirmed hreached hstep (by decide +kernel) hlater
  simp only [takesDeviceQuote, hrunning, Option.bind_some, hlast] at htaken
  cases reply with
  | error error => cases htaken
  | ok quote =>
      obtain ⟨rfl, rfl⟩ := of_decide_eq_true htaken
      obtain ⟨⟨stored, hstored, hasQuoted⟩, -⟩ := hquoted deviceColaQuote rfl rfl
      exact ⟨after, last, stored, hlater, hstored, hasQuoted⟩

end VoiceOrder.CartModule
