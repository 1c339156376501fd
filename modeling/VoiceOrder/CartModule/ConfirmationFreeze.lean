import VoiceOrder.CartModule.Idempotency
import VoiceOrder.CartModule.OrderRefinement

/-! # What the hand-over to Odoo freezes -/

namespace VoiceOrder.CartModule

open Async Runs VoiceOrder.Backend

/-- The cart to which a proposal is applied with an action. -/
def appliedTo? : Action → Option CartId
  | .reply (.apply cartId) (.commitApplied _ _) (.ok _) => some cartId
  | _ => none

/-- The cart on which the commit of a proposal lands with an action, whatever its caller hears. -/
def committedTo? (lost : AppError → Bool) : Action → Option CartId
  | .reply (.apply cartId) (.commitApplied cart requestId) reply =>
      if (atStore lost (.commitApplied cart requestId) reply).isOk then some cartId else none
  | _ => none

/-- No proposal lands on a cart that Odoo has taken while the stored cart is not marked as
confirmed. -/
def Orderly (lost : AppError → Bool) (process : Process) (action : Action) : Prop :=
  submitsFit (lanes anyOwner) process action ∧
    ∀ cartId ∈ committedTo? lost action, ¬(orderOf lost cartId process).Pending

instance (lost : AppError → Bool) (process : Process) (action : Action) :
    Decidable (Orderly lost process action) :=
  inferInstanceAs (Decidable (submitsFit (lanes anyOwner) process action ∧
    ∀ cartId ∈ committedTo? lost action, ¬(orderOf lost cartId process).Pending))

/-- Nothing has been handed over yet. -/
structure NothingHandedOver (store : Store) : Prop where
  keyed : ∀ cartId, store.Keyed cartId
  lines : ∀ cartId, store.odoo cartId = []
  unconfirmed : ∀ cartId, ∀ cart ∈ store.carts cartId, cart.confirmedAt = none

/-- What holds of a cart from one state of a run to a later one. -/
structure Frozen (lost : AppError → Bool) (cartId : CartId) (process last : Process) : Prop where
  /-- Once Odoo has taken the cart its items stay, and they are what Odoo has. -/
  items : (orderOf lost cartId process).handedOver = true →
    (orderOf lost cartId last).items = (orderOf lost cartId process).items ∧
      (orderOf lost cartId last).items.map (List.map toRequestLine) = some (last.state.odoo cartId)
  /-- Odoo has exactly the items of a confirmed cart. -/
  confirmed : ∀ cart, last.state.carts cartId = some cart → cart.confirmedAt.isSome →
    last.state.odoo cartId = cart.items.map toRequestLine
  /-- The items, the version and the totals of a confirmed cart never change. -/
  kept : ∀ kept, (orderOf lost cartId process).sealed? = some kept →
    (orderOf lost cartId last).sealed? = some kept

section

variable {lost : AppError → Bool} {ttsLanguage : LangCode} {initial : Store}
  {process next last : Process} {action : Action} {actions later : List Action} {cartId : CartId}

theorem orderly_write (h : Orderly lost process action) {write : Call}
    (hwrite : landedBy lost cartId action = some write) :
    (orderOf lost cartId process).Pending → ∀ cart requestId, write ≠ .commitApplied cart requestId := by
  intro hpending cart requestId heq
  subst heq
  obtain ⟨-, reply, answer, rfl, hanswer⟩ := landedBy_iff.mp hwrite
  exact h.2 cartId (if_pos (isOk_iff.mpr ⟨answer, hanswer⟩)) hpending

/-- In every state of an orderly run each order is coherent. -/
structure OrderlyState (lost : AppError → Bool) (ttsLanguage : LangCode) (initial : Store)
    (process : Process) : Prop where
  serial : AllSerial (lossyBackend lost ttsLanguage) (lanesKeeping lost anyView) initial process
  coherent : ∀ cartId, (orderOf lost cartId process).Coherent

theorem OrderlyState.step (h : OrderlyState lost ttsLanguage initial process)
    (horderly : Orderly lost process action)
    (hstep : process.step (lossyBackend lost ttsLanguage) action = some next) :
    OrderlyState lost ttsLanguage initial next := by
  refine ⟨h.serial.step anyView_kept.isolated horderly.1 hstep, fun cartId => ?_⟩
  rcases order_step h.serial hstep cartId with ⟨-, hsame⟩ | ⟨write, hwrite, horder⟩
  · exact hsame ▸ h.coherent cartId
  · exact (h.coherent cartId).step horder (orderly_write horderly hwrite)

theorem orderly_create (hinitial : NothingHandedOver initial) :
    OrderlyState lost ttsLanguage initial (.create initial) where
  serial := create_serial fun lane => by
    cases lane with
    | apply cartId => exact ⟨⟨keyed_restrict (hinitial.keyed cartId), restrict_local⟩, trivial⟩
    | turns cartId => trivial
  coherent := fun cartId => ⟨hinitial.lines cartId, hinitial.unconfirmed cartId⟩

theorem orderly_run (hinitial : NothingHandedOver initial)
    (h : Run (Machine.step (lossyBackend lost ttsLanguage)) (Orderly lost) (.create initial) actions
      process) : OrderlyState lost ttsLanguage initial process :=
  h.invariant (OrderlyState lost ttsLanguage initial) (orderly_create hinitial)
    fun _ _ _ hstate horderly hstep => hstate.step horderly hstep

/-- A sealed order stays sealed, whatever proposals and failures follow. -/
theorem sealed_run
    (h : AllSerial (lossyBackend lost ttsLanguage) (lanesKeeping lost anyView) initial process)
    (hlater : Run (Machine.step (lossyBackend lost ttsLanguage)) (submitsFit (lanes anyOwner)) process
      later last) {kept : Order.Sealed} (hkept : (orderOf lost cartId process).sealed? = some kept) :
    (orderOf lost cartId last).sealed? = some kept := by
  refine (hlater.invariant (fun process =>
    AllSerial (lossyBackend lost ttsLanguage) (lanesKeeping lost anyView) initial process ∧
      (orderOf lost cartId process).sealed? = some kept) ⟨h, hkept⟩ ?_).2
  intro process action next hstate hsubmits hstep
  refine ⟨hstate.1.step anyView_kept.isolated hsubmits hstep, ?_⟩
  rcases order_step hstate.1 hstep cartId with ⟨-, hsame⟩ | ⟨write, hwrite, horder⟩
  · exact hsame ▸ hstate.2
  · exact Order.sealed_step horder hstate.2

/-- An order that is handed over keeps its items in an orderly run. -/
theorem handedOver_run (h : OrderlyState lost ttsLanguage initial process)
    (hlater : Run (Machine.step (lossyBackend lost ttsLanguage)) (Orderly lost) process later last)
    (hhanded : (orderOf lost cartId process).handedOver = true) :
    (orderOf lost cartId last).handedOver = true ∧
      (orderOf lost cartId last).items = (orderOf lost cartId process).items := by
  refine (hlater.invariant (fun middle => OrderlyState lost ttsLanguage initial middle ∧
    (orderOf lost cartId middle).handedOver = true ∧
      (orderOf lost cartId middle).items = (orderOf lost cartId process).items) ⟨h, hhanded, rfl⟩ ?_).2
  intro middle action next hmiddle horderly hstep
  refine ⟨hmiddle.1.step horderly hstep, ?_⟩
  rcases order_step hmiddle.1.serial hstep cartId with ⟨-, hsame⟩ | ⟨write, hwrite, horder⟩
  · exact hsame ▸ hmiddle.2
  · obtain ⟨hstill, hitems⟩ := (hmiddle.1.coherent cartId).items_step hmiddle.2.1 horder
      (orderly_write horderly hwrite)
    exact ⟨hstill, hitems.trans hmiddle.2.2⟩

/-- In every orderly run what has been handed over is frozen, whatever fails and whichever replies
are lost. -/
theorem confirmation_freezes (hinitial : NothingHandedOver initial)
    (h : Run (Machine.step (lossyBackend lost ttsLanguage)) (Orderly lost) (.create initial) actions
      process)
    (hlater : Run (Machine.step (lossyBackend lost ttsLanguage)) (Orderly lost) process later last)
    (cartId : CartId) : Frozen lost cartId process last := by
  have hstate : OrderlyState lost ttsLanguage initial process := orderly_run hinitial h
  have hcoherent := (orderly_run hinitial (h.append hlater)).coherent cartId
  refine ⟨fun hhanded => ?_, fun cart hcart hconfirmed => ?_, fun kept hkept =>
    sealed_run hstate.serial (hlater.mono fun _ _ horderly => horderly.1) hkept⟩
  · obtain ⟨hstill, hitems⟩ := handedOver_run hstate hlater hhanded
    simp only [Order.Coherent, hstill, if_true] at hcoherent
    obtain ⟨cart, hcart, hlines⟩ := hcoherent
    refine ⟨hitems, ?_⟩
    rw [Order.items, hcart]
    exact congrArg some hlines.symm
  · have hcart' : (orderOf lost cartId last).cart = some cart := hcart
    cases hhanded : (orderOf lost cartId last).handedOver with
    | true =>
        simp only [Order.Coherent, hhanded, if_true] at hcoherent
        obtain ⟨stored, hstored, hlines⟩ := hcoherent
        rw [hcart'] at hstored
        cases hstored
        exact hlines
    | false =>
        simp only [Order.Coherent, hhanded, Bool.false_eq_true, if_false] at hcoherent
        rw [hcoherent.2 cart hcart'] at hconfirmed
        cases hconfirmed

end

/-! ## A write that fails after the hand-over -/

/-- Confirm a cart; the write of the confirmed cart gets its reply. -/
def confirmSteps (cart : Cart) (written : Except AppError Unit) : List Action :=
  [.submit (.apply "cart-1") (.confirm "cart-1"), .begin (.apply "cart-1"),
    .reply (.apply "cart-1") (.getCart "cart-1") (.ok (some cart)),
    .reply (.apply "cart-1") (.confirmOrder cart) (.ok 77),
    .reply (.apply "cart-1") .nowIso (.ok "one o'clock"),
    .reply (.apply "cart-1") (.setCart (cart.confirmed 77 "one o'clock")) written,
    .finish (.apply "cart-1")]

def threeColas : OrderProposal where
  requestId := "request-2"
  cartId := "cart-1"
  posConfigId := 1
  baseVersion := 1
  operations := [.updateQuantity "line-1" 3]

def threeColasCart : Cart :=
  { colaCart with
    version := 2
    items := [⟨"line-1", 7, "Cola", [("en_US", "Cola")], 3, [], 750⟩]
    subtotalCents := 750
    totalCents := 750 }

def threeColasSteps : List Action :=
  [.submit (.apply "cart-1") (.applyProposal threeColas none), .begin (.apply "cart-1"),
    .reply (.apply "cart-1") (.wasProcessed "request-2") (.ok false),
    .reply (.apply "cart-1") (.getCart "cart-1") (.ok (some colaCart)),
    .reply (.apply "cart-1") (.getItems 1 [7]) (.ok [cola]),
    .reply (.apply "cart-1") .nowIso (.ok "noon"),
    .reply (.apply "cart-1") (.quoteCart threeColasCart) (.error (.infrastructure "odoo is down")),
    .reply (.apply "cart-1") (.commitApplied threeColasCart "request-2") (.ok ()),
    .emit (.apply "cart-1"), .finish (.apply "cart-1")]

/-- Odoo has taken one cola and the write of the confirmed cart has failed. -/
def handOverSteps (written : Except AppError Unit) : List Action :=
  .submit (.apply "cart-1") (.applyProposal addCola none) :: addColaSteps ++ confirmSteps colaCart written

/-- The confirmed cart is written and the reply is lost: the proposal is refused all the same, and
the order is frozen. -/
theorem confirmation_freezes_refusal :
    ∃ process last, Frozen (fun _ => true) "cart-1" process last ∧
      ((orderOf (fun _ => true) "cart-1" process).sealed?.isSome = true ∧
        last.state.ledger "request-2" = some .rejected) := by
  have hrun : ∃ process, Run (Machine.step (lossyBackend (fun _ => true) "en")) (Orderly fun _ => true)
      (.create Store.empty) (handOverSteps (.error (.infrastructure "connection reset"))) process ∧
      (exec (guarded (Machine.step (lossyBackend (fun _ => true) "en")) (Orderly fun _ => true)) process
        [.submit (.apply "cart-1") (.applyProposal threeColas none), .begin (.apply "cart-1"),
          .reply (.apply "cart-1") (.wasProcessed "request-2") (.ok false),
          .reply (.apply "cart-1") (.getCart "cart-1")
            (.ok (some (colaCart.confirmed 77 "one o'clock"))),
          .reply (.apply "cart-1") (.markProcessed "request-2" .rejected) (.ok ()),
          .emit (.apply "cart-1"), .finish (.apply "cart-1")]).any (fun last =>
            decide ((orderOf (fun _ => true) "cart-1" process).sealed?.isSome = true ∧
              last.state.ledger "request-2" = some .rejected)) = true :=
    exists_run (by decide +kernel)
  obtain ⟨process, hrun, hlater⟩ := hrun
  obtain ⟨last, hlater, hholds⟩ := exists_run hlater
  have hinitial : NothingHandedOver Store.empty :=
    ⟨Store.keyed_empty, fun _ => rfl, fun _ _ hmem => (nomatch hmem)⟩
  exact ⟨process, last, confirmation_freezes hinitial hrun hlater _, of_decide_eq_true hholds⟩

/-- The customer changes the quantity before the retry of the confirmation: the kitchen has one
cola and the confirmed cart has three. -/
theorem hand_over_overtaken :
    ∃ process last,
      Run (Machine.step (backend "en")) (submitsFit (lanes anyOwner)) (.create Store.empty)
        (handOverSteps (.error (.infrastructure "redis is down"))) process ∧
      Run (Machine.step (backend "en")) (submitsFit (lanes anyOwner)) process
        (threeColasSteps ++ confirmSteps threeColasCart (.ok ())) last ∧
      ¬Frozen (fun _ => false) "cart-1" process last := by
  have hrun : ∃ process, Run (Machine.step (backend "en")) (submitsFit (lanes anyOwner))
      (.create Store.empty) (handOverSteps (.error (.infrastructure "redis is down"))) process ∧
      (exec (guarded (Machine.step (backend "en")) (submitsFit (lanes anyOwner))) process
        (threeColasSteps ++ confirmSteps threeColasCart (.ok ()))).any (fun last =>
          decide ((orderOf (fun _ => false) "cart-1" process).handedOver = true ∧
            (orderOf (fun _ => false) "cart-1" last).items ≠
              (orderOf (fun _ => false) "cart-1" process).items)) = true :=
    exists_run (by decide +kernel)
  obtain ⟨process, hrun, hlater⟩ := hrun
  obtain ⟨last, hlater, hholds⟩ := exists_run hlater
  obtain ⟨hhanded, hchanged⟩ := of_decide_eq_true hholds
  exact ⟨process, last, hrun, hlater, fun hfrozen => hchanged (hfrozen.items hhanded).1⟩

end VoiceOrder.CartModule
