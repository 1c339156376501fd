import VoiceOrder.CartModule.Attempts

/-! # One order, from its first line to the kitchen

The life of one cart without calls, locks and failures: each step is one write that took
effect. -/

namespace VoiceOrder.CartModule

open VoiceOrder.Backend

/-- A cart is as recent as another one: its version is not behind, and with the same version it
has the same items. -/
structure Cart.Succeeds (cart earlier : Cart) : Prop where
  version : earlier.version ≤ cart.version
  items : cart.version = earlier.version → cart.items = earlier.items

theorem Cart.Succeeds.refl (cart : Cart) : cart.Succeeds cart := ⟨le_rfl, fun _ => rfl⟩

theorem Cart.Succeeds.trans {cart middle earlier : Cart} (h : cart.Succeeds middle)
    (hearlier : middle.Succeeds earlier) : cart.Succeeds earlier := by
  have hversion := h.version
  have hversion' := hearlier.version
  refine ⟨by omega, fun heq => ?_⟩
  exact (h.items (by omega)).trans (hearlier.items (by omega))

structure Order where
  cart : Option Cart
  /-- The lines of the order in Odoo. -/
  lines : List RequestLine
  /-- Odoo has taken the cart. -/
  handedOver : Bool

namespace Order

/-- Odoo has taken the cart, but the stored cart is not marked as confirmed. -/
def Pending (order : Order) : Prop :=
  order.handedOver = true ∧ ∀ cart ∈ order.cart, cart.confirmedAt = none

instance (order : Order) : Decidable order.Pending :=
  inferInstanceAs (Decidable (_ ∧ ∀ cart ∈ order.cart, cart.confirmedAt = none))

/-- What a write does to the order of a cart. -/
inductive Step (cartId : CartId) : Order → Call → Order → Prop where
  | created {order : Order} (e : ClientConnected) (now : String) (cart : Cart)
      (hnone : order.cart = none)
      (hcart : cart = emptyCart cartId e.posConfigId (some ⟨some e.deviceId, e.tableId⟩) now) :
      Step cartId order (.commitCreated cart) { order with cart := some cart }
  | applied {order : Order} (base cart : Cart) (requestId : RequestId)
      (hbase : order.cart = some base ∨
        order.cart = none ∧ ∃ pos now, base = emptyCart cartId pos none now)
      (hopen : base.confirmedAt = none)
      (hheader : cart.header = { base.header with version := base.version + 1 }) :
      Step cartId order (.commitApplied cart requestId) { order with cart := some cart }
  | marked {order : Order} (requestId : RequestId) (outcome : LedgerOutcome) :
      Step cartId order (.markProcessed requestId outcome) order
  | handedOver {order : Order} (cart : Cart) (hcart : order.cart = some cart)
      (hopen : cart.confirmedAt = none ∨ cart.posOrderId = none) :
      Step cartId order (.confirmOrder cart)
        { order with
          lines := order.lines ++ Store.newLines order.lines (toInsertCartRequest cart)
          handedOver := true }
  | confirmed {order : Order} (cart : Cart) (posOrderId : PosOrderId) (now : String)
      (hcart : order.cart = some cart) (hhanded : order.handedOver = true) :
      Step cartId order (.setCart (cart.confirmed posOrderId now))
        { order with cart := some (cart.confirmed posOrderId now) }

/-- Odoo has the lines of the stored cart, or has taken nothing of a cart that is not
confirmed. -/
def Coherent (order : Order) : Prop :=
  if order.handedOver then ∃ cart, order.cart = some cart ∧ order.lines = cart.items.map toRequestLine
  else order.lines = [] ∧ ∀ cart ∈ order.cart, cart.confirmedAt = none

/-- The items of the order. -/
def items (order : Order) : Option (List CartLine) := order.cart.map Cart.items

/-- The part of a confirmed cart that nobody may change. -/
structure Sealed where
  items : List CartLine
  version : ℕ
  subtotalCents : Cents
  taxCents : Cents
  totalCents : Cents
  deriving DecidableEq, Repr

/-- What is sealed of the order, if its cart is confirmed. -/
def sealed? (order : Order) : Option Sealed :=
  (order.cart.filter fun cart => cart.confirmedAt.isSome).map fun cart =>
    ⟨cart.items, cart.version, cart.subtotalCents, cart.taxCents, cart.totalCents⟩

/-! ## What a step keeps -/

section

variable {cartId : CartId} {order next : Order} {write : Call}

theorem newLines_nil (cart : Cart) :
    Store.newLines [] (toInsertCartRequest cart) = cart.items.map toRequestLine := by
  simp [Store.newLines, toInsertCartRequest]

/-- What Odoo has is not inserted again. -/
theorem newLines_self (cart : Cart) :
    Store.newLines (cart.items.map toRequestLine) (toInsertCartRequest cart) = [] := by
  refine List.filter_eq_nil_iff.mpr fun line hmem => ?_
  have hknown : line.lineId ∈ (cart.items.map toRequestLine).map RequestLine.lineId :=
    List.mem_map_of_mem hmem
  simpa using hknown

/-- A proposal that is applied after the hand-over finds it pending. -/
theorem Coherent.pending (h : order.Coherent) (hhanded : order.handedOver = true) {base : Cart}
    (hbase : order.cart = some base ∨ order.cart = none) (hopen : base.confirmedAt = none) :
    order.Pending := by
  simp only [Coherent, hhanded, if_true] at h
  obtain ⟨cart, hcart, -⟩ := h
  refine ⟨hhanded, fun stored hstored => ?_⟩
  rcases hbase with hbase | hnone
  · rw [hbase] at hstored
    exact Option.some.inj hstored ▸ hopen
  · rw [hnone] at hstored
    cases hstored

/-- Only a proposal that is applied while the hand-over is pending breaks the order. -/
theorem Coherent.step (h : order.Coherent) (hstep : Step cartId order write next)
    (hwrite : order.Pending → ∀ cart requestId, write ≠ .commitApplied cart requestId) :
    next.Coherent := by
  cases hstep with
  | created e now cart hnone hcart =>
      cases hhanded : order.handedOver with
      | true =>
          simp only [Coherent, hhanded, if_true, hnone] at h
          obtain ⟨stored, hstored, -⟩ := h
          cases hstored
      | false =>
          simp only [Coherent, hhanded, Bool.false_eq_true, if_false] at h ⊢
          refine ⟨h.1, fun stored hstored => ?_⟩
          cases hstored
          rw [hcart]
          rfl
  | applied base cart requestId hbase hopen hheader =>
      cases hhanded : order.handedOver with
      | true =>
          exact (hwrite (h.pending hhanded (hbase.imp_right And.left) hopen) cart requestId rfl).elim
      | false =>
          simp only [Coherent, hhanded, Bool.false_eq_true, if_false] at h ⊢
          refine ⟨h.1, fun stored hstored => ?_⟩
          have hconfirmed : cart.confirmedAt = base.confirmedAt := congrArg Header.confirmedAt hheader
          exact Option.some.inj hstored ▸ hconfirmed.trans hopen
  | marked requestId outcome => exact h
  | handedOver cart hcart hopen =>
      simp only [Coherent, if_true]
      refine ⟨cart, hcart, ?_⟩
      cases hhanded : order.handedOver with
      | true =>
          simp only [Coherent, hhanded, if_true] at h
          obtain ⟨stored, hstored, hlines⟩ := h
          rw [hcart] at hstored
          cases hstored
          rw [hlines, newLines_self, List.append_nil]
      | false =>
          simp only [Coherent, hhanded, Bool.false_eq_true, if_false] at h
          rw [h.1, newLines_nil, List.nil_append]
  | confirmed cart posOrderId now hcart hhanded =>
      simp only [Coherent, hhanded, if_true] at h ⊢
      obtain ⟨stored, hstored, hlines⟩ := h
      rw [hcart] at hstored
      cases hstored
      exact ⟨_, rfl, hlines⟩

/-- Once handed over, an order keeps its items, unless a proposal is applied while the
hand-over is pending. -/
theorem Coherent.items_step (h : order.Coherent) (hhanded : order.handedOver = true)
    (hstep : Step cartId order write next)
    (hwrite : order.Pending → ∀ cart requestId, write ≠ .commitApplied cart requestId) :
    next.handedOver = true ∧ next.items = order.items := by
  cases hstep with
  | created e now cart hnone hcart =>
      simp only [Coherent, hhanded, if_true, hnone] at h
      obtain ⟨stored, hstored, -⟩ := h
      cases hstored
  | applied base cart requestId hbase hopen hheader =>
      exact (hwrite (h.pending hhanded (hbase.imp_right And.left) hopen) cart requestId rfl).elim
  | marked requestId outcome => exact ⟨hhanded, rfl⟩
  | handedOver cart hcart hopen => exact ⟨rfl, rfl⟩
  | confirmed cart posOrderId now hcart _ =>
      refine ⟨hhanded, ?_⟩
      simp [items, hcart, Cart.confirmed]

/-- The stored cart is never replaced by one of an earlier version. -/
theorem succeeds_step (hstep : Step cartId order write next) {stored : Cart}
    (h : order.cart = some stored) : ∃ later, next.cart = some later ∧ later.Succeeds stored := by
  cases hstep with
  | created e now cart hnone hcart =>
      rw [h] at hnone
      cases hnone
  | applied base cart requestId hbase hopen hheader =>
      rcases hbase with hbase | ⟨hnone, -⟩
      · rw [h] at hbase
        cases hbase
        have hversion : cart.version = stored.version + 1 := congrArg Header.version hheader
        exact ⟨cart, rfl, by omega, fun heq => by omega⟩
      · rw [h] at hnone
        cases hnone
  | marked requestId outcome => exact ⟨stored, h, .refl stored⟩
  | handedOver cart hcart hopen => exact ⟨stored, h, .refl stored⟩
  | confirmed cart posOrderId now hcart hhanded =>
      rw [h] at hcart
      cases hcart
      exact ⟨_, rfl, le_rfl, fun _ => rfl⟩

/-- A confirmed order stays as it is, whatever happens. -/
theorem sealed_step (hstep : Step cartId order write next) {kept : Sealed}
    (h : order.sealed? = some kept) : next.sealed? = some kept := by
  cases hstep with
  | created e now cart hnone hcart => simp [sealed?, hnone] at h
  | applied base cart requestId hbase hopen hheader =>
      rcases hbase with hbase | ⟨hnone, -⟩
      · simp [sealed?, hbase, hopen] at h
      · simp [sealed?, hnone] at h
  | marked requestId outcome => exact h
  | handedOver cart hcart hopen => exact h
  | confirmed cart posOrderId now hcart hhanded =>
      simp only [sealed?, hcart, Option.map_eq_some_iff] at h ⊢
      obtain ⟨stored, hstored, rfl⟩ := h
      obtain ⟨hsame, -⟩ := Option.filter_eq_some_iff.mp hstored
      cases hsame
      exact ⟨_, rfl, rfl⟩

end

end Order

end VoiceOrder.CartModule
