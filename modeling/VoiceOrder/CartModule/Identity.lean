import VoiceOrder.CartModule.DeviceOrders

/-! # The identity of a cart

Every path rewrites the whole cart. What it was created with, and its confirmation once it has
one, go through all of them. -/

namespace VoiceOrder.CartModule

open Async Runs VoiceOrder.Backend

/-- What nothing may change in a stored cart. -/
structure Cart.Remains (earlier later : Cart) : Prop where
  cartId : later.cartId = earlier.cartId
  posConfigId : later.posConfigId = earlier.posConfigId
  deviceId : later.deviceId = earlier.deviceId
  tableId : later.tableId = earlier.tableId
  confirmedAt : earlier.confirmedAt ≠ none → later.confirmedAt = earlier.confirmedAt
  posOrderId : earlier.posOrderId ≠ none → later.posOrderId = earlier.posOrderId

theorem Cart.Remains.refl (cart : Cart) : cart.Remains cart :=
  ⟨rfl, rfl, rfl, rfl, fun _ => rfl, fun _ => rfl⟩

theorem Cart.Remains.trans {first second third : Cart} (h : first.Remains second)
    (hlater : second.Remains third) : first.Remains third where
  cartId := hlater.cartId.trans h.cartId
  posConfigId := hlater.posConfigId.trans h.posConfigId
  deviceId := hlater.deviceId.trans h.deviceId
  tableId := hlater.tableId.trans h.tableId
  confirmedAt := fun hset => by
    have hsame := h.confirmedAt hset
    rw [← hsame] at hset ⊢
    exact hlater.confirmedAt hset
  posOrderId := fun hset => by
    have hsame := h.posOrderId hset
    rw [← hsame] at hset ⊢
    exact hlater.posOrderId hset

/-- A stored cart is confirmed exactly when it is bound to its order in Odoo. -/
def Bound (cartId : CartId) (view : Store) : Prop :=
  ∀ cart, view.carts cartId = some cart → (cart.confirmedAt = none ↔ cart.posOrderId = none)

section

variable {lost : AppError → Bool} {ttsLanguage : LangCode} {cartId : CartId} {view : Store}
  {entries : Trace} {call : Call} {stored cart : Cart}

theorem storedOrEmpty_unbound {base : Cart} (h : StoredOrEmpty cartId view base)
    (hbound : Bound cartId view) (hopen : base.confirmedAt = none) : base.posOrderId = none := by
  rcases h with hstored | ⟨-, pos, now, rfl⟩
  · exact (hbound base hstored).mp hopen
  · rfl

theorem bound_written (hbound : Bound cartId view) (hdue : WriteDue cartId view entries call)
    (hwritten : written? call = some cart) : cart.confirmedAt = none ↔ cart.posOrderId = none := by
  cases call with
  | commitCreated created =>
      cases hwritten
      obtain ⟨-, e, now, rfl⟩ := hdue
      exact ⟨fun _ => rfl, fun _ => rfl⟩
  | commitApplied applied requestId =>
      cases hwritten
      obtain ⟨base, sent, reply, hbase, hopen, hsent, -, rfl⟩ := hdue
      have hheader := (withQuote_header sent reply).trans hsent
      have hconfirmed : (withQuote sent reply).confirmedAt = base.confirmedAt :=
        congrArg Header.confirmedAt hheader
      have horder : (withQuote sent reply).posOrderId = base.posOrderId :=
        congrArg Header.posOrderId hheader
      rw [hconfirmed, horder]
      exact ⟨fun _ => storedOrEmpty_unbound hbase hbound hopen, fun _ => hopen⟩
  | setCart confirmed =>
      cases hwritten
      obtain ⟨stored, posOrderId, now, -, -, rfl, -⟩ := hdue
      exact ⟨fun h => (nomatch h), fun h => (nomatch h)⟩
  | _ => cases hwritten

theorem bound_kept : DueKeeps Bound := by
  intro cartId view entries call answer after hwrites hdue hrest h hafter cart hcart
  rw [restrict_carts, written_carts hwrites hdue.1 hafter] at hcart
  cases hwritten : written? call with
  | none =>
      rw [hwritten] at hcart
      exact h cart hcart
  | some written =>
      rw [hwritten] at hcart
      cases hcart
      exact bound_written h hdue.2 hwritten

/-- Where a cart is stored, a due write leaves its identity and its confirmation alone. -/
theorem remains_written (hbound : Bound cartId view)
    (hdue : (cartDues cartId).calls view entries call) (hwritten : written? call = some cart)
    (hstored : view.carts cartId = some stored) : stored.Remains cart := by
  cases call with
  | commitCreated created =>
      cases hwritten
      have hnone : view.carts cartId = none := hdue.2.1
      rw [hstored] at hnone
      cases hnone
  | commitApplied applied requestId =>
      cases hwritten
      obtain ⟨base, sent, reply, hbase, hopen, hsent, -, rfl⟩ := hdue.2
      rcases hbase with hfound | ⟨hnone, -⟩
      · rw [hstored] at hfound
        cases hfound
        have hheader := (withQuote_header sent reply).trans hsent
        exact ⟨congrArg Header.cartId hheader, congrArg Header.posConfigId hheader,
          congrArg Header.deviceId hheader, congrArg Header.tableId hheader,
          fun _ => congrArg Header.confirmedAt hheader, fun _ => congrArg Header.posOrderId hheader⟩
      · rw [hstored] at hnone
        cases hnone
  | setCart confirmed =>
      cases hwritten
      obtain ⟨found, posOrderId, now, hfound, hopen, rfl, -⟩ := hdue.2
      rw [hstored] at hfound
      cases hfound
      -- An open cart has neither of the two, so neither is overwritten.
      have hneither : stored.confirmedAt = none ∧ stored.posOrderId = none := by
        have hiff := hbound stored hstored
        rcases hopen with hopen | hopen
        · exact ⟨hopen, hiff.mp hopen⟩
        · exact ⟨hiff.mpr hopen, hopen⟩
      exact ⟨rfl, rfl, rfl, rfl, fun h => (h hneither.1).elim, fun h => (h hneither.2).elim⟩
  | _ => cases hwritten

variable {meets : Process → Action → Prop} {process last : Process}

theorem remains_later (h : Keeping lost ttsLanguage Bound process)
    (hlater : LeadsTo lost ttsLanguage meets process last)
    (hcart : process.state.carts cartId = some cart) :
    ∃ later, last.state.carts cartId = some later ∧ cart.Remains later := by
  induction hlater with
  | here => exact ⟨cart, hcart, .refl cart⟩
  | @step process middle action hearlier _ _ hstep ih =>
      obtain ⟨stored, hstored, hremains⟩ := ih
      obtain ⟨initial, hserial⟩ := h.leadsTo bound_kept hearlier
      rcases cart_step bound_kept hserial hstep cartId with
        hsame | ⟨entries, call, written, hrewrites, hwritten⟩
      · exact ⟨stored, hsame.trans hstored, hremains⟩
      · have hbound := (bound_kept.now hserial cartId).2
        exact ⟨written, hwritten, hremains.trans (remains_written hbound hrewrites.due
          hrewrites.written (restrict_carts.trans hstored))⟩
  | restart _ ih => exact ih

/-- Whatever the jobs of the cart are, whatever fails and whichever replies are lost: once a cart
is stored it keeps its identity, and its confirmation once it has one. -/
theorem identity_fixed (h : LeadsTo lost ttsLanguage anyStep (.create Store.empty) process)
    (hlater : LeadsTo lost ttsLanguage anyStep process last)
    (hcart : process.state.carts cartId = some cart) :
    ∃ later, last.state.carts cartId = some later ∧ cart.Remains later :=
  remains_later ((keeping_empty fun cartId cart hnone => by
    simp [Store.restrict, Store.empty] at hnone).leadsTo bound_kept h) hlater hcart

end

/-- A second device joins at another table of another restaurant. -/
def joined : ClientConnected where
  cartId := "cart-1"
  posConfigId := 2
  sessionId := "session-2"
  deviceId := "device-2"
  tableId := some 5

/-- The write of the confirmed cart lands and its reply is lost; then a second device connects and
confirms again. -/
theorem identity_fixed_joined :
    ∃ process last later, LeadsTo (fun _ => true) "en" anyStep process last ∧
      process.state.carts "cart-1" = some (deviceCola.confirmed 77 "one o'clock") ∧
      last.state.carts "cart-1" = some later ∧
      (deviceCola.confirmed 77 "one o'clock").Remains later := by
  have hrun : ∃ process, Run (Machine.step (lossyBackend (fun _ => true) "en"))
      (fun process action => submitsFit (lanes anyOwner) process action ∧ anyStep process action)
      (.create Store.empty)
      (connectSteps (.ok ()) ++ deviceColaSteps ++
        confirmSteps deviceCola (.error (.infrastructure "timeout"))) process ∧
      (decide (process.state.carts "cart-1" = some (deviceCola.confirmed 77 "one o'clock")) &&
        (exec (guarded (Machine.step (lossyBackend (fun _ => true) "en"))
          fun process action => submitsFit (lanes anyOwner) process action ∧ anyStep process action)
          (.create process.state)
          [.submit (.apply "cart-1") (.ensureCart joined), .begin (.apply "cart-1"),
            .reply (.apply "cart-1") (.getCart "cart-1")
              (.ok (some (deviceCola.confirmed 77 "one o'clock"))), .finish (.apply "cart-1"),
            .submit (.apply "cart-1") (.confirm "cart-1"), .begin (.apply "cart-1"),
            .reply (.apply "cart-1") (.getCart "cart-1")
              (.ok (some (deviceCola.confirmed 77 "one o'clock"))),
            .finish (.apply "cart-1")]).any fun _ => true) = true := exists_run (by decide +kernel)
  obtain ⟨process, hrun, hholds⟩ := hrun
  obtain ⟨hcart, hlater⟩ := Bool.and_eq_true_iff.mp hholds
  obtain ⟨last, hlater, -⟩ := exists_run hlater
  have hreached := (LeadsTo.here (.create Store.empty)).run hrun
  have hleads := ((LeadsTo.here process).restart).run hlater
  obtain ⟨later, hstored, hremains⟩ := identity_fixed hreached hleads (of_decide_eq_true hcart)
  exact ⟨process, last, later, hleads, of_decide_eq_true hcart, hstored, hremains⟩

end VoiceOrder.CartModule
