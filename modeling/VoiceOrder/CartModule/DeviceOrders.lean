import VoiceOrder.CartModule.CartSteps
import VoiceOrder.CartModule.ConfirmationFreeze

/-! # The orders of a device

Only a commit writes the device index; a confirmation does not. The index still has every
confirmed cart of the device, since the write that created the cart has put it there and no
later one changes its device. -/

namespace VoiceOrder.CartModule

open Async Runs VoiceOrder.Backend

/-- Read the device index, load each cart and keep the confirmed ones. -/
def getOrdersByDevice (store : Store) (device : DeviceId) : List Cart :=
  ((store.devices device).filterMap store.carts).filter fun cart => cart.confirmedAt.isSome

/-- The device of the stored cart. -/
def deviceOf (store : Store) (cartId : CartId) : Option DeviceId :=
  (store.carts cartId).bind Cart.deviceId

/-- The cart is in the index of its device, once, and in no other one. -/
def Indexed (cartId : CartId) (store : Store) : Prop :=
  ∀ device, (store.devices device).filter (· = cartId) =
    if deviceOf store cartId = some device then [cartId] else []

/-! ## What keeps a cart indexed -/

section

variable {cartId : CartId} {store other : Store} {cart : Cart}

theorem Indexed.congr (h : Indexed cartId store) (hcarts : other.carts cartId = store.carts cartId)
    (hdevices : other.devices = store.devices) : Indexed cartId other := by
  intro device
  rw [deviceOf, hdevices, hcarts]
  exact h device

theorem indexed_agree {owner : Owner} (h : other.Agree owner cartId store) :
    Indexed cartId other ↔ Indexed cartId store := by
  have hdevice : deviceOf other cartId = deviceOf store cartId := by
    rw [deviceOf, deviceOf, h.carts]
  simp only [Indexed, hdevice, h.devices]

theorem indexed_restrict {owner : Owner} :
    Indexed cartId (store.restrict owner cartId) ↔ Indexed cartId store :=
  indexed_agree .restrict

/-- A commit keeps the index if it creates the cart or leaves its device as it is. -/
theorem Indexed.commit (h : Indexed cartId store) (hcart : cart.cartId = cartId)
    (hdevice : ∀ stored, store.carts cartId = some stored → cart.deviceId = stored.deviceId)
    (request : Option RequestId) : Indexed cartId (store.commit cart request) := by
  intro device
  have hstored : deviceOf (store.commit cart request) cartId = cart.deviceId := by
    rw [deviceOf, commit_stored hcart]
    rfl
  have hbefore : deviceOf store cartId = none ∨ deviceOf store cartId = cart.deviceId := by
    unfold deviceOf
    cases hfound : store.carts cartId with
    | none => exact .inl rfl
    | some stored => exact .inr (hdevice stored hfound).symm
  have hindexed := h device
  rw [hstored]
  simp only [Store.commit, Store.filter_index, hcart, decide_true, if_true]
  cases hid : cart.deviceId with
  | none =>
      rw [hid, or_self] at hbefore
      simpa [Store.index, hbefore] using hindexed
  | some own =>
      by_cases hsame : device = own
      · subst hsame
        rcases hbefore with hbefore | hbefore
        · simp [Store.index, hindexed, hbefore, OrderedMap.add]
        · simp [Store.index, hindexed, hbefore, hid, OrderedMap.add]
      · rcases hbefore with hbefore | hbefore
        · simp [Store.index, hindexed, hbefore, hsame, Ne.symm hsame]
        · simp [Store.index, hindexed, hbefore, hid, hsame, Ne.symm hsame]

theorem Indexed.setCart (h : Indexed cartId store) (hcart : cart.cartId = cartId) {stored : Cart}
    (hstored : store.carts cartId = some stored) (hdevice : cart.deviceId = stored.deviceId) :
    Indexed cartId (store.setCart cart) := by
  intro device
  have hsame : deviceOf (store.setCart cart) cartId = deviceOf store cartId := by
    rw [deviceOf, deviceOf, setCart_stored hcart, hstored]
    exact hdevice
  rw [hsame]
  exact h device

end

/-! ## Every write keeps its cart indexed -/

/-- A view of a cart's lane that is at rest and has the cart indexed. -/
def IndexedAtRest (cartId : CartId) (view : Store) : Prop :=
  AtRest anyOwner cartId view ∧ Indexed cartId view

section

variable {cartId : CartId} {view : Store}

theorem indexedAtRest_restrict (hkeyed : view.Keyed cartId) (h : Indexed cartId view) :
    IndexedAtRest cartId (view.restrict anyOwner cartId) :=
  ⟨⟨keyed_restrict hkeyed, restrict_local⟩, indexed_restrict.mpr h⟩

/-- The carts that the jobs write keep the device of the stored one. -/
theorem indexed_kept : DueKeeps Indexed := by
  intro cartId view entries call answer after hwrites hdue hrest h hafter
  refine indexed_restrict.mpr ?_
  cases call with
  | commitCreated cart =>
      cases hafter
      refine h.commit hdue.1 (fun stored hstored => ?_) none
      rw [hdue.2.1] at hstored
      cases hstored
  | commitApplied cart requestId =>
      cases hafter
      obtain ⟨base, sent, reply, hbase, -, hsent, -, rfl⟩ := hdue.2
      have hdevice : (withQuote sent reply).deviceId = base.deviceId :=
        (congrArg Header.deviceId (withQuote_header sent reply)).trans
          (congrArg Header.deviceId hsent)
      refine h.commit hdue.1.1 (fun stored hstored => ?_) (some requestId)
      rcases hbase with hfound | ⟨hnone, -⟩
      · rw [hstored] at hfound
        cases hfound
        exact hdevice
      · rw [hstored] at hnone
        cases hnone
  | setCart cart =>
      cases hafter
      obtain ⟨stored, posOrderId, now, hstored, -, rfl, -⟩ := hdue.2
      exact h.setCart hdue.1 hstored rfl
  | markProcessed requestId outcome =>
      cases hafter
      exact h.congr rfl rfl
  | confirmOrder cart =>
      simp only [handle] at hafter
      split at hafter
      · cases hafter
        exact h.congr rfl rfl
      · cases hafter
  | _ => cases hwrites

end

/-! ## Every lane keeps its cart indexed -/

/-- The lanes of the backend on stores whose replies may be lost; a cart is indexed whenever its
lane is free. -/
def indexedLanes (lost : AppError → Bool) :
    Isolation Answer Event AppError LaneKey Job Store Store :=
  { lanes anyOwner with
    handle := fun lane => lossy lost (laneHandle anyOwner lane)
    rest := fun
      | .apply cartId, view => IndexedAtRest cartId view
      | .turns _, _ => True }

section

variable {lost : AppError → Bool} {ttsLanguage : LangCode} {initial store : Store}
  {actions : List Action} {process : Process} {cartId : CartId}

theorem indexed_isolated : Isolated (lossyBackend lost ttsLanguage) (indexedLanes lost) :=
  indexed_kept.isolated

/-- The carts of the store carry their own ids and are in the indexes they belong to. -/
def WellIndexed (store : Store) : Prop :=
  ∀ cartId, store.Keyed cartId ∧ Indexed cartId store

theorem wellIndexed_empty : WellIndexed Store.empty := fun cartId =>
  ⟨Store.keyed_empty cartId, fun device => by simp [Store.empty, deviceOf]⟩

theorem wellIndexed_of_lanes
    (h : ∀ cartId, IndexedAtRest cartId (store.restrict anyOwner cartId)) : WellIndexed store :=
  fun cartId => ⟨fun cart hcart => (h cartId).1.1 cart (restrict_carts.trans hcart),
    indexed_restrict.mp (h cartId).2⟩

/-- At every moment of a run, in the middle of a job too. -/
theorem run_wellIndexed (hinitial : WellIndexed initial)
    (h : Run (Machine.step (lossyBackend lost ttsLanguage)) (submitsFit (lanes anyOwner))
      (.create initial) actions process) : WellIndexed process.state := by
  have hrest : ∀ lane, (indexedLanes lost).rest lane ((indexedLanes lost).view lane initial) :=
    fun lane => by
      cases lane with
      | apply cartId => exact indexedAtRest_restrict (hinitial cartId).1 (hinitial cartId).2
      | turns cartId => trivial
  have hserial : AllSerial (lossyBackend lost ttsLanguage) (indexedLanes lost) initial process :=
    serial_of_run indexed_isolated hrest (h.mono fun _ action hfits => by
      cases action with
      | submit lane job => exact hfits
      | begin | emit | reply | finish => trivial)
  exact wellIndexed_of_lanes fun cartId => indexed_kept.now hserial cartId

end

/-! ## Reading the orders of a device -/

/-- The stores that the backend can leave behind, through any number of its lifetimes: a restart
forgets the jobs and keeps the store. -/
inductive Reachable (lost : AppError → Bool) (ttsLanguage : LangCode) : Store → Prop where
  | empty : Reachable lost ttsLanguage Store.empty
  | ran {initial actions process} (hinitial : Reachable lost ttsLanguage initial)
      (hrun : Run (Machine.step (lossyBackend lost ttsLanguage)) (submitsFit (lanes anyOwner))
        (.create initial) actions process) : Reachable lost ttsLanguage process.state

section

variable {lost : AppError → Bool} {ttsLanguage : LangCode} {store : Store} {cartId : CartId}
  {device : DeviceId} {cart : Cart}

theorem reachable_wellIndexed (h : Reachable lost ttsLanguage store) : WellIndexed store := by
  induction h with
  | empty => exact wellIndexed_empty
  | ran _ hrun ih => exact run_wellIndexed ih hrun

theorem WellIndexed.mem_devices (h : WellIndexed store) :
    cartId ∈ store.devices device ↔ deviceOf store cartId = some device := by
  have hfilter : cartId ∈ (store.devices device).filter (· = cartId) ↔
      cartId ∈ store.devices device := by simp
  rw [← hfilter, (h cartId).2 device]
  split
  · simpa
  · simpa

theorem WellIndexed.nodup (h : WellIndexed store) (device : DeviceId) :
    (store.devices device).Nodup := by
  refine List.nodup_iff_count_le_one.mpr fun cartId => ?_
  have hcount : (store.devices device).count cartId =
      ((store.devices device).filter (· = cartId)).length := by
    rw [List.count_eq_length_filter]
    rfl
  rw [hcount, (h cartId).2 device]
  split
  · exact le_rfl
  · exact Nat.zero_le 1

theorem WellIndexed.mem_orders (h : WellIndexed store) :
    cart ∈ getOrdersByDevice store device ↔ store.carts cart.cartId = some cart ∧
      cart.deviceId = some device ∧ cart.confirmedAt.isSome = true := by
  simp only [getOrdersByDevice, List.mem_filter, List.mem_filterMap]
  constructor
  · rintro ⟨⟨cartId, hmem, hstored⟩, hconfirmed⟩
    have hid : cart.cartId = cartId := (h cartId).1 cart hstored
    have hdevice := h.mem_devices.mp hmem
    rw [deviceOf, hstored] at hdevice
    exact ⟨hid ▸ hstored, hdevice, hconfirmed⟩
  · rintro ⟨hstored, hdevice, hconfirmed⟩
    refine ⟨⟨cart.cartId, h.mem_devices.mpr ?_, hstored⟩, hconfirmed⟩
    rw [deviceOf, hstored]
    exact hdevice

theorem WellIndexed.orders_nodup (h : WellIndexed store) (device : DeviceId) :
    ((getOrdersByDevice store device).map Cart.cartId).Nodup := by
  have hids : ((store.devices device).filterMap store.carts).map Cart.cartId =
      (store.devices device).filter fun cartId => (store.carts cartId).isSome := by
    generalize store.devices device = cartIds
    induction cartIds with
    | nil => rfl
    | cons cartId cartIds ih =>
        cases hstored : store.carts cartId with
        | none => simp [hstored, ih]
        | some cart =>
            have hid : cart.cartId = cartId := (h cartId).1 cart hstored
            simp [hstored, ih, hid]
  have hloaded : (((store.devices device).filterMap store.carts).map Cart.cartId).Nodup := by
    rw [hids]
    exact (h.nodup device).filter _
  exact hloaded.sublist (List.filter_sublist.map _)

/-- Whatever fails and whichever replies are lost: a device is answered exactly its confirmed
carts, each once and as it is stored. -/
theorem ordersByDevice_exact (h : Reachable lost ttsLanguage store) (device : DeviceId) :
    ((getOrdersByDevice store device).map Cart.cartId).Nodup ∧
      ∀ cart, cart ∈ getOrdersByDevice store device ↔ store.carts cart.cartId = some cart ∧
        cart.deviceId = some device ∧ cart.confirmedAt.isSome = true :=
  ⟨(reachable_wellIndexed h).orders_nodup device, fun _ => (reachable_wellIndexed h).mem_orders⟩

end

/-! ## An order whose confirmation threw -/

def connected : ClientConnected where
  cartId := "cart-1"
  posConfigId := 1
  sessionId := "session-1"
  deviceId := "device-1"
  tableId := none

def createdCart : Cart := emptyCart "cart-1" 1 (some ⟨some "device-1", none⟩) "noon"

def connectSteps (written : Except AppError Unit) : List Action :=
  [.submit (.apply "cart-1") (.ensureCart connected), .begin (.apply "cart-1"),
    .reply (.apply "cart-1") (.getCart "cart-1") (.ok none),
    .reply (.apply "cart-1") .nowIso (.ok "noon"),
    .reply (.apply "cart-1") (.commitCreated createdCart) written, .finish (.apply "cart-1")]

/-- The cart of the device once a cola is added. -/
def deviceCola : Cart := { colaCart with deviceId := some "device-1" }

def deviceColaSteps : List Action :=
  [.submit (.apply "cart-1") (.applyProposal addCola none), .begin (.apply "cart-1"),
    .reply (.apply "cart-1") (.wasProcessed "request-1") (.ok false),
    .reply (.apply "cart-1") (.getCart "cart-1") (.ok (some createdCart)),
    .reply (.apply "cart-1") (.resolveItemKey 1 "cola") (.ok (some cola)),
    .reply (.apply "cart-1") .newLineId (.ok "line-1"),
    .reply (.apply "cart-1") (.getItems 1 [7]) (.ok [cola]),
    .reply (.apply "cart-1") .nowIso (.ok "noon"),
    .reply (.apply "cart-1") (.quoteCart deviceCola) (.error (.infrastructure "odoo is down")),
    .reply (.apply "cart-1") (.commitApplied deviceCola "request-1") (.ok ()),
    .emit (.apply "cart-1"), .finish (.apply "cart-1")]

/-- The confirmed cart is written and the reply is lost: the device finds its order. -/
theorem ordersByDevice_exact_lost :
    ∃ store, Reachable (fun _ => true) "en" store ∧
      getOrdersByDevice store "device-1" = [deviceCola.confirmed 77 "one o'clock"] ∧
      store.carts "cart-1" = some (deviceCola.confirmed 77 "one o'clock") := by
  have hrun : ∃ process, Run (Machine.step (lossyBackend (fun _ => true) "en"))
      (submitsFit (lanes anyOwner)) (.create Store.empty)
      (connectSteps (.ok ()) ++ deviceColaSteps ++
        confirmSteps deviceCola (.error (.infrastructure "timeout"))) process ∧
      decide (getOrdersByDevice process.state "device-1" =
        [deviceCola.confirmed 77 "one o'clock"]) = true := exists_run (by decide +kernel)
  obtain ⟨process, hrun, hholds⟩ := hrun
  have horders := of_decide_eq_true hholds
  have hreachable : Reachable (fun _ => true) "en" process.state := .ran .empty hrun
  have hstored := ((ordersByDevice_exact hreachable "device-1").2 _).mp
    (horders ▸ List.mem_singleton.mpr rfl)
  exact ⟨process.state, hreachable, horders, hstored.1⟩

end VoiceOrder.CartModule
