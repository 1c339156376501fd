import VoiceOrder.Async.Serial
import VoiceOrder.Backend.Jobs

/-! # What a lane sees of the store

The lane of a cart's applies owns the blob of the cart, its lines in Odoo and the ledger of
the requests that are used for no other cart. The calls of the other lanes leave these as they
are, so the lane can be read as if it ran alone. -/

namespace VoiceOrder.Backend

open Async VoiceOrder.CartModule VoiceOrder.Ordering

/-- Which requests belong to a cart, and which of them its lane may use. No other lane uses
what belongs to the cart. -/
structure Owner where
  owns : CartId → RequestId → Bool
  uses : CartId → RequestId → Prop
  exclusive : ∀ {cartId other requestId}, owns cartId requestId = true → uses other requestId →
    other = cartId

/-- Any request may be used for any cart. -/
def anyOwner : Owner where
  owns := fun _ _ => false
  uses := fun _ _ => True
  exclusive := fun hown _ => (nomatch hown)

instance (cartId : CartId) (requestId : RequestId) : Decidable (anyOwner.uses cartId requestId) :=
  .isTrue trivial

namespace Store

/-- The part of the store that belongs to one cart. -/
def restrict (owner : Owner) (cartId : CartId) (store : Store) : Store where
  carts := fun other => if other = cartId then store.carts cartId else none
  ledger := fun requestId => if owner.owns cartId requestId then store.ledger requestId else none
  devices := fun device => (store.devices device).filter (· = cartId)
  tables := fun table => (store.tables table).filter (· = cartId)
  odoo := fun other => if other = cartId then store.odoo cartId else []
  history := fun _ => []

/-- Two stores agree on what belongs to a cart. -/
structure Agree (owner : Owner) (cartId : CartId) (store other : Store) : Prop where
  carts : store.carts cartId = other.carts cartId
  ledger : ∀ requestId, owner.owns cartId requestId = true → store.ledger requestId = other.ledger requestId
  devices : ∀ device, (store.devices device).filter (· = cartId) =
    (other.devices device).filter (· = cartId)
  tables : ∀ table, (store.tables table).filter (· = cartId) =
    (other.tables table).filter (· = cartId)
  odoo : store.odoo cartId = other.odoo cartId

section

variable {owner : Owner} {cartId : CartId} {requestId : RequestId} {cart : Cart}
  {store other : Store}

theorem restrict_eq_iff :
    store.restrict owner cartId = other.restrict owner cartId ↔ Agree owner cartId store other := by
  constructor
  · intro h
    have hcarts := congrFun (congrArg carts h) cartId
    have hodoo := congrFun (congrArg odoo h) cartId
    refine ⟨by simpa [restrict] using hcarts, fun requestId howner => ?_,
      congrFun (congrArg devices h), congrFun (congrArg tables h), by simpa [restrict] using hodoo⟩
    simpa [restrict, howner] using congrFun (congrArg ledger h) requestId
  · intro h
    have hledger : (fun requestId => if owner.owns cartId requestId then store.ledger requestId else none) =
        fun requestId => if owner.owns cartId requestId then other.ledger requestId else none := by
      funext requestId
      by_cases howner : owner.owns cartId requestId = true
      · simp [howner, h.ledger requestId howner]
      · simp [howner]
    unfold restrict
    simp only [h.carts, h.odoo, hledger, funext h.devices, funext h.tables]

variable (store) in
theorem Agree.refl : Agree owner cartId store store :=
  ⟨rfl, fun _ _ => rfl, fun _ => rfl, fun _ => rfl, rfl⟩

theorem Agree.symm (h : Agree owner cartId store other) : Agree owner cartId other store where
  carts := h.carts.symm
  ledger := fun requestId howner => (h.ledger requestId howner).symm
  devices := fun device => (h.devices device).symm
  tables := fun table => (h.tables table).symm
  odoo := h.odoo.symm

/-- The restriction agrees with the store. -/
theorem Agree.restrict : Agree owner cartId (store.restrict owner cartId) store where
  carts := by simp [Store.restrict]
  ledger := fun requestId howner => by simp [Store.restrict, howner]
  devices := fun device => by simp [Store.restrict]
  tables := fun table => by simp [Store.restrict]
  odoo := by simp [Store.restrict]

/-! ## Calls of the cart itself -/

theorem filter_index {κ : Type} [DecidableEq κ] (sets : κ → List CartId) (key : Option κ)
    (added : CartId) (p : CartId → Bool) (other : κ) :
    (index sets key added other).filter p =
      if p added then index (fun key => (sets key).filter p) key added other
      else (sets other).filter p := by
  cases key with
  | none => simp [index]
  | some key =>
      by_cases h : other = key
      · subst h
        simp [index, OrderedMap.filter_add]
      · simp [index, h]

theorem Agree.setCart (h : Agree owner cartId store other) (hcart : cart.cartId = cartId) :
    Agree owner cartId (store.setCart cart) (other.setCart cart) := by
  subst hcart
  exact { h with carts := by simp [Store.setCart] }

theorem Agree.mark (h : Agree owner cartId store other) (requestId : RequestId)
    (outcome : LedgerOutcome) :
    Agree owner cartId (store.mark requestId outcome) (other.mark requestId outcome) := by
  refine { h with ledger := fun request howner => ?_ }
  by_cases hr : request = requestId
  · simp [Store.mark, hr]
  · simp [Store.mark, hr, h.ledger request howner]

theorem Agree.commit (h : Agree owner cartId store other) (hcart : cart.cartId = cartId)
    (request : Option RequestId) :
    Agree owner cartId (store.commit cart request) (other.commit cart request) := by
  have hset := h.setCart hcart
  have hdevices : (fun device => (store.devices device).filter (· = cartId)) =
      fun device => (other.devices device).filter (· = cartId) := funext h.devices
  have htables : (fun table => (store.tables table).filter (· = cartId)) =
      fun table => (other.tables table).filter (· = cartId) := funext h.tables
  have hmarked : Agree owner cartId
      (request.elim (store.setCart cart) fun requestId => (store.setCart cart).mark requestId .applied)
      (request.elim (other.setCart cart) fun requestId => (other.setCart cart).mark requestId .applied) := by
    cases request with
    | none => exact hset
    | some requestId => exact hset.mark requestId .applied
  refine { hmarked with devices := fun device => ?_, tables := fun table => ?_ }
  · simp only [Store.commit, filter_index, hcart, decide_true, if_true, hdevices]
  · simp only [Store.commit, filter_index, hcart, decide_true, if_true, htables]

theorem Agree.insertCart {request : InsertCartRequest} (h : Agree owner cartId store other)
    (hcart : request.cartId = cartId) :
    Agree owner cartId (store.insertCart request) (other.insertCart request) := by
  subst hcart
  refine { h with odoo := ?_ }
  simp only [Store.insertCart, Function.update_self, h.odoo]

/-! ## Calls of other carts -/

theorem agree_setCart (h : cart.cartId ≠ cartId) : Agree owner cartId (store.setCart cart) store where
  carts := by simp [setCart, Ne.symm h]
  ledger := fun _ _ => rfl
  devices := fun _ => rfl
  tables := fun _ => rfl
  odoo := rfl

theorem agree_mark (h : owner.owns cartId requestId ≠ true) (outcome : LedgerOutcome) :
    Agree owner cartId (store.mark requestId outcome) store where
  carts := rfl
  ledger := fun request howner => by
    have hne : request ≠ requestId := fun heq => h (heq ▸ howner)
    simp [mark, hne]
  devices := fun _ => rfl
  tables := fun _ => rfl
  odoo := rfl

theorem agree_commit (h : cart.cartId ≠ cartId) (request : Option RequestId)
    (hrequest : ∀ requestId ∈ request, owner.owns cartId requestId ≠ true) :
    Agree owner cartId (store.commit cart request) store := by
  have hmarked : Agree owner cartId
      (request.elim (store.setCart cart) fun requestId => (store.setCart cart).mark requestId .applied)
      store := by
    have hset : Agree owner cartId (store.setCart cart) store := agree_setCart h
    cases request with
    | none => exact hset
    | some requestId =>
        have hmark : Agree owner cartId ((store.setCart cart).mark requestId .applied)
            (store.setCart cart) := agree_mark (hrequest requestId rfl) .applied
        exact ⟨hmark.carts.trans hset.carts, fun request howner =>
          (hmark.ledger request howner).trans (hset.ledger request howner), hset.devices,
          hset.tables, hset.odoo⟩
  refine { hmarked with devices := fun device => ?_, tables := fun table => ?_ }
  · simp [Store.commit, filter_index, h]
  · simp [Store.commit, filter_index, h]

theorem agree_insertCart {request : InsertCartRequest} (h : request.cartId ≠ cartId) :
    Agree owner cartId (store.insertCart request) store where
  carts := rfl
  ledger := fun _ _ => rfl
  devices := fun _ => rfl
  tables := fun _ => rfl
  odoo := Function.update_of_ne (Ne.symm h) _ _

end

end Store

/-! ## Reading a view -/

section

variable {owner : Owner} {cartId : CartId} {store : Store} {cart : Cart} {requestId : RequestId}

theorem restrict_carts : (store.restrict owner cartId).carts cartId = store.carts cartId :=
  Store.Agree.restrict.carts

theorem restrict_ledger (howns : owner.owns cartId requestId = true) :
    (store.restrict owner cartId).ledger requestId = store.ledger requestId :=
  Store.Agree.restrict.ledger requestId howns

theorem commit_carts (cart : Cart) (requestId : Option RequestId) :
    (store.commit cart requestId).carts = (store.setCart cart).carts := by
  cases requestId <;> rfl

theorem commit_odoo (cart : Cart) (request : Option RequestId) :
    (store.commit cart request).odoo = store.odoo := by
  cases request <;> rfl

theorem commit_ledger (cart : Cart) (request : Option RequestId) :
    (store.commit cart request).ledger requestId =
      if request = some requestId then some .applied else store.ledger requestId := by
  cases request with
  | none => rfl
  | some request =>
      by_cases h : requestId = request
      · simp [Store.commit, Store.mark, h]
      · simp [Store.commit, Store.mark, Store.setCart, h, Ne.symm h]

theorem mark_ledger (outcome : LedgerOutcome) (request : RequestId) :
    (store.mark request outcome).ledger requestId =
      if request = requestId then some outcome else store.ledger requestId := by
  by_cases h : requestId = request
  · simp [Store.mark, h]
  · simp [Store.mark, h, Ne.symm h]

theorem setCart_stored (h : cart.cartId = cartId) : (store.setCart cart).carts cartId = some cart := by
  subst h
  simp [Store.setCart]

theorem setCart_odoo (cart : Cart) : (store.setCart cart).odoo = store.odoo := rfl

theorem commit_stored (h : cart.cartId = cartId) (request : Option RequestId) :
    (store.commit cart request).carts cartId = some cart := by
  rw [commit_carts, setCart_stored h]

end

/-! ## The lanes in isolation -/

/-- The calls and events of a lane. Turns only read. -/
def footprint (owner : Owner) : LaneKey → Footprint Call Event
  | .apply cartId => {
      calls := fun
        | .getCart other => other = cartId
        | .setCart cart | .commitCreated cart | .confirmOrder cart => cart.cartId = cartId
        | .commitApplied cart requestId =>
            cart.cartId = cartId ∧ owner.uses cartId requestId
        | .wasProcessed requestId | .markProcessed requestId _ => owner.uses cartId requestId
        | .readHistory _ _ | .appendHistory _ _ _ => False
        | _ => True
      events := fun
        | .operationsProposed _ _ => False
        | _ => True }
  | .turns cartId => {
      calls := fun
        | .setCart _ | .commitCreated _ | .confirmOrder _ | .commitApplied _ _
        | .markProcessed _ _ => False
        | .getCart other => other = cartId
        | _ => True
      events := fun
        | .operationsProposed _ proposal =>
            proposal.cartId = cartId ∧ owner.uses cartId proposal.requestId
        | _ => True }

/-- What the calls of a lane do to its view. The ledger of a request that may be used for
other carts answers anything, and so does everything that a turn asks. -/
def laneHandle (owner : Owner) : LaneKey → Handler Answer AppError Store
  | .apply cartId, view, .wasProcessed requestId, reply =>
      if owner.owns cartId requestId then handle view (.wasProcessed requestId) reply else some view
  | .apply cartId, view, call, reply => (handle view call reply).map (Store.restrict owner cartId)
  | .turns _, view, _, _ => some view

/-- Requests that are used for one cart stay on it. -/
def fits (owner : Owner) (lane : LaneKey) (job : Job) : Prop :=
  job.lane = lane ∧ ∀ requestId ∈ job.requestId?, owner.uses lane.cartId requestId

/-- The blob of a cart carries the id it is stored under. -/
def Store.Keyed (store : Store) (cartId : CartId) : Prop :=
  ∀ cart ∈ store.carts cartId, cart.cartId = cartId

theorem Store.keyed_empty (cartId : CartId) : Store.empty.Keyed cartId :=
  fun _ hmem => (nomatch hmem)

/-- The view holds nothing but what belongs to the cart. -/
def Store.Local (owner : Owner) (store : Store) (cartId : CartId) : Prop :=
  store.restrict owner cartId = store

/-- A view that a job of the cart may begin on. -/
def AtRest (owner : Owner) (cartId : CartId) (view : Store) : Prop :=
  view.Keyed cartId ∧ view.Local owner cartId

/-- The lanes of the backend, each with its own view of the store. -/
def lanes (owner : Owner) : Isolation Answer Event AppError LaneKey Job Store Store where
  view
    | .apply cartId, store => store.restrict owner cartId
    | .turns _, _ => Store.empty
  handle := laneHandle owner
  footprint := footprint owner
  fits := fits owner
  rest
    | .apply cartId, view => AtRest owner cartId view
    | .turns _, _ => True

instance (owner : Owner) [∀ cartId requestId, Decidable (owner.uses cartId requestId)]
    (lane : LaneKey) (job : Job) : Decidable ((lanes owner).fits lane job) :=
  inferInstanceAs (Decidable
    (job.lane = lane ∧ ∀ requestId ∈ job.requestId?, owner.uses lane.cartId requestId))

section

variable {owner : Owner} {cartId : CartId} {store other next : Store} {call : Call}
  {reply : Except AppError (Answer call)}

/-- A call does the same to two stores that agree on its cart. -/
theorem handle_agree (h : other.Agree owner cartId store)
    (hcall : ((footprint owner (.apply cartId)).calls call))
    (hledger : ∀ requestId, call = .wasProcessed requestId → owner.owns cartId requestId = true)
    (hnext : handle store call reply = some next) :
    ∃ after, handle other call reply = some after ∧ after.Agree owner cartId next := by
  cases call with
  | getCart asked =>
      change asked = cartId at hcall
      subst hcall
      cases reply with
      | error error => exact ⟨other, rfl, Option.some.inj hnext ▸ h⟩
      | ok found =>
          simp only [handle] at hnext ⊢
          split at hnext
          · rename_i hfound
            cases hnext
            exact ⟨other, if_pos (hfound.trans h.carts.symm), h⟩
          · cases hnext
  | setCart cart =>
      cases reply with
      | error error => exact ⟨other, rfl, Option.some.inj hnext ▸ h⟩
      | ok _ => exact ⟨_, rfl, Option.some.inj hnext ▸ h.setCart hcall⟩
  | wasProcessed requestId =>
      cases reply with
      | error error => exact ⟨other, rfl, Option.some.inj hnext ▸ h⟩
      | ok processed =>
          simp only [handle] at hnext ⊢
          split at hnext
          · rename_i hprocessed
            cases hnext
            rw [← h.ledger requestId (hledger requestId rfl)] at hprocessed
            exact ⟨other, if_pos hprocessed, h⟩
          · cases hnext
  | markProcessed requestId outcome =>
      cases reply with
      | error error => exact ⟨other, rfl, Option.some.inj hnext ▸ h⟩
      | ok _ => exact ⟨_, rfl, Option.some.inj hnext ▸ h.mark requestId outcome⟩
  | commitApplied cart requestId =>
      cases reply with
      | error error => exact ⟨other, rfl, Option.some.inj hnext ▸ h⟩
      | ok _ => exact ⟨_, rfl, Option.some.inj hnext ▸ h.commit hcall.1 (some requestId)⟩
  | commitCreated cart =>
      cases reply with
      | error error => exact ⟨other, rfl, Option.some.inj hnext ▸ h⟩
      | ok _ => exact ⟨_, rfl, Option.some.inj hnext ▸ h.commit hcall none⟩
  | confirmOrder cart =>
      change cart.cartId = cartId at hcall
      subst hcall
      cases reply with
      | error error => exact ⟨other, rfl, Option.some.inj hnext ▸ h⟩
      | ok posOrderId =>
          simp only [handle, h.odoo] at hnext ⊢
          split at hnext
          · rename_i hfresh
            cases hnext
            exact ⟨_, if_pos hfresh, h.insertCart rfl⟩
          · cases hnext
  | readHistory pos asked => exact hcall.elim
  | appendHistory pos asked turn => exact hcall.elim
  | newLineId | nowIso =>
      cases reply with
      | error error => cases hnext
      | ok answer => exact ⟨other, rfl, Option.some.inj hnext ▸ h⟩
  | quoteCart | resolveItemKey | findByTmplId | getItems | completeIntent | runAgent =>
      cases reply with
      | error error => exact ⟨other, rfl, Option.some.inj hnext ▸ h⟩
      | ok answer => exact ⟨other, rfl, Option.some.inj hnext ▸ h⟩

omit owner cartId in
/-- A call that throws has no effect. -/
theorem handle_error {error : AppError} (hnext : handle store call (.error error) = some next) :
    next = store := by
  cases call with
  | newLineId | nowIso | readHistory | appendHistory => cases hnext
  | _ => exact (Option.some.inj hnext).symm

omit owner in
theorem handle_getCart {found : Option Cart}
    (hnext : handle store (.getCart cartId) (.ok found) = some next) : found = store.carts cartId := by
  simp only [handle] at hnext
  split at hnext
  · assumption
  · cases hnext

omit owner cartId in
theorem handle_wasProcessed {requestId : RequestId} {reply : Except AppError Bool}
    (hnext : handle store (.wasProcessed requestId) reply = some next) : next = store := by
  cases reply with
  | error error => exact handle_error hnext
  | ok processed =>
      simp only [handle] at hnext
      split at hnext
      · exact (Option.some.inj hnext).symm
      · cases hnext

theorem handle_reads (hcall : call.writes = false) (hnext : handle store call reply = some next) :
    next.Agree owner cartId store := by
  have hsame : store.Agree owner cartId store := .refl store
  cases reply with
  | error error => exact handle_error hnext ▸ hsame
  | ok answer =>
      cases call with
      | getCart | wasProcessed | readHistory =>
          simp only [handle] at hnext
          split at hnext
          · exact Option.some.inj hnext ▸ hsame
          · cases hnext
      | appendHistory pos asked turn => exact Option.some.inj hnext ▸ { hsame with }
      | setCart | markProcessed | commitApplied | commitCreated | confirmOrder => cases hcall
      | _ => exact Option.some.inj hnext ▸ hsame

/-- A write of another cart leaves what belongs to this one as it is. -/
theorem handle_writes {foreign : CartId} (hne : foreign ≠ cartId)
    (hcall : (footprint owner (.apply foreign)).calls call) (hwrites : call.writes = true)
    (hnext : handle store call reply = some next) : next.Agree owner cartId store := by
  have hprivate : ∀ requestId, owner.uses foreign requestId → owner.owns cartId requestId ≠ true :=
    fun requestId huses howner => hne (owner.exclusive howner huses)
  cases reply with
  | error error => exact handle_error hnext ▸ .refl _
  | ok answer =>
      cases call with
      | setCart cart => exact Option.some.inj hnext ▸ Store.agree_setCart (hcall ▸ hne)
      | markProcessed requestId outcome =>
          exact Option.some.inj hnext ▸ Store.agree_mark (hprivate requestId hcall) outcome
      | commitApplied cart requestId =>
          refine Option.some.inj hnext ▸ Store.agree_commit (hcall.1 ▸ hne) _ fun request hrequest => ?_
          exact Option.some.inj hrequest ▸ hprivate requestId hcall.2
      | commitCreated cart =>
          exact Option.some.inj hnext ▸ Store.agree_commit (hcall ▸ hne) _ fun _ hmem => (nomatch hmem)
      | confirmOrder cart =>
          have hcart : cart.cartId ≠ cartId := hcall ▸ hne
          simp only [handle] at hnext
          split at hnext
          · cases hnext
            exact Store.agree_insertCart hcart
          · cases hnext
      | _ => cases hwrites

/-- A call of another lane leaves what belongs to the cart as it is. -/
theorem handle_foreign {lane : LaneKey} (hne : .apply cartId ≠ lane)
    (hcall : (footprint owner lane).calls call) (hnext : handle store call reply = some next) :
    next.Agree owner cartId store := by
  cases hwrites : call.writes with
  | false => exact handle_reads hwrites hnext
  | true =>
      cases lane with
      | apply foreign => exact handle_writes (fun heq => hne (heq ▸ rfl)) hcall hwrites hnext
      | turns foreign =>
          cases call with
          | setCart | markProcessed | commitApplied | commitCreated | confirmOrder =>
              exact hcall.elim
          | _ => cases hwrites

theorem restrict_local : (store.restrict owner cartId).Local owner cartId :=
  Store.restrict_eq_iff.mpr .restrict

theorem laneHandle_eq (view : Store) (h : ∀ requestId, call ≠ .wasProcessed requestId) :
    laneHandle owner (.apply cartId) view call reply =
      (handle view call reply).map (Store.restrict owner cartId) := by
  cases call with
  | wasProcessed requestId => exact (h requestId rfl).elim
  | _ => rfl

/-- On its own calls a lane's view follows the store. -/
theorem laneHandle_own {lane : LaneKey} (hcall : (footprint owner lane).calls call)
    (hnext : handle store call reply = some next) :
    laneHandle owner lane ((lanes owner).view lane store) call reply =
      some ((lanes owner).view lane next) := by
  cases lane with
  | turns cartId => rfl
  | apply cartId =>
      by_cases hfree : ∃ requestId, call = .wasProcessed requestId ∧ owner.owns cartId requestId ≠ true
      · obtain ⟨requestId, rfl, howner⟩ := hfree
        have hsame : next.restrict owner cartId = store.restrict owner cartId :=
          Store.restrict_eq_iff.mpr (handle_reads rfl hnext)
        simp [laneHandle, howner, lanes, hsame]
      · have hledger : ∀ requestId, call = .wasProcessed requestId → owner.owns cartId requestId = true :=
          fun requestId heq => by_contra fun howner => hfree ⟨requestId, heq, howner⟩
        obtain ⟨after, hafter, hagree⟩ := handle_agree .restrict hcall hledger hnext
        have hrestrict : after.restrict owner cartId = next.restrict owner cartId :=
          Store.restrict_eq_iff.mpr hagree
        cases call with
        | wasProcessed requestId =>
            have hlocal : after = store.restrict owner cartId := handle_wasProcessed hafter
            simp only [laneHandle, lanes, hledger requestId rfl, if_true]
            rw [hafter, ← hrestrict, hlocal]
            exact congrArg some restrict_local.symm
        | _ => simp only [laneHandle, lanes, hafter, Option.map_some, hrestrict]

/-- What happens on the view of a lane can happen on the store, if the lane's requests are its
own. -/
theorem laneHandle_store (howns : ∀ requestId, owner.uses cartId requestId →
      owner.owns cartId requestId = true)
    (hcall : (footprint owner (.apply cartId)).calls call)
    (hnext : laneHandle owner (.apply cartId) (store.restrict owner cartId) call reply = some next) :
    ∃ after, handle store call reply = some after ∧ next = after.restrict owner cartId := by
  have hledger : ∀ requestId, call = .wasProcessed requestId → owner.owns cartId requestId = true := by
    intro requestId heq
    subst heq
    exact howns requestId hcall
  have hmiddle : ∃ middle, handle (store.restrict owner cartId) call reply = some middle ∧
      next = middle.restrict owner cartId := by
    by_cases hasked : ∃ requestId, call = .wasProcessed requestId
    · obtain ⟨requestId, rfl⟩ := hasked
      simp only [laneHandle, hledger requestId rfl, if_true] at hnext
      exact ⟨next, hnext, handle_wasProcessed hnext ▸ restrict_local.symm⟩
    · rw [laneHandle_eq _ fun requestId heq => hasked ⟨requestId, heq⟩] at hnext
      obtain ⟨middle, hmiddle, rfl⟩ := Option.map_eq_some_iff.mp hnext
      exact ⟨middle, hmiddle, rfl⟩
  obtain ⟨middle, hmiddle, rfl⟩ := hmiddle
  obtain ⟨after, hafter, hagree⟩ :=
    handle_agree (Store.Agree.symm .restrict) hcall hledger hmiddle
  exact ⟨after, hafter, (Store.restrict_eq_iff.mpr hagree).symm⟩

/-! ## Calls on a view -/

variable {view : Store}

theorem laneHandle_reads (hlocal : view.Local owner cartId) (hcall : call.writes = false)
    (hnext : laneHandle owner (.apply cartId) view call reply = some next) : next = view := by
  have hmap : ∀ {after : Store}, handle view call reply = some after →
      after.restrict owner cartId = view := fun hafter =>
    (Store.restrict_eq_iff.mpr (handle_reads hcall hafter)).trans hlocal
  cases call with
  | wasProcessed requestId =>
      simp only [laneHandle] at hnext
      split at hnext
      · exact handle_wasProcessed hnext
      · exact (Option.some.inj hnext).symm
  | _ =>
      obtain ⟨after, hafter, rfl⟩ := Option.map_eq_some_iff.mp hnext
      exact hmap hafter

theorem laneHandle_error (hlocal : view.Local owner cartId) {error : AppError}
    (hnext : laneHandle owner (.apply cartId) view call (.error error) = some next) : next = view := by
  cases hwrites : call.writes with
  | false => exact laneHandle_reads hlocal hwrites hnext
  | true =>
      rw [laneHandle_eq view fun requestId heq => by simp [heq, Call.writes] at hwrites] at hnext
      obtain ⟨after, hafter, rfl⟩ := Option.map_eq_some_iff.mp hnext
      exact handle_error hafter ▸ hlocal

theorem laneHandle_getCart {found : Option Cart}
    (hnext : laneHandle owner (.apply cartId) view (.getCart cartId) (.ok found) = some next) :
    found = view.carts cartId := by
  obtain ⟨after, hafter, -⟩ := Option.map_eq_some_iff.mp hnext
  exact handle_getCart hafter

theorem laneHandle_wasProcessed {requestId : RequestId} {processed : Bool}
    (howner : owner.owns cartId requestId = true)
    (hnext : laneHandle owner (.apply cartId) view (.wasProcessed requestId) (.ok processed) =
      some next) :
    processed = (view.ledger requestId).isSome := by
  simp only [laneHandle, howner, if_true, handle] at hnext
  split at hnext
  · assumption
  · cases hnext

end

end VoiceOrder.Backend
