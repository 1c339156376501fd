import VoiceOrder.CartModule.DeviceOrders

/-! # From a cart to the device that created it

A connect stamps the device on the cart that it creates. A proposal that finds no cart builds
one without a device, and a connect that comes later leaves that cart as it is. -/

namespace VoiceOrder.CartModule

open Async Runs VoiceOrder.Backend

/-- The persisted cart names a device, and the index of the device has the cart. -/
def Traceable (cartId : CartId) (store : Store) : Prop :=
  ∃ cart device, store.carts cartId = some cart ∧ cart.deviceId = some device ∧
    cartId ∈ store.devices device

/-- A connect of the cart has completed without error. -/
def Ensured (cartId : CartId) (process : Process) : Prop :=
  ∃ job ∈ (process.lanes (.apply cartId)).history, (∃ e, job.job = .ensureCart e) ∧
    job.result = .ok ()

/-- A proposal is applied while no cart is stored, and commits the cart that it built. -/
def buildsCart (cartId : CartId) (process : Process) : Action → Prop
  | .reply (.apply own) (.commitApplied _ _) (.ok _) =>
      own = cartId ∧ process.state.carts cartId = none
  | _ => False

instance (cartId : CartId) (process : Process) (action : Action) :
    Decidable (buildsCart cartId process action) := by
  unfold buildsCart
  split
  · infer_instance
  · infer_instance

/-- Jobs are submitted to their lanes, and no proposal commits a cart of its own making. -/
def submitsFitConnected (cartId : CartId) (process : Process) (action : Action) : Prop :=
  submitsFit (lanes anyOwner) process action ∧ ¬buildsCart cartId process action

instance (cartId : CartId) (process : Process) (action : Action) :
    Decidable (submitsFitConnected cartId process action) :=
  inferInstanceAs (Decidable (_ ∧ _))

/-! ## A connect that completes leaves a cart behind -/

section

variable {cartId : CartId} {before : Store} {ttsLanguage : LangCode} {initial : Store}
  {process next : Process} {action : Action}

theorem ensureCart_stores (e : ClientConnected) (hlocal : before.Local anyOwner e.cartId) :
    OnLane anyOwner e.cartId (Creation anyOwner before e)
      (fun result view _ => result = .ok () → (view.carts e.cartId).isSome = true) (ensureCart e)
      before [] := by
  have halways : ∀ trace, landed trace = [] → Creation anyOwner before e before trace :=
    fun _ h => .untouched ⟨rfl, h⟩
  have hget : OnLane anyOwner e.cartId (Creation anyOwner before e)
      (Looks before fun found => found = before.carts e.cartId) (ask (.getCart e.cartId)) before [] :=
    looks_call hlocal halways .nil rfl rfl rfl fun _ _ => laneHandle_getCart
  refine looks_bind hget (fun found trace hfound htrace => ?_) fun _ _ _ heq => (nomatch heq)
  cases found with
  | some cart => exact ⟨halways _ htrace.landed, fun _ => by rw [← hfound]; rfl⟩
  | none =>
      have hnow : OnLane anyOwner e.cartId (Creation anyOwner before e) (Looks before fun _ => True)
          runtime.nowIso before trace := looks_reads hlocal halways htrace (.call trivial)
      refine looks_bind hnow (fun now trace _ htrace => ?_) fun _ _ _ heq => (nomatch heq)
      refine writes_call hlocal halways htrace rfl rfl (fun _ after trace hafter hwrote => ?_)
        fun _ _ _ heq => (nomatch heq)
      refine ⟨.created now _ hfound.symm rfl (Option.some.inj hafter ▸ rfl) hwrote.landed, fun _ => ?_⟩
      cases hafter
      simp [restrict_carts, commit_carts, Store.setCart, emptyCart]

/-- A stored cart stays stored. -/
theorem step_stored (h : AllSerial (backend ttsLanguage) (lanes anyOwner) initial process)
    (hstep : process.step (backend ttsLanguage) action = some next)
    (hstored : (process.state.carts cartId).isSome = true) :
    (next.state.carts cartId).isSome = true := by
  obtain ⟨cart, hcart⟩ := Option.isSome_iff_exists.mp hstored
  rcases backend_order_step h hstep cartId with ⟨-, hsame⟩ | ⟨write, -, horder⟩
  · rw [show next.state.carts cartId = process.state.carts cartId from congrArg Order.cart hsame]
    exact hstored
  · obtain ⟨later, hlater, -⟩ := Order.succeeds_step horder hcart
    rw [show next.state.carts cartId = some later from hlater]
    rfl

theorem ensured_step (h : AllSerial (backend ttsLanguage) (lanes anyOwner) initial process)
    (hnext : AllSerial (backend ttsLanguage) (lanes anyOwner) initial next)
    (hstep : process.step (backend ttsLanguage) action = some next)
    (hstored : Ensured cartId process → (process.state.carts cartId).isSome = true)
    (hensured : Ensured cartId next) : (next.state.carts cartId).isSome = true := by
  obtain ⟨ended, hhistory, hended⟩ := Machine.step_history hstep (.apply cartId)
  obtain ⟨job, hmem, ⟨e, hjob⟩, hresult⟩ := hensured
  rw [hhistory] at hmem
  rcases List.mem_append.mp hmem with hold | hnew
  · exact step_stored h hstep (hstored ⟨job, hold, ⟨e, hjob⟩, hresult⟩)
  · obtain ⟨hafter, hsame⟩ := hended job hnew
    obtain ⟨view, hchain⟩ := (hnext (.apply cartId)).chain
    obtain ⟨earlier, later, heq⟩ := List.append_of_mem (hhistory ▸ hmem)
    obtain ⟨-, hfits, hrest, last, hlast, hexec⟩ := hchain.at heq
    rw [hjob] at hfits hexec
    obtain ⟨hlane, -⟩ := hfits
    cases hlane
    have hdone := (((ensureCart_stores e hrest.2).executes hexec).result hlast) hresult
    rw [hsame, ← hafter]
    simpa [lanes, restrict_carts] using hdone

/-! ## The device of the stored cart -/

/-- Every cart that is stored names a device. -/
def Identified (cartId : CartId) (process : Process) : Prop :=
  ∀ cart, process.state.carts cartId = some cart → cart.deviceId ≠ none

/-- The stored cart names no device. -/
def Unidentified (cartId : CartId) (process : Process) : Prop :=
  ∃ cart, process.state.carts cartId = some cart ∧ cart.deviceId = none

/-- A stored cart keeps its device. -/
theorem order_device {order later : Order} {write : Call} {stored : Cart}
    (h : Order.Step cartId order write later) (hstored : order.cart = some stored) :
    ∃ cart, later.cart = some cart ∧ cart.deviceId = stored.deviceId := by
  cases h with
  | created e now cart hnone hcart =>
      rw [hstored] at hnone
      cases hnone
  | applied base cart requestId hbase _ hheader =>
      rcases hbase with hbase | ⟨hnone, -⟩
      · rw [hstored] at hbase
        cases hbase
        exact ⟨cart, rfl, congrArg Header.deviceId hheader⟩
      · rw [hstored] at hnone
        cases hnone
  | marked requestId outcome => exact ⟨stored, hstored, rfl⟩
  | handedOver cart _ _ => exact ⟨stored, hstored, rfl⟩
  | confirmed cart posOrderId now hcart _ =>
      rw [hstored] at hcart
      cases hcart
      exact ⟨_, rfl, rfl⟩

/-- A cart gets its device from the connect that creates it; one that a proposal builds has none. -/
theorem order_first {order later : Order} {write : Call} {cart : Cart}
    (h : Order.Step cartId order write later) (hnone : order.cart = none)
    (hcart : later.cart = some cart) :
    cart.deviceId ≠ none ∨ cart.deviceId = none ∧ ∃ requestId, write = .commitApplied cart requestId := by
  cases h with
  | created e now created _ hcreated =>
      cases hcart
      exact .inl (hcreated ▸ Option.some_ne_none e.deviceId)
  | applied base applied requestId hbase _ hheader =>
      cases hcart
      rcases hbase with hbase | ⟨-, pos, now, rfl⟩
      · rw [hnone] at hbase
        cases hbase
      · exact .inr ⟨congrArg Header.deviceId hheader, requestId, rfl⟩
  | marked requestId outcome =>
      rw [hnone] at hcart
      cases hcart
  | handedOver handed hhanded _ =>
      rw [hnone] at hhanded
      cases hhanded
  | confirmed confirmed posOrderId now hconfirmed _ =>
      rw [hnone] at hconfirmed
      cases hconfirmed

theorem order_built {order later : Order} {cart : Cart} {requestId : RequestId}
    (h : Order.Step cartId order (.commitApplied cart requestId) later) (hnone : order.cart = none) :
    later.cart = some cart ∧ cart.deviceId = none := by
  cases h with
  | applied base applied requestId hbase _ hheader =>
      rcases hbase with hbase | ⟨-, pos, now, rfl⟩
      · rw [hnone] at hbase
        cases hbase
      · exact ⟨rfl, congrArg Header.deviceId hheader⟩

theorem landedBy_commit {cart : Cart} {requestId : RequestId}
    (h : landedBy (fun _ => false) cartId action = some (.commitApplied cart requestId)) :
    action = .reply (.apply cartId) (.commitApplied cart requestId) (.ok ()) := by
  obtain ⟨-, reply, answer, rfl, hanswer⟩ := landedBy_iff.mp h
  rw [atStore_never] at hanswer
  rw [hanswer]

theorem identified_step (h : AllSerial (backend ttsLanguage) (lanes anyOwner) initial process)
    (hstep : process.step (backend ttsLanguage) action = some next)
    (hbuilds : ¬buildsCart cartId process action) (hidentified : Identified cartId process) :
    Identified cartId next := by
  intro cart hcart
  rcases backend_order_step h hstep cartId with ⟨-, hsame⟩ | ⟨write, hwrite, horder⟩
  · have hcarts : next.state.carts cartId = process.state.carts cartId := congrArg Order.cart hsame
    exact hidentified cart (hcarts ▸ hcart)
  · cases hstored : process.state.carts cartId with
    | none =>
        rcases order_first horder hstored hcart with hdevice | ⟨-, requestId, rfl⟩
        · exact hdevice
        · obtain rfl := landedBy_commit hwrite
          exact (hbuilds ⟨rfl, hstored⟩).elim
    | some stored =>
        obtain ⟨later, hlater, hdevice⟩ := order_device horder hstored
        cases hcart.symm.trans hlater
        rw [hdevice]
        exact hidentified stored hstored

theorem unidentified_step (h : AllSerial (backend ttsLanguage) (lanes anyOwner) initial process)
    (hstep : process.step (backend ttsLanguage) action = some next)
    (hunidentified : Unidentified cartId process) : Unidentified cartId next := by
  obtain ⟨stored, hstored, hnone⟩ := hunidentified
  rcases backend_order_step h hstep cartId with ⟨-, hsame⟩ | ⟨write, -, horder⟩
  · exact ⟨stored, (congrArg Order.cart hsame).trans hstored, hnone⟩
  · obtain ⟨cart, hcart, hdevice⟩ := order_device horder hstored
    exact ⟨cart, hcart, hdevice.trans hnone⟩

/-- The cart that a proposal builds names no device. -/
theorem builds_unidentified (h : AllSerial (backend ttsLanguage) (lanes anyOwner) initial process)
    (hstep : process.step (backend ttsLanguage) action = some next)
    (hbuilds : buildsCart cartId process action) : Unidentified cartId next := by
  unfold buildsCart at hbuilds
  split at hbuilds
  · rename_i own cart requestId answer
    obtain ⟨rfl, hnone⟩ := hbuilds
    rcases backend_order_step h hstep own with ⟨hidle, -⟩ | ⟨write, hwrite, horder⟩
    · cases hidle.symm.trans (landedBy_iff.mpr ⟨rfl, _, _, rfl, rfl⟩)
    · cases hwrite.symm.trans (landedBy_iff.mpr ⟨rfl, _, _, rfl, rfl⟩)
      obtain ⟨hstored, hdevice⟩ := order_built horder hnone
      exact ⟨cart, hstored, hdevice⟩
  · exact hbuilds.elim

/-! ## Every run -/

variable {actions : List Action}

theorem run_identified (h : Run (Machine.step (backend ttsLanguage)) (submitsFitConnected cartId)
    (.create Store.empty) actions process) : Identified cartId process := by
  have hinv : AllSerial (backend ttsLanguage) (lanes anyOwner) Store.empty process ∧
      Identified cartId process :=
    h.invariant
      (fun process => AllSerial (backend ttsLanguage) (lanes anyOwner) Store.empty process ∧
        Identified cartId process)
      ⟨create_serial (lanes_rest Store.keyed_empty), fun _ hcart => (nomatch hcart)⟩
      fun process action next hnow hmeets hstep => by
        have hnext := hnow.1.step backend_isolated hmeets.1 hstep
        exact ⟨hnext, identified_step hnow.1 hstep hmeets.2 hnow.2⟩
  exact hinv.2

theorem run_stored (h : Run (Machine.step (backend ttsLanguage)) (submitsFit (lanes anyOwner))
    (.create Store.empty) actions process) (hensured : Ensured cartId process) :
    (process.state.carts cartId).isSome = true := by
  have hinv : AllSerial (backend ttsLanguage) (lanes anyOwner) Store.empty process ∧
      (Ensured cartId process → (process.state.carts cartId).isSome = true) :=
    h.invariant
      (fun process => AllSerial (backend ttsLanguage) (lanes anyOwner) Store.empty process ∧
        (Ensured cartId process → (process.state.carts cartId).isSome = true))
      ⟨create_serial (lanes_rest Store.keyed_empty), fun ⟨_, hmem, _⟩ => (nomatch hmem)⟩
      fun process action next hnow hmeets hstep => by
        have hnext := hnow.1.step backend_isolated hmeets hstep
        exact ⟨hnext, ensured_step hnow.1 hnext hstep hnow.2⟩
  exact hinv.2 hensured

theorem run_unidentified {last : Process}
    (h : AllSerial (backend ttsLanguage) (lanes anyOwner) initial process)
    (hrun : Run (Machine.step (backend ttsLanguage)) (submitsFit (lanes anyOwner)) process actions last)
    (hunidentified : Unidentified cartId process) : Unidentified cartId last := by
  have hinv : AllSerial (backend ttsLanguage) (lanes anyOwner) initial last ∧
      Unidentified cartId last :=
    hrun.invariant
      (fun process => AllSerial (backend ttsLanguage) (lanes anyOwner) initial process ∧
        Unidentified cartId process)
      ⟨h, hunidentified⟩ fun process action next hnow hmeets hstep => by
        have hnext := hnow.1.step backend_isolated hmeets hstep
        exact ⟨hnext, unidentified_step hnow.1 hstep hnow.2⟩
  exact hinv.2

/-- Once a connect has completed, the cart is traceable to its device, unless a proposal has
built it; no later step makes up for that. -/
theorem traceable_iff_connected
    (h : Run (Machine.step (backend ttsLanguage)) (submitsFit (lanes anyOwner)) (.create Store.empty)
      actions process) (hensured : Ensured cartId process) :
    Traceable cartId process.state ↔ Run (Machine.step (backend ttsLanguage))
      (submitsFitConnected cartId) (.create Store.empty) actions process := by
  constructor
  · rintro ⟨cart, device, hcart, hdevice, -⟩
    rcases h.meets_or_breaks (fun process action => ¬buildsCart cartId process action) with hmeets |
      ⟨earlier, middle, action, next, later, -, hearlier, hfits, hbuilds, hstep, hlater⟩
    · exact hmeets
    · have hmiddle := backend_serial Store.keyed_empty hearlier
      have hnext := hmiddle.step backend_isolated hfits hstep
      obtain ⟨last, hlast, hnone⟩ := run_unidentified hnext hlater
        (builds_unidentified hmiddle hstep (not_not.mp hbuilds))
      rw [hcart] at hlast
      cases hlast
      rw [hdevice] at hnone
      cases hnone
  · intro hmeets
    obtain ⟨cart, hcart⟩ := Option.isSome_iff_exists.mp (run_stored h hensured)
    obtain ⟨device, hdevice⟩ := Option.ne_none_iff_exists'.mp (run_identified hmeets cart hcart)
    rw [← lossyBackend_never] at h
    refine ⟨cart, device, hcart, hdevice, (run_wellIndexed wellIndexed_empty h).mem_devices.mpr ?_⟩
    rw [deviceOf, hcart]
    exact hdevice

end

theorem ensured_of_last {process : Process} {cartId : CartId} {e : ClientConnected}
    (h : ((process.lanes (.apply cartId)).history.map fun job =>
      (job.job, job.result.toBool)).getLast? = some (.ensureCart e, true)) :
    Ensured cartId process := by
  obtain ⟨job, hmem, hjob⟩ := List.mem_map.mp (List.mem_of_getLast? h)
  obtain ⟨hconnect, hok⟩ := Prod.mk.inj hjob
  refine ⟨job, hmem, ⟨e, hconnect⟩, ?_⟩
  cases hresult : job.result with
  | ok _ => rfl
  | error error =>
      rw [hresult] at hok
      cases hok

/-- The device connects, and its cart is traceable. -/
theorem traceable_iff_connected_created :
    ∃ process, Ensured "cart-1" process ∧ Traceable "cart-1" process.state := by
  have hrun : ∃ process, Run (Machine.step (backend "en")) (submitsFitConnected "cart-1")
      (.create Store.empty) (connectSteps (.ok ())) process ∧
      decide (((process.lanes (.apply "cart-1")).history.map fun job =>
        (job.job, job.result.toBool)).getLast? = some (.ensureCart connected, true)) = true :=
    exists_run (by decide +kernel)
  obtain ⟨process, hrun, hholds⟩ := hrun
  have hensured : Ensured "cart-1" process := ensured_of_last (of_decide_eq_true hholds)
  exact ⟨process, hensured,
    (traceable_iff_connected (hrun.mono fun _ _ hmeets => hmeets.1) hensured).mpr hrun⟩

/-! ## A connect that failed -/

/-- The jobs of a lane, in the order in which they were submitted. -/
def submitted (process : Process) (lane : LaneKey) : List Job :=
  (process.lanes lane).history.map Finished.job ++
    ((process.lanes lane).running.map Running.job).toList ++ (process.lanes lane).queue.map Prod.snd

/-- A connect of the cart precedes every proposal on it. -/
def ConnectsFirst (cartId : CartId) (process : Process) : Prop :=
  ∀ earlier proposal sessionId later,
    submitted process (.apply cartId) = earlier ++ .applyProposal proposal sessionId :: later →
      ∃ e, .ensureCart e ∈ earlier

/-- A later connect finds the cart and leaves it as it is. -/
def reconnectSteps : List Action :=
  [.submit (.apply "cart-1") (.ensureCart connected), .begin (.apply "cart-1"),
    .reply (.apply "cart-1") (.getCart "cart-1") (.ok (some colaCart)), .finish (.apply "cart-1")]

/-- The first connect fails to write the cart, a proposal builds it, and the second connect
completes: the cart names no device. -/
theorem connect_untraceable :
    ∃ process, Run (Machine.step (backend "en")) (submitsFit (lanes anyOwner))
        (.create Store.empty)
        (connectSteps (.error (.infrastructure "redis is down")) ++
          .submit (.apply "cart-1") (.applyProposal addCola none) :: addColaSteps ++ reconnectSteps)
        process ∧
      ConnectsFirst "cart-1" process ∧ Ensured "cart-1" process ∧
      ¬Traceable "cart-1" process.state := by
  have hrun : ∃ process, Run (Machine.step (backend "en")) (submitsFit (lanes anyOwner))
      (.create Store.empty)
      (connectSteps (.error (.infrastructure "redis is down")) ++
        .submit (.apply "cart-1") (.applyProposal addCola none) :: addColaSteps ++ reconnectSteps)
      process ∧
      decide (submitted process (.apply "cart-1") =
          [.ensureCart connected, .applyProposal addCola none, .ensureCart connected] ∧
        ((process.lanes (.apply "cart-1")).history.map fun job =>
          (job.job, job.result.toBool)).getLast? = some (.ensureCart connected, true) ∧
        process.state.carts "cart-1" = some colaCart) = true := exists_run (by decide +kernel)
  obtain ⟨process, hrun, hholds⟩ := hrun
  obtain ⟨hjobs, hlast, hstored⟩ := of_decide_eq_true hholds
  refine ⟨process, hrun, fun earlier proposal sessionId later heq => ?_, ensured_of_last hlast, ?_⟩
  · rw [hjobs] at heq
    cases earlier with
    | nil => cases heq
    | cons first earlier =>
        have hfirst : .ensureCart connected = first := (List.cons.inj heq).1
        exact ⟨connected, hfirst ▸ List.mem_cons_self⟩
  · rintro ⟨cart, device, hcart, hdevice, -⟩
    rw [hstored] at hcart
    cases hcart
    cases hdevice

end VoiceOrder.CartModule
