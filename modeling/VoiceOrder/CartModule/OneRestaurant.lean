import VoiceOrder.CartModule.Traceability
import VoiceOrder.CartModule.MenuSources

/-! # One restaurant per cart

A proposal is resolved and priced against the menu of its own restaurant; the quote and the
insert name the restaurant of the stored cart. Nothing compares the two. -/

namespace VoiceOrder.CartModule

open Async Runs VoiceOrder.Backend

/-- Every line of the cart was resolved and priced against the menu of the restaurant that the
requests to Odoo name. -/
structure OneRestaurant (cart : Cart) (trace : Trace) : Prop where
  lines : Sourced cart.posConfigId trace cart.items
  quote : (toQuoteRequest cart).posConfigId = cart.posConfigId
  insert : (toInsertCartRequest cart).posConfigId = cart.posConfigId

/-- The proposal that a lane is applying. -/
def applying? (cartId : CartId) (process : Process) : Option OrderProposal :=
  (process.lanes (.apply cartId)).running.bind fun running =>
    match running.job with
    | .applyProposal proposal _ => some proposal
    | _ => none

/-- A proposal that is committed over a stored cart names the restaurant of that cart. -/
def keepsRestaurant (cartId : CartId) (process : Process) : Action → Prop
  | .reply (.apply own) (.commitApplied _ _) (.ok _) =>
      own = cartId → ∀ proposal ∈ applying? cartId process,
        ∀ stored ∈ process.state.carts cartId, proposal.posConfigId = stored.posConfigId
  | _ => True

theorem keepsRestaurant_iff (cartId : CartId) (process : Process) (action : Action) :
    (∀ own ∈ appliedTo? action, own = cartId → ∀ proposal ∈ applying? cartId process,
      ∀ stored ∈ process.state.carts cartId, proposal.posConfigId = stored.posConfigId) ↔
        keepsRestaurant cartId process action := by
  unfold appliedTo? keepsRestaurant
  split <;> simp

instance (cartId : CartId) (process : Process) (action : Action) :
    Decidable (keepsRestaurant cartId process action) :=
  decidable_of_iff _ (keepsRestaurant_iff cartId process action)

def submitsFitAtHome (cartId : CartId) (process : Process) (action : Action) : Prop :=
  submitsFit (lanes anyOwner) process action ∧ keepsRestaurant cartId process action

instance (cartId : CartId) (process : Process) (action : Action) :
    Decidable (submitsFitAtHome cartId process action) :=
  inferInstanceAs (Decidable (_ ∧ _))

/-! ## What a proposal commits -/

/-- The lines of a committed cart come from the menu of its restaurant if those of the cart that
the proposal found do, and the proposal names that restaurant. -/
def CommitSourced (before : Store) (proposal : OrderProposal) (trace : Trace) : Prop :=
  ∀ cart requestId, Call.commitApplied cart requestId ∈ landed trace →
    ∃ base, Base before proposal base ∧ cart.posConfigId = base.posConfigId ∧
      (proposal.posConfigId = base.posConfigId → ∀ earlier,
        Sourced base.posConfigId earlier base.items →
          Sourced base.posConfigId (earlier ++ trace) cart.items)

section

variable {before : Store} {proposal : OrderProposal} {trace later : Trace} {cartId : CartId}

theorem commitSourced_none (h : landed trace = []) : CommitSourced before proposal trace :=
  fun _ _ hmem => by
    rw [h] at hmem
    cases hmem

theorem CommitSourced.append (h : CommitSourced before proposal trace) (hlater : landed later = []) :
    CommitSourced before proposal (trace ++ later) := by
  intro cart requestId hmem
  rw [landed_append, hlater, List.append_nil] at hmem
  obtain ⟨base, hbase, hcart, hsourced⟩ := h cart requestId hmem
  refine ⟨base, hbase, hcart, fun hpos earlier hearlier => (hsourced hpos earlier hearlier).mono ?_⟩
  rw [← List.append_assoc]
  exact List.subset_append_left _ _

/-- What an attempt keeps to, whatever it hears. -/
abbrev CommitsSourced {α : Type} (before : Store) (proposal : OrderProposal) (program : Promise α)
    (view : Store) (trace : Trace) : Prop :=
  OnLane anyOwner proposal.cartId (fun _ trace => CommitSourced before proposal trace)
    (fun _ _ _ => True) program view trace

theorem fetches_bind {α β : Type} {program : Promise α} {next : α → Promise β}
    {returns : Trace → α → Prop} (hlocal : before.Local anyOwner proposal.cartId)
    (htrace : Quiet trace) (h : Fetches Call.Lookup program returns)
    (hnext : ∀ fetched value, returns fetched value → Quiet (trace ++ fetched) →
      CommitsSourced before proposal (next value) before (trace ++ fetched)) :
    CommitsSourced before proposal (program >>= next) before trace := by
  have hquiet : ∀ fetched, Fetched Call.Lookup fetched → Quiet (trace ++ fetched) :=
    fun fetched hfetched => htrace.append (.fetched hfetched)
  refine .bind (.fetches h (fun call hcall => ?_)
    (fun call reply next hcall => laneHandle_reads hlocal hcall.writes)
    (fun fetched hfetched => commitSourced_none (hquiet fetched hfetched).landed)
    (fun value fetched hreturns hfetched => hnext fetched value hreturns (hquiet fetched hfetched))
    fun call error fetched hcall hfetched => ⟨commitSourced_none ?_, trivial⟩)
  · cases call with
    | resolveItemKey | findByTmplId | getItems | newLineId | nowIso => trivial
    | _ => exact hcall.elim
  · exact ((hquiet fetched hfetched).failed hcall.bestEffort error).landed

theorem looks_sourced_bind {α β : Type} {program : Promise α} {next : α → Promise β}
    {returns : α → Prop}
    (h : OnLane anyOwner proposal.cartId (fun _ trace => CommitSourced before proposal trace)
      (Looks before returns) program before trace)
    (hnext : ∀ value trace, returns value → Quiet trace →
      CommitsSourced before proposal (next value) before trace) :
    CommitsSourced before proposal (program >>= next) before trace :=
  looks_bind h hnext fun _ _ _ => trivial

/-- What is computed from the answer commits nothing more. -/
theorem commitsSourced_map {α β : Type} {program : Promise α} (value : α → β)
    (h : CommitsSourced before proposal program before trace) :
    CommitsSourced before proposal (do let answer ← program; pure (value answer)) before trace := by
  refine .bind (h.mono (fun _ _ hnow => hnow) fun result _ _ hnow _ => ?_)
  cases result with
  | ok _ => exact ⟨hnow, trivial⟩
  | error error => trivial

theorem markProcessed_sourced {α : Type} (value : α) (hlocal : before.Local anyOwner proposal.cartId)
    (htrace : Quiet trace) :
    CommitsSourced before proposal
      (do ask (.markProcessed proposal.requestId .rejected); pure value) before trace := by
  have hmark : CommitsSourced before proposal (ask (.markProcessed proposal.requestId .rejected))
      before trace := by
    refine writes_call hlocal (fun _ h => commitSourced_none h) htrace trivial rfl
      (fun _ after trace _ hwrote => ⟨fun cart requestId hmem => ?_, trivial⟩) fun _ _ _ => trivial
    rw [hwrote.landed] at hmem
    cases List.mem_singleton.mp hmem
  exact commitsSourced_map (fun _ => value) hmark

/-- The commit of the quoted cart, once its lines are known to come from the menu. -/
theorem commitApplied_sourced {base quoted : Cart} {requestId : RequestId} (htrace : Quiet trace)
    (hbase : Base before proposal base) (hcart : quoted.cartId = proposal.cartId)
    (hpos : quoted.posConfigId = base.posConfigId)
    (hsourced : ∀ step : Step, proposal.posConfigId = base.posConfigId → ∀ earlier,
      Sourced base.posConfigId earlier base.items →
        Sourced base.posConfigId (earlier ++ (trace ++ [step])) quoted.items) :
    CommitsSourced before proposal (ask (.commitApplied quoted requestId)) before trace := by
  refine .call (commitSourced_none htrace.landed) ⟨hcart, trivial⟩
    fun reply next hnext => ⟨fun cart committed hmem => ?_, trivial⟩
  cases reply with
  | error error =>
      rw [landed_append, htrace.landed] at hmem
      cases hmem
  | ok _ =>
      rw [landed_append, htrace.landed] at hmem
      cases List.mem_singleton.mp hmem
      exact ⟨base, hbase, hpos, hsourced _⟩

/-- The quote names the restaurant of the cart. -/
theorem requoted_sourced {post : Except AppError Cart → Store → Trace → Prop} (sent : Cart)
    (hlocal : before.Local anyOwner proposal.cartId) (htrace : Quiet trace)
    (hpost : ∀ quoted later, quoted.header = sent.header → Quiet later →
      (∀ earlier, Sourced sent.posConfigId (earlier ++ trace) sent.items →
        Sourced sent.posConfigId (earlier ++ later) quoted.items) → post (.ok quoted) before later) :
    OnLane anyOwner proposal.cartId (fun _ trace => CommitSourced before proposal trace) post
      (requoted sent) before trace := by
  refine .bind (.attempt (.call (commitSourced_none htrace.landed) trivial
    fun reply next hnext => ?_))
  obtain rfl : next = before := laneHandle_reads hlocal rfl hnext
  have hquiet : Quiet (trace ++ [.called (.quoteCart sent) reply]) := by
    cases reply with
    | error error => exact htrace.append ⟨rfl, rfl, rfl⟩
    | ok quote => exact htrace.called rfl quote
  have hnow : CommitSourced next proposal (trace ++ [.called (.quoteCart sent) reply]) :=
    commitSourced_none hquiet.landed
  have hlonger : ∀ earlier items, Sourced sent.posConfigId (earlier ++ trace) items →
      Sourced sent.posConfigId (earlier ++ (trace ++ [.called (.quoteCart sent) reply])) items :=
    fun earlier items hearlier => by
      rw [← List.append_assoc]
      exact hearlier.mono (List.subset_append_left _ _)
  have hsame : post (.ok sent) next (trace ++ [.called (.quoteCart sent) reply]) :=
    hpost sent _ rfl hquiet fun earlier hearlier => hlonger earlier _ hearlier
  cases reply with
  | error error => exact ⟨hnow, hnow, hsame⟩
  | ok quote =>
      refine ⟨hnow, ?_⟩
      cases hquote : applyQuoteToCart sent quote with
      | error message => simpa [hquote] using ⟨hnow, hsame⟩
      | ok quoted =>
          have hread : ∀ earlier : Trace, .called (.quoteCart sent) (.ok quote) ∈
              earlier ++ (trace ++ [.called (.quoteCart sent) (.ok quote)]) := fun earlier =>
            List.mem_append_right _ (List.mem_append_right _ (List.mem_singleton.mpr rfl))
          have hquoted := hpost quoted _ (applyQuoteToCart_header hquote) hquiet
            fun earlier hearlier => quoted_sourced rfl (hread earlier) hquote (hlonger earlier _ hearlier)
          simpa [hquote] using ⟨hnow, hquoted⟩

theorem persistProposal_sourced (hlocal : before.Local anyOwner proposal.cartId)
    (hkeyed : before.Keyed proposal.cartId) :
    CommitsSourced before proposal (persistProposal proposal) before [] := by
  have halways : ∀ trace, landed trace = [] → CommitSourced before proposal trace :=
    fun _ h => commitSourced_none h
  have hasked : OnLane anyOwner proposal.cartId (fun _ trace => CommitSourced before proposal trace)
      (Looks before fun _ => True) (ask (.wasProcessed proposal.requestId)) before [] :=
    looks_call hlocal halways .nil trivial rfl rfl fun _ _ _ => trivial
  refine looks_sourced_bind hasked fun processed trace _ htrace => ?_
  cases processed with
  | true => exact ⟨halways _ htrace.landed, trivial⟩
  | false =>
      refine looks_sourced_bind (cartOrEmpty_looks _ _ hlocal halways htrace)
        fun base trace hbase htrace => ?_
      cases hconfirmed : base.confirmedAt with
      | some confirmedAt =>
          simp only [Option.isSome_some, if_true]
          exact markProcessed_sourced _ hlocal htrace
      | none =>
          refine fetches_bind hlocal htrace
            ((applyOperations_reads _ _ _).fetches.and (applyOperations_sourced _ _ _))
            fun fetched folded hfolded hquiet => ?_
          obtain ⟨hheader, hsourced⟩ := hfolded
          split
          · refine .bind (requoted_sourced _ hlocal hquiet fun quoted later hquoted hlater hlines => ?_)
            have hpos : folded.cart.posConfigId = base.posConfigId :=
              congrArg Header.posConfigId hheader
            have hcart : quoted.cartId = proposal.cartId :=
              (congrArg Header.cartId hquoted).trans
                ((congrArg Header.cartId hheader).trans (Base.cartId hbase hkeyed))
            have hcommitted : ∀ step : Step, proposal.posConfigId = base.posConfigId → ∀ earlier,
                Sourced base.posConfigId earlier base.items →
                Sourced base.posConfigId (earlier ++ (later ++ [step])) quoted.items := by
              intro step hsame earlier hearlier
              have hfolded : Sourced base.posConfigId (earlier ++ (trace ++ fetched))
                  folded.cart.items := by
                rw [← List.append_assoc, ← hsame]
                exact hsourced _ ((hsame ▸ hearlier).mono (List.subset_append_left _ _))
              rw [← hpos] at hfolded ⊢
              rw [← List.append_assoc]
              exact (hlines earlier hfolded).mono (List.subset_append_left _ _)
            exact commitsSourced_map _ (commitApplied_sourced hlater hbase hcart
              ((congrArg Header.posConfigId hquoted).trans hpos) hcommitted)
          · exact markProcessed_sourced _ hlocal hquiet

theorem applyProposal_sourced (sessionId : Option SessionId)
    (hlocal : before.Local anyOwner proposal.cartId) (hkeyed : before.Keyed proposal.cartId) :
    CommitsSourced before proposal (applyProposal proposal sessionId) before [] := by
  refine .bind (.attempt ((persistProposal_sourced hlocal hkeyed).mono (fun _ _ hnow => hnow)
    fun result view trace hnow _ => ?_))
  cases result with
  | error error => exact .send hnow trivial ⟨hnow.append rfl, trivial⟩
  | ok persisted =>
      cases persisted with
      | none => exact ⟨hnow, trivial⟩
      | some persisted =>
          exact publish_holds _ (outcomeEvents_allowed persisted)
            (fun later => hnow.append (landed_emit later)) trivial

/-- Only proposals commit carts that they have folded. -/
theorem job_sourced {job : Job} {view : Store} {last : Promise Unit} {ttsLanguage : LangCode}
    (hfits : fits anyOwner (.apply cartId) job) (hrest : AtRest anyOwner cartId before)
    (h : Executes (laneHandle anyOwner (.apply cartId)) (job.program ttsLanguage) before trace last
      view) {cart : Cart} {requestId : RequestId}
    (hcommit : Call.commitApplied cart requestId ∈ landed trace) :
    ∃ proposal sessionId, job = .applyProposal proposal sessionId ∧ proposal.cartId = cartId ∧
      CommitSourced before proposal trace := by
  have heffect := job_effect hfits hrest h
  obtain ⟨hlane, -⟩ := hfits
  cases job with
  | ensureCart e =>
      cases heffect with
      | untouched h' => simp [h'.landed] at hcommit
      | created now created _ _ _ hlanded => simp [hlanded] at hcommit
  | applyProposal proposal sessionId =>
      cases hlane
      have hsourced := ((applyProposal_sourced sessionId hrest.2 hrest.1).executes h).now
      exact ⟨proposal, sessionId, rfl, rfl, by simpa using hsourced⟩
  | confirm asked =>
      cases heffect with
      | untouched h' => simp [h'.landed] at hcommit
      | handedOver handed _ hlanded => simp [hlanded] at hcommit
      | confirmed confirmed _ _ _ _ _ hlanded => simp [hlanded] at hcommit
  | turn e => cases hlane

end

/-! ## Every run -/

section

variable {ttsLanguage : LangCode} {cartId : CartId} {initial : Store} {process next : Process}
  {action : Action} {actions : List Action}

/-- The lines of the stored cart come from the menu of its restaurant. -/
def StoredSourced (cartId : CartId) (process : Process) : Prop :=
  ∀ cart, process.state.carts cartId = some cart →
    Sourced cart.posConfigId (process.lanes (.apply cartId)).entries cart.items

section

variable {trace : Trace} {call : Call} {answer : Answer call}

theorem landed_snoc (hwrites : call.writes = true) :
    landed (trace ++ [.called call (.ok answer)]) = landed trace ++ [call] := by
  rw [landed_append, landed_ok, hwrites]
  rfl

theorem first_write (hwrites : call.writes = true) {write : Call}
    (h : landed (trace ++ [.called call (.ok answer)]) = [write]) : landed trace = [] ∧ call = write := by
  rw [landed_snoc hwrites] at h
  cases hlanded : landed trace with
  | nil =>
      rw [hlanded] at h
      exact ⟨rfl, List.singleton_inj.mp h⟩
  | cons first rest =>
      rw [hlanded] at h
      simp at h

theorem no_write (hwrites : call.writes = true) :
    landed (trace ++ [.called call (.ok answer)]) ≠ [] := by
  rw [landed_snoc hwrites]
  exact List.append_ne_nil_of_right_ne_nil _ (List.cons_ne_nil _ _)

end

/-- An attempt that has written nothing is where it began. -/
theorem attempt_begins {owner : Owner} {before view : Store} {proposal : OrderProposal}
    {trace : Trace} (h : Attempt owner before proposal view trace)
    (hnone : landed trace = []) : view = before := by
  cases h with
  | untouched h => exact h.view
  | committed cart h => simp [h.landed] at hnone
  | rejected h => simp [h.landed] at hnone

/-- The commit of a proposal is its first write. -/
theorem attempt_unwritten {owner : Owner} {before view : Store} {proposal : OrderProposal}
    {trace : Trace} {cart : Cart} {requestId : RequestId}
    (h : Attempt owner before proposal view
      (trace ++ [.called (.commitApplied cart requestId) (.ok ())])) : landed trace = [] := by
  cases h with
  | untouched h => exact (no_write rfl h.landed).elim
  | committed other h => exact (first_write rfl h.landed).1
  | rejected h => exact (first_write rfl h.landed).1

theorem commit_sourced (h : AllSerial (backend ttsLanguage) (lanes anyOwner) initial process)
    (hnext : AllSerial (backend ttsLanguage) (lanes anyOwner) initial next) {cart : Cart}
    {requestId : RequestId}
    (hstep : process.step (backend ttsLanguage)
      (.reply (.apply cartId) (.commitApplied cart requestId) (.ok ())) = some next)
    (hkeeps : keepsRestaurant cartId process
      (.reply (.apply cartId) (.commitApplied cart requestId) (.ok ())))
    (hsourced : StoredSourced cartId process) :
    Sourced cart.posConfigId (next.lanes (.apply cartId)).entries cart.items := by
  obtain ⟨running, resume, hrunning, -, hafter⟩ := Machine.reply_lane hstep
  have hrunning' := congrArg Lane.running hafter
  obtain ⟨hfits, -, hrest, hexec⟩ := (h (.apply cartId)).busy running hrunning
  obtain ⟨-, -, -, hexec'⟩ := (hnext (.apply cartId)).busy _ hrunning'
  have hmem : Call.commitApplied cart requestId ∈
      landed (running.entries ++ [.called (.commitApplied cart requestId) (.ok ())]) := by
    rw [landed_snoc rfl]
    exact List.mem_append_right _ (List.mem_singleton.mpr rfl)
  obtain ⟨proposal, sessionId, hjob, rfl, hcommit⟩ := job_sourced hfits hrest hexec' hmem
  obtain ⟨base, hbase, hpos, hlines⟩ := hcommit cart requestId hmem
  rw [hpos]
  have hentries : (process.lanes (.apply proposal.cartId)).entries ++
      (running.entries ++ [.called (.commitApplied cart requestId) (.ok ())]) ⊆
      (next.lanes (.apply proposal.cartId)).entries := by
    have hhistory : (next.lanes (.apply proposal.cartId)).history =
        (process.lanes (.apply proposal.cartId)).history := by
      rw [hafter]
    intro step hstep
    simp only [Lane.entries, hrunning, hrunning', hhistory, Option.map_some, Option.getD_some,
      List.mem_append] at hstep ⊢
    tauto
  have hbegins : process.state.carts proposal.cartId = running.before.carts proposal.cartId := by
    have hbefore := job_effect hfits hrest hexec
    have hafter := job_effect hfits hrest hexec'
    rw [hjob] at hbefore hafter
    have hview := attempt_begins hbefore (attempt_unwritten hafter)
    rw [← restrict_carts, ← @restrict_carts anyOwner _ running.before]
    exact congrArg (Store.carts · proposal.cartId) hview
  rcases hbase with hstored | ⟨hnone, now, rfl⟩
  · have hstored' : process.state.carts proposal.cartId = some base :=
      hbegins.trans (restrict_carts.symm.trans hstored)
    have hsame : proposal.posConfigId = base.posConfigId :=
      hkeeps rfl proposal (by simp [applying?, hrunning, hjob]) base hstored'
    exact (hlines hsame _ (hsourced base hstored')).mono hentries
  · exact (hlines rfl _ fun _ hline => by cases hline).mono hentries

theorem sourced_step (h : AllSerial (backend ttsLanguage) (lanes anyOwner) initial process)
    (hnext : AllSerial (backend ttsLanguage) (lanes anyOwner) initial next)
    (hstep : process.step (backend ttsLanguage) action = some next)
    (hkeeps : keepsRestaurant cartId process action) (hsourced : StoredSourced cartId process) :
    StoredSourced cartId next := by
  obtain ⟨later, -, hentries⟩ := Machine.step_adds hstep (.apply cartId)
  have hlonger : ∀ {cart : Cart}, process.state.carts cartId = some cart →
      Sourced cart.posConfigId (next.lanes (.apply cartId)).entries cart.items := fun hcart => by
    rw [hentries]
    exact (hsourced _ hcart).mono (List.subset_append_left _ _)
  intro cart hcart
  rcases backend_order_step h hstep cartId with ⟨-, hsame⟩ | ⟨write, hwrite, horder⟩
  · have hcarts : next.state.carts cartId = process.state.carts cartId := congrArg Order.cart hsame
    exact hlonger (hcarts ▸ hcart)
  · have hwritten : (orderOf (fun _ => false) cartId next).cart = some cart := hcart
    generalize orderOf (fun _ => false) cartId next = order at horder hwritten
    cases horder with
    | created e now created hnone hcreated =>
        cases hwritten
        rw [hcreated]
        exact fun _ hline => (nomatch hline)
    | applied base applied requestId hbase _ _ =>
        cases hwritten
        obtain rfl := landedBy_commit hwrite
        exact commit_sourced h hnext hstep hkeeps hsourced
    | marked requestId outcome => exact hlonger hwritten
    | handedOver handed hhanded _ => exact hlonger hwritten
    | confirmed stored posOrderId now hstored _ =>
        cases hwritten
        have hkept := hlonger (show process.state.carts cartId = some stored from hstored)
        exact hkept

/-- From any proposals on the cart, as long as those that are committed over it name its
restaurant: its lines come from the menu of that restaurant. -/
theorem lines_oneRestaurant
    (h : Run (Machine.step (backend ttsLanguage)) (submitsFitAtHome cartId) (.create Store.empty)
      actions process) {cart : Cart} (hcart : process.state.carts cartId = some cart) :
    OneRestaurant cart (process.lanes (.apply cartId)).entries := by
  have hinv : AllSerial (backend ttsLanguage) (lanes anyOwner) Store.empty process ∧
      StoredSourced cartId process :=
    h.invariant
      (fun process => AllSerial (backend ttsLanguage) (lanes anyOwner) Store.empty process ∧
        StoredSourced cartId process)
      ⟨create_serial (lanes_rest Store.keyed_empty), fun _ hstored => (nomatch hstored)⟩
      fun process action next hnow hmeets hstep => by
        have hnext := hnow.1.step backend_isolated hmeets.1 hstep
        exact ⟨hnext, sourced_step hnow.1 hnext hstep hmeets.2 hnow.2⟩
  exact ⟨hinv.2 cart hcart, rfl, rfl⟩

end

/-- A device orders a cola at the restaurant where it has connected. -/
theorem lines_oneRestaurant_home :
    ∃ process : Process, process.state.carts "cart-1" = some deviceCola ∧
      OneRestaurant deviceCola (process.lanes (.apply "cart-1")).entries := by
  have hrun : ∃ process, Run (Machine.step (backend "en")) (submitsFitAtHome "cart-1")
      (.create Store.empty) (connectSteps (.ok ()) ++ deviceColaSteps) process ∧
      decide (process.state.carts "cart-1" = some deviceCola) = true := exists_run (by decide +kernel)
  obtain ⟨process, hrun, hholds⟩ := hrun
  have hstored := of_decide_eq_true hholds
  exact ⟨process, hstored, lines_oneRestaurant hrun hstored⟩

/-! ## A second connection from another restaurant -/

def connectedElsewhere : ClientConnected where
  cartId := "cart-1"
  posConfigId := 2
  sessionId := "session-2"
  deviceId := "device-2"
  tableId := none

/-- The cola of restaurant 2 goes into the cart of restaurant 1. -/
def elsewhereSteps : List Action :=
  [.submit (.apply "cart-1") (.ensureCart connectedElsewhere), .begin (.apply "cart-1"),
    .reply (.apply "cart-1") (.getCart "cart-1") (.ok (some createdCart)), .finish (.apply "cart-1"),
    .submit (.apply "cart-1") (.applyProposal { addCola with posConfigId := 2 } none),
    .begin (.apply "cart-1"), .reply (.apply "cart-1") (.wasProcessed "request-1") (.ok false),
    .reply (.apply "cart-1") (.getCart "cart-1") (.ok (some createdCart)),
    .reply (.apply "cart-1") (.resolveItemKey 2 "cola") (.ok (some cola)),
    .reply (.apply "cart-1") .newLineId (.ok "line-1"),
    .reply (.apply "cart-1") (.getItems 2 [7]) (.ok [cola]),
    .reply (.apply "cart-1") .nowIso (.ok "noon"),
    .reply (.apply "cart-1") (.quoteCart deviceCola) (.error (.infrastructure "odoo is down")),
    .reply (.apply "cart-1") (.commitApplied deviceCola "request-1") (.ok ()),
    .emit (.apply "cart-1"), .finish (.apply "cart-1")]

/-- An item key was resolved against the menu of the restaurant. -/
def resolvesAt (pos : PosConfigId) : Step → Bool
  | .called (.resolveItemKey asked _) _ => asked = pos
  | _ => false

/-- The request to Odoo names restaurant 1, whose menu was never asked. -/
theorem lines_elsewhere :
    ∃ process, Run (Machine.step (backend "en")) (submitsFit (lanes anyOwner))
        (.create Store.empty) (connectSteps (.ok ()) ++ elsewhereSteps) process ∧
      process.state.carts "cart-1" = some deviceCola ∧
      ¬OneRestaurant deviceCola (process.lanes (.apply "cart-1")).entries := by
  have hrun : ∃ process, Run (Machine.step (backend "en")) (submitsFit (lanes anyOwner))
      (.create Store.empty) (connectSteps (.ok ()) ++ elsewhereSteps) process ∧
      decide (process.state.carts "cart-1" = some deviceCola ∧
        (process.lanes (.apply "cart-1")).entries.any (resolvesAt 1) = false) = true :=
    exists_run (by decide +kernel)
  obtain ⟨process, hrun, hholds⟩ := hrun
  obtain ⟨hstored, hunasked⟩ := of_decide_eq_true hholds
  refine ⟨process, hrun, hstored, fun hone => ?_⟩
  obtain ⟨menuItemKey, item, hread, -⟩ :=
    (hone.lines ⟨"line-1", 7, "Cola", [("en_US", "Cola")], 1, [], 250⟩ List.mem_cons_self).1.item
  have hasked := List.any_eq_false.mp hunasked _ hread
  exact hasked rfl

end VoiceOrder.CartModule
