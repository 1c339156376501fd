import VoiceOrder.Async.Delivery
import VoiceOrder.CartModule.Idempotency
import VoiceOrder.CartModule.OrderRefinement

/-! # What a turn knows of the turn before it

The turn queue lets a turn begin when the turn before it has ended, and the proposal of that
turn has then only been submitted to the lane in which the cart's applies run. -/

namespace VoiceOrder.Ordering

open Async Runs VoiceOrder.CartModule VoiceOrder.Backend

/-- The proposals that were emitted, with the session that hears of their outcome. -/
def proposals (trace : Trace) : List (SessionId × OrderProposal) :=
  (published trace).filterMap fun
    | .operationsProposed sessionId proposal => some (sessionId, proposal)
    | _ => none

def applyJob (proposed : SessionId × OrderProposal) : Job :=
  .applyProposal proposed.2 (some proposed.1)

abbrev Attempted : Type := Finished Answer Event AppError Job Store

/-- The attempt at a proposal has come to an end, and the cart that was read shows it. -/
structure Reflected (cartId : CartId) (found : Option Cart) (proposed : SessionId × OrderProposal)
    (attempt : Attempted) : Prop where
  job : attempt.job = applyJob proposed
  ended : Ended anyOwner (attempt.before.restrict anyOwner cartId) proposed.2 (some proposed.1)
    (attempt.after.restrict anyOwner cartId) attempt.entries
  seen : ∀ left, attempt.after.carts cartId = some left →
    ∃ cart, found = some cart ∧ cart.Succeeds left

/-- Each proposal of the last turn that has ended is reflected in the cart that was read. -/
def Fresh (cartId : CartId) (process : Process) (found : Option Cart) : Prop :=
  ∀ previous ∈ (process.lanes (.turns cartId)).history.getLast?,
    List.Forall₂ (fun id proposed => ∃ attempt ∈ (process.lanes (.apply cartId)).history,
      attempt.id = id ∧ Reflected cartId found proposed attempt)
      previous.submitted (proposals previous.entries)

/-- What the last turn submitted does not wait for the lock of the cart and does not hold it. -/
def Unlocked (cartId : CartId) (process : Process) : Prop :=
  ∀ previous ∈ (process.lanes (.turns cartId)).history.getLast?,
    ∀ id ∈ previous.submitted, ∀ entry ∈ (process.lanes (.apply cartId)).pending, entry.1 ≠ id

instance (cartId : CartId) (process : Process) : Decidable (Unlocked cartId process) :=
  inferInstanceAs (Decidable (∀ previous ∈ (process.lanes (.turns cartId)).history.getLast?,
    ∀ id ∈ previous.submitted, ∀ entry ∈ (process.lanes (.apply cartId)).pending, entry.1 ≠ id))

/-! ## The proposals of a turn -/

section

variable {ttsLanguage : LangCode} {cartId : CartId} {initial : Store} {process next : Process}
  {action : Action} {actions : List Action} {found : Option Cart} {trace : Trace}

theorem reactions_proposals :
    (backend ttsLanguage).reactions trace =
      (proposals trace).map fun proposed => ((applyJob proposed).lane, applyJob proposed) := by
  have hevents : ∀ events : List Event, events.flatMap (backend ttsLanguage).react =
      (events.filterMap fun
        | .operationsProposed sessionId proposal => some (sessionId, proposal)
        | _ => none).map fun proposed => ((applyJob proposed).lane, applyJob proposed) := by
    intro events
    induction events with
    | nil => rfl
    | cons event events ih =>
        rw [List.flatMap_cons, ih]
        cases event with
        | _ => rfl
  exact hevents (published trace)

/-- A turn proposes for its own cart only. -/
theorem turn_proposals (h : AllSerial (backend ttsLanguage) (lanes anyOwner) initial process)
    {turn : Attempted} (hturn : turn ∈ (process.lanes (.turns cartId)).history) :
    ∀ proposed ∈ proposals turn.entries, proposed.2.cartId = cartId := by
  obtain ⟨view, hchain⟩ := (h (.turns cartId)).chain
  obtain ⟨earlier, later, heq⟩ := List.append_of_mem hturn
  obtain ⟨-, hfits, hrest, last, -, hexec⟩ := hchain.at heq
  have hholds : Holds (laneHandle anyOwner (.turns cartId)) (footprint anyOwner (.turns cartId))
      (fun _ _ => True) (fun _ view _ => (lanes anyOwner).rest (.turns cartId) view)
      (turn.job.program ttsLanguage) ((lanes anyOwner).view (.turns cartId) turn.before) [] :=
    job_holds hfits hrest
  have hevents := hholds.emitted hexec
  intro proposed hmem
  obtain ⟨event, hevent, hproposed⟩ := List.mem_filterMap.mp hmem
  have hallowed := hevents event hevent
  split at hproposed
  · cases hproposed
    exact hallowed.1
  · cases hproposed

/-! ## What a cart shows -/

/-- The stored cart is as recent as each finished job has left it. -/
def Current (cartId : CartId) (process : Process) : Prop :=
  ∀ job ∈ (process.lanes (.apply cartId)).history, ∀ left, job.after.carts cartId = some left →
    ∃ cart, process.state.carts cartId = some cart ∧ cart.Succeeds left

theorem Current.step (h : Current cartId process)
    (hserial : AllSerial (backend ttsLanguage) (lanes anyOwner) initial process)
    (hstep : process.step (backend ttsLanguage) action = some next) : Current cartId next := by
  intro job hjob left hleft
  obtain ⟨ended, hhistory, hended⟩ := Machine.step_history hstep (.apply cartId)
  rw [hhistory] at hjob
  rcases List.mem_append.mp hjob with hold | hnew
  · obtain ⟨cart, hcart, hsucceeds⟩ := h job hold left hleft
    rcases backend_order_step hserial hstep cartId with ⟨-, hsame⟩ | ⟨write, -, horder⟩
    · exact ⟨cart, (congrArg Order.cart hsame).trans hcart, hsucceeds⟩
    · obtain ⟨later, hlater, hsucceeds'⟩ := Order.succeeds_step horder hcart
      exact ⟨later, hlater, hsucceeds'.trans hsucceeds⟩
  · obtain ⟨hafter, hstate⟩ := hended job hnew
    rw [hafter, ← hstate] at hleft
    exact ⟨left, hleft, .refl left⟩

/-- What holds in every state of the backend. -/
structure Known (ttsLanguage : LangCode) (initial : Store) (process : Process) : Prop where
  serial : AllSerial (backend ttsLanguage) (lanes anyOwner) initial process
  delivered : Delivered (backend ttsLanguage) process
  current : ∀ cartId, Current cartId process

theorem known_run (hkeyed : ∀ cartId, initial.Keyed cartId)
    (h : Run (Machine.step (backend ttsLanguage)) (submitsFit (lanes anyOwner)) (.create initial)
      actions process) : Known ttsLanguage initial process := by
  refine h.invariant (Known ttsLanguage initial) ⟨create_serial (lanes_rest hkeyed),
    create_delivered initial, fun _ _ hmem => (nomatch hmem)⟩ ?_
  intro process action next hknown hsubmits hstep
  have hserial := hknown.serial.step backend_isolated hsubmits hstep
  exact ⟨hserial, hknown.delivered.step hstep,
    fun cartId => (hknown.current cartId).step hknown.serial hstep⟩

/-- A turn reads the stored cart. -/
theorem Known.read (h : Known ttsLanguage initial process) {asked : CartId}
    (hread : process.step (backend ttsLanguage) (.reply (.turns cartId) (.getCart asked) (.ok found)) =
      some next) : found = process.state.carts cartId := by
  obtain ⟨running, resume, hrunning, hawait, hhandle, -⟩ := Machine.reply_some hread
  have hholds := (h.serial (.turns cartId)).holds backend_isolated hrunning
  rw [hawait] at hholds
  have hasked : asked = cartId := hholds.2.1
  exact hasked ▸ handle_getCart hhandle

/-- An attempt that has ended is reflected in the stored cart. -/
theorem Known.reflected (h : Known ttsLanguage initial process)
    {proposed : SessionId × OrderProposal} {attempt : Attempted}
    (hattempt : attempt ∈ (process.lanes (.apply cartId)).history)
    (hjob : attempt.job = applyJob proposed) :
    Reflected cartId (process.state.carts cartId) proposed attempt := by
  obtain ⟨view, hchain⟩ := (h.serial (.apply cartId)).chain
  obtain ⟨earlier, later, heq⟩ := List.append_of_mem hattempt
  obtain ⟨-, hfits, hrest, last, hresult, hexec⟩ := hchain.at heq
  rw [hjob] at hfits hexec
  exact ⟨hjob, (attempt_ended hfits hrest hexec hresult).2, h.current cartId attempt hattempt⟩

theorem Fresh.unlocked (h : Fresh cartId process found)
    (hdelivered : Delivered (backend ttsLanguage) process) : Unlocked cartId process := by
  intro previous hprevious id hid entry hentry
  have hended : ∃ attempt ∈ (process.lanes (.apply cartId)).history, attempt.id = id := by
    have hfresh := h previous hprevious
    generalize previous.submitted = ids at hfresh hid
    generalize proposals previous.entries = proposed at hfresh
    revert hid
    induction hfresh with
    | nil => exact fun hmem => (nomatch hmem)
    | cons hfirst _ ih =>
        intro hmem
        rcases List.mem_cons.mp hmem with rfl | hrest
        · obtain ⟨attempt, hattempt, hid, -⟩ := hfirst
          exact ⟨attempt, hattempt, hid⟩
        · exact ih hrest
  obtain ⟨attempt, hattempt, rfl⟩ := hended
  exact (hdelivered.numbered (.apply cartId)).ended hattempt hentry

theorem Known.fresh (h : Known ttsLanguage initial process) (hunlocked : Unlocked cartId process) :
    Fresh cartId process (process.state.carts cartId) := by
  intro previous hprevious
  have hturn := List.mem_of_getLast? hprevious
  have hplaced := (h.delivered.delivers (.turns cartId)).finished previous hturn
  rw [Placed, reactions_proposals, List.forall₂_map_right_iff, List.forall₂_iff_zip] at hplaced
  refine List.forall₂_iff_zip.mpr ⟨hplaced.1, fun {id proposed} hmem => ?_⟩
  obtain ⟨hid, hproposed⟩ := List.of_mem_zip hmem
  have hlane : (applyJob proposed).lane = .apply cartId :=
    congrArg LaneKey.apply (turn_proposals h.serial hturn proposed hproposed)
  have hjob := hplaced.2 hmem
  rw [hlane] at hjob
  -- A job that is not pending has run.
  rcases List.mem_append.mp hjob with hended | hpending
  · obtain ⟨attempt, hattempt, heq⟩ := List.mem_map.mp hended
    obtain ⟨hsame, hjob⟩ := Prod.mk.inj heq
    exact ⟨attempt, hattempt, hsame, h.reflected hattempt hjob⟩
  · exact (hunlocked previous hprevious id hid _ hpending rfl).elim

/-- In every run, when a turn reads its cart, the proposal of the turn before it is reflected in
what is read if and only if its attempt neither waits for the lock of the cart nor holds it. -/
theorem turn_reads_fresh (hkeyed : ∀ cartId, initial.Keyed cartId)
    (h : Run (Machine.step (backend ttsLanguage)) (submitsFit (lanes anyOwner)) (.create initial)
      actions process) {asked : CartId}
    (hread : process.step (backend ttsLanguage) (.reply (.turns cartId) (.getCart asked) (.ok found)) =
      some next) : Fresh cartId process found ↔ Unlocked cartId process := by
  have hknown := known_run hkeyed h
  constructor
  · exact fun hfresh => hfresh.unlocked hknown.delivered
  · intro hunlocked
    rw [hknown.read hread]
    exact hknown.fresh hunlocked

end

/-! ## A slow quote and the next turn -/

/-- Submit a transcript, and follow its turn to the cart. -/
def turnToCartSteps (requestId : RequestId) (text : String) (history : List HistoryTurn) :
    List Action :=
  [.submit (.turns "cart-1") (.turn ⟨requestId, "session-1", "cart-1", 1, text⟩),
    .begin (.turns "cart-1"), .reply (.turns "cart-1") (.readHistory 1 "cart-1") (.ok history),
    .reply (.turns "cart-1") (.completeIntent text) (.ok (some .service))]

/-- The customer orders a cola, and the turn ends with the proposal. -/
def colaTurnSteps : List Action :=
  turnToCartSteps "request-1" "one cola" [] ++
    [.reply (.turns "cart-1") (.getCart "cart-1") (.ok none),
      .reply (.turns "cart-1") .nowIso (.ok "noon"),
      .reply (.turns "cart-1") (.getItems 1 []) (.ok []),
      .reply (.turns "cart-1") (.runAgent "one cola" [] ⟨"cart-1", 1, 0, []⟩)
        (.ok (.proposed [.addItem "cola" 1 []] none)),
      .reply (.turns "cart-1") (.appendHistory 1 "cart-1" ⟨"one cola", none⟩) (.ok ()),
      .emit (.turns "cart-1"), .finish (.turns "cart-1")]

/-- Once the cola is in the cart, the next turn reads it. -/
theorem turn_reads_fresh_cola :
    ∃ process, Fresh "cart-1" process (some colaCart) ∧
      (process.step (backend "en")
        (.reply (.turns "cart-1") (.getCart "cart-1") (.ok (some colaCart)))).isSome = true := by
  have hrun : ∃ process, Run (Machine.step (backend "en")) (submitsFit (lanes anyOwner))
      (.create Store.empty)
      (colaTurnSteps ++ addColaSteps ++ turnToCartSteps "request-2" "make it two"
        [⟨"one cola", none⟩]) process ∧
      decide (Unlocked "cart-1" process ∧ (process.step (backend "en")
        (.reply (.turns "cart-1") (.getCart "cart-1") (.ok (some colaCart)))).isSome = true) = true :=
    exists_run (by decide +kernel)
  obtain ⟨process, hrun, hholds⟩ := hrun
  obtain ⟨hunlocked, hread⟩ := of_decide_eq_true hholds
  obtain ⟨next, hnext⟩ := Option.isSome_iff_exists.mp hread
  exact ⟨process, (turn_reads_fresh Store.keyed_empty hrun hnext).mpr hunlocked, hread⟩

/-- While Odoo takes its time to quote the cola, the next turn reads a cart without it. -/
theorem turn_reads_stale :
    ∃ process next, Run (Machine.step (backend "en")) (submitsFit (lanes anyOwner))
        (.create Store.empty)
        (colaTurnSteps ++ addColaSteps.take 8 ++ turnToCartSteps "request-2" "make it two"
          [⟨"one cola", none⟩]) process ∧
      process.step (backend "en") (.reply (.turns "cart-1") (.getCart "cart-1") (.ok none)) =
        some next ∧ ¬Fresh "cart-1" process none := by
  have hrun : ∃ process, Run (Machine.step (backend "en")) (submitsFit (lanes anyOwner))
      (.create Store.empty)
      (colaTurnSteps ++ addColaSteps.take 8 ++ turnToCartSteps "request-2" "make it two"
        [⟨"one cola", none⟩]) process ∧
      decide (¬Unlocked "cart-1" process ∧ (process.step (backend "en")
        (.reply (.turns "cart-1") (.getCart "cart-1") (.ok none))).isSome = true) = true :=
    exists_run (by decide +kernel)
  obtain ⟨process, hrun, hholds⟩ := hrun
  obtain ⟨hlocked, hread⟩ := of_decide_eq_true hholds
  obtain ⟨next, hnext⟩ := Option.isSome_iff_exists.mp hread
  exact ⟨process, next, hrun, hnext, fun hfresh => hlocked (hfresh.unlocked (delivered_of_run hrun))⟩

end VoiceOrder.Ordering
