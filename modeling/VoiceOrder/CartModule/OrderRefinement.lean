import VoiceOrder.CartModule.CartSteps
import VoiceOrder.CartModule.Order

/-! # The backend takes every order through its steps

Whatever the other carts do, whatever fails and whichever replies are lost, the writes of a cart's
lane that take effect are steps of its order. -/

namespace VoiceOrder.CartModule

open Async Runs VoiceOrder.Backend

def isHandOver : Call → Bool
  | .confirmOrder _ => true
  | _ => false

/-- The step hands a cart over, and Odoo takes it. -/
def handsOver (lost : AppError → Bool) : Step → Bool
  | .called call reply => isHandOver call && (atStore lost call reply).isOk
  | .emitted _ => false

/-- The order of a cart as the backend has it. -/
def orderOf (lost : AppError → Bool) (cartId : CartId) (process : Process) : Order where
  cart := process.state.carts cartId
  lines := process.state.odoo cartId
  handedOver := (process.lanes (.apply cartId)).entries.any (handsOver lost)

/-- The write to the cart that takes effect with an action. -/
def landedBy (lost : AppError → Bool) (cartId : CartId) : Action → Option Call
  | .reply lane call reply =>
      if lane = .apply cartId ∧ call.writes = true ∧ (atStore lost call reply).isOk = true then some call
      else none
  | _ => none

section

variable {lost : AppError → Bool} {ttsLanguage : LangCode} {cartId : CartId} {initial : Store}
  {process next : Process} {action : Action} {write : Call}

theorem isOk_iff {α : Type} {result : Except AppError α} :
    result.isOk = true ↔ ∃ value, result = .ok value := by
  cases result with
  | ok value => exact ⟨fun _ => ⟨value, rfl⟩, fun _ => rfl⟩
  | error error => exact ⟨fun h => (nomatch h), fun ⟨_, h⟩ => (nomatch h)⟩

/-- What has landed was a write of the cart's lane, and the store has done it. -/
theorem landedBy_iff : landedBy lost cartId action = some write ↔ write.writes = true ∧
    ∃ reply answer, action = .reply (.apply cartId) write reply ∧
      atStore lost write reply = .ok answer := by
  constructor
  · intro h
    unfold landedBy at h
    split at h
    case h_1 lane call reply =>
        split at h
        case isTrue hlanded =>
            cases h
            obtain ⟨rfl, hwrites, hok⟩ := hlanded
            obtain ⟨answer, hanswer⟩ := isOk_iff.mp hok
            exact ⟨hwrites, reply, answer, rfl, hanswer⟩
        case isFalse => cases h
    case h_2 => cases h
  · rintro ⟨hwrites, reply, answer, rfl, hanswer⟩
    exact if_pos ⟨rfl, hwrites, isOk_iff.mpr ⟨answer, hanswer⟩⟩

/-- What is due depends on the stored cart alone. -/
theorem writeDue_restrict {store : Store} {entries : Trace} {call : Call}
    (h : WriteDue cartId (store.restrict anyOwner cartId) entries call) :
    WriteDue cartId store entries call := by
  cases call with
  | commitCreated | commitApplied | confirmOrder | setCart =>
      simpa only [WriteDue, StoredOrEmpty, restrict_carts] using h
  | _ => trivial

/-- A write that is due is a step of the order. -/
theorem due_order {store after : Store} {entries : Trace} {call : Call} {answer : Answer call}
    {handed : Bool} (hwrites : call.writes = true)
    (hdue : (cartDues cartId).calls (store.restrict anyOwner cartId) entries call)
    (hhanded : entries.any (handsOver lost) = true → handed = true)
    (hafter : handle store call (.ok answer) = some after) :
    Order.Step cartId ⟨store.carts cartId, store.odoo cartId, handed⟩ call
      ⟨after.carts cartId, after.odoo cartId, handed || isHandOver call⟩ := by
  have hcalls := hdue.1
  have hwrite := writeDue_restrict hdue.2
  cases call with
  | commitCreated cart =>
      cases hafter
      obtain ⟨hnone, e, now, hcart⟩ := hwrite
      simp only [commit_stored hcalls, commit_odoo, isHandOver, Bool.or_false]
      exact .created e now cart hnone hcart
  | commitApplied cart requestId =>
      cases hafter
      obtain ⟨base, sent, reply, hbase, hopen, hsent, -, rfl⟩ := hwrite
      simp only [commit_stored hcalls.1, commit_odoo, isHandOver, Bool.or_false]
      exact .applied base _ requestId hbase hopen ((withQuote_header sent reply).trans hsent)
  | markProcessed requestId outcome =>
      cases hafter
      simp only [isHandOver, Bool.or_false]
      exact .marked requestId outcome
  | confirmOrder cart =>
      obtain ⟨hstored, hopen⟩ := hwrite
      have hcart : (toInsertCartRequest cart).cartId = cartId := hcalls
      simp only [handle] at hafter
      split at hafter
      · cases hafter
        have hlines : (store.insertCart (toInsertCartRequest cart)).odoo cartId =
            store.odoo cartId ++ Store.newLines (store.odoo cartId) (toInsertCartRequest cart) := by
          simp [Store.insertCart, hcart]
        simp only [hlines, isHandOver, Bool.or_true]
        exact .handedOver cart hstored hopen
      · cases hafter
  | setCart cart =>
      cases hafter
      obtain ⟨stored, posOrderId, now, hstored, -, rfl, hmem⟩ := hwrite
      simp only [setCart_stored hcalls, setCart_odoo, isHandOver, Bool.or_false]
      exact .confirmed stored posOrderId now hstored (hhanded (List.any_eq_true.mpr ⟨_, hmem, rfl⟩))
  | _ => cases hwrites

/-- A call adds its hand-over to those before it. -/
theorem handedOver_reply {call : Call} {reply : Except AppError (Answer call)}
    (hstep : process.step (lossyBackend lost ttsLanguage) (.reply (.apply cartId) call reply) =
      some next) :
    (orderOf lost cartId next).handedOver =
      ((orderOf lost cartId process).handedOver || handsOver lost (.called call reply)) := by
  obtain ⟨later, hadds, hentries⟩ := Machine.step_adds hstep (.apply cartId)
  cases hadds with
  | called => simp [orderOf, hentries]
  | nothing hne => exact (hne _ _ rfl).elim

/-- A call that does not land hands nothing over. -/
theorem idle_reply {call : Call} {reply : Except AppError (Answer call)}
    (hidle : landedBy lost cartId (.reply (.apply cartId) call reply) = none) :
    handsOver lost (.called call reply) = false := by
  cases call with
  | confirmOrder cart =>
      by_contra hhands
      have hlands : landedBy lost cartId (.reply (.apply cartId) (.confirmOrder cart) reply) =
          some (.confirmOrder cart) :=
        if_pos ⟨rfl, rfl, by simpa [handsOver, isHandOver] using hhands⟩
      rw [hlands] at hidle
      cases hidle
  | _ => rfl

theorem idle_handedOver (hidle : landedBy lost cartId action = none)
    (hstep : process.step (lossyBackend lost ttsLanguage) action = some next) :
    (orderOf lost cartId next).handedOver = (orderOf lost cartId process).handedOver := by
  obtain ⟨later, hadds, hentries⟩ := Machine.step_adds hstep (.apply cartId)
  have hnone : later.any (handsOver lost) = false := by
    cases hadds with
    | called call reply => simp [idle_reply hidle]
    | emitted event => rfl
    | nothing => rfl
  simp [orderOf, hentries, hnone]

/-- Nothing else changes the order. -/
theorem order_idle
    (h : AllSerial (lossyBackend lost ttsLanguage) (lanesKeeping lost anyView) initial process)
    (hidle : landedBy lost cartId action = none)
    (hstep : process.step (lossyBackend lost ttsLanguage) action = some next) :
    orderOf lost cartId next = orderOf lost cartId process := by
  have hagree : next.state.Agree anyOwner cartId process.state := by
    cases action with
    | reply lane call reply =>
        obtain ⟨running, resume, hrunning, hawait, hnext, -⟩ := Machine.reply_some hstep
        have hholds := (h lane).holds anyView_kept.isolated hrunning
        rw [hawait] at hholds
        by_cases hlane : LaneKey.apply cartId = lane
        · subst hlane
          change handle process.state call (atStore lost call reply) = some next.state at hnext
          cases hwrites : call.writes with
          | false => exact handle_reads hwrites hnext
          | true =>
              rcases atStore_cases lost reply with ⟨answer, heffective⟩ | ⟨error, -, hthrown⟩
              · have hlands : landedBy lost cartId (.reply (.apply cartId) call reply) = some call :=
                  landedBy_iff.mpr ⟨hwrites, reply, answer, rfl, heffective⟩
                rw [hlands] at hidle
                cases hidle
              · rw [hthrown] at hnext
                exact handle_error hnext ▸ .refl _
        · exact Store.restrict_eq_iff.mp
            (anyView_kept.isolated.frame (.apply cartId) lane _ _ _ _ hlane hholds.2.1 hnext)
    | submit | begin | emit | finish =>
        rw [Machine.step_state hstep fun _ _ _ heq => (nomatch heq)]
        exact .refl _
  have hhanded := idle_handedOver hidle hstep
  simp only [orderOf] at hhanded ⊢
  rw [hagree.carts, hagree.odoo, hhanded]

/-- A step of the backend is no step of a cart's order, or it is the one step of its write. -/
theorem order_step
    (h : AllSerial (lossyBackend lost ttsLanguage) (lanesKeeping lost anyView) initial process)
    (hstep : process.step (lossyBackend lost ttsLanguage) action = some next) (cartId : CartId) :
    landedBy lost cartId action = none ∧ orderOf lost cartId next = orderOf lost cartId process ∨
      ∃ write, landedBy lost cartId action = some write ∧
        Order.Step cartId (orderOf lost cartId process) write (orderOf lost cartId next) := by
  cases hlanded : landedBy lost cartId action with
  | none => exact .inl ⟨rfl, order_idle h hlanded hstep⟩
  | some write =>
      refine .inr ⟨write, rfl, ?_⟩
      obtain ⟨hwrites, reply, answer, rfl, hanswer⟩ := landedBy_iff.mp hlanded
      obtain ⟨running, resume, hrunning, hawait, hnext, -⟩ := Machine.reply_some hstep
      change handle process.state write (atStore lost write reply) = some next.state at hnext
      rw [hanswer] at hnext
      have hhanded : (orderOf lost cartId next).handedOver =
          ((orderOf lost cartId process).handedOver || isHandOver write) := by
        rw [handedOver_reply hstep, handsOver, hanswer]
        exact congrArg _ (Bool.and_true _)
      have hearlier : running.entries.any (handsOver lost) = true →
          (orderOf lost cartId process).handedOver = true := by
        intro hrun
        obtain ⟨step, hmem, hhands⟩ := List.any_eq_true.mp hrun
        refine List.any_eq_true.mpr ⟨step, ?_, hhands⟩
        rw [Lane.entries, hrunning]
        exact List.mem_append_right _ hmem
      have horder := due_order hwrites (asked_due h hrunning hawait) hearlier hnext
      rw [← hhanded] at horder
      exact horder

/-! ## Where no reply is lost -/

theorem lanesKeeping_never : lanesKeeping (fun _ => false) anyView = lanes anyOwner := by
  have hhandle : (fun lane => lossy (fun _ => false) (laneHandle anyOwner lane)) =
      laneHandle anyOwner := by
    funext lane store call reply
    rw [lossy, atStore_never]
  have hrest : (lanesKeeping (fun _ => false) anyView).rest = (lanes anyOwner).rest := by
    funext lane view
    cases lane with
    | apply cartId => exact propext (and_iff_left trivial)
    | turns cartId => rfl
  rw [lanesKeeping, hhandle]
  exact congrArg (fun rest => { lanes anyOwner with rest := rest }) hrest

theorem backend_order_step (h : AllSerial (backend ttsLanguage) (lanes anyOwner) initial process)
    (hstep : process.step (backend ttsLanguage) action = some next) (cartId : CartId) :
    landedBy (fun _ => false) cartId action = none ∧
        orderOf (fun _ => false) cartId next = orderOf (fun _ => false) cartId process ∨
      ∃ write, landedBy (fun _ => false) cartId action = some write ∧
        Order.Step cartId (orderOf (fun _ => false) cartId process) write
          (orderOf (fun _ => false) cartId next) := by
  rw [← lossyBackend_never, ← lanesKeeping_never] at h
  rw [← lossyBackend_never] at hstep
  exact order_step h hstep cartId

end

end VoiceOrder.CartModule
