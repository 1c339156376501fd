import VoiceOrder.CartModule.VersionDiscipline

/-! # One request on several carts

The ledger is keyed by the request alone and the lock by the cart. Between the check of an
attempt and its mark nothing keeps an attempt at the same request on another cart from passing
its check as well. Where no check passes in that time, a request is applied at most once. -/

namespace VoiceOrder.CartModule

open Async Runs VoiceOrder.Backend

/-- The ledger did not know the request. -/
def checkPassed (requestId : RequestId) : Backend.Step → Bool
  | .called (.wasProcessed asked) (.ok processed) => asked = requestId && !processed
  | _ => false

def isAttemptAt (requestId : RequestId) : Job → Bool
  | .applyProposal proposal _ => proposal.requestId = requestId
  | _ => false

/-- The attempt has passed its check and left no mark. -/
def isApplying (requestId : RequestId) (running : Running Answer Event AppError Job Store) : Bool :=
  isAttemptAt requestId running.job && running.entries.any (checkPassed requestId) &&
    (landed running.entries).isEmpty

/-- The cart has an attempt at the request between its check and its mark. -/
def applying (cartId : CartId) (requestId : RequestId) (process : Process) : Bool :=
  (process.lanes (.apply cartId)).running.any (isApplying requestId)

/-- The operations of the request land. -/
def appliesRequest (requestId : RequestId) : Action → Bool
  | .reply _ call (.ok _) => isCommitOf requestId call
  | _ => false

/-- No check of a request passes while another cart applies the request. -/
def checksAlone (process : Process) (action : Action) : Prop :=
  submitsFit (lanes anyOwner) process action ∧
    ∀ cartId requestId, action = .reply (.apply cartId) (.wasProcessed requestId) (.ok false) →
      ∀ other, other ≠ cartId → applying other requestId process = false

/-- What holds of a request over all carts together. -/
structure AppliedOnce (ttsLanguage : LangCode) (requestId : RequestId) (actions : List Action)
    (process : Process) : Prop where
  once : (actions.filter (appliesRequest requestId)).length ≤ 1
  /-- An attempt at a request that was processed before, or that another cart applies, changes
  no cart. -/
  reused : ∀ cartId running call reply next,
    (process.lanes (.apply cartId)).running = some running → isAttemptAt requestId running.job = true →
    (process.state.ledger requestId ≠ none ∨
      ∃ other, other ≠ cartId ∧ applying other requestId process = true) →
    process.step (backend ttsLanguage) (.reply (.apply cartId) call reply) = some next →
      next.state.carts = process.state.carts

/-! ## The ledger -/

/-- The request that a call marks. -/
def marked? : Call → Option RequestId
  | .markProcessed requestId _ | .commitApplied _ requestId => some requestId
  | _ => none

section

variable {store next : Store} {call : Call} {requestId : RequestId}

/-- Only writes change the carts and the ledger. -/
theorem handle_unwritten {reply : Except AppError (Answer call)} (hcall : call.writes = false)
    (h : handle store call reply = some next) :
    next.carts = store.carts ∧ next.ledger = store.ledger := by
  cases reply with
  | error error =>
      rw [handle_error h]
      exact ⟨rfl, rfl⟩
  | ok answer =>
      cases call with
      | setCart | markProcessed | commitApplied | commitCreated | confirmOrder => cases hcall
      | getCart | wasProcessed | readHistory =>
          simp only [handle] at h
          split at h
          · cases h
            exact ⟨rfl, rfl⟩
          · cases h
      | appendHistory =>
          cases h
          exact ⟨rfl, rfl⟩
      | quoteCart | resolveItemKey | findByTmplId | getItems | newLineId | nowIso | completeIntent
        | runAgent =>
          cases h
          exact ⟨rfl, rfl⟩

/-- A call that marks a request leaves its mark, and no call takes one away. -/
theorem handle_ledger {answer : Answer call} (h : handle store call (.ok answer) = some next)
    (requestId : RequestId) :
    (marked? call = some requestId ∧ next.ledger requestId ≠ none) ∨
      (marked? call ≠ some requestId ∧ next.ledger requestId = store.ledger requestId) := by
  by_cases hwrites : call.writes = false
  · refine .inr ⟨fun hmarked => ?_, congrFun (handle_unwritten hwrites h).2 requestId⟩
    cases call with
    | markProcessed | commitApplied => cases hwrites
    | _ => cases hmarked
  · cases call with
    | setCart cart =>
        cases h
        exact .inr ⟨(by rintro ⟨⟩), rfl⟩
    | markProcessed asked outcome =>
        cases h
        by_cases heq : asked = requestId
        · exact .inl ⟨congrArg some heq, by simp [Store.mark, heq]⟩
        · exact .inr ⟨fun hmarked => heq (Option.some.inj hmarked), by
            rw [mark_ledger, if_neg heq]⟩
    | commitApplied cart asked =>
        cases h
        by_cases heq : asked = requestId
        · exact .inl ⟨congrArg some heq, by simp [commit_ledger, heq]⟩
        · exact .inr ⟨fun hmarked => heq (Option.some.inj hmarked), by
            rw [commit_ledger, if_neg fun hsame => heq (Option.some.inj hsame)]⟩
    | commitCreated cart =>
        cases h
        exact .inr ⟨(by rintro ⟨⟩), by simp [commit_ledger]⟩
    | confirmOrder cart =>
        simp only [handle] at h
        split at h
        · cases h
          exact .inr ⟨(by rintro ⟨⟩), rfl⟩
        · cases h
    | _ => exact absurd rfl hwrites

end

/-! ## Attempts check before they write -/

section

variable {σ : Type} {handler : Handler Answer AppError σ} {view after : σ} {trace : Trace}
  {proposal : OrderProposal} {sessionId : Option SessionId}

/-- An attempt that has written has passed its check. -/
def Checked (requestId : RequestId) (trace : Trace) : Prop :=
  landed trace = [] ∨ trace.any (checkPassed requestId) = true

theorem Checked.append {requestId : RequestId} {later : Trace} (h : Checked requestId trace)
    (hlater : landed later = []) : Checked requestId (trace ++ later) := by
  rcases h with hnone | hpassed
  · exact .inl (by rw [landed_append, hnone, hlater]; rfl)
  · exact .inr (by rw [List.any_append, hpassed]; rfl)

theorem persistProposal_checked {last : Promise (Option Persisted)}
    (h : Executes handler (persistProposal proposal) view trace last after) :
    Checked proposal.requestId trace := by
  rcases h.bind with ⟨rest, -, hasked⟩ | ⟨processed, middle, first, second, rfl, hasked, hlast⟩
  · cases hasked with
    | here => exact .inl rfl
    | @await _ _ _ reply _ _ _ _ _ hrest =>
        cases reply with
        | ok processed =>
            cases hrest
            exact .inl rfl
        | error error =>
            cases hrest
            exact .inl rfl
  · obtain ⟨rfl, -⟩ := hasked.call
    cases processed with
    | true =>
        cases hlast
        exact .inl rfl
    | false => exact .inr (by simp [checkPassed])

theorem applyProposal_checked {last : Promise Unit}
    (h : Executes handler (applyProposal proposal sessionId) view trace last after) :
    Checked proposal.requestId trace := by
  rcases applyProposal_executes h with ⟨left, hpersist⟩ | ⟨result, first, sent, hpersist, -, rfl⟩
  · exact persistProposal_checked hpersist
  · obtain ⟨left, -, hexec⟩ := hpersist.executes
    exact (persistProposal_checked hexec).append (landed_emit sent)

end

/-! ## What a write of a cart's lane does -/

section

variable {ttsLanguage : LangCode} {initial : Store} {process next : Process} {cartId : CartId}
  {call : Call} {requestId : RequestId} {running : Running Answer Event AppError Job Store}

/-- A job of a cart's lane writes what its kind allows: an attempt that writes writes for the
first time, and marks its request; no other job marks one. -/
theorem write_cases {job : Job} {before view : Store} {trace : Trace} {answer : Answer call}
    (hlane : job.lane = .apply cartId) (hwrites : call.writes = true)
    (h : Effect anyOwner before job view (trace ++ [.called call (.ok answer)])) :
    (∃ proposal sessionId, job = .applyProposal proposal sessionId ∧ landed trace = [] ∧
        marked? call = some proposal.requestId) ∨
      (∀ proposal sessionId, job ≠ .applyProposal proposal sessionId) ∧ marked? call = none := by
  have hlanded : landed (trace ++ [.called call (.ok answer)]) = landed trace ++ [call] := by
    rw [landed_append, landed_ok, if_pos hwrites]
  have hlast : ∀ {calls : List Call}, landed (trace ++ [.called call (.ok answer)]) = calls →
      call ∈ calls := fun heq => by
    rw [← heq, hlanded]
    exact List.mem_append_right _ (List.mem_singleton.mpr rfl)
  cases job with
  | ensureCart e =>
      refine .inr ⟨fun _ _ heq => (nomatch heq), ?_⟩
      cases h with
      | untouched h => cases hlast h.landed
      | created now cart _ _ _ hcreated =>
          rw [List.mem_singleton.mp (hlast hcreated)]
          rfl
  | applyProposal proposal sessionId =>
      refine .inl ⟨proposal, sessionId, rfl, ?_⟩
      have hfirst : ∀ written, landed (trace ++ [.called call (.ok answer)]) = [written] →
          landed trace = [] ∧ call = written := by
        intro written heq
        have hparts : landed trace ++ [call] = [] ++ [written] := hlanded.symm.trans heq
        obtain ⟨hnone, hwritten⟩ := List.append_inj' hparts rfl
        exact ⟨hnone, List.singleton_inj.mp hwritten⟩
      cases h with
      | untouched h => cases hlast h.landed
      | committed cart h =>
          obtain ⟨hnone, rfl⟩ := hfirst _ h.landed
          exact ⟨hnone, rfl⟩
      | rejected h =>
          obtain ⟨hnone, rfl⟩ := hfirst _ h.landed
          exact ⟨hnone, rfl⟩
  | confirm asked =>
      refine .inr ⟨fun _ _ heq => (nomatch heq), ?_⟩
      cases h with
      | untouched h => cases hlast h.landed
      | handedOver cart _ hlanded =>
          rw [List.mem_singleton.mp (hlast hlanded)]
          rfl
      | confirmed cart posOrderId now between _ _ hlanded =>
          rcases List.mem_cons.mp (hlast hlanded) with rfl | hset
          · rfl
          · rw [List.mem_singleton.mp hset]
            rfl
  | turn e => cases hlane

theorem reply_running {reply : Except AppError (Answer call)}
    (hstep : process.step (backend ttsLanguage) (.reply (.apply cartId) call reply) = some next)
    (hrunning : (process.lanes (.apply cartId)).running = some running) :
    ∃ rest, (next.lanes (.apply cartId)).running =
      some { running with entries := running.entries ++ [.called call reply], rest := rest } := by
  obtain ⟨found, resume, hfound, -, hafter⟩ := Machine.reply_lane hstep
  rw [hfound] at hrunning
  cases hrunning
  exact ⟨resume reply, congrArg Lane.running hafter⟩

/-- A write by a cart's lane. One that marks a request comes from an attempt that applies it, and
ends that. -/
theorem write_step (hnext : AllSerial (backend ttsLanguage) (lanes anyOwner) initial next)
    {answer : Answer call}
    (hstep : process.step (backend ttsLanguage) (.reply (.apply cartId) call (.ok answer)) = some next)
    (hrunning : (process.lanes (.apply cartId)).running = some running) (hwrites : call.writes = true) :
    (∃ proposal sessionId, running.job = .applyProposal proposal sessionId ∧
        marked? call = some proposal.requestId ∧
        applying cartId proposal.requestId process = true ∧
        applying cartId proposal.requestId next = false) ∨
      (∀ proposal sessionId, running.job ≠ .applyProposal proposal sessionId) ∧ marked? call = none := by
  obtain ⟨rest, hlater⟩ := reply_running hstep hrunning
  obtain ⟨hfits, -, hrest, hexec⟩ := (hnext (.apply cartId)).busy _ hlater
  rcases write_cases hfits.1 hwrites (job_effect hfits hrest hexec) with
    ⟨proposal, sessionId, hjob, hnone, hmarked⟩ | hother
  · dsimp only at hjob
    have hlanded : landed (running.entries ++ [.called call (.ok answer)]) = [call] := by
      rw [landed_append, hnone, landed_ok, if_pos hwrites]
      rfl
    have hchecked : running.entries.any (checkPassed proposal.requestId) = true := by
      have hprogram : (backend ttsLanguage).program running.job = applyProposal proposal sessionId := by
        rw [hjob]
        rfl
      dsimp only at hexec
      rw [hprogram] at hexec
      rcases applyProposal_checked hexec with hnothing | hpassed
      · rw [hlanded] at hnothing
        cases hnothing
      · rw [List.any_append] at hpassed
        rcases Bool.or_eq_true_iff.mp hpassed with hbefore | hcall
        · exact hbefore
        · cases call with
          | wasProcessed => cases hwrites
          | _ => simp [checkPassed] at hcall
    refine .inl ⟨proposal, sessionId, hjob, hmarked, ?_, ?_⟩
    · simp [applying, isApplying, hrunning, hjob, isAttemptAt, hchecked, hnone]
    · simp [applying, isApplying, hlater, hlanded]
  · exact .inr hother

/-- An attempt begins to apply a request with its check. -/
theorem applying_step {action : Action} (hstep : process.step (backend ttsLanguage) action = some next)
    (h : applying cartId requestId next = true) :
    applying cartId requestId process = true ∨
      action = .reply (.apply cartId) (.wasProcessed requestId) (.ok false) := by
  have hsame : (next.lanes (.apply cartId)).running = (process.lanes (.apply cartId)).running →
      applying cartId requestId process = true := fun heq => by
    rw [applying, ← heq]
    exact h
  cases action with
  | submit target job =>
      cases hstep
      exact .inl (hsame (by rw [Machine.submit_lanes]; rfl))
  | begin target =>
      obtain ⟨id, job, queue, -, -, rfl⟩ := Machine.begin_some hstep
      by_cases heq : .apply cartId = target
      · subst heq
        simp [applying, isApplying, Machine.put] at h
      · exact .inl (hsame (by simp [Machine.put, heq]))
  | emit target =>
      obtain ⟨running, event, rest, hrunning, -, rfl⟩ := Machine.emit_some hstep
      left
      rw [applying, Machine.foldl_submit_lanes] at h
      by_cases heq : .apply cartId = target
      · subst heq
        rw [applying, hrunning]
        simpa [isApplying, Machine.put, Lane.enqueue, checkPassed] using h
      · rw [applying]
        simpa [Machine.put, heq, Lane.enqueue] using h
  | reply target call reply =>
      obtain ⟨running, resume, hrunning, -, -, hafter⟩ := Machine.reply_some hstep
      rw [applying, hafter] at h
      by_cases heq : .apply cartId = target
      · subst heq
        simp only [Machine.put, Function.update_self, Option.any_some, isApplying, Bool.and_eq_true,
          List.any_append, Bool.or_eq_true, landed_append] at h
        obtain ⟨⟨hjob, hpassed⟩, hlanded⟩ := h
        have hnone : landed running.entries = [] := (List.append_eq_nil_iff.mp (List.isEmpty_iff.mp hlanded)).1
        rcases hpassed with hbefore | hcheck
        · exact .inl (by simp [applying, isApplying, hrunning, hjob, hbefore, hnone])
        · right
          cases call with
          | wasProcessed asked =>
              cases reply with
              | ok processed =>
                  cases processed with
                  | true => simp [checkPassed] at hcheck
                  | false =>
                      have hasked : asked = requestId := by simpa [checkPassed] using hcheck
                      rw [hasked]
              | error error => simp [checkPassed] at hcheck
          | _ => simp [checkPassed] at hcheck
      · rw [applying]
        left
        simpa [Machine.put, heq] using h
  | finish target =>
      obtain ⟨running, result, -, -, rfl⟩ := Machine.finish_some hstep
      by_cases heq : .apply cartId = target
      · subst heq
        simp [applying, Machine.put] at h
      · exact .inl (hsame (by simp [Machine.put, heq]))

/-! ## A request is applied by one cart at a time -/

/-- A call that marks a request comes from an attempt that applies the request, and ends that. -/
theorem marked_step (hserial : AllSerial (backend ttsLanguage) (lanes anyOwner) initial process)
    (hnext : AllSerial (backend ttsLanguage) (lanes anyOwner) initial next) {lane : LaneKey}
    {answer : Answer call}
    (hstep : process.step (backend ttsLanguage) (.reply lane call (.ok answer)) = some next)
    (hmarked : marked? call = some requestId) :
    ∃ cartId, applying cartId requestId process = true ∧ applying cartId requestId next = false := by
  obtain ⟨running, resume, hrunning, hawait, -, -⟩ := Machine.reply_some hstep
  have hwrites : call.writes = true := by
    cases call with
    | markProcessed | commitApplied => rfl
    | _ => cases hmarked
  cases lane with
  | apply cartId =>
      rcases write_step hnext hstep hrunning hwrites with
        ⟨proposal, sessionId, -, hsame, hbefore, hafter⟩ | ⟨-, hnone⟩
      · rw [hmarked] at hsame
        cases hsame
        exact ⟨cartId, hbefore, hafter⟩
      · rw [hmarked] at hnone
        cases hnone
  | turns cartId =>
      have hholds := (hserial (.turns cartId)).holds backend_isolated hrunning
      rw [hawait] at hholds
      have hallowed := hholds.2.1
      cases call with
      | markProcessed | commitApplied => exact hallowed.elim
      | _ => cases hmarked

/-- The ledger of a request stays as it is, or the request gets its mark. -/
theorem ledger_step {action : Action}
    (hserial : AllSerial (backend ttsLanguage) (lanes anyOwner) initial process)
    (hnext : AllSerial (backend ttsLanguage) (lanes anyOwner) initial next)
    (hstep : process.step (backend ttsLanguage) action = some next) (requestId : RequestId) :
    next.state.ledger requestId = process.state.ledger requestId ∨
      next.state.ledger requestId ≠ none ∧
        ∃ cartId, applying cartId requestId process = true ∧ applying cartId requestId next = false := by
  cases action with
  | reply lane call reply =>
      obtain ⟨running, resume, -, -, hhandle, -⟩ := Machine.reply_some hstep
      cases reply with
      | error error => exact .inl (by rw [handle_error hhandle])
      | ok answer =>
          rcases handle_ledger hhandle requestId with ⟨hmarked, hledger⟩ | ⟨-, hsame⟩
          · exact .inr ⟨hledger, marked_step hserial hnext hstep hmarked⟩
          · exact .inl hsame
  | submit | begin | emit | finish =>
      exact .inl (by rw [Machine.step_state hstep fun _ _ _ heq => (nomatch heq)])

/-- A request that a cart applies has no mark yet, and no other cart applies it. -/
structure Alone (process : Process) : Prop where
  unmarked : ∀ cartId requestId, applying cartId requestId process = true →
    process.state.ledger requestId = none
  alone : ∀ cartId other requestId, applying cartId requestId process = true →
    applying other requestId process = true → cartId = other

theorem Alone.step {action : Action} (h : Alone process)
    (hserial : AllSerial (backend ttsLanguage) (lanes anyOwner) initial process)
    (hnext : AllSerial (backend ttsLanguage) (lanes anyOwner) initial next)
    (hmeets : checksAlone process action)
    (hstep : process.step (backend ttsLanguage) action = some next) : Alone next := by
  refine ⟨fun cartId requestId happlying => ?_, fun cartId other requestId hcart hother => ?_⟩
  · rcases applying_step hstep happlying with hbefore | rfl
    · rcases ledger_step hserial hnext hstep requestId with hsame | ⟨-, marking, hmarking, hended⟩
      · exact hsame.trans (h.unmarked cartId requestId hbefore)
      · -- The attempt that marks the request applies it no more.
        cases h.alone cartId marking requestId hbefore hmarking
        rw [hended] at happlying
        cases happlying
    · obtain ⟨running, resume, -, -, hhandle, -⟩ := Machine.reply_some hstep
      change handle process.state (.wasProcessed requestId) (.ok false) = some next.state at hhandle
      rw [handle_wasProcessed hhandle]
      simp only [handle] at hhandle
      split at hhandle
      · rename_i hfalse
        simpa using hfalse.symm
      · cases hhandle
  · rcases applying_step hstep hcart with hbefore | rfl
    · rcases applying_step hstep hother with hbefore' | rfl
      · exact h.alone cartId other requestId hbefore hbefore'
      · by_contra hne
        rw [hmeets.2 other requestId rfl cartId hne] at hbefore
        cases hbefore
    · rcases applying_step hstep hother with hbefore' | heq
      · by_contra hne
        rw [hmeets.2 cartId requestId rfl other (Ne.symm hne)] at hbefore'
        cases hbefore'
      · cases heq
        rfl

/-! ## Runs -/

/-- The operations of a request land when it has no mark, and leave one. -/
theorem applies_step {action : Action} (h : Alone process)
    (hserial : AllSerial (backend ttsLanguage) (lanes anyOwner) initial process)
    (hnext : AllSerial (backend ttsLanguage) (lanes anyOwner) initial next)
    (hstep : process.step (backend ttsLanguage) action = some next)
    (happlies : appliesRequest requestId action = true) :
    process.state.ledger requestId = none ∧ next.state.ledger requestId ≠ none := by
  cases action with
  | reply lane call reply =>
      cases reply with
      | error error => cases happlies
      | ok answer =>
          have hmarked : marked? call = some requestId := by
            cases call with
            | commitApplied cart asked => exact congrArg some (of_decide_eq_true happlies)
            | _ => cases happlies
          obtain ⟨running, resume, -, -, hhandle, -⟩ := Machine.reply_some hstep
          obtain ⟨cartId, happlying, -⟩ := marked_step hserial hnext hstep hmarked
          refine ⟨h.unmarked cartId requestId happlying, ?_⟩
          rcases handle_ledger hhandle requestId with ⟨-, hledger⟩ | ⟨hother, -⟩
          · exact hledger
          · exact absurd hmarked hother
  | submit | begin | emit | finish => cases happlies

variable {actions : List Action}

/-- From here on a request is applied at most once, and not at all if it has its mark. -/
theorem applied_run (h : Run (Machine.step (backend ttsLanguage)) checksAlone process actions next)
    (hserial : AllSerial (backend ttsLanguage) (lanes anyOwner) initial process)
    (halone : Alone process) (requestId : RequestId) :
    (process.state.ledger requestId ≠ none → (actions.filter (appliesRequest requestId)).length = 0) ∧
      (actions.filter (appliesRequest requestId)).length ≤ 1 := by
  induction h with
  | nil => exact ⟨fun _ => rfl, Nat.zero_le _⟩
  | @cons process middle last action actions hmeets hstep _ ih =>
      have hmiddle := hserial.step backend_isolated hmeets.1 hstep
      obtain ⟨hnone, hone⟩ := ih hmiddle (halone.step hserial hmiddle hmeets hstep)
      rw [List.filter_cons]
      split
      · rename_i happlies
        obtain ⟨hbefore, hafter⟩ := applies_step halone hserial hmiddle hstep happlies
        refine ⟨fun hmarked => absurd hbefore hmarked, ?_⟩
        rw [List.length_cons, hnone hafter]
      · refine ⟨fun hmarked => hnone ?_, hone⟩
        rcases ledger_step hserial hmiddle hstep requestId with hsame | ⟨hafter, -⟩
        · rwa [hsame]
        · exact hafter

/-- In every run in which no check of a request passes while another cart applies the request,
each request is applied at most once over all carts. -/
theorem request_applied_once (hkeyed : ∀ cartId, initial.Keyed cartId)
    (h : Run (Machine.step (backend ttsLanguage)) checksAlone (.create initial) actions process)
    (requestId : RequestId) : AppliedOnce ttsLanguage requestId actions process := by
  have hcreate : AllSerial (backend ttsLanguage) (lanes anyOwner) initial (.create initial) :=
    create_serial (lanes_rest hkeyed)
  have hidle : Alone (.create initial : Process) :=
    ⟨fun _ _ happlying => (nomatch happlying), fun _ _ _ happlying => (nomatch happlying)⟩
  obtain ⟨hserial, halone⟩ := h.invariant
    (fun process => AllSerial (backend ttsLanguage) (lanes anyOwner) initial process ∧ Alone process)
    ⟨hcreate, hidle⟩ fun process action next hinv hmeets hstep => by
      have hnext := hinv.1.step backend_isolated hmeets.1 hstep
      exact ⟨hnext, hinv.2.step hinv.1 hnext hmeets hstep⟩
  refine ⟨(applied_run h hcreate hidle requestId).2, ?_⟩
  intro cartId running call reply next hrunning hattempt hreused hstep
  have hfits : submitsFit (lanes anyOwner) process (.reply (.apply cartId) call reply) := trivial
  have hnext := hserial.step backend_isolated hfits hstep
  obtain ⟨found, resume, -, -, hhandle, -⟩ := Machine.reply_some hstep
  cases reply with
  | error error => rw [handle_error hhandle]
  | ok answer =>
      cases hwrites : call.writes with
      | false => exact (handle_unwritten hwrites hhandle).1
      | true =>
          rcases write_step hnext hstep hrunning hwrites with
            ⟨proposal, sessionId, hjob, -, happlying, -⟩ | ⟨hother, -⟩
          · rw [hjob] at hattempt
            cases of_decide_eq_true hattempt
            rcases hreused with hmarked | ⟨other, hne, hother⟩
            · exact absurd (halone.unmarked cartId _ happlying) hmarked
            · exact absurd (halone.alone other cartId _ hother happlying) hne
          · cases hjob : running.job with
            | applyProposal proposal sessionId => exact absurd hjob (hother proposal sessionId)
            | ensureCart | confirm | turn =>
                rw [hjob] at hattempt
                cases hattempt

end

/-! ## One cola on two carts -/

def colaQuote : QuoteResponse where
  decimalPlaces := 2
  lines := some []
  amountSubtotal := 5 / 2
  amountTax := 0
  amountTotal := 5 / 2

/-- What follows the check of an attempt to add a cola to a cart that is not stored yet. -/
def colaToCartSteps (cartId : CartId) : List Action :=
  [.reply (.apply cartId) (.getCart cartId) (.ok none), .reply (.apply cartId) .nowIso (.ok "noon"),
    .reply (.apply cartId) (.resolveItemKey 1 "cola") (.ok (some cola)),
    .reply (.apply cartId) .newLineId (.ok "line-1"),
    .reply (.apply cartId) (.getItems 1 [7]) (.ok [cola]), .reply (.apply cartId) .nowIso (.ok "noon"),
    .reply (.apply cartId) (.quoteCart { colaCart with cartId := cartId }) (.ok colaQuote),
    .reply (.apply cartId) (.commitApplied { colaCart with cartId := cartId } "request-1") (.ok ()),
    .emit (.apply cartId), .finish (.apply cartId)]

/-- Two proposals with one request id are queued on two carts. -/
def sameRequestSteps : List Action :=
  [.submit (.apply "cart-1") (.applyProposal addCola none),
    .submit (.apply "cart-2") (.applyProposal { addCola with cartId := "cart-2" } none),
    .begin (.apply "cart-1")]

/-- Both attempts check the ledger before either leaves its mark. -/
def overlappingSteps : List Action :=
  sameRequestSteps ++
    [.reply (.apply "cart-1") (.wasProcessed "request-1") (.ok false), .begin (.apply "cart-2"),
      .reply (.apply "cart-2") (.wasProcessed "request-1") (.ok false)] ++
    colaToCartSteps "cart-1" ++ colaToCartSteps "cart-2"

/-- No call fails, and the cola lands in both carts. -/
theorem request_applied_twice :
    ∃ process, Run (Machine.step (backend "en")) (submitsFit (lanes anyOwner)) (.create Store.empty)
        overlappingSteps process ∧
      process.state.carts "cart-1" = some colaCart ∧
      process.state.carts "cart-2" = some { colaCart with cartId := "cart-2" } ∧
      ¬AppliedOnce "en" "request-1" overlappingSteps process := by
  have hrun : ∃ process, Run (Machine.step (backend "en")) (submitsFit (lanes anyOwner))
      (.create Store.empty) overlappingSteps process ∧
      decide (process.state.carts "cart-1" = some colaCart ∧
        process.state.carts "cart-2" = some { colaCart with cartId := "cart-2" }) = true :=
    exists_run (by decide +kernel)
  have htwice : (overlappingSteps.filter (appliesRequest "request-1")).length = 2 := by decide +kernel
  obtain ⟨process, hrun, hholds⟩ := hrun
  obtain ⟨hfirst, hsecond⟩ := of_decide_eq_true hholds
  refine ⟨process, hrun, hfirst, hsecond, fun honce => ?_⟩
  have := honce.once
  omega

/-! ## One attempt after the other -/

/-- No check passes. -/
def noCheckPasses (process : Process) (action : Action) : Prop :=
  submitsFit (lanes anyOwner) process action ∧
    (match action with
    | .reply _ (.wasProcessed _) (.ok processed) => processed
    | _ => true) = true

instance (process : Process) (action : Action) : Decidable (noCheckPasses process action) :=
  inferInstanceAs (Decidable (_ ∧ _))

theorem noCheckPasses.checksAlone {process : Process} {action : Action}
    (h : noCheckPasses process action) : checksAlone process action := by
  refine ⟨h.1, fun cartId requestId heq => ?_⟩
  subst heq
  cases h.2

/-- Where no check passes, no cart comes to apply a request. -/
theorem not_applying {ttsLanguage : LangCode} {initial : Store} {process : Process} {actions : List Action}
    (h : Run (Machine.step (backend ttsLanguage)) noCheckPasses (.create initial) actions process)
    (cartId : CartId) (requestId : RequestId) : applying cartId requestId process = false := by
  refine h.invariant (fun process => applying cartId requestId process = false) rfl ?_
  intro process action next hnone hmeets hstep
  cases happlying : applying cartId requestId next with
  | false => rfl
  | true =>
      rcases applying_step hstep happlying with hbefore | rfl
      · rw [hnone] at hbefore
        cases hbefore
      · cases hmeets.2

/-- The second cart checks the ledger when the first one has left its mark. -/
def reusedSteps : List Action :=
  colaToCartSteps "cart-1" ++
    [.begin (.apply "cart-2"), .reply (.apply "cart-2") (.wasProcessed "request-1") (.ok true),
      .finish (.apply "cart-2")]

theorem request_applied_once_reused :
    ∃ actions process, AppliedOnce "en" "request-1" actions process ∧
      process.state.carts "cart-1" = some colaCart ∧ process.state.carts "cart-2" = none := by
  have hqueued : ∃ process, Run (Machine.step (backend "en")) noCheckPasses (.create Store.empty)
      sameRequestSteps process ∧
      (process.step (backend "en") (.reply (.apply "cart-1") (.wasProcessed "request-1") (.ok false))).any
        (fun checked => (exec (guarded (Machine.step (backend "en")) noCheckPasses) checked
          reusedSteps).any fun last => decide (last.state.carts "cart-1" = some colaCart ∧
            last.state.carts "cart-2" = none)) = true :=
    exists_run (by decide +kernel)
  obtain ⟨queued, hbefore, hholds⟩ := hqueued
  obtain ⟨checked, hcheck, hafter⟩ := (Option.any_eq_true _ _).mp hholds
  obtain ⟨process, hrun, hcarts⟩ := exists_run hafter
  have hmeets : checksAlone queued
      (.reply (.apply "cart-1") (.wasProcessed "request-1") (.ok false)) :=
    ⟨trivial, fun _ _ _ other _ => not_applying hbefore other _⟩
  have hall := (hbefore.mono fun _ _ h => h.checksAlone).append
    (.cons hmeets hcheck (hrun.mono fun _ _ h => h.checksAlone))
  exact ⟨_, process, request_applied_once Store.keyed_empty hall "request-1", of_decide_eq_true hcarts⟩

end VoiceOrder.CartModule
