import VoiceOrder.Async.LastCalls
import VoiceOrder.CartModule.CartSteps
import VoiceOrder.CartModule.VersionDiscipline

/-! # Broadcasts where replies are lost

A job makes no call after a write that failed. So a write whose reply is lost is the last call of
its job, and all that it can break is the broadcast of a commit that has landed. -/

namespace VoiceOrder.CartModule

open Async Runs VoiceOrder.Ordering VoiceOrder.Backend

/-! ## The reply of a commit -/

/-- The call commits an applied proposal and lands, and its reply is lost. -/
def losesCommit (lost : AppError → Bool) : (call : Call) → Except AppError (Answer call) → Bool
  | .commitApplied _ _, .error error => lost error
  | _, _ => false

/-- The entry is no commit whose reply was lost. -/
def Acknowledged (lost : AppError → Bool) : Step → Prop
  | .called call reply => losesCommit lost call reply = false
  | .emitted _ => True

/-- The step does not lose the reply of a commit that lands. -/
def Acknowledges (lost : AppError → Bool) : Action → Prop
  | .reply _ call reply => losesCommit lost call reply = false
  | _ => True

instance (lost : AppError → Bool) (action : Action) : Decidable (Acknowledges lost action) :=
  match action with
  | .reply _ call reply => inferInstanceAs (Decidable (losesCommit lost call reply = false))
  | .submit _ _ | .begin _ | .emit _ | .finish _ => .isTrue trivial

/-- The write has taken effect, and its reply is lost. -/
def Missed (lost : AppError → Bool) (call : Call) (error : AppError) : Prop :=
  call.ack?.isSome ∧ lost error = true

section

variable {lost : AppError → Bool} {cartId : CartId} {ttsLanguage : LangCode}

theorem missed_lossy : LosesReplies (Missed lost) (lossy lost (laneHandle anyOwner (.apply cartId)))
    (laneHandle anyOwner (.apply cartId)) := by
  intro view call reply next hnext
  rw [lossy] at hnext
  cases reply with
  | ok answer => exact .inl hnext
  | error error =>
      simp only [atStore] at hnext
      split at hnext
      case h_1 answer hack hlost =>
          refine .inr ⟨error, answer, ?_⟩
          cases call with
          | setCart | markProcessed | commitApplied | commitCreated | confirmOrder =>
              exact ⟨_, rfl, ⟨rfl, hlost⟩, hnext, rfl⟩
          | _ => cases hack
      case h_2 => exact .inl hnext

/-! ## No call after a failed write -/

theorem cartOrEmpty_rethrows (cartId : CartId) (pos : PosConfigId) :
    Rethrows (Missed lost) (cartOrEmpty cartId pos) := by
  refine .bind (.call _) fun found => ?_
  split
  · exact .pure _
  · exact .bind (.call _) fun now => .pure _

theorem requoted_rethrows (cart : Cart) : Rethrows (Missed lost) (requoted cart) := by
  refine .bind (.attempt_call fun error hmissed => ?_) fun quote => ?_
  · cases hmissed.1
  · split
    · exact .pure _
    · split
      · exact .pure _
      · exact .pure _

theorem persistProposal_rethrows (proposal : OrderProposal) :
    Rethrows (Missed lost) (persistProposal proposal) := by
  refine .bind (.call _) fun processed => ?_
  split
  · exact .pure _
  · refine .bind (cartOrEmpty_rethrows _ _) fun cart => ?_
    split
    · exact .bind (.call _) fun _ => .pure _
    · refine .bind (.reads (applyOperations_reads _ _ _)) fun folded => ?_
      split
      · exact .bind (requoted_rethrows _) fun cart => .bind (.call _) fun _ => .pure _
      · exact .bind (.call _) fun _ => .pure _

theorem publish_callless (events : List Event) : Callless (publish events) := by
  induction events with
  | nil => trivial
  | cons event events ih => exact ih

theorem confirm_rethrows (cartId : CartId) : Rethrows (Missed lost) (confirm cartId) := by
  refine .bind (.call _) fun found => ?_
  split
  · trivial
  · split
    · exact .pure _
    · exact .bind (.call _) fun _ => .bind (.call _) fun _ => .bind (.call _) fun _ => .pure _

theorem job_givesUp {job : Job} (hfits : fits anyOwner (.apply cartId) job) :
    GivesUp (Missed lost) (job.program ttsLanguage) := by
  cases job with
  | ensureCart e =>
      refine Rethrows.givesUp (.bind (.call _) fun found => ?_)
      split
      · exact .pure _
      · exact .bind (.call _) fun now => .call _
  | applyProposal proposal sessionId =>
      refine (persistProposal_rethrows proposal).catch_givesUp fun result => ?_
      split
      · trivial
      · trivial
      · exact publish_callless _
  | confirm asked => exact Rethrows.givesUp ((confirm_rethrows asked).bind fun _ => .pure _)
  | turn e => cases hfits.1

/-! ## What a job does to the version -/

variable {before after : Store} {trace first rest : Trace} {job : Job} {last : Promise Unit}
  {result : Except AppError Unit} {call : Call} {error : AppError} {answer : Answer call}

theorem acknowledged_applied (hmissed : Missed lost call error)
    (h : Acknowledged lost (.called call (.error error))) : applied? call = none := by
  cases call with
  | commitApplied cart requestId =>
      have hkept : lost error = false := h
      rw [hmissed.2] at hkept
      cases hkept
  | _ => rfl

/-- What was applied before a reply is lost, whichever way the call is taken. -/
theorem appliedCarts_lost (hnone : applied? call = none)
    (hrest : ∀ entry ∈ rest, ∃ event, entry = .emitted event) :
    appliedCarts (first ++ .called call (.error error) :: rest) =
      appliedCarts (first ++ [.called call (.ok answer)]) := by
  have hsilent : landed rest = [] := by
    refine List.filterMap_eq_nil_iff.mpr fun entry hmem => ?_
    obtain ⟨event, rfl⟩ := hrest entry hmem
    rfl
  have hfailed : appliedCarts (.called call (.error error) :: rest) = [] := by
    change (landed rest).filterMap applied? = []
    rw [hsilent]
    rfl
  have hmade : appliedCarts [.called call (.ok answer)] = [] := by
    cases hwrites : call.writes <;> simp [appliedCarts, landed, landed?, hwrites, hnone]
  rw [appliedCarts_append, appliedCarts_append, hfailed, hmade]

/-- Where no commit loses its reply, a job does to the version what it does where no reply is
lost. -/
theorem lossy_progress (hfits : fits anyOwner (.apply cartId) job) (hrest : AtRest anyOwner cartId before)
    (h : Executes (lossy lost (laneHandle anyOwner (.apply cartId))) (job.program ttsLanguage) before
      trace last after) (hfine : ∀ entry ∈ trace, Acknowledged lost entry) :
    Progress (before.carts cartId) (after.carts cartId) trace ∧ AtRest anyOwner cartId after := by
  rcases h.lost missed_lossy (job_givesUp hfits) with hplain | ⟨first, sent, call, error, answer, hlost⟩
  · exact ⟨job_progress hfits hrest hplain, effect_atRest hfits hrest (job_effect hfits hrest hplain)⟩
  · obtain ⟨plain, hplain⟩ := hlost.failed
    obtain ⟨left, hleft⟩ := hlost.succeeded
    refine ⟨?_, effect_atRest hfits hrest (job_effect hfits hrest hleft)⟩
    have hmem : .called call (.error error) ∈ trace := by
      rw [hlost.split]
      exact List.mem_append_right _ List.mem_cons_self
    have hnone := acknowledged_applied hlost.missed (hfine _ hmem)
    have hsame : appliedCarts trace = appliedCarts (first ++ [.called call (.ok answer)]) := by
      rw [hlost.split]
      exact appliedCarts_lost hnone hlost.rest_emitted
    -- The version is that of the call that succeeded, the broadcasts are those of the one that failed.
    have hbroadcast := job_progress hfits hrest hplain
    cases job_progress hfits hrest hleft with
    | level happlied _ hversion =>
        rw [← hsame] at happlied
        refine .level happlied ?_ hversion
        cases hbroadcast with
        | level _ hupdated _ => exact hupdated
        | raised other hraised _ _ _ => cases happlied.symm.trans hraised
    | raised cart happlied hstored hversion _ =>
        rw [← hsame] at happlied
        refine .raised cart happlied hstored hversion ?_
        cases hbroadcast with
        | level hlevel _ _ => cases happlied.symm.trans hlevel
        | raised other hraised _ _ hupdated =>
            cases happlied.symm.trans hraised
            exact hupdated

theorem lossy_broadcast (hfits : fits anyOwner (.apply cartId) job) (hrest : AtRest anyOwner cartId before)
    (h : Executes (lossy lost (laneHandle anyOwner (.apply cartId))) (job.program ttsLanguage) before
      trace last after) (hresult : last.result? = some result) :
    updatedCarts (published trace) = appliedCarts trace := by
  rcases h.lost missed_lossy (job_givesUp hfits) with hplain | ⟨first, sent, call, error, answer, hlost⟩
  · exact job_broadcast hfits hrest hplain hresult
  · obtain ⟨plain, hplain⟩ := hlost.failed
    exact job_broadcast hfits hrest hplain hresult

theorem lossy_counts :
    Counts ttsLanguage (lossyBackend lost ttsLanguage) (lanesKeeping lost anyView)
      (Acknowledged lost) where
  program := rfl
  view := fun _ _ => rfl
  fits := fun _ _ hfits => hfits
  emitted := fun _ => trivial
  progress := fun hfits hrest hexec hfine => by
    obtain ⟨hprogress, hafter⟩ := lossy_progress hfits hrest.1 hexec hfine
    exact ⟨hprogress, hafter.1, fun _ hresult => lossy_broadcast hfits hrest.1 hexec hresult⟩

end

/-- What a job that has ended has done to the version: a proposal with an accepted operation
has raised it by one and broadcast the new cart, and nothing else has. -/
inductive Raises (job : Job) (before after : Option Cart) (trace : Trace) : Prop where
  | applied (proposal : OrderProposal) (sessionId : Option SessionId) (verdicts : List Verdict)
      (cart : Cart) (hjob : job = .applyProposal proposal sessionId)
      (haccounted : Accounted proposal sessionId before after trace verdicts)
      (hsome : accepted verdicts ≠ []) (hstored : after = some cart)
      (hversion : cart.version = storedVersion before + 1)
      (hbroadcast : updatedCarts (published trace) = [cart])
  | level (hnone : ∀ proposal sessionId, job = .applyProposal proposal sessionId →
        failures trace ≠ [] ∨ isDuplicate trace = true ∨
          ∃ verdicts, Accounted proposal sessionId before after trace verdicts ∧ accepted verdicts = [])
      (hversion : storedVersion after = storedVersion before)
      (hbroadcast : updatedCarts (published trace) = [])

section

variable {lost : AppError → Bool} {cartId : CartId} {ttsLanguage : LangCode} {before after : Store}
  {trace : Trace} {job : Job} {last : Promise Unit} {result : Except AppError Unit}

theorem job_raises (hfits : fits anyOwner (.apply cartId) job) (hrest : AtRest anyOwner cartId before)
    (h : Executes (laneHandle anyOwner (.apply cartId)) (job.program ttsLanguage) before trace last
      after) (hresult : last.result? = some result) :
    Raises job (before.carts cartId) (after.carts cartId) trace := by
  have hbroadcast := job_broadcast hfits hrest h hresult
  cases job_progress hfits hrest h with
  | level happlied hupdated hversion =>
      refine .level (fun proposal sessionId hjob => ?_) hversion hupdated
      subst hjob
      obtain ⟨hlane, -⟩ := hfits
      cases hlane
      by_cases hfailures : failures trace = []
      · rcases applyProposal_accounted hrest (h.completes hresult) hfailures with ⟨-, rfl⟩ |
          ⟨verdicts, haccounted⟩
        · exact .inr (.inl rfl)
        · refine .inr (.inr ⟨verdicts, haccounted, by_contra fun hsome => ?_⟩)
          obtain ⟨-, -, cart, -, hpublished⟩ := haccounted.applied hsome
          rw [hpublished] at hupdated
          cases hupdated
      · exact .inl hfailures
  | raised cart happlied hstored hversion _ =>
      rw [happlied] at hbroadcast
      have heffect := job_effect hfits hrest h
      cases job with
      | ensureCart e => cases (creation_applied heffect).symm.trans happlied
      | confirm asked =>
          obtain ⟨hlane, -⟩ := hfits
          cases hlane
          cases (confirmation_applied heffect).symm.trans happlied
      | turn e => cases hfits.1
      | applyProposal proposal sessionId =>
          have hended := (attempt_ended hfits hrest h hresult).2
          obtain ⟨hlane, -⟩ := hfits
          cases hlane
          by_cases hfailures : failures trace = []
          · rcases applyProposal_accounted hrest (h.completes hresult) hfailures with ⟨-, rfl⟩ |
              ⟨verdicts, haccounted⟩
            · cases happlied
            · refine .applied proposal sessionId verdicts cart rfl haccounted (fun hnone => ?_) hstored
                hversion hbroadcast
              rw [(haccounted.refused hnone).2.2, updatedCarts_rejections] at hbroadcast
              cases hbroadcast
          · rw [(ended_failed hended hfailures).2] at hbroadcast
            cases hbroadcast

theorem missed_fails {first rest : Trace} {call : Call} {error : AppError}
    (hmissed : Missed lost call error) (hsplit : trace = first ++ .called call (.error error) :: rest) :
    failures trace ≠ [] := by
  have hstrict : ¬call.bestEffort := by
    cases call with
    | quoteCart => cases hmissed.1
    | _ => exact Bool.false_ne_true
  have hfailed : call ∈ failures trace := by
    refine List.mem_filter.mpr ⟨List.mem_filterMap.mpr ⟨.called call (.error error), ?_, rfl⟩, ?_⟩
    · rw [hsplit]
      exact List.mem_append_right _ List.mem_cons_self
    · exact decide_eq_true hstrict
  exact List.ne_nil_of_mem hfailed

/-- So it is on stores that lose replies, but for those of commits. -/
theorem lossy_raises (hfits : fits anyOwner (.apply cartId) job) (hrest : AtRest anyOwner cartId before)
    (h : Executes (lossy lost (laneHandle anyOwner (.apply cartId))) (job.program ttsLanguage) before
      trace last after) (hfine : ∀ entry ∈ trace, Acknowledged lost entry)
    (hresult : last.result? = some result) :
    Raises job (before.carts cartId) (after.carts cartId) trace := by
  obtain ⟨hprogress, -⟩ := lossy_progress hfits hrest h hfine
  rcases h.lost missed_lossy (job_givesUp hfits) with hplain | ⟨first, sent, call, error, answer, hlost⟩
  · exact job_raises hfits hrest hplain hresult
  · obtain ⟨plain, hplain⟩ := hlost.failed
    cases job_raises hfits hrest hplain hresult with
    | applied proposal sessionId verdicts cart hjob haccounted hsome hstored hversion hbroadcast =>
        have hafter : after.carts cartId = some cart := by
          cases hprogress with
          | level _ hnone _ =>
              rw [hnone] at hbroadcast
              cases hbroadcast
          | raised other _ hraised _ hunder =>
              rw [hbroadcast] at hunder
              rw [hraised, List.mem_singleton.mp (hunder.subset List.mem_cons_self)]
        rw [hstored, ← hafter] at haccounted
        exact .applied proposal sessionId verdicts cart hjob haccounted hsome hafter hversion hbroadcast
    | level _ _ hbroadcast =>
        refine .level (fun _ _ _ => .inl (missed_fails hlost.missed hlost.split)) ?_ hbroadcast
        cases hprogress with
        | level _ _ hversion => exact hversion
        | raised other happlied _ _ _ =>
            rw [job_broadcast hfits hrest hplain hresult, happlied] at hbroadcast
            cases hbroadcast

end

/-! ## What can be said of every run -/

/-- Jobs are submitted to the lanes they fit, and no commit that lands loses its reply. -/
def CommitsAnswered (lost : AppError → Bool) (process : Process) (action : Action) : Prop :=
  submitsFit (lanes anyOwner) process action ∧ Acknowledges lost action

instance (lost : AppError → Bool) (process : Process) (action : Action) :
    Decidable (CommitsAnswered lost process action) :=
  inferInstanceAs (Decidable (submitsFit (lanes anyOwner) process action ∧ Acknowledges lost action))

/-- What holds of the versions and the broadcasts of a cart after a list of actions. -/
structure Disciplined (lost : AppError → Bool) (ttsLanguage : LangCode) (cartId : CartId)
    (initial : Store) (actions : List Action) (process : Process) : Prop where
  /-- The version counts the proposals that were applied. -/
  version : storedVersion (process.state.carts cartId) = storedVersion (initial.carts cartId) +
    (appliedCarts (process.lanes (.apply cartId)).entries).length
  jobs : ∀ job ∈ (process.lanes (.apply cartId)).history,
    Raises job.job (job.before.carts cartId) (job.after.carts cartId) job.entries
  /-- The next action raises the version by one if it applies a proposal, and by none otherwise. -/
  rises : ∀ action next, CommitsAnswered lost process action →
    process.step (lossyBackend lost ttsLanguage) action = some next →
    storedVersion (next.state.carts cartId) = storedVersion (process.state.carts cartId) +
      if appliedTo? action = some cartId then 1 else 0
  /-- The broadcasts carry consecutive versions in the order of emission. -/
  consecutive :
    (broadcasts cartId (Machine.emissions (lossyBackend lost ttsLanguage) (.create initial) actions)).map
        Cart.version =
      List.range' (storedVersion (initial.carts cartId) + 1)
        (broadcasts cartId
          (Machine.emissions (lossyBackend lost ttsLanguage) (.create initial) actions)).length
  /-- There is one for each proposal that was applied; the last one may be still to come, while
  the job that applied the proposal is running. -/
  oneEach : appliedCarts (process.lanes (.apply cartId)).entries =
      broadcasts cartId (Machine.emissions (lossyBackend lost ttsLanguage) (.create initial) actions) ∨
    (process.lanes (.apply cartId)).running.isSome ∧ ∃ cart, process.state.carts cartId = some cart ∧
      appliedCarts (process.lanes (.apply cartId)).entries =
        broadcasts cartId (Machine.emissions (lossyBackend lost ttsLanguage) (.create initial) actions) ++
          [cart]
  /-- The cart that is broadcast next is the stored one. -/
  exact : ∀ action lane cart requestId,
    process.emitted? action = some (lane, .cartUpdated cart requestId) → cart.cartId = cartId →
      process.state.carts cartId = some cart
  /-- A later stored cart has a higher version, or the same items and totals. -/
  agree : ∀ later last, Run (Machine.step (lossyBackend lost ttsLanguage)) (submitsFit (lanes anyOwner))
      process later last → ∀ earlier, process.state.carts cartId = some earlier →
    ∃ cart, last.state.carts cartId = some cart ∧ cart.Follows earlier

section

variable {lost : AppError → Bool} {ttsLanguage : LangCode} {cartId : CartId} {initial : Store}
  {process next : Process} {action : Action} {actions : List Action} {entries : Trace} {call : Call}
  {cart written : Cart}

/-- Where a proposal is due to be committed, it raises the version by one. -/
theorem due_version {view : Store} {requestId : RequestId}
    (h : WriteDue cartId view entries (.commitApplied cart requestId)) :
    cart.version = storedVersion (view.carts cartId) + 1 := by
  obtain ⟨base, sent, reply, hbase, -, hsent, -, rfl⟩ := h
  have hversion : (withQuote sent reply).version = base.version + 1 :=
    congrArg Header.version ((withQuote_header sent reply).trans hsent)
  rw [hversion]
  rcases hbase with hstored | ⟨hnone, pos, now, rfl⟩
  · rw [hstored]
    rfl
  · rw [hnone]
    rfl

/-- A write of the stored cart raises its version if it commits a proposal, and keeps it
otherwise. -/
theorem rewritten_version (h : Rewrites lost cartId process action entries call written) :
    written.version = storedVersion (process.state.carts cartId) +
      if (applied? call).isSome then 1 else 0 := by
  have hview := @restrict_carts anyOwner cartId process.state
  have hdue := h.due.2
  have hwritten := h.written
  rw [← hview]
  cases call with
  | commitCreated created =>
      cases hwritten
      obtain ⟨hnone, e, now, rfl⟩ := hdue
      rw [hnone]
      rfl
  | commitApplied applied requestId =>
      cases hwritten
      exact due_version hdue
  | setCart confirmed =>
      cases hwritten
      obtain ⟨stored, posOrderId, now, hstored, -, rfl, -⟩ := hdue
      rw [hstored]
      rfl
  | _ => cases hwritten

theorem rewritten_follows (h : Rewrites lost cartId process action entries call written)
    (hstored : process.state.carts cartId = some cart) : written.Follows cart := by
  have hversion := rewritten_version h
  have hview := (@restrict_carts anyOwner cartId process.state).trans hstored
  have hdue := h.due.2
  have hwritten := h.written
  rw [hstored] at hversion
  cases call with
  | commitCreated created =>
      have hnone := hdue.1
      rw [hview] at hnone
      cases hnone
  | commitApplied applied requestId =>
      have hraised : written.version = cart.version + 1 := hversion
      exact .inl (by omega)
  | setCart confirmed =>
      cases hwritten
      obtain ⟨found, posOrderId, now, hfound, -, rfl, -⟩ := hdue
      rw [hview] at hfound
      cases hfound
      exact .inr rfl
  | _ => cases hwritten

/-- A step that applies a proposal writes its cart. -/
theorem applies_writes (h : AllSerial (lossyBackend lost ttsLanguage) (lanesKeeping lost anyView)
    initial process) (hstep : process.step (lossyBackend lost ttsLanguage) action = some next)
    (happlied : appliedTo? action = some cartId) :
    storedVersion (next.state.carts cartId) = storedVersion (process.state.carts cartId) + 1 := by
  unfold appliedTo? at happlied
  split at happlied
  case h_1 cart requestId answer =>
      cases happlied
      obtain ⟨running, hrunning, hdue⟩ := reply_due h hstep
      obtain ⟨_, _, -, -, hnext, -⟩ := Machine.reply_some hstep
      change handle process.state _ (.ok answer) = some next.state at hnext
      have hcarts : next.state.carts cartId = some cart := written_carts rfl hdue.1 hnext
      have hversion := due_version hdue.2
      rw [restrict_carts] at hversion
      rw [hcarts, ← hversion]
      rfl
  case h_2 => cases happlied

theorem lossy_version (h : AllSerial (lossyBackend lost ttsLanguage) (lanesKeeping lost anyView)
    initial process) (hanswered : Acknowledges lost action)
    (hstep : process.step (lossyBackend lost ttsLanguage) action = some next) :
    storedVersion (next.state.carts cartId) = storedVersion (process.state.carts cartId) +
      if appliedTo? action = some cartId then 1 else 0 := by
  by_cases happlied : appliedTo? action = some cartId
  · rw [if_pos happlied]
    exact applies_writes h hstep happlied
  · rw [if_neg happlied]
    rcases cart_step anyView_kept h hstep cartId with hsame | ⟨entries, call, written, hrewrites, hwritten⟩
    · rw [hsame, Nat.add_zero]
    · have hversion := rewritten_version hrewrites
      have hnone : applied? call = none := by
        obtain ⟨reply, answer, rfl, heffective⟩ := hrewrites.action
        cases call with
        | commitApplied cart requestId =>
            cases reply with
            | ok _ => exact (happlied rfl).elim
            | error error =>
                have hkept : lost error = false := hanswered
                simp [atStore, hkept] at heffective
        | _ => rfl
      rw [hnone] at hversion
      rw [hwritten]
      exact hversion

/-- Whatever fails, a stored cart is followed by one of a higher version or of the same contents. -/
theorem lossy_follows (h : AllSerial (lossyBackend lost ttsLanguage) (lanesKeeping lost anyView)
    initial process) {later : List Action} {last : Process}
    (hlater : Run (Machine.step (lossyBackend lost ttsLanguage)) (submitsFit (lanes anyOwner)) process
      later last) {earlier : Cart} (hearlier : process.state.carts cartId = some earlier) :
    ∃ cart, last.state.carts cartId = some cart ∧ cart.Follows earlier := by
  refine hlater.relates
    (AllSerial (lossyBackend lost ttsLanguage) (lanesKeeping lost anyView) initial)
    (fun first second => ∀ stored, first.state.carts cartId = some stored →
      ∃ cart, second.state.carts cartId = some cart ∧ cart.Follows stored) h ?_ ?_ ?_ earlier hearlier
  · intro first action second hserial hsubmits hstep
    refine ⟨hserial.step anyView_kept.isolated hsubmits hstep, fun stored hstored => ?_⟩
    rcases cart_step anyView_kept hserial hstep cartId with hsame | ⟨_, _, cart, hrewrites, hcart⟩
    · exact ⟨stored, hsame.trans hstored, .inr rfl⟩
    · exact ⟨cart, hcart, rewritten_follows hrewrites hstored⟩
  · exact fun _ stored hstored => ⟨stored, hstored, .inr rfl⟩
  · intro first second third hfirst hsecond stored hstored
    obtain ⟨middle, hmiddle, hfollows⟩ := hfirst stored hstored
    obtain ⟨cart, hcart, hfollows'⟩ := hsecond middle hmiddle
    exact ⟨cart, hcart, hfollows'.trans hfollows⟩

/-- What a run keeps in which no commit that lands loses its reply. -/
structure AllAnswered (lost : AppError → Bool) (ttsLanguage : LangCode) (initial : Store)
    (process : Process) : Prop where
  serial : AllSerial (lossyBackend lost ttsLanguage) (lanesKeeping lost anyView) initial process
  fine : ∀ lane, ∀ entry ∈ (process.lanes lane).entries, Acknowledged lost entry

theorem allAnswered_create (hkeyed : ∀ cartId, initial.Keyed cartId) :
    AllAnswered lost ttsLanguage initial (.create initial) where
  serial := create_serial fun lane => by
    cases lane with
    | apply cartId => exact ⟨⟨keyed_restrict (hkeyed cartId), restrict_local⟩, trivial⟩
    | turns cartId => trivial
  fine := fun _ _ hmem => (nomatch hmem)

theorem AllAnswered.step (h : AllAnswered lost ttsLanguage initial process)
    (hmeets : CommitsAnswered lost process action)
    (hstep : process.step (lossyBackend lost ttsLanguage) action = some next) :
    AllAnswered lost ttsLanguage initial next where
  serial := h.serial.step anyView_kept.isolated hmeets.1 hstep
  fine := fun lane entry hmem => by
    obtain ⟨later, hadds, hentries⟩ := Machine.step_adds hstep lane
    rw [hentries] at hmem
    rcases List.mem_append.mp hmem with hearlier | hlater
    · exact h.fine lane entry hearlier
    · cases hadds with
      | called call reply =>
          rw [List.mem_singleton.mp hlater]
          exact hmeets.2
      | emitted event =>
          rw [List.mem_singleton.mp hlater]
          trivial
      | nothing => cases hlater

/-- In every run in which no commit that lands loses its reply, whatever else fails, the versions
and the broadcasts of every cart are disciplined. -/
theorem versions_disciplined (hkeyed : ∀ cartId, initial.Keyed cartId)
    (h : Run (Machine.step (lossyBackend lost ttsLanguage)) (CommitsAnswered lost) (.create initial)
      actions process) (cartId : CartId) :
    Disciplined lost ttsLanguage cartId initial actions process := by
  have hanswered : AllAnswered lost ttsLanguage initial process :=
    h.invariant (AllAnswered lost ttsLanguage initial) (allAnswered_create hkeyed)
      fun _ _ _ hnow hmeets hstep => hnow.step hmeets hstep
  have hserial := hanswered.serial
  obtain ⟨hversions, hone⟩ :=
    lossy_counts.serial (hserial (.apply cartId)) (hanswered.fine (.apply cartId))
  have hstart : ((lanesKeeping lost anyView).view (.apply cartId) initial).carts cartId =
      initial.carts cartId := restrict_carts
  rw [hstart] at hversions
  have hown := lossy_counts.emissions_own h (allAnswered_create hkeyed)
    (fun _ _ _ hnow hmeets hstep => AllAnswered.step hnow hmeets hstep)
    fun _ hnow => ⟨hnow.serial, hnow.fine⟩
  have hbroadcasts : broadcasts cartId
      (Machine.emissions (lossyBackend lost ttsLanguage) (.create initial) actions) =
      updatedCarts (process.lanes (.apply cartId)).published := by
    rw [broadcasts_eq hown, Machine.run_published h (.apply cartId)]
    rfl
  refine ⟨hversions.stored, fun job hjob => ?_, fun action next hmeets hstep => ?_, ?_, ?_,
    fun action lane cart requestId hemitted hcart => ?_, fun later last hlater earlier hearlier => ?_⟩
  · obtain ⟨view, hchain⟩ := (hserial (.apply cartId)).chain
    obtain ⟨earlier, later, heq⟩ := List.append_of_mem hjob
    obtain ⟨-, hfits, hrest, last, hresult, hexec⟩ := hchain.at heq
    have hfine : ∀ entry ∈ job.entries, Acknowledged lost entry := fun entry hmem =>
      hanswered.fine (.apply cartId) entry
        (List.mem_append_left _ (List.mem_flatMap.mpr ⟨job, hjob, hmem⟩))
    have hraises := lossy_raises hfits hrest.1 hexec hfine hresult
    simpa [lanesKeeping, lanes, restrict_carts] using hraises
  · exact lossy_version hserial hmeets.2 hstep
  · rw [hbroadcasts]
    rcases hone with hall | ⟨-, cart, -, hall⟩
    · exact hversions.broadcast (hall.trans (List.append_nil _).symm)
    · exact hversions.broadcast hall
  · rw [hbroadcasts]
    exact hone
  · rw [← hcart]
    exact (lossy_counts.broadcast_stored hserial hanswered.fine hemitted).2
  · exact lossy_follows hserial hlater hearlier

end

/-- A cola is ordered, and then two more; the confirmation is written and its reply is lost. -/
def twoProposalsSteps : List Action :=
  .submit (.apply "cart-1") (.applyProposal addCola none) :: addColaSteps ++ threeColasSteps ++
    confirmSteps threeColasCart (.error (.infrastructure "connection reset"))

/-- Both carts are broadcast, in the order of their versions. -/
theorem versions_disciplined_twice :
    ∃ process, Disciplined (fun _ => true) "en" "cart-1" Store.empty twoProposalsSteps process ∧
      process.state.carts "cart-1" = some (threeColasCart.confirmed 77 "one o'clock") ∧
      broadcasts "cart-1"
        (Machine.emissions (lossyBackend (fun _ => true) "en") (.create Store.empty) twoProposalsSteps) =
        [colaCart, threeColasCart] := by
  have hrun : ∃ process, Run (Machine.step (lossyBackend (fun _ => true) "en"))
      (CommitsAnswered fun _ => true) (.create Store.empty) twoProposalsSteps process ∧
      decide (process.state.carts "cart-1" = some (threeColasCart.confirmed 77 "one o'clock")) = true :=
    exists_run (by decide +kernel)
  obtain ⟨process, hrun, hholds⟩ := hrun
  exact ⟨process, versions_disciplined Store.keyed_empty hrun "cart-1", of_decide_eq_true hholds,
    by decide +kernel⟩

/-- The commit of the cola lands and its reply is lost; then two more are ordered. -/
def lostCommitSteps : List Action :=
  .submit (.apply "cart-1") (.applyProposal addCola none) :: addColaSteps.take 9 ++
    [.reply (.apply "cart-1") (.commitApplied colaCart "request-1")
        (.error (.infrastructure "connection reset")),
      .emit (.apply "cart-1"), .finish (.apply "cart-1")] ++ threeColasSteps

/-- The cola is stored as version 1 and never broadcast: the first broadcast carries version 2. -/
theorem lost_commit_unannounced :
    ∃ process, Run (Machine.step (lossyBackend (fun _ => true) "en")) (submitsFit (lanes anyOwner))
        (.create Store.empty) lostCommitSteps process ∧
      (broadcasts "cart-1" (Machine.emissions (lossyBackend (fun _ => true) "en") (.create Store.empty)
        lostCommitSteps)).map Cart.version = [2] ∧
      ¬Disciplined (fun _ => true) "en" "cart-1" Store.empty lostCommitSteps process := by
  have hrun : ∃ process, Run (Machine.step (lossyBackend (fun _ => true) "en"))
      (submitsFit (lanes anyOwner)) (.create Store.empty) lostCommitSteps process ∧ true = true :=
    exists_run (by decide +kernel)
  obtain ⟨process, hrun, -⟩ := hrun
  have hfirst : (broadcasts "cart-1" (Machine.emissions (lossyBackend (fun _ => true) "en")
      (.create Store.empty) lostCommitSteps)).map Cart.version = [2] := by
    decide +kernel
  refine ⟨process, hrun, hfirst, fun hdisciplined => ?_⟩
  have hconsecutive := hdisciplined.consecutive
  have hlength := congrArg List.length hfirst
  rw [List.length_map] at hlength
  rw [hfirst, hlength] at hconsecutive
  cases hconsecutive

end VoiceOrder.CartModule
