import VoiceOrder.Llm.LlmProvider

/-! # What the calls of a provider are charged

In whatever order the calls, the timers and the other users of the limiter go on: no more requests
are in flight than the plan allows, and each call is charged by how it ended. -/

namespace VoiceOrder.Llm

open VoiceOrder.Ordering RateLimit Runs

/-! ## The lease of a call -/

/-- How the lease of a call stands, once it has one. -/
def CallStage.lease : CallStage → Option (Option Closing)
  | .acquiring | .refused _ => none
  | .sent => some none
  | .answered usage => some (some (.settled (usage.map fun usage => (usage.totalTokens : ℚ))))
  | .failed error => some (some (LlmProvider.failedClosing error))

/-- What the acquire of a call has come to. -/
inductive Held (call : LlmCall) : RateLimit.Stage → Prop where
  | waiting {stage : RateLimit.Stage} (hacquiring : call.stage = .acquiring) (hopen : stage.closing? = none) :
      Held call stage
  | leased (waitedMs : ℚ) {done : Option Closing} (hlease : call.stage.lease = some done) :
      Held call (.leased waitedMs done)
  | unlimited {done : Option Closing} (hlease : call.stage.lease = some done) : Held call .noop
  | refused {error : RateLimitTimeoutError} (hrefused : call.stage = .refused error) :
      Held call (.failed error)

namespace LlmProvider

structure Inv (fresh : RateLimiter) (provider : LlmProvider) : Prop where
  limiter : provider.limiter.Inv
  /-- The limiter is still the one of these limits. -/
  parts : RateLimiter.Parts Set.univ fresh provider.limiter
  calls : ∀ id call, provider.calls id = some call →
    ∃ acquire, provider.limiter.acquires id = some acquire ∧ acquire.cost = call.estimate ∧
      Held call acquire.stage

section

variable {fresh limiter : RateLimiter} {provider next : LlmProvider}
  {platform : Platform} {clock : Clock} {id : CallerId} {call after : LlmCall} {acquire : Acquire}

theorem create_inv (name : String) (limits : RateLimits) (config : LlmClientConfig) (now : ℚ) :
    (create name limits config now).Inv (.create name limits now) where
  limiter := RateLimiter.create_inv name limits now
  parts := .refl _
  calls := fun _ _ hcall => by cases hcall

/-- A call keeps its lease while others act on the limiter. -/
theorem held_of_continues (h : Held call acquire.stage) (hcontinues : limiter.Continues id acquire)
    {cost : ℚ} (hasks : limiter.Asks id cost) :
    ∃ acquire, limiter.acquires id = some acquire ∧ acquire.cost = cost ∧ Held call acquire.stage := by
  obtain ⟨found, hfound, hclosing, hended⟩ := hcontinues
  obtain ⟨asked, hasked, hcost⟩ := hasks
  rw [hfound] at hasked
  cases hasked
  refine ⟨found, hfound, hcost, ?_⟩
  generalize hstage : acquire.stage = stage at h hclosing hended
  cases h with
  | waiting hacquiring hopen => exact .waiting hacquiring (hclosing.trans hopen)
  | leased waitedMs hlease => exact hended rfl ▸ .leased waitedMs hlease
  | unlimited hlease => exact hended rfl ▸ .unlimited hlease
  | refused hrefused => exact hended rfl ▸ .refused hrefused

/-- A call that has settled has closed its lease, if it had one. -/
theorem held_of_close {closing : Closing} (hacquire : limiter.acquires id = some acquire)
    (hheld : Held call acquire.stage) (hsent : call.stage = .sent)
    (hafter : after.stage.lease = some (some closing)) {cost : ℚ} (hcost : acquire.cost = cost) :
    ∃ found, (limiter.close clock id closing).acquires id = some found ∧ found.cost = cost ∧
      Held after found.stage := by
  obtain ⟨asked, hasked, hsame⟩ :=
    @RateLimiter.close_asks clock id limiter cost closing ⟨acquire, hacquire, hcost⟩
  refine ⟨asked, hasked, hsame, ?_⟩
  generalize hstage : acquire.stage = stage at hheld
  cases hheld with
  | waiting hacquiring =>
      rw [hsent] at hacquiring
      cases hacquiring
  | leased waitedMs hlease =>
      rw [hsent] at hlease
      cases hlease
      obtain ⟨found, hfound, hclosed⟩ := RateLimiter.close_first clock closing hacquire hstage
      rw [hasked] at hfound
      cases hfound
      exact hclosed ▸ .leased waitedMs hafter
  | unlimited hlease =>
      have hsame : limiter.close clock id closing = limiter :=
        RateLimiter.close_unleased closing hacquire fun waitedMs done hleased => by
          rw [hstage] at hleased
          cases hleased
      rw [hsame, hacquire] at hasked
      cases hasked
      exact hstage ▸ .unlimited hafter
  | refused hrefused =>
      rw [hsent] at hrefused
      cases hrefused

/-- A step for one call leaves the others as they are. -/
theorem Inv.put (h : provider.Inv fresh) (hlimiter : limiter.Inv)
    (hparts : RateLimiter.Parts Set.univ provider.limiter limiter)
    (hothers : ∀ other acquire, other ≠ id → provider.limiter.acquires other = some acquire →
      limiter.acquires other = some acquire)
    (hcall : ∃ acquire, limiter.acquires id = some acquire ∧ acquire.cost = call.estimate ∧
      Held call acquire.stage) :
    ({ provider with limiter := limiter }.put id call).Inv fresh := by
  refine ⟨hlimiter, h.parts.trans hparts, fun other found hfound => ?_⟩
  change Function.update provider.calls id (some call) other = some found at hfound
  by_cases heq : other = id
  · subst heq
    rw [Function.update_self] at hfound
    cases hfound
    exact hcall
  · rw [Function.update_of_ne heq] at hfound
    obtain ⟨acquire, hacquire, hrest⟩ := h.calls other found hfound
    exact ⟨acquire, hothers other acquire heq hacquire, hrest⟩

theorem call_inv (h : provider.Inv fresh) (platform : Platform) (clock : Clock) (request : Request) :
    (provider.call platform clock request).Inv fresh := by
  refine h.put (RateLimiter.acquire_inv h.limiter clock _) (RateLimiter.acquire_parts (Clock.within_univ _) _)
    (fun other acquire hne hacquire => (RateLimiter.acquire_of_ne _ hne).trans hacquire) ?_
  obtain ⟨acquire, hacquire, hopen⟩ := @RateLimiter.acquire_self clock provider.limiter _
  obtain ⟨asked, hasked, hcost⟩ := @RateLimiter.acquire_asks clock provider.limiter _
  rw [hacquire] at hasked
  cases hasked
  exact ⟨acquire, hacquire, hcost.trans (max_eq_right (Nat.cast_nonneg _)), .waiting rfl hopen⟩

theorem acquired_inv (h : provider.Inv fresh) (hcall : provider.calls id = some call)
    (hacquiring : call.stage = .acquiring) (hstep : provider.acquired id call = some next) :
    next.Inv fresh := by
  obtain ⟨acquire, hacquire, hcost, hheld⟩ := h.calls id call hcall
  have hput : ∀ after : LlmCall, after.estimate = call.estimate → Held after acquire.stage →
      (provider.put id after).Inv fresh := fun after hestimate hheld =>
    h.put h.limiter (.refl _) (fun _ _ _ hother => hother)
      ⟨acquire, hacquire, hcost.trans (congrArg Nat.cast hestimate.symm), hheld⟩
  -- A lease that nobody has called yet is open.
  have hopen : acquire.stage.closing? = none := by
    generalize acquire.stage = stage at hheld
    cases hheld with
    | waiting _ hopen => exact hopen
    | leased waitedMs hlease =>
        rw [hacquiring] at hlease
        cases hlease
    | unlimited => rfl
    | refused => rfl
  unfold acquired at hstep
  rw [hacquire, Option.map_some] at hstep
  cases hstage : acquire.stage with
  | leased waitedMs done =>
      rw [hstage] at hstep hopen
      cases hstep
      cases hopen
      refine hput _ rfl ?_
      rw [hstage]
      exact .leased waitedMs rfl
  | noop =>
      rw [hstage] at hstep
      cases hstep
      refine hput _ rfl ?_
      rw [hstage]
      exact @Held.unlimited _ none rfl
  | failed error =>
      rw [hstage] at hstep
      cases hstep
      refine hput _ rfl ?_
      rw [hstage]
      exact .refused rfl
  | rpm | tpm | permit =>
      rw [hstage] at hstep
      cases hstep

theorem close_parts (closing : Closing) :
    RateLimiter.Parts Set.univ limiter (limiter.close clock id closing) := by
  cases closing with
  | settled actualCost => exact RateLimiter.settle_parts (Clock.within_univ _) actualCost
  | abandoned => exact RateLimiter.abandon_parts (Clock.within_univ _)

theorem step_inv (h : provider.Inv fresh) {action : Clock × Action}
    (hstep : provider.step platform action = some next) : next.Inv fresh := by
  obtain ⟨clock, action⟩ := action
  cases action with
  | call request =>
      cases hstep
      exact call_inv h platform clock request
  | acquired id =>
      obtain ⟨call, hcall, hstep⟩ := Option.bind_eq_some_iff.mp hstep
      obtain ⟨hacquiring, hstep⟩ := Option.ite_none_right_eq_some.mp hstep
      exact acquired_inv h hcall hacquiring hstep
  | answered id usage =>
      obtain ⟨call, hcall, hstep⟩ := Option.bind_eq_some_iff.mp hstep
      obtain ⟨hsent, hstep⟩ := Option.ite_none_right_eq_some.mp hstep
      cases hstep
      obtain ⟨acquire, hacquire, hcost, hheld⟩ := h.calls id call hcall
      exact h.put (RateLimiter.inv_of_close h.limiter clock _) (close_parts _)
        (fun other acquire hne hother => (RateLimiter.close_of_ne _ hne).trans hother)
        (held_of_close hacquire hheld hsent rfl hcost)
  | failed id error header wallNow =>
      obtain ⟨call, hcall, hstep⟩ := Option.bind_eq_some_iff.mp hstep
      obtain ⟨hsent, hstep⟩ := Option.ite_none_right_eq_some.mp hstep
      cases hstep
      obtain ⟨acquire, hacquire, hcost, hheld⟩ := h.calls id call hcall
      have hpenalized : ∀ clock untilMs,
          (provider.limiter.penalize clock untilMs).acquires id = some acquire := fun _ _ => hacquire
      unfold onCallFailed
      split_ifs
      · exact h.put (RateLimiter.inv_of_close (RateLimiter.penalize_inv h.limiter _ _) _ _)
          ((RateLimiter.penalize_parts (Clock.within_univ _) _).trans (close_parts _))
          (fun other acquire hne hother => (RateLimiter.close_of_ne _ hne).trans hother)
          (held_of_close (hpenalized _ _) hheld hsent rfl hcost)
      · exact h.put (RateLimiter.inv_of_close h.limiter clock _) (close_parts _)
          (fun other acquire hne hother => (RateLimiter.close_of_ne _ hne).trans hother)
          (held_of_close hacquire hheld hsent rfl hcost)
  | limiter action =>
      obtain ⟨hforeign, hstep⟩ := Option.ite_none_right_eq_some.mp hstep
      cases hstep
      refine ⟨RateLimiter.step_inv h.limiter clock action,
        h.parts.trans (RateLimiter.step_parts (Clock.within_univ _) action), fun id call hcall => ?_⟩
      obtain ⟨acquire, hacquire, hcost, hheld⟩ := h.calls id call hcall
      refine held_of_continues hheld (RateLimiter.step_continues h.limiter hacquire ?_)
        (RateLimiter.step_asks h.limiter ⟨acquire, hacquire, hcost⟩ action)
      cases action with
      | settle other | abandon other =>
          refine decide_eq_false fun heq => ?_
          rw [foreign, heq, hcall] at hforeign
          cases hforeign
      | acquire | resume | penalize | abort | rpmTimer | tpmTimer | permitDeadline => rfl

/-! ## The plan of the limiter -/

theorem isSome_iff_of_rel {α : Type} {R : α → α → Prop} {part : Option α} {plan : α} {limit : ℕ}
    (h : Option.Rel R (if 0 < limit then some plan else none) part) : part.isSome = true ↔ 0 < limit := by
  split_ifs at h with hlimit
  · cases h
    exact iff_of_true rfl hlimit
  · cases h
    exact iff_of_false (by simp) hlimit

section

variable {name : String} {limits : RateLimits} {now : ℚ}

theorem Inv.rpm (h : provider.Inv (.create name limits now)) :
    provider.limiter.rpm.isSome = true ↔ 0 < limits.rpm := isSome_iff_of_rel h.parts.rpm

theorem Inv.tpm (h : provider.Inv (.create name limits now)) :
    provider.limiter.tpm.isSome = true ↔ 0 < limits.tpm := isSome_iff_of_rel h.parts.tpm

theorem Inv.capacity (h : provider.Inv (.create name limits now)) {bucket : TokenBucket}
    (hbucket : provider.limiter.tpm = some bucket) : bucket.plan.capacity = limits.tpm ∧ 0 < limits.tpm := by
  have hpositive := h.tpm.mp (hbucket ▸ rfl)
  have htpm := h.parts.tpm
  rw [RateLimiter.create, if_pos hpositive, hbucket] at htpm
  cases htpm with
  | some hcalled =>
      rw [TokenBucket.Called.plan hcalled]
      exact ⟨rfl, hpositive⟩

theorem Inv.reserve (h : provider.Inv (.create name limits now)) (estimate : ℕ) :
    provider.limiter.reserve estimate = if 0 < limits.tpm then (min estimate limits.tpm : ℚ) else 0 := by
  unfold RateLimiter.reserve
  split
  · rename_i hnone
    rw [if_neg fun hpositive => by simpa [hnone] using h.tpm.mpr hpositive]
  · rename_i bucket hbucket
    obtain ⟨hcapacity, hpositive⟩ := h.capacity hbucket
    rw [if_pos hpositive, hcapacity]
    split
    · rfl
    · rename_i hzero
      rw [le_antisymm (not_lt.mp hzero) (Nat.cast_nonneg estimate)]
      exact (min_eq_left (Nat.cast_nonneg _)).symm

/-- There are no more permits in use than the plan has. -/
theorem Inv.permits (h : provider.Inv (.create name limits now)) (hlimit : 0 < limits.maxConcurrent) :
    ∃ semaphore, provider.limiter.concurrency = some semaphore ∧
      semaphore.used ≤ limits.maxConcurrent := by
  have hconcurrency := h.parts.concurrency
  rw [RateLimiter.create, if_pos hlimit] at hconcurrency
  generalize hsemaphore : provider.limiter.concurrency = after at hconcurrency
  cases hconcurrency with
  | some hcalled =>
      exact ⟨_, rfl, (Semaphore.Called.bounded hcalled (Semaphore.create_bounded _ _)).used⟩

end

end

end LlmProvider

/-! ## The account -/

/-- The provider counts the request of the call, as far as can be told. -/
def CallStage.counted : CallStage → Bool
  | .acquiring | .refused _ => false
  | .sent | .answered _ => true
  | .failed error => reachedProvider error

/-- The tokens that a call is charged in the end: its reservation, or what it used if that is more. -/
def LlmCall.dueTokens (limits : RateLimits) (call : LlmCall) : ℚ :=
  if call.stage.counted then
    let used : ℕ := match call.stage with
      | .answered (some usage) => usage.totalTokens
      | _ => 0
    max (min call.estimate limits.tpm) used
  else 0

/-- The account of a provider whose limiter has these limits. -/
structure Accounted (limits : RateLimits) (provider : LlmProvider) : Prop where
  /-- No more requests are in flight than the plan allows. -/
  inFlight : 0 < limits.maxConcurrent → ∀ ids : Finset CallerId,
    (∀ id ∈ ids, ∃ call, provider.calls id = some call ∧ call.stage = .sent) →
      ids.card ≤ limits.maxConcurrent
  /-- Each call is charged by how it ended. -/
  charged : ∀ id call, provider.calls id = some call → call.stage ≠ .acquiring →
    ∃ acquire, provider.limiter.acquires id = some acquire ∧
      provider.limiter.netRpm acquire = (if 0 < limits.rpm ∧ call.stage.counted = true then 1 else 0) ∧
      provider.limiter.netTpm acquire = if 0 < limits.tpm then call.dueTokens limits else 0
  /-- What the acquires are debited, charged and refunded is what moves the buckets. -/
  balanced : ∀ platform action next, provider.step platform action = some next →
    RateLimiter.rpmSide.Balances provider.limiter next.limiter ∧
      RateLimiter.tpmSide.Balances provider.limiter next.limiter

namespace LlmProvider

/-- The provider can be in this state. -/
def Reachable (platform : Platform) (limits : RateLimits) (provider : LlmProvider) : Prop :=
  ∃ name config now actions,
    Run (step platform) (fun _ _ => True) (create name limits config now) actions provider

section

variable {name : String} {limits : RateLimits} {now : ℚ} {provider : LlmProvider}
  {platform : Platform} {id : CallerId} {call : LlmCall} {acquire : Acquire}

theorem Inv.inFlight (h : provider.Inv (.create name limits now)) (hlimit : 0 < limits.maxConcurrent)
    (ids : Finset CallerId) (hsent : ∀ id ∈ ids, ∃ call, provider.calls id = some call ∧ call.stage = .sent) :
    ids.card ≤ limits.maxConcurrent := by
  obtain ⟨semaphore, hsemaphore, hused⟩ := h.permits hlimit
  rw [h.limiter.permits hsemaphore] at hused
  refine le_trans (Finset.card_le_card fun id hid => Finset.mem_filter.mpr ?_) (Nat.cast_le.mp hused)
  obtain ⟨call, hcall, hstage⟩ := hsent id hid
  obtain ⟨acquire, hacquire, -, hheld⟩ := h.calls id call hcall
  have hok := (h.limiter.acquires id acquire hacquire).stage
  refine ⟨Finset.mem_range.mpr (not_le.mp fun hle => ?_), ?_⟩
  · rw [h.limiter.unissued id hle] at hacquire
    cases hacquire
  · unfold RateLimiter.holdsPermit
    rw [hacquire]
    dsimp only
    generalize acquire.stage = stage at hheld hok
    cases hheld with
    | waiting hacquiring =>
        rw [hstage] at hacquiring
        cases hacquiring
    | leased waitedMs hlease =>
        rw [hstage] at hlease
        cases hlease
        rfl
    | unlimited =>
        obtain ⟨-, -, hnone, -⟩ := hok
        rw [hnone] at hsemaphore
        cases hsemaphore
    | refused hrefused =>
        rw [hstage] at hrefused
        cases hrefused

theorem Inv.charged (h : provider.Inv (.create name limits now)) (hcall : provider.calls id = some call)
    (hsettled : call.stage ≠ .acquiring) : ∃ acquire, provider.limiter.acquires id = some acquire ∧
      provider.limiter.netRpm acquire = (if 0 < limits.rpm ∧ call.stage.counted = true then 1 else 0) ∧
      provider.limiter.netTpm acquire = if 0 < limits.tpm then call.dueTokens limits else 0 := by
  obtain ⟨acquire, hacquire, hcost, hheld⟩ := h.calls id call hcall
  have hok := h.limiter.acquires id acquire hacquire
  have hrpm : ∀ {due}, RateLimiter.dueRpm provider.limiter acquire.stage = some due →
      provider.limiter.netRpm acquire = due := hok.netRpm
  have htpm : ∀ {due}, RateLimiter.dueTpm provider.limiter acquire acquire.stage = some due →
      provider.limiter.netTpm acquire = due := hok.netTpm
  have hstage := hok.stage
  have hreserve := h.reserve call.estimate
  refine ⟨acquire, hacquire, ?_⟩
  generalize acquire.stage = stage at hheld hrpm htpm hstage
  cases hheld with
  | waiting hacquiring => exact (hsettled hacquiring).elim
  | leased waitedMs hlease =>
      have hone : (if provider.limiter.rpm.isSome then 1 else 0 : ℚ) = if 0 < limits.rpm then 1 else 0 :=
        if_congr h.rpm rfl rfl
      have hestimate : provider.limiter.reserve acquire.cost =
          if 0 < limits.tpm then (max (min call.estimate limits.tpm) (0 : ℕ) : ℚ) else 0 := by
        rw [hcost, hreserve, Nat.cast_zero,
          max_eq_left (le_min (Nat.cast_nonneg call.estimate) (Nat.cast_nonneg limits.tpm))]
      unfold LlmCall.dueTokens
      cases hcase : call.stage with
      | acquiring | refused => simp [hcase, CallStage.lease] at hlease
      | sent =>
          rw [hcase] at hlease
          cases hlease
          rw [hrpm rfl, htpm rfl, hone, hestimate]
          simp [CallStage.counted]
      | answered usage =>
          rw [hcase] at hlease
          cases hlease
          rw [hrpm rfl, hone]
          cases usage with
          | none =>
              rw [htpm rfl, hestimate]
              simp [CallStage.counted]
          | some usage =>
              rw [htpm rfl, hcost, hreserve, if_congr h.tpm rfl rfl]
              by_cases hpositive : 0 < limits.tpm
              · simp [CallStage.counted, hpositive]
              · simp [hpositive, CallStage.counted]
      | failed error =>
          rw [hcase] at hlease
          cases hlease
          unfold failedClosing at hrpm htpm
          cases hreached : reachedProvider error with
          | true =>
              rw [hreached] at hrpm htpm
              rw [hrpm rfl, htpm rfl, hone, hestimate]
              simp [CallStage.counted, hreached]
          | false =>
              rw [hreached] at hrpm htpm
              rw [hrpm rfl, htpm rfl]
              simp [CallStage.counted, hreached]
  | unlimited =>
      obtain ⟨hrpmNone, htpmNone, -⟩ := hstage
      have hnoRpm : ¬0 < limits.rpm := fun hpositive => by simpa [hrpmNone] using h.rpm.mpr hpositive
      have hnoTpm : ¬0 < limits.tpm := fun hpositive => by simpa [htpmNone] using h.tpm.mpr hpositive
      rw [hrpm rfl, htpm rfl, if_neg hnoTpm, if_neg fun hcounted => hnoRpm hcounted.1]
      exact ⟨rfl, rfl⟩
  | refused hrefused =>
      rw [hrpm rfl, htpm rfl, LlmCall.dueTokens, hrefused]
      simp [CallStage.counted]

theorem reachable_inv (h : provider.Reachable platform limits) :
    ∃ name now, provider.Inv (.create name limits now) := by
  obtain ⟨name, config, now, actions, hrun⟩ := h
  exact ⟨name, now, hrun.invariant _ (create_inv name limits config now) fun _ _ _ hinv _ hstep =>
    step_inv hinv hstep⟩

/-! ## The buckets of the limiter -/

theorem onCallFailed_ledgers {limiter : RateLimiter} (h : limiter.Inv) (clock : Clock) (id : CallerId)
    (error : Thrown) (header : Option (List Char)) (wallNow : ℚ) :
    RateLimiter.Ledgers limiter (onCallFailed platform clock id error header wallNow limiter) := by
  unfold onCallFailed
  split
  · have hpenalized := RateLimiter.step_ledgers h (clock.after 1)
      (.penalize (clock 0 + retryAfterMs platform.parseDate wallNow header))
    exact hpenalized.trans (RateLimiter.close_ledgers (RateLimiter.penalize_inv h _ _) _ id _)
  · exact RateLimiter.close_ledgers h clock id _

theorem step_ledgers {fresh : RateLimiter} {next : LlmProvider} {action : Clock × Action}
    (h : provider.Inv fresh) (hstep : provider.step platform action = some next) :
    RateLimiter.Ledgers provider.limiter next.limiter := by
  obtain ⟨clock, action⟩ := action
  cases action with
  | call request =>
      obtain rfl := Option.some.inj hstep
      exact RateLimiter.acquire_ledgers h.limiter clock _
  | acquired id =>
      obtain ⟨call, -, hstep⟩ := Option.bind_eq_some_iff.mp hstep
      obtain ⟨-, hstep⟩ := Option.ite_none_right_eq_some.mp hstep
      have hsame : next.limiter = provider.limiter := by
        unfold acquired at hstep
        split at hstep
        · cases hstep
          rfl
        · cases hstep
          rfl
        · cases hstep
          rfl
        · cases hstep
      rw [hsame]
      exact .refl _
  | answered id usage =>
      obtain ⟨call, -, hstep⟩ := Option.bind_eq_some_iff.mp hstep
      obtain ⟨-, hstep⟩ := Option.ite_none_right_eq_some.mp hstep
      obtain rfl := Option.some.inj hstep
      exact RateLimiter.close_ledgers h.limiter clock id
        (.settled ((usage.map usageOf).map fun usage => (usage.totalTokens : ℚ)))
  | failed id error header wallNow =>
      obtain ⟨call, -, hstep⟩ := Option.bind_eq_some_iff.mp hstep
      obtain ⟨-, hstep⟩ := Option.ite_none_right_eq_some.mp hstep
      obtain rfl := Option.some.inj hstep
      exact onCallFailed_ledgers h.limiter clock id error header wallNow
  | limiter action =>
      obtain ⟨-, hstep⟩ := Option.ite_none_right_eq_some.mp hstep
      obtain rfl := Option.some.inj hstep
      exact RateLimiter.step_ledgers h.limiter clock action

theorem reachable_kept (h : provider.Reachable platform limits) : provider.limiter.BucketsKept := by
  obtain ⟨name, config, now, actions, hrun⟩ := h
  have hkept : provider.Inv (.create name limits now) ∧ provider.limiter.BucketsKept :=
    hrun.invariant (fun provider => provider.Inv (.create name limits now) ∧ provider.limiter.BucketsKept)
      ⟨create_inv name limits config now, RateLimiter.create_kept name limits now⟩
      fun _ _ _ hinv _ hstep => by
        have hledgers := step_ledgers hinv.1 hstep
        exact ⟨step_inv hinv.1 hstep, (hledgers.rpm hinv.2.rpm).1, (hledgers.tpm hinv.2.tpm).1⟩
  exact hkept.2

end

end LlmProvider

/-- In every run of a provider, whoever shares its limiter: no more requests are in flight than the
plan allows, a call that never reached the API costs nothing, and every other is charged for one
request and for no fewer tokens than it reserved or used. The tokens of the buckets move by these
charges. -/
theorem calls_accounted {platform : Platform} {limits : RateLimits} {provider : LlmProvider}
    (h : provider.Reachable platform limits) : Accounted limits provider := by
  obtain ⟨name, now, hinv⟩ := LlmProvider.reachable_inv h
  have hkept := LlmProvider.reachable_kept h
  refine ⟨hinv.inFlight, fun id call hcall hsettled => hinv.charged hcall hsettled,
    fun platform action next hstep => ?_⟩
  have hledgers := LlmProvider.step_ledgers hinv hstep
  exact ⟨(hledgers.rpm hkept.rpm).2, (hledgers.tpm hkept.tpm).2⟩

/-! ## Two calls and one permit -/

/-- A platform on which JSON values have no text. -/
def plainPlatform : Platform := ⟨⟨fun _ => "", fun _ => ""⟩, fun _ => none⟩

def tooManyRequests : Thrown :=
  .object { ErrorFields.new "429 Too Many Requests" with status := some 429 } .undefined

/-- The second call waits until the first one has been refused. -/
def refusedActions : List LlmProvider.Action :=
  [.call (.complete "Reply in JSON." "one cola"), .limiter (.resume 0), .limiter (.resume 0),
    .limiter (.resume 0), .acquired 0, .call (.complete "Reply in JSON." "two teas"),
    .limiter (.resume 1), .limiter (.resume 1), .failed 0 tooManyRequests none 0,
    .limiter (.resume 1), .acquired 1]

theorem calls_accounted_refused : ∃ provider : LlmProvider,
    (provider.calls 0).map LlmCall.stage = some (.failed tooManyRequests) ∧
      (provider.calls 1).map LlmCall.stage = some .sent ∧ Accounted ⟨60, 1000, 1⟩ provider := by
  have hrun : ∃ provider, Run (LlmProvider.step plainPlatform) (fun _ _ => True)
      (.create "llm" ⟨60, 1000, 1⟩ ⟨none, none⟩ 0) (refusedActions.map fun action => (fun _ => 0, action))
        provider ∧
      ((provider.calls 0).map LlmCall.stage = some (.failed tooManyRequests) &&
        (provider.calls 1).map LlmCall.stage = some .sent) = true :=
    exists_run (by decide +kernel)
  obtain ⟨provider, hrun, hstages⟩ := hrun
  simp only [Bool.and_eq_true, decide_eq_true_eq] at hstages
  exact ⟨provider, hstages.1, hstages.2, calls_accounted ⟨"llm", ⟨none, none⟩, 0, _, hrun⟩⟩

end VoiceOrder.Llm
