import VoiceOrder.Llm.CallAccounting

/-! # After a 429

The call that is refused for rate floors the next grant, so that the calls that begin in the
meantime wait instead of piling up on a provider that has said stop. -/

namespace VoiceOrder.Llm

open VoiceOrder.Ordering RateLimit Runs

namespace LlmProvider

/-- Since the call failed nothing has been granted to the calls that began after it. -/
structure HeldOff (hold : ℚ) (fresh : RateLimiter) (failing provider : LlmProvider) : Prop where
  inv : provider.Inv fresh
  off : RateLimiter.HoldsOff hold failing.limiter.nextAcquire provider.limiter
  issued : failing.limiter.Inv
  /-- No acquire is forgotten. -/
  asks : ∀ id cost, failing.limiter.Asks id cost → provider.limiter.Asks id cost
  begun : ∀ id call, provider.calls id = some call → failing.calls id = none →
    failing.limiter.nextAcquire ≤ id

section

variable {hold : ℚ} {fresh : RateLimiter} {failing provider next : LlmProvider} {platform : Platform}
  {clock : Clock} {id : CallerId} {call : LlmCall} {action : Clock × Action}

theorem close_eq_step (limiter : RateLimiter) (clock : Clock) (id : CallerId) (closing : Closing) :
    ∃ action, limiter.close clock id closing = limiter.step clock action := by
  cases closing with
  | settled actualCost => exact ⟨.settle id actualCost, rfl⟩
  | abandoned => exact ⟨.abandon id, rfl⟩

/-- A step of the provider is a run of its limiter, on the readings of the step. -/
theorem step_limiter {instants : Set ℚ} (hclock : action.1.Within instants)
    (hstep : provider.step platform action = some next) :
    ∃ actions : List (Clock × RateLimiter.Action), next.limiter = provider.limiter.run actions ∧
      ∀ taken ∈ actions, taken.1.Within instants := by
  obtain ⟨clock, action⟩ := action
  have hone : ∀ action, ∃ actions : List (Clock × RateLimiter.Action),
      provider.limiter.step clock action = provider.limiter.run actions ∧
        ∀ taken ∈ actions, taken.1.Within instants := fun action =>
    ⟨[(clock, action)], rfl, by simpa using hclock⟩
  have hclosed : ∀ id closing, ∃ actions : List (Clock × RateLimiter.Action),
      provider.limiter.close clock id closing = provider.limiter.run actions ∧
        ∀ taken ∈ actions, taken.1.Within instants := fun id closing => by
    obtain ⟨action, haction⟩ := close_eq_step provider.limiter clock id closing
    exact haction ▸ hone action
  cases action with
  | call request =>
      cases hstep
      exact hone (.acquire _)
  | acquired id =>
      obtain ⟨call, -, hstep⟩ := Option.bind_eq_some_iff.mp hstep
      obtain ⟨-, hstep⟩ := Option.ite_none_right_eq_some.mp hstep
      refine ⟨[], ?_, by simp⟩
      unfold acquired at hstep
      split at hstep
      · cases hstep
        rfl
      · cases hstep
        rfl
      · cases hstep
        rfl
      · cases hstep
  | answered id usage =>
      obtain ⟨call, -, hstep⟩ := Option.bind_eq_some_iff.mp hstep
      obtain ⟨-, hstep⟩ := Option.ite_none_right_eq_some.mp hstep
      cases hstep
      exact hclosed id (.settled ((usage.map usageOf).map fun usage : LlmUsage => (usage.totalTokens : ℚ)))
  | failed id error header wallNow =>
      obtain ⟨call, -, hstep⟩ := Option.bind_eq_some_iff.mp hstep
      obtain ⟨-, hstep⟩ := Option.ite_none_right_eq_some.mp hstep
      cases hstep
      change ∃ actions : List (Clock × RateLimiter.Action),
        onCallFailed platform clock id error header wallNow provider.limiter =
          provider.limiter.run actions ∧ _
      unfold onCallFailed
      split_ifs
      · obtain ⟨action, haction⟩ := close_eq_step (provider.limiter.penalize (clock.after 1)
          (clock 0 + retryAfterMs platform.parseDate wallNow header)) (clock.after 5) id
          (failedClosing error)
        refine ⟨[(clock.after 1, .penalize (clock 0 + retryAfterMs platform.parseDate wallNow header)),
          (clock.after 5, action)], haction, ?_⟩
        simpa using ⟨hclock.after 1, hclock.after 5⟩
      · exact hclosed id _
  | limiter action =>
      obtain ⟨-, hstep⟩ := Option.ite_none_right_eq_some.mp hstep
      cases hstep
      exact hone action

theorem run_holdsOff {first : CallerId} {limiter : RateLimiter}
    {actions : List (Clock × RateLimiter.Action)} (h : RateLimiter.HoldsOff hold first limiter)
    (hclocks : ∀ taken ∈ actions, taken.1.Within (Set.Iio hold)) :
    RateLimiter.HoldsOff hold first (limiter.run actions) ∧
      ∀ id cost, limiter.Asks id cost → (limiter.run actions).Asks id cost := by
  induction actions generalizing limiter with
  | nil => exact ⟨h, fun _ _ hasks => hasks⟩
  | cons action actions ih =>
      obtain ⟨hhead, htail⟩ := List.forall_mem_cons.mp hclocks
      obtain ⟨hoff, hasks⟩ := ih (h.step hhead action.2) htail
      exact ⟨hoff, fun id cost hask => hasks id cost (RateLimiter.step_asks h.inv hask action.2)⟩

/-- A call begins with a new acquire. -/
theorem step_begins (hstep : provider.step platform action = some next) (hnone : provider.calls id = none)
    (hne : id ≠ provider.limiter.nextAcquire) : next.calls id = none := by
  obtain ⟨clock, action⟩ := action
  have hput : ∀ limiter {other found after}, provider.calls other = some found →
      ({ provider with limiter := limiter }.put other after).calls id = none := by
    intro limiter other found after hother
    have hne : id ≠ other := fun heq => by
      rw [← heq, hnone] at hother
      cases hother
    exact (Function.update_of_ne hne _ _).trans hnone
  cases action with
  | call request =>
      cases hstep
      exact (Function.update_of_ne hne _ _).trans hnone
  | acquired other =>
      obtain ⟨found, hfound, hstep⟩ := Option.bind_eq_some_iff.mp hstep
      obtain ⟨-, hstep⟩ := Option.ite_none_right_eq_some.mp hstep
      unfold acquired at hstep
      split at hstep
      · cases hstep
        exact hput provider.limiter hfound
      · cases hstep
        exact hput provider.limiter hfound
      · cases hstep
        exact hput provider.limiter hfound
      · cases hstep
  | answered other usage =>
      obtain ⟨found, hfound, hstep⟩ := Option.bind_eq_some_iff.mp hstep
      obtain ⟨-, hstep⟩ := Option.ite_none_right_eq_some.mp hstep
      cases hstep
      exact hput _ hfound
  | failed other error header wallNow =>
      obtain ⟨found, hfound, hstep⟩ := Option.bind_eq_some_iff.mp hstep
      obtain ⟨-, hstep⟩ := Option.ite_none_right_eq_some.mp hstep
      cases hstep
      exact hput _ hfound
  | limiter action =>
      obtain ⟨-, hstep⟩ := Option.ite_none_right_eq_some.mp hstep
      cases hstep
      exact hnone

/-! ## The run after the refusal -/

theorem HeldOff.step (h : HeldOff hold fresh failing provider) (hclock : action.1.Within (Set.Iio hold))
    (hstep : provider.step platform action = some next) : HeldOff hold fresh failing next := by
  obtain ⟨actions, hlimiter, hclocks⟩ := step_limiter hclock hstep
  obtain ⟨hoff, hasks⟩ := run_holdsOff h.off hclocks
  rw [← hlimiter] at hoff hasks
  refine ⟨step_inv h.inv hstep, hoff, h.issued, fun id cost hask => hasks id cost (h.asks id cost hask),
    fun id call hcall hnone => ?_⟩
  cases hbefore : provider.calls id with
  | some before => exact h.begun id before hbefore hnone
  | none =>
      by_contra hearlier
      have heq : id = provider.limiter.nextAcquire := by
        by_contra hne
        rw [step_begins hstep hbefore hne] at hcall
        cases hcall
      -- An acquire that the failing state had issued would still be there.
      obtain ⟨acquire, hacquire⟩ :=
        Option.isSome_iff_exists.mp (h.issued.recorded id (not_le.mp hearlier))
      obtain ⟨found, hfound, -⟩ := h.asks id acquire.cost ⟨acquire, hacquire, rfl⟩
      rw [h.inv.limiter.unissued id heq.ge] at hfound
      cases hfound

/-- A 429 floors the next grant of both buckets. -/
theorem failed_hold {limiter : RateLimiter} {error : Thrown} (h429 : is429 error = true)
    (header : Option (List Char)) (wallNow : ℚ) :
    (∀ b, (onCallFailed platform clock id error header wallNow limiter).rpm = some b →
      clock 0 + retryAfterMs platform.parseDate wallNow header ≤ b.penaltyUntil) ∧
    ∀ b, (onCallFailed platform clock id error header wallNow limiter).tpm = some b →
      clock 0 + retryAfterMs platform.parseDate wallNow header ≤ b.penaltyUntil := by
  unfold onCallFailed
  rw [if_pos h429]
  obtain ⟨hrpm, htpm⟩ := @RateLimiter.penalize_hold limiter (clock.after 1)
    (clock 0 + retryAfterMs platform.parseDate wallNow header)
  have hparts := @close_parts
    (limiter.penalize (clock.after 1) (clock 0 + retryAfterMs platform.parseDate wallNow header))
    (clock.after 5) id (failedClosing error)
  exact ⟨RateLimiter.hold_of_parts hparts.rpm hrpm, RateLimiter.hold_of_parts hparts.tpm htpm⟩

/-- What an acquire that is held back may have come to. -/
theorem HeldOff.unsent {name : String} {limits : RateLimits} {now : ℚ}
    (h : HeldOff hold (.create name limits now) failing provider) (hcall : provider.calls id = some call)
    (hbegun : failing.calls id = none) (hcapped : 0 < limits.rpm ∨ 0 < limits.tpm ∧ 0 < call.estimate) :
    call.stage = .acquiring ∨ ∃ error, call.stage = .refused error := by
  obtain ⟨acquire, hacquire, hcost, hheld⟩ := h.inv.calls id call hcall
  have hback := h.off.back id acquire (h.begun id call hcall hbegun) hacquire
  have hnotFree : provider.limiter.rpm = none → (provider.limiter.tpm = none ∨ acquire.cost = 0) → False := by
    intro hrpm htpm
    rcases hcapped with hlimit | ⟨hlimit, hestimate⟩
    · simpa [hrpm] using h.inv.rpm.mpr hlimit
    · rcases htpm with htpm | hzero
      · simpa [htpm] using h.inv.tpm.mpr hlimit
      · rw [hcost] at hzero
        exact hestimate.ne' (Nat.cast_eq_zero.mp hzero)
  generalize acquire.stage = stage at hheld hback
  cases hheld with
  | waiting hacquiring => exact .inl hacquiring
  | leased waitedMs hlease =>
      cases hback with
      | free hrpm htpm => exact (hnotFree hrpm htpm).elim
  | unlimited hlease =>
      cases hback with
      | free hrpm htpm => exact (hnotFree hrpm htpm).elim
  | refused hrefused => exact .inr ⟨_, hrefused⟩

end

end LlmProvider

/-- After a call was refused with a 429, whatever its header says and whoever else uses the limiter:
no call that begins before the hold-off is over reaches the provider in that time. -/
theorem held_off {platform : Platform} {limits : RateLimits} {provider failing after : LlmProvider}
    {clock : Clock} {id : CallerId} {error : Thrown} {header : Option (List Char)} {wallNow : ℚ}
    {actions : List (Clock × LlmProvider.Action)} (h : provider.Reachable platform limits)
    (hfailed : provider.step platform (clock, .failed id error header wallNow) = some failing)
    (h429 : is429 error = true)
    (hrun : Run (LlmProvider.step platform) (fun _ action => ∀ n,
      action.1 n < clock 0 + retryAfterMs platform.parseDate wallNow header) failing actions after)
    {later : CallerId} {call : LlmCall} (hcall : after.calls later = some call)
    (hbegun : failing.calls later = none)
    (hcapped : 0 < limits.rpm ∨ 0 < limits.tpm ∧ 0 < call.estimate) :
    call.stage = .acquiring ∨ ∃ error, call.stage = .refused error := by
  obtain ⟨name, now, hinv⟩ := LlmProvider.reachable_inv h
  have hfailing := LlmProvider.step_inv hinv hfailed
  have hlimiter : failing.limiter =
      LlmProvider.onCallFailed platform clock id error header wallNow provider.limiter := by
    obtain ⟨found, -, hstep⟩ := Option.bind_eq_some_iff.mp hfailed
    obtain ⟨-, hstep⟩ := Option.ite_none_right_eq_some.mp hstep
    cases hstep
    rfl
  obtain ⟨hrpm, htpm⟩ := @LlmProvider.failed_hold platform clock id provider.limiter error h429
    header wallNow
  rw [← hlimiter] at hrpm htpm
  have hstart : LlmProvider.HeldOff (clock 0 + retryAfterMs platform.parseDate wallNow header)
      (.create name limits now) failing failing := by
    refine ⟨hfailing, .start hfailing.limiter hrpm htpm fun b hb => ?_, hfailing.limiter,
      fun _ _ hasks => hasks, fun id call hcall hnone => ?_⟩
    · obtain ⟨hcapacity, hpositive⟩ := hfailing.capacity hb
      rw [hcapacity]
      exact Nat.cast_pos.mpr hpositive
    · rw [hcall] at hnone
      cases hnone
  have hafter := hrun.invariant _ hstart fun _ _ _ hoff hclock hstep => hoff.step hclock hstep
  exact hafter.unsent hcall hbegun hcapped

/-! ## A call that begins too early -/

def sentActions : List LlmProvider.Action :=
  [.call (.complete "Reply in JSON." "one cola"), .limiter (.resume 0), .limiter (.resume 0),
    .limiter (.resume 0), .acquired 0]

/-- Half a second after the refusal a call begins, and its limiter looks for it. -/
def hastyActions : List LlmProvider.Action :=
  [.call (.complete "Reply in JSON." "one cola"), .limiter (.rpmTimer .head), .limiter (.resume 1),
    .limiter (.rpmTimer .head)]

theorem held_off_hasty : ∃ (after : LlmProvider) (call : LlmCall), after.calls 1 = some call ∧
    (call.stage = .acquiring ∨ ∃ error, call.stage = .refused error) := by
  have hrun : ∃ provider, Run (LlmProvider.step plainPlatform) (fun _ _ => True)
      (.create "llm" ⟨60, 1000, 1⟩ ⟨none, none⟩ 0) (sentActions.map fun action => (fun _ => 0, action))
        provider ∧
      ((LlmProvider.step plainPlatform provider
          (fun _ => 0, .failed 0 tooManyRequests (some ['2']) 0)).any fun failing =>
        (failing.calls 1).isNone && (exec (guarded (LlmProvider.step plainPlatform) fun _ _ => True) failing
          (hastyActions.map fun action => (fun _ => 500, action))).any fun after =>
            (after.calls 1).isSome) = true :=
    exists_run (by decide +kernel)
  obtain ⟨provider, hsent, hholds⟩ := hrun
  obtain ⟨failing, hfailed, hholds⟩ := (Option.any_eq_true _ _).mp hholds
  obtain ⟨hbegun, hholds⟩ := Bool.and_eq_true_iff.mp hholds
  obtain ⟨after, hafter, hcall⟩ := (Option.any_eq_true _ _).mp hholds
  obtain ⟨call, hcall⟩ := Option.isSome_iff_exists.mp hcall
  refine ⟨after, call, hcall, held_off ⟨"llm", ⟨none, none⟩, 0, _, hsent⟩ hfailed (by decide)
    ((run_iff_exec.mpr hafter).of_forall fun action haction n => ?_) hcall
    (Option.isNone_iff_eq_none.mp hbegun) (.inl (by decide))⟩
  obtain ⟨_, -, rfl⟩ := List.mem_map.mp haction
  exact (by decide +kernel : (500 : ℚ) < 0 + retryAfterMs plainPlatform.parseDate 0 (some ['2']))

end VoiceOrder.Llm
