import VoiceOrder.RateLimit.LimiterParts

/-! # An acquire keeps its cost -/

namespace VoiceOrder.RateLimit.RateLimiter

variable {clock : Clock} {id other : CallerId} {limiter : RateLimiter} {acquire : Acquire} {cost : ℚ}

/-- The acquire of an id asks for a cost. -/
def Asks (id : CallerId) (cost : ℚ) (limiter : RateLimiter) : Prop :=
  ∃ acquire, limiter.acquires id = some acquire ∧ acquire.cost = cost

theorem Asks.of_eq {after : RateLimiter} (h : limiter.Asks id cost)
    (hsame : after.acquires id = limiter.acquires id) : after.Asks id cost := by
  obtain ⟨acquire, hacquire, hcost⟩ := h
  exact ⟨acquire, hsame.trans hacquire, hcost⟩

theorem put_asks (hcost : acquire.cost = cost) : (limiter.put id acquire).Asks id cost :=
  ⟨acquire, put_self, hcost⟩

theorem enterPermit_asks (hcost : acquire.cost = cost) :
    (limiter.enterPermit clock id acquire).Asks id cost := by
  unfold enterPermit
  split
  · exact put_asks hcost
  · exact put_asks hcost

theorem enterTpm_asks (hcost : acquire.cost = cost) :
    (limiter.enterTpm clock id acquire).Asks id cost := by
  unfold enterTpm
  split
  · exact enterPermit_asks hcost
  · split
    · exact put_asks hcost
    · exact enterPermit_asks hcost

theorem enterRpm_asks (hcost : acquire.cost = cost) :
    (limiter.enterRpm clock id acquire).Asks id cost := by
  unfold enterRpm
  split
  · exact enterTpm_asks hcost
  · exact put_asks hcost

theorem acquire_of_ne (options : AcquireOptions) (h : id ≠ limiter.nextAcquire) :
    (limiter.acquire clock options).acquires id = limiter.acquires id := by
  unfold RateLimiter.acquire
  dsimp only
  split
  · exact put_of_ne h
  · exact enterRpm_of_ne h

/-- A new acquire asks for its cost; a negative one counts as nothing. -/
theorem acquire_asks (options : AcquireOptions) :
    (limiter.acquire clock options).Asks limiter.nextAcquire (max 0 (options.cost.getD 0)) := by
  unfold RateLimiter.acquire
  dsimp only
  split
  · exact put_asks rfl
  · exact enterRpm_asks rfl

theorem giveBack_cost : (limiter.giveBack clock acquire).1.cost = acquire.cost := by
  have htpm : ∀ {limiter : RateLimiter} {clock acquire},
      (limiter.refundTpm clock acquire).1.cost = acquire.cost := by
    intro limiter clock acquire
    unfold refundTpm
    split
    · rfl
    · split <;> rfl
  have hrpm : ∀ {limiter : RateLimiter} {clock acquire},
      (limiter.refundRpm clock acquire).1.cost = acquire.cost := by
    intro limiter clock acquire
    unfold refundRpm
    split
    · rfl
    · split <;> rfl
  exact hrpm.trans htpm

theorem reconcile_cost (actualCost : Option ℚ) :
    (limiter.reconcile clock actualCost acquire).1.cost = acquire.cost := by
  unfold reconcile
  split
  · dsimp only
    split <;> rfl
  · rfl

theorem resume_asks (h : limiter.Asks id cost) : (limiter.resume clock id).Asks id cost := by
  obtain ⟨acquire, hacquire, hcost⟩ := h
  have hfailed : ∀ error, (limiter.failAcquire clock id error acquire).Asks id cost := fun _ =>
    put_asks (giveBack_cost.trans hcost)
  have hsame : limiter.Asks id cost := ⟨acquire, hacquire, hcost⟩
  unfold resume
  rw [hacquire]
  dsimp only
  split
  · split
    · exact hsame
    · exact enterTpm_asks hcost
    · exact hfailed _
  · split
    · exact hsame
    · exact enterPermit_asks hcost
    · exact hfailed _
  · split
    · exact hsame
    · exact put_asks hcost
    · exact hfailed _
  · exact hsame
  · exact hsame
  · exact hsame

theorem close_asks (closing : Closing) (h : limiter.Asks id cost) :
    (limiter.close clock id closing).Asks id cost := by
  obtain ⟨acquire, hacquire, hcost⟩ := h
  have hsame : limiter.Asks id cost := ⟨acquire, hacquire, hcost⟩
  cases closing with
  | settled actualCost =>
      simp only [close, settle, hacquire]
      split
      · exact put_asks ((reconcile_cost actualCost).trans hcost)
      · exact hsame
  | abandoned =>
      simp only [close, abandon, hacquire]
      split
      · exact put_asks (giveBack_cost.trans hcost)
      · exact hsame

theorem close_asks_other (closing : Closing) (other : CallerId) (h : limiter.Asks id cost) :
    (limiter.close clock other closing).Asks id cost := by
  by_cases heq : id = other
  · exact heq ▸ close_asks closing (heq ▸ h)
  · exact h.of_eq (close_of_ne closing heq)

/-- No step changes what an acquire asks for. -/
theorem step_asks (hinv : Inv limiter) (h : limiter.Asks id cost) (action : Action) :
    (limiter.step clock action).Asks id cost := by
  cases action with
  | acquire options =>
      have hne : id ≠ limiter.nextAcquire := fun heq => by
        obtain ⟨acquire, hacquire, -⟩ := h
        rw [hinv.unissued id heq.ge] at hacquire
        cases hacquire
      exact h.of_eq (acquire_of_ne options hne)
  | resume other =>
      by_cases heq : id = other
      · exact heq ▸ resume_asks (heq ▸ h)
      · exact h.of_eq (resume_of_ne heq)
  | settle other actualCost => exact close_asks_other (.settled actualCost) other h
  | abandon other => exact close_asks_other .abandoned other h
  | abort other =>
      rcases @abort_acquires clock limiter other with hsame | ⟨aborted, haborted, hacquires⟩
      · exact h.of_eq (congrFun hsame id)
      · by_cases heq : id = other
        · subst heq
          obtain ⟨acquire, hacquire, hcost⟩ := h
          rw [haborted] at hacquire
          cases hacquire
          exact ⟨{ aborted with signal := some true },
            (congrFun hacquires id).trans (Function.update_self ..), hcost⟩
        · exact h.of_eq ((congrFun hacquires id).trans (Function.update_of_ne heq _ _))
  | penalize | rpmTimer | tpmTimer | permitDeadline => exact h

end VoiceOrder.RateLimit.RateLimiter
