import VoiceOrder.RateLimit.LeaseAccounting
import VoiceOrder.RateLimit.Arrival

/-! # How a lease is closed

The first call on a lease closes it for good. Nothing else that happens to the limiter closes a
lease or opens one again. -/

namespace VoiceOrder.RateLimit

/-- How the lease of an acquire was closed. -/
def Stage.closing? : Stage → Option Closing
  | .leased _ closing => closing
  | .rpm _ | .tpm _ | .permit | .failed _ | .noop => none

/-- The promise of the acquire has settled. -/
def Stage.ended : Stage → Bool
  | .leased _ _ | .failed _ | .noop => true
  | .rpm _ | .tpm _ | .permit => false

namespace TokenBucket

variable {clock : Clock} {bucket : TokenBucket}

theorem refill_penaltyUntil : (bucket.refill clock).penaltyUntil = bucket.penaltyUntil := by
  unfold refill
  dsimp only
  split
  · rfl
  · rfl

theorem payHeads_penaltyUntil (t : ℚ) (queue : List Waiter) :
    (payHeads t queue bucket).penaltyUntil = bucket.penaltyUntil := by
  induction queue generalizing bucket with
  | nil => rfl
  | cons head rest ih =>
      unfold payHeads
      split
      · exact ih
      · rfl

theorem armTimer_penaltyUntil (t : ℚ) : (bucket.armTimer t).penaltyUntil = bucket.penaltyUntil := by
  unfold armTimer
  split
  · rfl
  · dsimp only
    split
    · rfl
    · split
      · rfl
      · rfl

theorem reschedule_penaltyUntil : (bucket.reschedule clock).penaltyUntil = bucket.penaltyUntil := by
  unfold reschedule
  rw [armTimer_penaltyUntil, payHeads_penaltyUntil, refill_penaltyUntil]

/-- No grant may happen before the instant of a penalty. -/
theorem le_penalize (untilMs : ℚ) : untilMs ≤ (bucket.penalize clock untilMs).penaltyUntil := by
  unfold penalize
  split
  · assumption
  · rw [reschedule_penaltyUntil]

end TokenBucket

namespace RateLimiter

/-- The action is a call on the lease of an acquire. -/
def Action.closes (id : CallerId) : Action → Bool
  | .settle other _ | .abandon other => other = id
  | .acquire _ | .resume _ | .penalize _ | .abort _ | .rpmTimer _ | .tpmTimer _ | .permitDeadline _ => false

section

variable {clock : Clock} {id other : CallerId} {limiter : RateLimiter} {acquire entered : Acquire}

/-! ## The acquires of others -/

theorem put_of_ne (h : id ≠ other) : (limiter.put other acquire).acquires id = limiter.acquires id :=
  Function.update_of_ne h _ _

@[simp] theorem put_self : (limiter.put id acquire).acquires id = some acquire :=
  Function.update_self ..

theorem enterPermit_of_ne (h : id ≠ other) :
    (limiter.enterPermit clock other acquire).acquires id = limiter.acquires id := by
  unfold enterPermit
  split
  · exact put_of_ne h
  · exact put_of_ne h

theorem enterTpm_of_ne (h : id ≠ other) :
    (limiter.enterTpm clock other acquire).acquires id = limiter.acquires id := by
  unfold enterTpm
  split
  · exact enterPermit_of_ne h
  · split
    · exact put_of_ne h
    · exact enterPermit_of_ne h

theorem enterRpm_of_ne (h : id ≠ other) :
    (limiter.enterRpm clock other acquire).acquires id = limiter.acquires id := by
  unfold enterRpm
  split
  · exact enterTpm_of_ne h
  · exact put_of_ne h

/-- A charge or a refund of an acquire touches nothing but the buckets. -/
structure Charges (limiter : RateLimiter) (acquire : Acquire) (charged : Acquire × RateLimiter) :
    Prop where
  acquires : charged.2.acquires = limiter.acquires
  concurrency : charged.2.concurrency = limiter.concurrency
  release : charged.1.release = acquire.release

theorem refundTpm_charges (clock : Clock) (limiter : RateLimiter) (acquire : Acquire) :
    Charges limiter acquire (limiter.refundTpm clock acquire) := by
  unfold refundTpm
  split
  · exact ⟨rfl, rfl, rfl⟩
  · split
    · exact ⟨rfl, rfl, rfl⟩
    · exact ⟨rfl, rfl, rfl⟩

theorem refundRpm_charges (clock : Clock) (limiter : RateLimiter) (acquire : Acquire) :
    Charges limiter acquire (limiter.refundRpm clock acquire) := by
  unfold refundRpm
  split
  · exact ⟨rfl, rfl, rfl⟩
  · split
    · exact ⟨rfl, rfl, rfl⟩
    · exact ⟨rfl, rfl, rfl⟩

theorem giveBack_charges (clock : Clock) (limiter : RateLimiter) (acquire : Acquire) :
    Charges limiter acquire (limiter.giveBack clock acquire) := by
  have htpm := refundTpm_charges clock limiter acquire
  have hrpm := refundRpm_charges (clock.after 3) (limiter.refundTpm clock acquire).2
    (limiter.refundTpm clock acquire).1
  exact ⟨hrpm.acquires.trans htpm.acquires, hrpm.concurrency.trans htpm.concurrency,
    hrpm.release.trans htpm.release⟩

theorem reconcile_charges (clock : Clock) (actualCost : Option ℚ) (limiter : RateLimiter)
    (acquire : Acquire) : Charges limiter acquire (limiter.reconcile clock actualCost acquire) := by
  unfold reconcile
  split
  · dsimp only
    split
    · exact ⟨rfl, rfl, rfl⟩
    · exact ⟨rfl, rfl, rfl⟩
  · exact ⟨rfl, rfl, rfl⟩

theorem handBack_acquires : (limiter.handBack id acquire).acquires = limiter.acquires := by
  unfold handBack
  split
  · rfl
  · rfl

theorem failAcquire_of_ne (error : RateLimitTimeoutError) (h : id ≠ other) :
    (limiter.failAcquire clock other error acquire).acquires id = limiter.acquires id :=
  (put_of_ne h).trans (congrFun (giveBack_charges clock limiter acquire).acquires id)

theorem resume_of_ne (h : id ≠ other) : (limiter.resume clock other).acquires id = limiter.acquires id := by
  unfold resume
  split
  · rfl
  · split
    · split
      · rfl
      · exact enterTpm_of_ne h
      · exact failAcquire_of_ne _ h
    · split
      · rfl
      · exact enterPermit_of_ne h
      · exact failAcquire_of_ne _ h
    · split
      · rfl
      · exact put_of_ne h
      · exact failAcquire_of_ne _ h
    · rfl
    · rfl
    · rfl

theorem settle_of_ne (actualCost : Option ℚ) (h : id ≠ other) :
    (limiter.settle clock other actualCost).acquires id = limiter.acquires id := by
  unfold settle
  split
  · rfl
  · rename_i acquire _
    split
    · exact (put_of_ne h).trans ((congrFun handBack_acquires id).trans
        (congrFun (reconcile_charges clock actualCost limiter acquire).acquires id))
    · rfl

theorem abandon_of_ne (h : id ≠ other) :
    (limiter.abandon clock other).acquires id = limiter.acquires id := by
  unfold abandon
  split
  · rfl
  · rename_i acquire _
    split
    · exact (put_of_ne h).trans ((congrFun handBack_acquires id).trans
        (congrFun (giveBack_charges clock limiter acquire).acquires id))
    · rfl

/-! ## One acquire -/

/-- The acquire of an id in a later state: its promise stays settled, and its lease open. -/
def Continues (limiter : RateLimiter) (id : CallerId) (acquire : Acquire) : Prop :=
  ∃ next, limiter.acquires id = some next ∧ next.stage.closing? = acquire.stage.closing? ∧
    (acquire.stage.ended = true → next.stage = acquire.stage)

theorem Continues.of_eq (h : limiter.acquires id = some acquire) : limiter.Continues id acquire :=
  ⟨acquire, h, rfl, fun _ => rfl⟩

/-- An acquire that waits may go on to any stage that leaves its lease open. -/
theorem Continues.of_waiting {next : Acquire} (h : limiter.acquires id = some next)
    (hnext : next.stage.closing? = none) (hwaiting : acquire.stage.ended = false) :
    limiter.Continues id acquire := by
  refine ⟨next, h, ?_, fun hended => ?_⟩
  · rw [hnext]
    cases hstage : acquire.stage with
    | rpm | tpm | permit => rfl
    | leased | failed | noop => simp [Stage.ended, hstage] at hwaiting
  · rw [hwaiting] at hended
    cases hended

theorem enterPermit_self : ∃ next, (limiter.enterPermit clock id acquire).acquires id = some next ∧
    next.stage.closing? = none := by
  unfold enterPermit
  split
  · exact ⟨_, put_self, rfl⟩
  · exact ⟨_, put_self, rfl⟩

theorem enterTpm_self : ∃ next, (limiter.enterTpm clock id acquire).acquires id = some next ∧
    next.stage.closing? = none := by
  unfold enterTpm
  split
  · exact enterPermit_self
  · split
    · exact ⟨_, put_self, rfl⟩
    · exact enterPermit_self

theorem enterRpm_self : ∃ next, (limiter.enterRpm clock id acquire).acquires id = some next ∧
    next.stage.closing? = none := by
  unfold enterRpm
  split
  · exact enterTpm_self
  · exact ⟨_, put_self, rfl⟩

theorem resume_self (h : limiter.acquires id = some acquire) :
    (limiter.resume clock id).Continues id acquire := by
  unfold resume
  rw [h]
  dsimp only
  split
  · rename_i promise hstage
    have hwaiting : acquire.stage.ended = false := by rw [hstage]; rfl
    split
    · exact .of_eq h
    · obtain ⟨next, hnext, hclosing⟩ :=
        @enterTpm_self clock id limiter { acquire with rpmTaken := true }
      exact .of_waiting hnext hclosing hwaiting
    · exact .of_waiting put_self rfl hwaiting
  · rename_i promise hstage
    have hwaiting : acquire.stage.ended = false := by rw [hstage]; rfl
    split
    · exact .of_eq h
    · obtain ⟨next, hnext, hclosing⟩ :=
        @enterPermit_self clock id limiter { acquire with tpmTaken := acquire.reserved }
      exact .of_waiting hnext hclosing hwaiting
    · exact .of_waiting put_self rfl hwaiting
  · rename_i hstage
    have hwaiting : acquire.stage.ended = false := by rw [hstage]; rfl
    split
    · exact .of_eq h
    · exact .of_waiting put_self rfl hwaiting
    · exact .of_waiting put_self rfl hwaiting
  · exact .of_eq h
  · exact .of_eq h
  · exact .of_eq h

/-- An abort settles a promise of a bucket or of the semaphore; of the acquire it changes the
signal only. -/
theorem abort_acquires (other : CallerId) : (limiter.abort clock other).acquires = limiter.acquires ∨
    ∃ aborted, limiter.acquires other = some aborted ∧ (limiter.abort clock other).acquires =
      Function.update limiter.acquires other (some { aborted with signal := some true }) := by
  unfold abort
  split
  · exact .inl rfl
  · rename_i aborted haborted
    split
    · right
      refine ⟨aborted, haborted, ?_⟩
      dsimp only
      cases aborted.stage <;> rfl
    · exact .inl rfl

theorem abort_continues (other : CallerId) (h : limiter.acquires id = some acquire) :
    (limiter.abort clock other).Continues id acquire := by
  rcases @abort_acquires clock limiter other with hsame | ⟨aborted, haborted, hacquires⟩
  · exact .of_eq (hsame ▸ h)
  · by_cases heq : id = other
    · subst heq
      rw [h] at haborted
      cases haborted
      exact ⟨{ acquire with signal := some true }, by rw [hacquires, Function.update_self], rfl,
        fun _ => rfl⟩
    · exact .of_eq (by rw [hacquires, Function.update_of_ne heq, h])

/-- Nothing but a call on its lease closes an acquire, and a promise that has settled stays as it
is. -/
theorem step_continues (hinv : Inv limiter) (h : limiter.acquires id = some acquire) {action : Action}
    (haction : action.closes id = false) : (limiter.step clock action).Continues id acquire := by
  cases action with
  | acquire options =>
      have hne : id ≠ limiter.nextAcquire := fun heq => by
        rw [hinv.unissued id heq.ge] at h
        cases h
      refine .of_eq ?_
      change (limiter.acquire clock options).acquires id = some acquire
      unfold RateLimiter.acquire
      dsimp only
      split
      · exact (put_of_ne hne).trans h
      · exact (enterRpm_of_ne hne).trans h
  | resume other =>
      by_cases heq : id = other
      · subst heq
        exact resume_self h
      · exact .of_eq ((resume_of_ne heq).trans h)
  | settle other actualCost =>
      have hne : other ≠ id := of_decide_eq_false haction
      exact .of_eq ((settle_of_ne actualCost hne.symm).trans h)
  | abandon other =>
      have hne : other ≠ id := of_decide_eq_false haction
      exact .of_eq ((abandon_of_ne hne.symm).trans h)
  | abort other => exact abort_continues other h
  | penalize | rpmTimer | tpmTimer | permitDeadline => exact .of_eq h

/-- A new acquire has no lease yet, or one that is open. -/
theorem acquire_self (options : AcquireOptions) :
    ∃ next, (limiter.acquire clock options).acquires limiter.nextAcquire = some next ∧
      next.stage.closing? = none := by
  unfold RateLimiter.acquire
  dsimp only
  split
  · exact ⟨_, put_self, rfl⟩
  · exact enterRpm_self

/-! ## Closing -/

theorem close_of_ne (closing : Closing) (h : id ≠ other) :
    (limiter.close clock other closing).acquires id = limiter.acquires id := by
  cases closing with
  | settled actualCost => exact settle_of_ne actualCost h
  | abandoned => exact abandon_of_ne h

theorem inv_of_close (h : Inv limiter) (clock : Clock) (closing : Closing) :
    Inv (limiter.close clock id closing) := by
  cases closing with
  | settled actualCost => exact settle_inv h clock id actualCost
  | abandoned => exact abandon_inv h clock id

theorem close_ledgers (h : Inv limiter) (clock : Clock) (id : CallerId) (closing : Closing) :
    Ledgers limiter (limiter.close clock id closing) := by
  cases closing with
  | settled actualCost => exact settle_ledgers h clock id actualCost
  | abandoned => exact abandon_ledgers h clock id

/-- Where there is no lease, there is nothing to close. -/
theorem close_unleased (closing : Closing) (h : limiter.acquires id = some acquire)
    (hstage : ∀ waitedMs done, acquire.stage ≠ .leased waitedMs done) :
    limiter.close clock id closing = limiter := by
  cases closing with
  | settled actualCost =>
      simp only [close, settle, h]
      split
      · rename_i waitedMs hleased
        exact (hstage waitedMs none hleased).elim
      · rfl
  | abandoned =>
      simp only [close, abandon, h]
      split
      · rename_i waitedMs hleased
        exact (hstage waitedMs none hleased).elim
      · rfl

/-- The first call closes the lease, and the later ones change nothing. -/
theorem close_first (clock : Clock) (closing : Closing) {waitedMs : ℚ} {done : Option Closing}
    (h : limiter.acquires id = some acquire) (hstage : acquire.stage = .leased waitedMs done) :
    ∃ next, (limiter.close clock id closing).acquires id = some next ∧
      next.stage = .leased waitedMs (done.or (some closing)) := by
  cases done with
  | some earlier =>
      have hnext : ∀ closing, limiter.close clock id closing = limiter := fun closing => by
        cases closing with
        | settled actualCost => simp only [close, settle, h, hstage]
        | abandoned => simp only [close, abandon, h, hstage]
      exact ⟨acquire, by rw [hnext, h], hstage⟩
  | none =>
      cases closing with
      | settled actualCost =>
          simp only [close, settle, h, hstage]
          exact ⟨_, put_self, rfl⟩
      | abandoned =>
          simp only [close, abandon, h, hstage]
          exact ⟨_, put_self, rfl⟩

/-- The call that closes a lease hands back its permit. -/
theorem close_concurrency (hinv : Inv limiter) (clock : Clock) (closing : Closing) {waitedMs : ℚ}
    {done : Option Closing} (h : limiter.acquires id = some acquire)
    (hstage : acquire.stage = .leased waitedMs done) :
    (limiter.close clock id closing).concurrency =
      if done = none then limiter.concurrency.map (Semaphore.release id) else limiter.concurrency := by
  cases done with
  | some earlier =>
      cases closing with
      | settled actualCost => simp only [close, settle, h, hstage, reduceCtorEq, if_false]
      | abandoned => simp only [close, abandon, h, hstage, reduceCtorEq, if_false]
  | none =>
      have hrelease : acquire.release = limiter.concurrency.isSome := by
        have hok := (hinv.acquires id acquire h).stage
        rw [hstage] at hok
        exact hok.2.2.1
      have hhandBack : ∀ {charged : Acquire × RateLimiter}, Charges limiter acquire charged →
          (charged.2.handBack id charged.1).concurrency =
            limiter.concurrency.map (Semaphore.release id) := fun hcharges => by
        unfold handBack
        rw [hcharges.release, hrelease, ← hcharges.concurrency]
        split
        · rfl
        · rename_i hnone
          rw [Option.not_isSome_iff_eq_none.mp hnone, Option.map_none]
      cases closing with
      | settled actualCost =>
          simp only [close, settle, h, hstage, if_true]
          exact hhandBack (reconcile_charges clock actualCost limiter acquire)
      | abandoned =>
          simp only [close, abandon, h, hstage, if_true]
          exact hhandBack (giveBack_charges clock limiter acquire)

end

end RateLimiter

end VoiceOrder.RateLimit
