import VoiceOrder.RateLimit.LeaseBalance

/-! # Lease accounting

In any run of the limiter the permits in use are the open leases, and the net charges of
every acquire are those of the reservation rule. -/

namespace VoiceOrder.RateLimit

namespace RateLimiter

/-- The requests an acquire is charged, less those refunded for it. -/
def netRpm (limiter : RateLimiter) (acquire : Acquire) : ℚ :=
  paidFor limiter.rpm acquire.rpmPromise - acquire.rpmRefunded

/-- The tokens an acquire is charged, less those refunded for it. -/
def netTpm (limiter : RateLimiter) (acquire : Acquire) : ℚ :=
  paidFor limiter.tpm acquire.tpmPromise + acquire.tpmForced - acquire.tpmRefunded

/-- The acquire holds an open lease, or was granted a permit and has yet to return one. -/
def holdsPermit (limiter : RateLimiter) (id : CallerId) : Bool :=
  match limiter.acquires id with
  | none => false
  | some acquire =>
      match acquire.stage with
      | .leased _ none => true
      | .permit => (limiter.concurrency.bind fun s => s.outcomes id) = some .granted
      | .rpm _ | .tpm _ | .leased _ (some _) | .failed _ | .noop => false

/-- The net charge the reservation rule asks for, once an acquire has ended or holds its
lease: nothing for a failed or abandoned one, and never less than the reservation else. -/
def dueTpm (limiter : RateLimiter) (acquire : Acquire) : Stage → Option ℚ
  | .leased _ none | .leased _ (some (.settled none)) => some (limiter.reserve acquire.cost)
  | .leased _ (some (.settled (some actualCost))) =>
      some (if limiter.tpm.isSome then max (limiter.reserve acquire.cost) actualCost else 0)
  | .leased _ (some .abandoned) | .failed _ | .noop => some 0
  | .rpm _ | .tpm _ | .permit => none

def dueRpm (limiter : RateLimiter) : Stage → Option ℚ
  | .leased _ none | .leased _ (some (.settled _)) => some (if limiter.rpm.isSome then 1 else 0)
  | .leased _ (some .abandoned) | .failed _ | .noop => some 0
  | .rpm _ | .tpm _ | .permit => none

/-- The account of the limiter. -/
structure Accounted (limiter : RateLimiter) : Prop where
  permits : ∀ semaphore, limiter.concurrency = some semaphore → semaphore.used =
    ((Finset.range limiter.nextAcquire).filter fun id => limiter.holdsPermit id = true).card
  charges : ∀ id acquire, limiter.acquires id = some acquire →
    (∀ due, dueRpm limiter acquire.stage = some due → limiter.netRpm acquire = due) ∧
      ∀ due, dueTpm limiter acquire acquire.stage = some due → limiter.netTpm acquire = due
  once : ∀ id acquire waitedMs closing, limiter.acquires id = some acquire →
    acquire.stage = .leased waitedMs (some closing) → ∀ clock actualCost,
      limiter.step clock (.settle id actualCost) = limiter ∧
        limiter.step clock (.abandon id) = limiter
  /-- What the acquires are debited, charged and refunded is what moves the buckets. -/
  balanced : ∀ clock action, rpmSide.Balances limiter (limiter.step clock action) ∧
    tpmSide.Balances limiter (limiter.step clock action)

theorem Paid.eq {bucket : Option TokenBucket} {promise : Option PromiseId} {amount : ℚ}
    (h : Paid bucket promise amount) : paidFor bucket promise = amount := by
  cases h with
  | never => cases bucket <;> rfl
  | settled hs => simp [paidFor, hs]

section

variable {limiter : RateLimiter} {id : CallerId} {acquire : Acquire}

/-- The semaphore counts an acquire exactly when the account says it holds a permit. -/
theorem holds_iff (h : AcquireOk limiter id acquire) (hacquire : limiter.acquires id = some acquire)
    {semaphore : Semaphore} (hsemaphore : limiter.concurrency = some semaphore) :
    semaphore.Holds id ↔ limiter.holdsPermit id = true := by
  have hstage := h.stage
  unfold holdsPermit
  cases hcase : acquire.stage with
  | rpm promise =>
      rw [hcase] at hstage
      obtain ⟨-, -, -, -, -, -, -, hat⟩ := hstage
      simp [Semaphore.Holds, hacquire, hcase, (hat semaphore hsemaphore).outcome]
  | tpm promise =>
      rw [hcase] at hstage
      obtain ⟨-, -, -, -, -, hat⟩ := hstage
      simp [Semaphore.Holds, hacquire, hcase, (hat semaphore hsemaphore).outcome]
  | permit =>
      rw [hcase] at hstage
      obtain ⟨-, -, -, -, hat⟩ := hstage
      simp [Semaphore.Holds, hacquire, hcase, hsemaphore, hat semaphore hsemaphore]
  | leased waitedMs done =>
      rw [hcase] at hstage
      cases done with
      | none =>
          obtain ⟨-, -, -, hat⟩ := hstage
          simp [hacquire, hcase, hat semaphore hsemaphore]
      | some closing =>
          obtain ⟨-, -, -, hat⟩ := hstage
          simp [Semaphore.Holds, hacquire, hcase, hat semaphore hsemaphore]
  | failed error =>
      rw [hcase] at hstage
      obtain ⟨-, -, -, hat⟩ := hstage
      rcases hat semaphore hsemaphore with hu | ⟨error, he⟩
      · simp [Semaphore.Holds, hacquire, hcase, hu.outcome]
      · simp [Semaphore.Holds, hacquire, hcase, he]
  | noop =>
      rw [hcase] at hstage
      obtain ⟨-, -, hnone, -⟩ := hstage
      rw [hnone] at hsemaphore
      cases hsemaphore

/-- The permits in use are those of the acquires that hold one. -/
theorem Inv.permits (h : Inv limiter) {semaphore : Semaphore}
    (hsemaphore : limiter.concurrency = some semaphore) : semaphore.used =
      ((Finset.range limiter.nextAcquire).filter fun id => limiter.holdsPermit id = true).card := by
  rw [(h.resources.concurrency semaphore hsemaphore).used, Semaphore.holders]
  congr 2
  refine Finset.filter_congr fun id hid => ?_
  obtain ⟨acquire, hacquire⟩ :=
    Option.isSome_iff_exists.mp (h.recorded id (Finset.mem_range.mp hid))
  exact holds_iff (h.acquires id acquire hacquire) hacquire hsemaphore

theorem AcquireOk.netRpm (h : AcquireOk limiter id acquire) {due : ℚ}
    (hdue : dueRpm limiter acquire.stage = some due) : limiter.netRpm acquire = due := by
  have hstage := h.stage
  unfold RateLimiter.netRpm
  generalize acquire.stage = stage at hstage hdue
  cases stage with
  | rpm | tpm | permit => cases hdue
  | leased waitedMs done =>
      cases done with
      | none =>
          obtain ⟨hrpm, -⟩ := hstage
          cases hdue
          rw [hrpm.paid.eq, hrpm.refunded, sub_zero, rpmCost]
      | some closing =>
          obtain ⟨hrpm, -, hclosed, -⟩ := hstage
          cases closing with
          | settled actualCost =>
              cases hdue
              rw [hrpm.eq, hclosed.1, sub_zero, rpmCost]
          | abandoned =>
              cases hdue
              rw [hrpm.eq, hclosed.1, sub_self]
  | failed error =>
      obtain ⟨hrpm, -⟩ := hstage
      cases hdue
      rw [hrpm.eq, sub_self]
  | noop =>
      obtain ⟨hrpm, -, -, hrefunded, -⟩ := hstage
      cases hdue
      rw [hrpm, hrefunded]
      exact sub_self 0

/-- Charging the overrun on top of the reservation charges the larger of the two. -/
theorem reserved_add_overrun (h : acquire.reserved = limiter.reserve acquire.cost)
    (actualCost : ℚ) : acquire.reserved + limiter.overrun acquire (some actualCost) =
      if limiter.tpm.isSome then max (limiter.reserve acquire.cost) actualCost else 0 := by
  unfold overrun
  split
  · rw [h, Option.getD_some, ← max_add_add_left, add_zero, add_sub_cancel]
  · rename_i hnone
    rw [h, add_zero]
    by_contra hne
    exact hnone (reserve_ne_zero hne)

theorem AcquireOk.netTpm (h : AcquireOk limiter id acquire) {due : ℚ}
    (hdue : dueTpm limiter acquire acquire.stage = some due) : limiter.netTpm acquire = due := by
  have hstage := h.stage
  have hreserved := h.reserved
  unfold RateLimiter.netTpm
  generalize acquire.stage = stage at hstage hdue
  cases stage with
  | rpm | tpm | permit => cases hdue
  | leased waitedMs done =>
      cases done with
      | none =>
          obtain ⟨-, htpm, -⟩ := hstage
          cases hdue
          rw [htpm.paid.eq, htpm.refunded, htpm.forced, add_zero, sub_zero, hreserved]
      | some closing =>
          obtain ⟨-, htpm, hclosed, -⟩ := hstage
          cases closing with
          | settled actualCost =>
              obtain ⟨-, hrefunded, hforced⟩ := hclosed
              rw [htpm.eq, hrefunded, hforced, sub_zero]
              cases actualCost with
              | none =>
                  cases hdue
                  rw [overrun, Option.getD_none, sub_self, max_self, ite_self, add_zero, hreserved]
              | some actualCost =>
                  cases hdue
                  exact reserved_add_overrun hreserved actualCost
          | abandoned =>
              obtain ⟨-, hrefunded, hforced⟩ := hclosed
              cases hdue
              rw [htpm.eq, hrefunded, hforced, add_zero, sub_self]
  | failed error =>
      obtain ⟨-, htpm, hforced, -⟩ := hstage
      cases hdue
      rw [htpm.eq, hforced, add_zero, sub_self]
  | noop =>
      obtain ⟨-, htpm, -, -, hclear⟩ := hstage
      cases hdue
      rw [htpm, hclear.forced, hclear.refunded, add_zero, sub_zero]
      rfl

/-- In any run of a limiter, whatever the order of calls, waits, deadlines and aborts, the
permits and the charges are accounted for, a lease is closed once, and the tokens of the buckets
move by the charges and refunds alone, as time refills them. -/
theorem lease_accounting (name : String) (limits : RateLimits) (now : ℚ)
    (actions : List (Clock × Action)) : Accounted ((create name limits now).run actions) := by
  have h := run_inv (create_inv name limits now) actions
  have hkept := run_kept (create_inv name limits now) (create_kept name limits now) actions
  refine ⟨fun semaphore hs => h.permits hs, fun id acquire ha =>
    ⟨fun due => (h.acquires id acquire ha).netRpm, fun due => (h.acquires id acquire ha).netTpm⟩, ?_,
    fun clock action => ?_⟩
  · intro id acquire waitedMs closing ha hstage clock actualCost
    constructor
    · simp only [step, settle, ha, hstage]
    · simp only [step, abandon, ha, hstage]
  · have hledgers := step_ledgers h clock action
    exact ⟨(hledgers.rpm hkept.rpm).2, (hledgers.tpm hkept.tpm).2⟩

end

end RateLimiter

end VoiceOrder.RateLimit
