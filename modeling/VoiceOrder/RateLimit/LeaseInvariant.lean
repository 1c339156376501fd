import VoiceOrder.RateLimit.RateLimiter
import VoiceOrder.RateLimit.BucketPromises
import Mathlib.Data.Option.Basic

/-! # What every acquire has taken and given back

`AcquireOk` says, stage by stage, what the buckets were debited for an acquire, what was
given back, and whether it holds a permit. Steps of other acquires do not disturb it. -/

namespace VoiceOrder.RateLimit

/-- What the bucket was debited for a settled take. -/
def TakeOutcome.paid : TakeOutcome → ℚ
  | .resolved _ paid => paid
  | .rejected _ => 0

namespace RateLimiter

/-! ## What a bucket was debited -/

/-- The take of this promise, if any, has settled, and the bucket was debited `amount`. -/
inductive Paid : Option TokenBucket → Option PromiseId → ℚ → Prop where
  | never (bucket) : Paid bucket none 0
  | settled {bucket promise outcome} : bucket.outcomes promise = some outcome →
      Paid (some bucket) (some promise) outcome.paid

/-- A take that, once granted, will have debited `need`. -/
inductive Awaits : Option TokenBucket → PromiseId → ℚ → Prop where
  | owed {bucket promise need} : bucket.Owed promise need → Awaits (some bucket) promise need

/-- The promises of a bucket, when there is one. -/
def BucketOk (bucket : Option TokenBucket) : Prop := ∀ b, bucket = some b → b.Promised

abbrev Changed : Option TokenBucket → Option TokenBucket → Prop := Option.Rel TokenBucket.Changes

section

variable {bucket after : Option TokenBucket} {promise : PromiseId} {amount : ℚ}

theorem Changed.refl (bucket : Option TokenBucket) : Changed bucket bucket := by
  cases bucket with
  | none => exact .none
  | some bucket => exact .some .refl

theorem Changed.ok (h : Changed bucket after) (hok : BucketOk bucket) : BucketOk after := by
  intro b hb
  cases h with
  | none => cases hb
  | some h =>
      cases hb
      exact (TokenBucket.changes_keep (hok _ rfl) h).promised

theorem Changed.paid (h : Changed bucket after) (hok : BucketOk bucket)
    {promise : Option PromiseId} (hpaid : Paid bucket promise amount) :
    Paid after promise amount := by
  cases hpaid with
  | never => exact .never after
  | settled hs =>
      cases h with
      | some h => exact .settled ((TokenBucket.changes_keep (hok _ rfl) h).settled _ _ hs)

theorem Changed.awaits (h : Changed bucket after) (hok : BucketOk bucket)
    (hawaits : Awaits bucket promise amount) : Awaits after promise amount := by
  cases hawaits with
  | owed howed =>
      cases h with
      | some h => exact .owed ((TokenBucket.changes_keep (hok _ rfl) h).owed _ _ howed)

theorem Changed.isSome (h : Changed bucket after) : after.isSome = bucket.isSome := by
  cases h <;> rfl

/-- A granted take was debited what it was owed. -/
theorem Awaits.granted (h : Awaits bucket promise amount) {waitedMs paid : ℚ}
    (hs : takeOutcome bucket promise = some (.resolved waitedMs paid)) :
    Paid bucket (some promise) amount := by
  cases h with
  | owed howed =>
      have hpaid := howed.paid waitedMs paid hs
      exact hpaid ▸ Paid.settled hs

/-- A rejected take was debited nothing. -/
theorem Awaits.rejected (h : Awaits bucket promise amount) {error : RateLimitTimeoutError}
    (hs : takeOutcome bucket promise = some (.rejected error)) : Paid bucket (some promise) 0 := by
  cases h with
  | owed howed => exact Paid.settled hs

end

/-! ## The stages -/

/-- What a granted take of a request debits. -/
def rpmCost (limiter : RateLimiter) : ℚ := if limiter.rpm.isSome then 1 else 0

/-- The acquire has its request token, or needs none. -/
structure RpmHeld (limiter : RateLimiter) (acquire : Acquire) : Prop where
  taken : acquire.rpmTaken = limiter.rpm.isSome
  refunded : acquire.rpmRefunded = 0
  paid : Paid limiter.rpm acquire.rpmPromise limiter.rpmCost

/-- The acquire has its reservation, which may be nothing. -/
structure TpmHeld (limiter : RateLimiter) (acquire : Acquire) : Prop where
  taken : acquire.tpmTaken = acquire.reserved
  refunded : acquire.tpmRefunded = 0
  forced : acquire.tpmForced = 0
  paid : Paid limiter.tpm acquire.tpmPromise acquire.reserved

/-- Nothing has been taken from the token bucket, nor given back. -/
structure TpmClear (acquire : Acquire) : Prop where
  taken : acquire.tpmTaken = 0
  refunded : acquire.tpmRefunded = 0
  forced : acquire.tpmForced = 0

/-- A property of the acquire's place at the semaphore, when there is one. -/
def AtSemaphore (limiter : RateLimiter) (property : Semaphore → Prop) : Prop :=
  ∀ semaphore, limiter.concurrency = some semaphore → property semaphore

/-- The semaphore has nothing of this caller: it never asked, or was rejected. -/
def Denied (id : CallerId) (semaphore : Semaphore) : Prop :=
  semaphore.Untouched id ∨ ∃ error, semaphore.outcomes id = some (.rejected error)

/-- What a settlement charges over the reservation. -/
def overrun (limiter : RateLimiter) (acquire : Acquire) (actualCost : Option ℚ) : ℚ :=
  if limiter.tpm.isSome then max 0 (actualCost.getD acquire.reserved - acquire.reserved) else 0

/-- What is given back and charged in the end, by how the lease was closed. -/
def ClosedWith (limiter : RateLimiter) (acquire : Acquire) : Closing → Prop
  | .settled actualCost =>
      acquire.rpmRefunded = 0 ∧ acquire.tpmRefunded = 0 ∧
        acquire.tpmForced = limiter.overrun acquire actualCost
  | .abandoned =>
      acquire.rpmRefunded = limiter.rpmCost ∧ acquire.tpmRefunded = acquire.reserved ∧
        acquire.tpmForced = 0

def StageOk (limiter : RateLimiter) (id : CallerId) (acquire : Acquire) : Stage → Prop
  | .rpm promise =>
      acquire.rpmTaken = false ∧ acquire.rpmRefunded = 0 ∧ acquire.rpmPromise = some promise ∧
        Awaits limiter.rpm promise 1 ∧ TpmClear acquire ∧ acquire.tpmPromise = none ∧
          acquire.release = false ∧ limiter.AtSemaphore fun s => s.Untouched id
  | .tpm promise =>
      RpmHeld limiter acquire ∧ TpmClear acquire ∧ acquire.tpmPromise = some promise ∧
        Awaits limiter.tpm promise acquire.reserved ∧ acquire.release = false ∧
          limiter.AtSemaphore fun s => s.Untouched id
  | .permit =>
      RpmHeld limiter acquire ∧ TpmHeld limiter acquire ∧ acquire.release = false ∧
        limiter.concurrency.isSome ∧ limiter.AtSemaphore fun s => s.released id = false
  | .leased _ none =>
      RpmHeld limiter acquire ∧ TpmHeld limiter acquire ∧
        acquire.release = limiter.concurrency.isSome ∧ limiter.AtSemaphore fun s => s.Holds id
  | .leased _ (some closing) =>
      Paid limiter.rpm acquire.rpmPromise limiter.rpmCost ∧
        Paid limiter.tpm acquire.tpmPromise acquire.reserved ∧
        ClosedWith limiter acquire closing ∧ limiter.AtSemaphore fun s => s.released id = true
  | .failed _ =>
      Paid limiter.rpm acquire.rpmPromise acquire.rpmRefunded ∧
        Paid limiter.tpm acquire.tpmPromise acquire.tpmRefunded ∧ acquire.tpmForced = 0 ∧
          limiter.AtSemaphore (Denied id)
  | .noop =>
      limiter.rpm = none ∧ limiter.tpm = none ∧ limiter.concurrency = none ∧
        acquire.rpmRefunded = 0 ∧ TpmClear acquire

structure AcquireOk (limiter : RateLimiter) (id : CallerId) (acquire : Acquire) : Prop where
  reserved : acquire.reserved = limiter.reserve acquire.cost
  stage : StageOk limiter id acquire acquire.stage

/-! ## Steps of others -/

/-- What a step for `mover` does to the resources of the limiter. -/
structure Moves (mover : Option CallerId) (limiter after : RateLimiter) : Prop where
  rpm : Changed limiter.rpm after.rpm
  tpm : Changed limiter.tpm after.tpm
  concurrency : Option.Rel (Semaphore.Keeps mover) limiter.concurrency after.concurrency

/-- The resources of the limiter are in order. -/
structure Resources (limiter : RateLimiter) : Prop where
  rpm : BucketOk limiter.rpm
  rpmCapacity : ∀ bucket, limiter.rpm = some bucket → 1 ≤ bucket.plan.capacity
  tpm : BucketOk limiter.tpm
  concurrency : limiter.AtSemaphore fun semaphore => semaphore.Ok limiter.nextAcquire
  unlimited : limiter.unlimited = true →
    limiter.rpm = none ∧ limiter.tpm = none ∧ limiter.concurrency = none

section

variable {mover : Option CallerId} {limiter after : RateLimiter} {id : CallerId} {acquire : Acquire}

theorem Moves.rpmCost (h : Moves mover limiter after) : after.rpmCost = limiter.rpmCost := by
  unfold RateLimiter.rpmCost
  rw [h.rpm.isSome]

theorem Moves.reserve (h : Moves mover limiter after) (cost : ℚ) :
    after.reserve cost = limiter.reserve cost := by
  unfold RateLimiter.reserve
  have := h.tpm
  generalize limiter.tpm = before at this
  generalize after.tpm = later at this
  cases this with
  | none => rfl
  | some hchanges => simp only [hchanges.plan_eq]

theorem Moves.semaphore_isSome (h : Moves mover limiter after) :
    after.concurrency.isSome = limiter.concurrency.isSome := by
  have := h.concurrency
  generalize limiter.concurrency = before at this
  generalize after.concurrency = later at this
  cases this <;> rfl

theorem Moves.atSemaphore (h : Moves mover limiter after) {property property' : Semaphore → Prop}
    (hkeeps : ∀ semaphore later, Semaphore.Keeps mover semaphore later → property semaphore →
      property' later) (hat : limiter.AtSemaphore property) : after.AtSemaphore property' := by
  intro later hlater
  have := h.concurrency
  rw [hlater] at this
  generalize hbefore : limiter.concurrency = before at this
  cases this with
  | some hk => exact hkeeps _ later hk (hat _ hbefore)

theorem Moves.rpmHeld (h : Moves mover limiter after) (hok : Resources limiter)
    (hheld : RpmHeld limiter acquire) : RpmHeld after acquire :=
  ⟨hheld.taken.trans h.rpm.isSome.symm, hheld.refunded,
    h.rpmCost ▸ h.rpm.paid hok.rpm hheld.paid⟩

theorem Moves.tpmHeld (h : Moves mover limiter after) (hok : Resources limiter)
    (hheld : TpmHeld limiter acquire) : TpmHeld after acquire :=
  ⟨hheld.taken, hheld.refunded, hheld.forced, h.tpm.paid hok.tpm hheld.paid⟩

theorem Moves.closedWith (h : Moves mover limiter after) {closing : Closing}
    (hclosed : ClosedWith limiter acquire closing) : ClosedWith after acquire closing := by
  cases closing with
  | settled actualCost =>
      obtain ⟨hrpm, htpm, hforced⟩ := hclosed
      exact ⟨hrpm, htpm, by rw [hforced, overrun, overrun, h.tpm.isSome]⟩
  | abandoned =>
      obtain ⟨hrpm, htpm, hforced⟩ := hclosed
      exact ⟨hrpm.trans h.rpmCost.symm, htpm, hforced⟩

/-- What an acquire has taken and given back survives the steps of others. -/
theorem AcquireOk.of_moves (h : AcquireOk limiter id acquire) (hmoves : Moves mover limiter after)
    (hok : Resources limiter) (hne : mover ≠ some id) : AcquireOk after id acquire := by
  have huntouched : ∀ semaphore later, Semaphore.Keeps mover semaphore later →
      semaphore.Untouched id → later.Untouched id := fun _ _ hk hu => hk.untouched id hne hu
  have hreleased : ∀ {flag} semaphore later, Semaphore.Keeps mover semaphore later →
      semaphore.released id = flag → later.released id = flag := fun _ _ hk hr =>
    (hk.released id hne).trans hr
  refine ⟨h.reserved.trans (hmoves.reserve _).symm, ?_⟩
  have hstage := h.stage
  generalize acquire.stage = stage at hstage
  cases stage with
  | rpm promise =>
      obtain ⟨htaken, hrefunded, hpromise, hawaits, hclear, hnone, hrelease, hat⟩ := hstage
      exact ⟨htaken, hrefunded, hpromise, hmoves.rpm.awaits hok.rpm hawaits, hclear, hnone,
        hrelease, hmoves.atSemaphore huntouched hat⟩
  | tpm promise =>
      obtain ⟨hheld, hclear, hpromise, hawaits, hrelease, hat⟩ := hstage
      exact ⟨hmoves.rpmHeld hok hheld, hclear, hpromise, hmoves.tpm.awaits hok.tpm hawaits,
        hrelease, hmoves.atSemaphore huntouched hat⟩
  | permit =>
      obtain ⟨hrpm, htpm, hrelease, hsome, hat⟩ := hstage
      exact ⟨hmoves.rpmHeld hok hrpm, hmoves.tpmHeld hok htpm, hrelease,
        hmoves.semaphore_isSome ▸ hsome, hmoves.atSemaphore hreleased hat⟩
  | leased waitedMs done =>
      cases done with
      | none =>
          obtain ⟨hrpm, htpm, hrelease, hat⟩ := hstage
          exact ⟨hmoves.rpmHeld hok hrpm, hmoves.tpmHeld hok htpm,
            hrelease.trans hmoves.semaphore_isSome.symm,
            hmoves.atSemaphore (fun _ _ hk hholds =>
              ⟨hk.settled id _ hholds.1, (hk.released id hne).trans hholds.2⟩) hat⟩
      | some closing =>
          obtain ⟨hrpm, htpm, hclosed, hat⟩ := hstage
          exact ⟨hmoves.rpmCost ▸ hmoves.rpm.paid hok.rpm hrpm, hmoves.tpm.paid hok.tpm htpm,
            hmoves.closedWith hclosed, hmoves.atSemaphore hreleased hat⟩
  | failed error =>
      obtain ⟨hrpm, htpm, hforced, hat⟩ := hstage
      refine ⟨hmoves.rpm.paid hok.rpm hrpm, hmoves.tpm.paid hok.tpm htpm, hforced,
        hmoves.atSemaphore ?_ hat⟩
      rintro semaphore later hk (hu | ⟨error, he⟩)
      · exact Or.inl (huntouched _ _ hk hu)
      · exact Or.inr ⟨error, hk.settled id _ he⟩
  | noop =>
      obtain ⟨hrpm, htpm, hsem, hrest⟩ := hstage
      refine ⟨?_, ?_, ?_, hrest⟩
      · have := hmoves.rpm.isSome
        rw [hrpm] at this
        simpa using this
      · have := hmoves.tpm.isSome
        rw [htpm] at this
        simpa using this
      · have := hmoves.semaphore_isSome
        rw [hsem] at this
        simpa using this

end

end RateLimiter

end VoiceOrder.RateLimit
