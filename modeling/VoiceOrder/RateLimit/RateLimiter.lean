import VoiceOrder.RateLimit.Semaphore
import VoiceOrder.RateLimit.TokenBucket

/-! # The rate limiter

RPM and TPM token buckets and a concurrency semaphore behind one acquire. An acquire waits
for them in turn, under one absolute deadline; between two of its steps anything else may
happen to the limiter. -/

namespace VoiceOrder.RateLimit

/-- The quota of one provider plan; the environment gives natural numbers, and `0` means
unlimited in that dimension. -/
structure RateLimits where
  /-- Requests per minute. -/
  rpm : ℕ
  /-- Tokens per minute. -/
  tpm : ℕ
  /-- Simultaneous calls in flight. -/
  maxConcurrent : ℕ
  deriving DecidableEq, Repr

/-- At least one dimension is capped. -/
def hasAnyLimit (limits : RateLimits) : Bool :=
  0 < limits.rpm || 0 < limits.tpm || 0 < limits.maxConcurrent

structure AcquireOptions where
  /-- The TPM cost to reserve; none skips the token bucket. -/
  cost : Option ℚ
  deadlineMs : Option ℚ
  signal : AbortSignal
  deriving DecidableEq, Repr

/-- What set the `done` flag of a lease. -/
inductive Closing where
  | settled (actualCost : Option ℚ)
  | abandoned
  deriving DecidableEq, Repr

/-- Where an acquire stands: awaiting the promise of a take or of a permit, holding its
lease, or failed. An unlimited limiter hands out a lease that does nothing. -/
inductive Stage where
  | rpm (promise : PromiseId)
  | tpm (promise : PromiseId)
  | permit
  | leased (waitedMs : ℚ) (done : Option Closing)
  | failed (error : RateLimitTimeoutError)
  | noop
  deriving DecidableEq, Repr

structure Acquire where
  startedAt : ℚ
  deadlineAt : ℚ
  cost : ℚ
  reserved : ℚ
  signal : AbortSignal
  rpmTaken : Bool
  tpmTaken : ℚ
  /-- It holds a release closure. -/
  release : Bool
  stage : Stage
  /-- History: the promises of its takes, and the refunds and charges made for it. -/
  rpmPromise : Option PromiseId
  tpmPromise : Option PromiseId
  rpmRefunded : ℚ
  tpmRefunded : ℚ
  tpmForced : ℚ
  deriving DecidableEq, Repr

structure RateLimiter where
  name : String
  rpm : Option TokenBucket
  tpm : Option TokenBucket
  concurrency : Option Semaphore
  unlimited : Bool
  /-- The acquires, in the order they were called. -/
  acquires : CallerId → Option Acquire
  nextAcquire : CallerId

namespace RateLimiter

/-- One minute's budget, spread over the minute. -/
def minutePlan (budget : ℕ) (name : String) : BucketPlan where
  capacity := budget
  refillPerSec := budget / 60
  name := name
  capacity_nonneg := by positivity
  refill_nonneg := by positivity

def create (name : String) (limits : RateLimits) (now : ℚ) : RateLimiter where
  name := name
  rpm := if 0 < limits.rpm then
    some (TokenBucket.create (minutePlan limits.rpm (name ++ ":rpm")) now) else none
  tpm := if 0 < limits.tpm then
    some (TokenBucket.create (minutePlan limits.tpm (name ++ ":tpm")) now) else none
  concurrency := if 0 < limits.maxConcurrent then
    some (Semaphore.create limits.maxConcurrent (name ++ ":concurrency")) else none
  unlimited := !hasAnyLimit limits
  acquires := fun _ => none
  nextAcquire := 0

/-- What the bucket will debit for a cost: an over-capacity ask is clamped there, and a
refund gives back exactly what was taken. -/
def reserve (limiter : RateLimiter) (cost : ℚ) : ℚ :=
  match limiter.tpm with
  | none => 0
  | some bucket => if 0 < cost then min cost bucket.plan.capacity else 0

def put (id : CallerId) (acquire : Acquire) (limiter : RateLimiter) : RateLimiter :=
  { limiter with acquires := Function.update limiter.acquires id (some acquire) }

/-! ## The stages of an acquire -/

def lease (clock : Clock) (id : CallerId) (acquire : Acquire) (limiter : RateLimiter) :
    RateLimiter :=
  limiter.put id
    { acquire with stage := .leased (max 0 (clock 0 - acquire.startedAt)) none }

def enterPermit (clock : Clock) (id : CallerId) (acquire : Acquire) (limiter : RateLimiter) :
    RateLimiter :=
  match limiter.concurrency with
  | none => limiter.lease clock id acquire
  | some semaphore =>
      { limiter with
        concurrency := some
          (semaphore.acquire clock id acquire.deadlineAt acquire.signal) }.put id
        { acquire with stage := .permit }

def enterTpm (clock : Clock) (id : CallerId) (acquire : Acquire) (limiter : RateLimiter) :
    RateLimiter :=
  match limiter.tpm with
  | none => limiter.enterPermit clock id acquire
  | some bucket =>
      if 0 < acquire.cost then
        let (promise, bucket) :=
          bucket.take clock acquire.cost acquire.deadlineAt acquire.signal
        { limiter with tpm := some bucket }.put id
          { acquire with stage := .tpm promise, tpmPromise := some promise }
      else limiter.enterPermit clock id acquire

def enterRpm (clock : Clock) (id : CallerId) (acquire : Acquire) (limiter : RateLimiter) :
    RateLimiter :=
  match limiter.rpm with
  | none => limiter.enterTpm clock id acquire
  | some bucket =>
      let (promise, bucket) := bucket.take clock 1 acquire.deadlineAt acquire.signal
      { limiter with rpm := some bucket }.put id
        { acquire with stage := .rpm promise, rpmPromise := some promise }

/-- The acquire a call starts with. -/
def newAcquire (clock : Clock) (options : AcquireOptions) (limiter : RateLimiter) : Acquire :=
  let cost := max 0 (options.cost.getD 0)
  { startedAt := clock 0
    deadlineAt := clock 0 + options.deadlineMs.getD defaultWaitMs
    cost := cost
    reserved := limiter.reserve cost
    signal := options.signal
    rpmTaken := false
    tpmTaken := 0
    release := false
    stage := .noop
    rpmPromise := none
    tpmPromise := none
    rpmRefunded := 0
    tpmRefunded := 0
    tpmForced := 0 }

/-- Call `acquire`: it runs up to its first wait. -/
def acquire (clock : Clock) (options : AcquireOptions) (limiter : RateLimiter) : RateLimiter :=
  let id := limiter.nextAcquire
  let acquire := limiter.newAcquire clock options
  let limiter := { limiter with nextAcquire := id + 1 }
  if limiter.unlimited then limiter.put id acquire
  else limiter.enterRpm (clock.after 1) id acquire

/-- Refund the reservation of an acquire. -/
def refundTpm (clock : Clock) (acquire : Acquire) (limiter : RateLimiter) :
    Acquire × RateLimiter :=
  match limiter.tpm with
  | none => (acquire, limiter)
  | some bucket =>
      if 0 < acquire.tpmTaken then
        ({ acquire with tpmRefunded := acquire.tpmRefunded + acquire.tpmTaken },
          { limiter with tpm := some (bucket.refund clock acquire.tpmTaken) })
      else (acquire, limiter)

/-- Refund the request token of an acquire. -/
def refundRpm (clock : Clock) (acquire : Acquire) (limiter : RateLimiter) :
    Acquire × RateLimiter :=
  match limiter.rpm with
  | none => (acquire, limiter)
  | some bucket =>
      if acquire.rpmTaken then
        ({ acquire with rpmRefunded := acquire.rpmRefunded + 1 },
          { limiter with rpm := some (bucket.refund clock 1) })
      else (acquire, limiter)

/-- Refund what an acquire had taken from the buckets. -/
def giveBack (clock : Clock) (acquire : Acquire) (limiter : RateLimiter) :
    Acquire × RateLimiter :=
  let (acquire, limiter) := limiter.refundTpm clock acquire
  limiter.refundRpm (clock.after 3) acquire

/-- A stage rejected: refund and rethrow. -/
def failAcquire (clock : Clock) (id : CallerId) (error : RateLimitTimeoutError)
    (acquire : Acquire) (limiter : RateLimiter) : RateLimiter :=
  let (acquire, limiter) := limiter.giveBack clock acquire
  limiter.put id { acquire with stage := .failed error }

/-- The outcome of a take, once its promise is settled. -/
def takeOutcome (bucket : Option TokenBucket) (promise : PromiseId) : Option TakeOutcome :=
  bucket.bind fun bucket => bucket.outcomes promise

/-- The continuation of an acquire after the promise it awaits has settled. -/
def resume (clock : Clock) (id : CallerId) (limiter : RateLimiter) : RateLimiter :=
  match limiter.acquires id with
  | none => limiter
  | some acquire =>
      match acquire.stage with
      | .rpm promise =>
          match takeOutcome limiter.rpm promise with
          | none => limiter
          | some (.resolved _ _) => limiter.enterTpm clock id { acquire with rpmTaken := true }
          | some (.rejected error) => limiter.failAcquire clock id error acquire
      | .tpm promise =>
          match takeOutcome limiter.tpm promise with
          | none => limiter
          | some (.resolved _ _) =>
              limiter.enterPermit clock id { acquire with tpmTaken := acquire.reserved }
          | some (.rejected error) => limiter.failAcquire clock id error acquire
      | .permit =>
          match limiter.concurrency.bind fun semaphore => semaphore.outcomes id with
          | none => limiter
          | some .granted => limiter.lease clock id { acquire with release := true }
          | some (.rejected error) => limiter.failAcquire clock id error acquire
      | .leased _ _ | .failed _ | .noop => limiter

/-! ## The lease -/

/-- Charge an under-estimate; never refund an over-estimate. -/
def reconcile (clock : Clock) (actualCost : Option ℚ) (acquire : Acquire)
    (limiter : RateLimiter) : Acquire × RateLimiter :=
  match actualCost, limiter.tpm with
  | some actualCost, some bucket =>
      let delta := actualCost - acquire.reserved
      if 0 < delta then
        ({ acquire with tpmForced := acquire.tpmForced + delta },
          { limiter with tpm := some (bucket.forceTake clock delta) })
      else (acquire, limiter)
  | _, _ => (acquire, limiter)

/-- Call the release closure, if the acquire holds one. -/
def handBack (id : CallerId) (acquire : Acquire) (limiter : RateLimiter) : RateLimiter :=
  if acquire.release then
    { limiter with concurrency := limiter.concurrency.map (Semaphore.release id) }
  else limiter

/-- The provider counted the request. -/
def settle (clock : Clock) (id : CallerId) (actualCost : Option ℚ) (limiter : RateLimiter) :
    RateLimiter :=
  match limiter.acquires id with
  | none => limiter
  | some acquire =>
      match acquire.stage with
      | .leased waitedMs none =>
          let (acquire, limiter) := limiter.reconcile clock actualCost acquire
          (limiter.handBack id acquire).put id
            { acquire with stage := .leased waitedMs (some (.settled actualCost)) }
      | _ => limiter

/-- The call provably never left this process: refund everything. -/
def abandon (clock : Clock) (id : CallerId) (limiter : RateLimiter) : RateLimiter :=
  match limiter.acquires id with
  | none => limiter
  | some acquire =>
      match acquire.stage with
      | .leased waitedMs none =>
          let (acquire, limiter) := limiter.giveBack clock acquire
          (limiter.handBack id acquire).put id
            { acquire with stage := .leased waitedMs (some .abandoned) }
      | _ => limiter

/-! ## Runs -/

/-- Floor the next grant of both buckets. -/
def penalize (clock : Clock) (untilMs : ℚ) (limiter : RateLimiter) : RateLimiter :=
  { limiter with
    rpm := limiter.rpm.map (TokenBucket.penalize clock untilMs)
    tpm := limiter.tpm.map (TokenBucket.penalize (clock.after 2) untilMs) }

/-- The signal of an acquire is aborted: the listener of what it waits for fires. -/
def abort (clock : Clock) (id : CallerId) (limiter : RateLimiter) : RateLimiter :=
  match limiter.acquires id with
  | none => limiter
  | some acquire =>
      if acquire.signal = some false then
        let limiter := limiter.put id { acquire with signal := some true }
        match acquire.stage with
        | .rpm promise =>
            { limiter with
              rpm := limiter.rpm.map fun bucket => bucket.step clock (.abort promise) }
        | .tpm promise =>
            { limiter with
              tpm := limiter.tpm.map fun bucket => bucket.step clock (.abort promise) }
        | .permit => { limiter with concurrency := limiter.concurrency.map (Semaphore.abort id) }
        | .leased _ _ | .failed _ | .noop => limiter
      else limiter

/-- The timers of a bucket: that of the queue head, and the deadline of a take. -/
inductive BucketTimer where
  | head
  | deadline (promise : PromiseId)
  deriving DecidableEq, Repr

def BucketTimer.call : BucketTimer → TokenBucket.Call
  | .head => .timer
  | .deadline promise => .deadline promise

inductive Action where
  | acquire (options : AcquireOptions)
  | resume (id : CallerId)
  | settle (id : CallerId) (actualCost : Option ℚ)
  | abandon (id : CallerId)
  | penalize (untilMs : ℚ)
  | abort (id : CallerId)
  | rpmTimer (timer : BucketTimer)
  | tpmTimer (timer : BucketTimer)
  | permitDeadline (id : CallerId)
  deriving DecidableEq, Repr

def step (clock : Clock) (limiter : RateLimiter) : Action → RateLimiter
  | .acquire options => limiter.acquire clock options
  | .resume id => limiter.resume clock id
  | .settle id actualCost => limiter.settle clock id actualCost
  | .abandon id => limiter.abandon clock id
  | .penalize untilMs => limiter.penalize clock untilMs
  | .abort id => limiter.abort clock id
  | .rpmTimer timer =>
      { limiter with rpm := limiter.rpm.map fun bucket => bucket.step clock timer.call }
  | .tpmTimer timer =>
      { limiter with tpm := limiter.tpm.map fun bucket => bucket.step clock timer.call }
  | .permitDeadline id =>
      { limiter with concurrency := limiter.concurrency.map (Semaphore.deadline id) }

/-- A run: each action with the clock readings it takes. -/
def run (limiter : RateLimiter) (actions : List (Clock × Action)) : RateLimiter :=
  actions.foldl (fun limiter action => limiter.step action.1 action.2) limiter

end RateLimiter

end VoiceOrder.RateLimit
