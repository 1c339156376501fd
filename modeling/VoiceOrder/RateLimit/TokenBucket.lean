import VoiceOrder.RateLimit.Types
import Mathlib.Logic.Function.Basic

/-! # The token bucket

Waiting is scheduled, not polled: one timer is armed for the head of the queue, and armed
again as the queue drains. -/

namespace VoiceOrder.RateLimit

/-- What a bucket is built from. -/
structure BucketPlan where
  capacity : ℚ
  refillPerSec : ℚ
  name : String
  capacity_nonneg : 0 ≤ capacity
  refill_nonneg : 0 ≤ refillPerSec

/-- A caller parked until the bucket can pay for `need`. `cost` is what it asked for. -/
structure Waiter where
  promise : PromiseId
  cost : ℚ
  need : ℚ
  startedAt : ℚ
  /-- The delay its deadline timer was armed with. -/
  deadlineDelay : ℚ
  /-- It listens for the abort of its signal. -/
  abortable : Bool
  deriving DecidableEq, Repr

/-- How a take ended: the milliseconds waited, and what the bucket was debited for it. -/
inductive TakeOutcome where
  | resolved (waitedMs paid : ℚ)
  | rejected (error : RateLimitTimeoutError)
  deriving DecidableEq, Repr

structure TokenBucket where
  plan : BucketPlan
  /-- Negative after a reconciliation overshoot. -/
  tokens : ℚ
  lastRefillAt : ℚ
  /-- No grant may happen before this instant. -/
  penaltyUntil : ℚ
  queue : List Waiter
  /-- The delay of the timer armed for the queue head. -/
  timer : Option ℚ
  warnedOversizedCost : Bool
  /-- The settled promises, and the next one to hand out. -/
  outcomes : PromiseId → Option TakeOutcome
  nextPromise : PromiseId
  /-- History: the positive costs granted so far, as asked for. -/
  grants : List ℚ
  /-- History: the refunds made so far. -/
  refunds : List ℚ
  /-- History: the stretches of clock time credited so far. -/
  credits : List (ℚ × ℚ)

namespace TokenBucket

/-- A new bucket is full. -/
def create (plan : BucketPlan) (now : ℚ) : TokenBucket where
  plan := plan
  tokens := plan.capacity
  lastRefillAt := now
  penaltyUntil := 0
  queue := []
  timer := none
  warnedOversizedCost := false
  outcomes := fun _ => none
  nextPromise := 0
  grants := []
  refunds := []
  credits := []

/-- Credit the time since the last refill. The mark never moves backwards: a clock that
stepped back and then forward would otherwise be credited twice for one interval. -/
def refill (clock : Clock) (bucket : TokenBucket) : TokenBucket :=
  let t := clock 0
  let elapsed := max 0 (t - bucket.lastRefillAt)
  let marked :=
    { bucket with lastRefillAt := if bucket.lastRefillAt < t then t else bucket.lastRefillAt }
  if elapsed = 0 ∨ bucket.plan.refillPerSec ≤ 0 then marked
  else
    { marked with
      tokens := min bucket.plan.capacity
        (bucket.tokens + elapsed / 1000 * bucket.plan.refillPerSec)
      credits := bucket.credits ++ [(t - elapsed, t)] }

/-- A cost above capacity can never be paid, so it is clamped to capacity. -/
def clamp (cost : ℚ) (bucket : TokenBucket) : ℚ × TokenBucket :=
  let need := max 0 cost
  if need ≤ bucket.plan.capacity then (need, bucket)
  else (bucket.plan.capacity, { bucket with warnedOversizedCost := true })

/-- Debit `need` for a granted cost. -/
def pay (cost need : ℚ) (bucket : TokenBucket) : TokenBucket :=
  { bucket with
    tokens := bucket.tokens - need
    grants := if 0 < cost then bucket.grants ++ [cost] else bucket.grants }

/-- Take `n` for a caller that asked for `cost`, if it can be paid for at once. It yields
to parked waiters: a synchronous taker must not jump a queue. -/
def tryPay (clock : Clock) (cost n : ℚ) (bucket : TokenBucket) : Bool × TokenBucket :=
  if n ≤ 0 then (true, bucket.pay cost 0)
  else
    let refilled := bucket.refill clock
    if clock 1 < refilled.penaltyUntil then (false, refilled)
    else if refilled.queue ≠ [] then (false, refilled)
    else if refilled.tokens < n then (false, refilled)
    else (true, refilled.pay cost n)

def tryTake (clock : Clock) (n : ℚ) (bucket : TokenBucket) : Bool × TokenBucket :=
  tryPay clock n n bucket

def settlePromise (promise : PromiseId) (outcome : TakeOutcome) (bucket : TokenBucket) :
    TokenBucket :=
  { bucket with outcomes := Function.update bucket.outcomes promise (some outcome) }

/-- Hand out a promise, pending or already settled. -/
def newPromise (outcome : Option TakeOutcome) (bucket : TokenBucket) : PromiseId × TokenBucket :=
  (bucket.nextPromise,
    { bucket with
      outcomes := Function.update bucket.outcomes bucket.nextPromise outcome
      nextPromise := bucket.nextPromise + 1 })

/-- Grant the head of the queue: debit it, take it out and resolve its promise. -/
def grantHead (t : ℚ) (head : Waiter) (rest : List Waiter) (bucket : TokenBucket) : TokenBucket :=
  { bucket.pay head.cost head.need with queue := rest }.settlePromise head.promise
    (.resolved (max 0 (t - head.startedAt)) head.need)

/-- Pay out whoever can be paid, head first. -/
def payHeads (t : ℚ) : List Waiter → TokenBucket → TokenBucket
  | [], bucket => bucket
  | head :: rest, bucket =>
      if bucket.penaltyUntil ≤ t ∧ head.need ≤ bucket.tokens then
        payHeads t rest (bucket.grantHead t head rest)
      else bucket

/-- Arm one timer for the queue head. A bucket that never refills arms none while it
owes: only the deadline of the waiter can release it. -/
def armTimer (t : ℚ) (bucket : TokenBucket) : TokenBucket :=
  match bucket.queue with
  | [] => { bucket with timer := none }
  | head :: _ =>
      let deficit := head.need - bucket.tokens
      if deficit ≤ 0 then
        { bucket with timer := some (max 0 (max (bucket.penaltyUntil - t) 0)) }
      else if 0 < bucket.plan.refillPerSec then
        let refillWait : ℚ := ⌈deficit / bucket.plan.refillPerSec * 1000⌉
        { bucket with timer := some (max 0 (max (bucket.penaltyUntil - t) refillWait)) }
      else { bucket with timer := none }

def reschedule (clock : Clock) (bucket : TokenBucket) : TokenBucket :=
  let refilled := bucket.refill clock
  armTimer (clock 1) (payHeads (clock 1) refilled.queue refilled)

/-- Hand out a pending promise and queue its waiter behind the others. -/
def park (waiter : PromiseId → Waiter) (bucket : TokenBucket) : TokenBucket :=
  let (promise, bucket) := bucket.newPromise none
  { bucket with queue := bucket.queue ++ [waiter promise] }

/-- Take `cost`, waiting up to the absolute `deadlineAt`. -/
def take (clock : Clock) (cost deadlineAt : ℚ) (signal : AbortSignal) (bucket : TokenBucket) :
    PromiseId × TokenBucket :=
  let (need, bucket) := bucket.clamp cost
  if signal = some true then
    bucket.newPromise (some (.rejected
      ⟨.aborted, bucket.plan.name ++ ": aborted before capacity was granted"⟩))
  else
    let startedAt := clock 0
    match bucket.tryPay (clock.after 1) cost need with
    | (true, bucket) => bucket.newPromise (some (.resolved 0 need))
    | (false, bucket) =>
        if maxQueuedWaiters ≤ bucket.queue.length then
          bucket.newPromise (some (.rejected
            ⟨.queueFull, bucket.plan.name ++ ": rate limit queue is full"⟩))
        else
          let waiter (promise : PromiseId) : Waiter :=
            { promise := promise
              cost := cost
              need := need
              startedAt := startedAt
              deadlineDelay := max 0 (deadlineAt - startedAt)
              abortable := signal.isSome }
          (bucket.nextPromise, (bucket.park waiter).reschedule (clock.after 3))

/-- Charge `n` unconditionally; this may drive the bucket negative. -/
def forceTake (clock : Clock) (n : ℚ) (bucket : TokenBucket) : TokenBucket :=
  if n ≤ 0 then bucket
  else
    let refilled := bucket.refill clock
    { refilled with tokens := refilled.tokens - n }.reschedule (clock.after 1)

/-- Give `n` back, never above capacity. -/
def refund (clock : Clock) (n : ℚ) (bucket : TokenBucket) : TokenBucket :=
  if n ≤ 0 then bucket
  else
    let refilled := bucket.refill clock
    { refilled with
      tokens := min refilled.plan.capacity (refilled.tokens + n)
      refunds := refilled.refunds ++ [n] }.reschedule (clock.after 1)

/-- Floor the next grant at `untilMs`. Penalties only ever extend. -/
def penalize (clock : Clock) (untilMs : ℚ) (bucket : TokenBucket) : TokenBucket :=
  if untilMs ≤ bucket.penaltyUntil then bucket
  else { bucket with penaltyUntil := untilMs }.reschedule clock

/-- Take a waiter out of the queue and reject its promise. -/
def drop (promise : PromiseId) (error : RateLimitTimeoutError) (bucket : TokenBucket) :
    TokenBucket :=
  { bucket with
    queue := bucket.queue.eraseP (fun waiter => waiter.promise = promise) }.settlePromise promise
      (.rejected error)

/-- A dead waiter holds no place in the queue; one already granted is left alone. -/
def fail (clock : Clock) (promise : PromiseId) (error : RateLimitTimeoutError)
    (bucket : TokenBucket) : TokenBucket :=
  if bucket.queue.any (fun waiter => waiter.promise = promise) then
    (bucket.drop promise error).reschedule clock
  else bucket

/-! ## Runs -/

/-- Everything that can happen to a bucket: its methods, and the firing of the deadline
timer or abort listener of a take and of the timer armed for the head. -/
inductive Call where
  | available
  | tryTake (n : ℚ)
  | take (cost deadlineAt : ℚ) (signal : AbortSignal)
  | forceTake (n : ℚ)
  | refund (n : ℚ)
  | penalize (untilMs : ℚ)
  | deadline (promise : PromiseId)
  | abort (promise : PromiseId)
  | timer
  deriving DecidableEq, Repr

/-- A timer or listener that is not armed does not fire. -/
def step (clock : Clock) (bucket : TokenBucket) : Call → TokenBucket
  | .available => bucket.refill clock
  | .tryTake n => (bucket.tryTake clock n).2
  | .take cost deadlineAt signal => (bucket.take clock cost deadlineAt signal).2
  | .forceTake n => bucket.forceTake clock n
  | .refund n => bucket.refund clock n
  | .penalize untilMs => bucket.penalize clock untilMs
  | .deadline promise =>
      bucket.fail clock promise
        ⟨.deadline, bucket.plan.name ++ ": timed out waiting for capacity"⟩
  | .abort promise =>
      if bucket.queue.any (fun waiter => waiter.promise = promise && waiter.abortable) then
        bucket.fail clock promise
          ⟨.aborted, bucket.plan.name ++ ": aborted while waiting for capacity"⟩
      else bucket
  | .timer =>
      match bucket.timer with
      | none => bucket
      | some _ => { bucket with timer := none }.reschedule clock

/-- A run: each call with the clock readings it takes. -/
def run (bucket : TokenBucket) (calls : List (Clock × Call)) : TokenBucket :=
  calls.foldl (fun bucket call => bucket.step call.1 call.2) bucket

end TokenBucket

end VoiceOrder.RateLimit
