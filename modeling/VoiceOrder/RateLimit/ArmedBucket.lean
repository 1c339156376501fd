import VoiceOrder.RateLimit.BucketPromises
import VoiceOrder.Shared.Runs

/-! # The timers and listeners of a bucket

The bucket with what its waiters leave with the runtime: a deadline timer each, and an abort
listener for those that passed a signal. Only an armed timer or an attached listener fires. -/

namespace VoiceOrder.RateLimit

/-- A grant of the bucket. -/
structure Grant where
  /-- The promise it resolves; `tryTake` has none. -/
  promise : Option PromiseId
  /-- The caller was parked. -/
  parked : Bool
  cost : ℚ
  /-- What the bucket is debited. -/
  paid : ℚ
  /-- The clock reading it was decided on, and the penalty instant then. A free grant takes no
  reading. -/
  reading : Option ℚ
  penaltyUntil : ℚ
  /-- The promises parked at that moment. -/
  waiting : List PromiseId
  deriving DecidableEq, Repr

structure ArmedBucket where
  bucket : TokenBucket
  /-- The promises with a deadline timer. -/
  deadlineTimers : List PromiseId
  /-- The promises with an abort listener. -/
  listeners : List PromiseId
  /-- History: the grants. -/
  granted : List Grant
  /-- History: the promises parked. -/
  parks : List PromiseId
  /-- History: the promises settled, once for each call that settles one. -/
  settlements : List PromiseId
  /-- History: what refills and refunds have added. -/
  gained : ℚ
  /-- History: what was charged unconditionally. -/
  forced : ℚ

namespace ArmedBucket

def create (plan : BucketPlan) (now : ℚ) : ArmedBucket where
  bucket := .create plan now
  deadlineTimers := []
  listeners := []
  granted := []
  parks := []
  settlements := []
  gained := 0
  forced := 0

def waiting (armed : ArmedBucket) : List PromiseId := armed.bucket.queue.map Waiter.promise

def refill (clock : Clock) (armed : ArmedBucket) : ArmedBucket :=
  let refilled := armed.bucket.refill clock
  { armed with
    bucket := refilled
    gained := armed.gained + (refilled.tokens - armed.bucket.tokens) }

/-- Drop the timers of a waiter. -/
def dispose (promise : PromiseId) (armed : ArmedBucket) : ArmedBucket :=
  { armed with
    deadlineTimers := armed.deadlineTimers.filter (fun other => other ≠ promise)
    listeners := armed.listeners.filter (fun other => other ≠ promise) }

/-- Debit `need` for a granted cost. -/
def pay (promise : Option PromiseId) (parked : Bool) (reading : Option ℚ) (cost need : ℚ)
    (armed : ArmedBucket) : ArmedBucket :=
  { armed with
    bucket := armed.bucket.pay cost need
    granted := armed.granted ++
      [⟨promise, parked, cost, need, reading, armed.bucket.penaltyUntil, armed.waiting⟩] }

/-- Take `n` if it can be paid for at once. -/
def tryPay (clock : Clock) (promise : Option PromiseId) (cost n : ℚ) (armed : ArmedBucket) :
    Bool × ArmedBucket :=
  if n ≤ 0 then (true, armed.pay promise false none cost 0)
  else
    let refilled := armed.refill clock
    if clock 1 < refilled.bucket.penaltyUntil then (false, refilled)
    else if refilled.bucket.queue ≠ [] then (false, refilled)
    else if refilled.bucket.tokens < n then (false, refilled)
    else (true, refilled.pay promise false (some (clock 1)) cost n)

/-- Hand out a promise that is already settled. -/
def newSettled (outcome : TakeOutcome) (armed : ArmedBucket) : ArmedBucket :=
  { armed with
    bucket := (armed.bucket.newPromise (some outcome)).2
    settlements := armed.settlements ++ [armed.bucket.nextPromise] }

/-- Grant the head of the queue: debit it, take it out, drop its timers and resolve it. -/
def grantHead (t : ℚ) (head : Waiter) (rest : List Waiter) (armed : ArmedBucket) : ArmedBucket :=
  let paid := armed.pay (some head.promise) true (some t) head.cost head.need
  let shifted := { paid with bucket := { paid.bucket with queue := rest } }.dispose head.promise
  { shifted with
    bucket := shifted.bucket.settlePromise head.promise
      (.resolved (max 0 (t - head.startedAt)) head.need)
    settlements := shifted.settlements ++ [head.promise] }

def payHeads (t : ℚ) : List Waiter → ArmedBucket → ArmedBucket
  | [], armed => armed
  | head :: rest, armed =>
      if armed.bucket.penaltyUntil ≤ t ∧ head.need ≤ armed.bucket.tokens then
        payHeads t rest (armed.grantHead t head rest)
      else armed

/-- Pay out whoever can be paid, then arm one timer for the new head. -/
def reschedule (clock : Clock) (armed : ArmedBucket) : ArmedBucket :=
  let refilled := armed.refill clock
  let paid := payHeads (clock 1) refilled.bucket.queue refilled
  { paid with bucket := paid.bucket.armTimer (clock 1) }

/-- Arm the deadline timer of a waiter, listen to its signal and queue it. -/
def park (waiter : PromiseId → Waiter) (armed : ArmedBucket) : ArmedBucket :=
  let promise := armed.bucket.nextPromise
  { armed with
    bucket := armed.bucket.park waiter
    deadlineTimers := armed.deadlineTimers ++ [promise]
    listeners :=
      if (waiter promise).abortable then armed.listeners ++ [promise] else armed.listeners
    parks := armed.parks ++ [promise] }

/-- Take `cost`, waiting up to the absolute `deadlineAt`. -/
def take (clock : Clock) (cost deadlineAt : ℚ) (signal : AbortSignal) (armed : ArmedBucket) :
    ArmedBucket :=
  let need := (armed.bucket.clamp cost).1
  let armed := { armed with bucket := (armed.bucket.clamp cost).2 }
  if signal = some true then
    armed.newSettled (.rejected
      ⟨.aborted, armed.bucket.plan.name ++ ": aborted before capacity was granted"⟩)
  else
    let startedAt := clock 0
    match armed.tryPay (clock.after 1) (some armed.bucket.nextPromise) cost need with
    | (true, armed) => armed.newSettled (.resolved 0 need)
    | (false, armed) =>
        if maxQueuedWaiters ≤ armed.bucket.queue.length then
          armed.newSettled (.rejected
            ⟨.queueFull, armed.bucket.plan.name ++ ": rate limit queue is full"⟩)
        else
          let waiter (promise : PromiseId) : Waiter :=
            { promise := promise
              cost := cost
              need := need
              startedAt := startedAt
              deadlineDelay := max 0 (deadlineAt - startedAt)
              abortable := signal.isSome }
          (armed.park waiter).reschedule (clock.after 3)

/-- Charge `n` unconditionally. -/
def forceTake (clock : Clock) (n : ℚ) (armed : ArmedBucket) : ArmedBucket :=
  if n ≤ 0 then armed
  else
    let refilled := armed.refill clock
    { refilled with
      bucket := { refilled.bucket with tokens := refilled.bucket.tokens - n }
      forced := refilled.forced + n }.reschedule (clock.after 1)

/-- Give `n` back, never above capacity. -/
def refund (clock : Clock) (n : ℚ) (armed : ArmedBucket) : ArmedBucket :=
  if n ≤ 0 then armed
  else
    let refilled := armed.refill clock
    let tokens := min refilled.bucket.plan.capacity (refilled.bucket.tokens + n)
    { refilled with
      bucket := { refilled.bucket with tokens := tokens, refunds := refilled.bucket.refunds ++ [n] }
      gained := refilled.gained + (tokens - refilled.bucket.tokens) }.reschedule (clock.after 1)

/-- Floor the next grant at `untilMs`. -/
def penalize (clock : Clock) (untilMs : ℚ) (armed : ArmedBucket) : ArmedBucket :=
  if untilMs ≤ armed.bucket.penaltyUntil then armed
  else { armed with bucket := { armed.bucket with penaltyUntil := untilMs } }.reschedule clock

/-- Splice a waiter out, drop its timers and reject its promise. -/
def drop (promise : PromiseId) (error : RateLimitTimeoutError) (armed : ArmedBucket) :
    ArmedBucket :=
  let removed := armed.dispose promise
  { removed with
    bucket := removed.bucket.drop promise error
    settlements := removed.settlements ++ [promise] }

def fail (clock : Clock) (promise : PromiseId) (error : RateLimitTimeoutError)
    (armed : ArmedBucket) : ArmedBucket :=
  if armed.bucket.queue.any (fun waiter => waiter.promise = promise) then
    (armed.drop promise error).reschedule clock
  else armed

/-- What a call does. The runtime fires an armed timer once, and dispatches an abort once to an
attached listener. -/
def step (armed : ArmedBucket) : Clock × TokenBucket.Call → Option ArmedBucket
  | (clock, .available) => some (armed.refill clock)
  | (clock, .tryTake n) => some (armed.tryPay clock none n n).2
  | (clock, .take cost deadlineAt signal) => some (armed.take clock cost deadlineAt signal)
  | (clock, .forceTake n) => some (armed.forceTake clock n)
  | (clock, .refund n) => some (armed.refund clock n)
  | (clock, .penalize untilMs) => some (armed.penalize clock untilMs)
  | (clock, .deadline promise) =>
      if promise ∈ armed.deadlineTimers then
        some ({ armed with
          deadlineTimers := armed.deadlineTimers.filter (fun other => other ≠ promise) }.fail clock
            promise ⟨.deadline, armed.bucket.plan.name ++ ": timed out waiting for capacity"⟩)
      else none
  | (clock, .abort promise) =>
      if promise ∈ armed.listeners then
        some ({ armed with
          listeners := armed.listeners.filter (fun other => other ≠ promise) }.fail clock
            promise ⟨.aborted, armed.bucket.plan.name ++ ": aborted while waiting for capacity"⟩)
      else none
  | (clock, .timer) =>
      match armed.bucket.timer with
      | none => none
      | some _ =>
          some ({ armed with bucket := { armed.bucket with timer := none } }.reschedule clock)

/-! ## The bucket below -/

variable {armed : ArmedBucket} {clock : Clock}

@[simp] theorem refill_bucket : (armed.refill clock).bucket = armed.bucket.refill clock := rfl

theorem payHeads_bucket (t : ℚ) (queue : List Waiter) (armed : ArmedBucket) :
    (payHeads t queue armed).bucket = TokenBucket.payHeads t queue armed.bucket := by
  induction queue generalizing armed with
  | nil => rfl
  | cons head rest ih =>
      unfold payHeads TokenBucket.payHeads
      split
      · exact ih _
      · rfl

@[simp] theorem reschedule_bucket :
    (armed.reschedule clock).bucket = armed.bucket.reschedule clock := by
  simp only [reschedule, TokenBucket.reschedule, payHeads_bucket, refill_bucket]

theorem tryPay_bucket (armed : ArmedBucket) (clock : Clock) (promise : Option PromiseId) (cost n : ℚ) :
    (armed.tryPay clock promise cost n).1 = (armed.bucket.tryPay clock cost n).1 ∧
      (armed.tryPay clock promise cost n).2.bucket = (armed.bucket.tryPay clock cost n).2 := by
  unfold tryPay TokenBucket.tryPay
  by_cases hfree : n ≤ 0
  · simp only [hfree, ↓reduceIte]
    exact ⟨trivial, rfl⟩
  · simp only [hfree, ↓reduceIte, refill_bucket]
    by_cases hpenalty : clock 1 < (armed.bucket.refill clock).penaltyUntil
    · simp [hpenalty]
    · by_cases hqueue : (armed.bucket.refill clock).queue ≠ []
      · simp [hpenalty, hqueue]
      · by_cases htokens : (armed.bucket.refill clock).tokens < n
        · simp [hpenalty, hqueue, htokens]
        · simp only [hpenalty, hqueue, htokens, ↓reduceIte]
          exact ⟨trivial, rfl⟩

theorem take_bucket (cost deadlineAt : ℚ) (signal : AbortSignal) :
    (armed.take clock cost deadlineAt signal).bucket =
      (armed.bucket.take clock cost deadlineAt signal).2 := by
  simp only [take, TokenBucket.take]
  generalize armed.bucket.clamp cost = clamped
  by_cases hsignal : signal = some true
  · rw [if_pos hsignal, if_pos hsignal]
    rfl
  · rw [if_neg hsignal, if_neg hsignal]
    obtain ⟨hgranted, hbucket⟩ := tryPay_bucket { armed with bucket := clamped.2 }
      (clock.after 1) (some clamped.2.nextPromise) cost clamped.1
    generalize tryPay (clock.after 1) (some clamped.2.nextPromise) cost clamped.1
      { armed with bucket := clamped.2 } = tried at hgranted hbucket ⊢
    generalize clamped.2.tryPay (clock.after 1) cost clamped.1 = below at hgranted hbucket ⊢
    obtain ⟨granted, tried⟩ := tried
    obtain ⟨belowGranted, belowTried⟩ := below
    simp only at hgranted hbucket
    subst hgranted hbucket
    cases granted with
    | true => rfl
    | false =>
        simp only
        split
        · rfl
        · exact reschedule_bucket

theorem fail_bucket (promise : PromiseId) (error : RateLimitTimeoutError) :
    (armed.fail clock promise error).bucket = armed.bucket.fail clock promise error := by
  unfold fail TokenBucket.fail
  split
  · exact reschedule_bucket
  · rfl

/-- The bucket of a step is the step of the bucket, when only the waiters that are parked and
abortable are listened to. -/
theorem step_bucket {call : TokenBucket.Call} {after : ArmedBucket}
    (hlisteners : ∀ promise ∈ armed.listeners,
      ∃ waiter ∈ armed.bucket.queue, waiter.promise = promise ∧ waiter.abortable = true)
    (h : armed.step (clock, call) = some after) : after.bucket = armed.bucket.step clock call := by
  cases call with
  | available =>
      cases h
      rfl
  | tryTake n =>
      cases h
      exact (tryPay_bucket armed clock none n n).2
  | take cost deadlineAt signal =>
      cases h
      exact take_bucket cost deadlineAt signal
  | forceTake n =>
      cases h
      simp only [forceTake, TokenBucket.step, TokenBucket.forceTake]
      split
      · rfl
      · exact reschedule_bucket
  | refund n =>
      cases h
      simp only [refund, TokenBucket.step, TokenBucket.refund]
      split
      · rfl
      · exact reschedule_bucket
  | penalize untilMs =>
      cases h
      simp only [penalize, TokenBucket.step, TokenBucket.penalize]
      split
      · rfl
      · exact reschedule_bucket
  | deadline promise =>
      simp only [step] at h
      split at h
      · cases h
        exact fail_bucket promise _
      · cases h
  | abort promise =>
      simp only [step] at h
      split at h
      · rename_i hlistens
        cases h
        obtain ⟨waiter, hw, hpromise, habortable⟩ := hlisteners promise hlistens
        have hany : (armed.bucket.queue.any fun waiter =>
            waiter.promise = promise && waiter.abortable) = true :=
          List.any_eq_true.mpr ⟨waiter, hw, by simp [hpromise, habortable]⟩
        simp only [TokenBucket.step]
        rw [if_pos hany]
        exact fail_bucket promise _
      · cases h
  | timer =>
      simp only [step, TokenBucket.step] at h ⊢
      cases htimer : armed.bucket.timer with
      | none =>
          rw [htimer] at h
          cases h
      | some delay =>
          rw [htimer] at h
          cases h
          exact reschedule_bucket

end ArmedBucket

end VoiceOrder.RateLimit
