import VoiceOrder.RateLimit.RateLimiter

/-! # Did a failed call reach the provider?

The lease of a call that provably never left the process is abandoned. Everything else keeps
its charge. -/

namespace VoiceOrder.RateLimit

/-- What can be read off a thrown object. A field that is no number, or no string, is none. -/
structure ErrorFields where
  /-- What `String` makes of it. -/
  text : String
  /-- It is an instance of `Error`. -/
  isError : Bool
  message : String
  status : Option ℚ
  statusCode : Option ℚ
  code : Option String
  deriving DecidableEq, Repr

/-- A thrown value, with the chain of its causes. -/
inductive Thrown where
  | primitive (text : String)
  | object (fields : ErrorFields) (cause : Thrown)
  deriving DecidableEq, Repr

/-- What a field that was never set reads as. -/
def Thrown.undefined : Thrown := .primitive "undefined"

def Thrown.text : Thrown → String
  | .primitive text => text
  | .object fields _ => fields.text

/-- `new Error(message)`. -/
def ErrorFields.new (message : String) : ErrorFields where
  text := "Error: " ++ message
  isError := true
  message := message
  status := none
  statusCode := none
  code := none

/-- The codes of a connection that was never established, so that no bytes were sent. -/
def neverArrivedCodes : List String :=
  ["ECONNREFUSED", "ENOTFOUND", "EAI_AGAIN", "EHOSTUNREACH", "ENETUNREACH",
    "ERR_SOCKET_CONNECTION_TIMEOUT", "rate_limited"]

/-- How far down the chain of causes to look. -/
def maxCauseDepth : ℕ := 5

def isHttpStatus (value : Option ℚ) : Bool := value.any fun value => 100 ≤ value && value < 600

/-- Whether the first `depth` errors of the chain leave it open that the request arrived. -/
def reachedWithin : ℕ → Thrown → Bool
  | 0, _ => true
  | _ + 1, .primitive _ => true
  | depth + 1, .object fields cause =>
      if isHttpStatus fields.status || isHttpStatus fields.statusCode then true
      else if fields.code.any (· ∈ neverArrivedCodes) then false
      else reachedWithin depth cause

/-- The provider received the request, and so counted it, as far as the error tells. -/
def reachedProvider (error : Thrown) : Bool := reachedWithin maxCauseDepth error

/-! ## How a run closes its lease -/

/-- What a run calls on its lease once its function has returned or thrown. -/
def closing {α : Type} : Except Thrown α → Closing
  | .ok _ => .settled none
  | .error error => if reachedProvider error then .settled none else .abandoned

namespace RateLimiter

def close (clock : Clock) (id : CallerId) (closing : Closing) (limiter : RateLimiter) : RateLimiter :=
  match closing with
  | .settled actualCost => limiter.settle clock id actualCost
  | .abandoned => limiter.abandon clock id

/-- What has been refunded to an acquire so far, in requests and in tokens. -/
def refunded (id : CallerId) (limiter : RateLimiter) : Option (ℚ × ℚ) :=
  (limiter.acquires id).map fun acquire => (acquire.rpmRefunded, acquire.tpmRefunded)

/-- The acquire holds its lease, and something is reserved for it. -/
def Reserved (id : CallerId) (limiter : RateLimiter) : Prop :=
  ∃ acquire waitedMs, limiter.acquires id = some acquire ∧ acquire.stage = .leased waitedMs none ∧
    (limiter.rpm.isSome ∧ acquire.rpmTaken = true ∨ limiter.tpm.isSome ∧ 0 < acquire.tpmTaken)

section

variable {clock : Clock} {id : CallerId} {limiter : RateLimiter}

@[simp] theorem refunded_put (acquire : Acquire) :
    (limiter.put id acquire).refunded id = some (acquire.rpmRefunded, acquire.tpmRefunded) := by
  simp [refunded, put]

theorem settle_refunded (actualCost : Option ℚ) :
    (limiter.settle clock id actualCost).refunded id = limiter.refunded id := by
  unfold settle
  split
  · rfl
  · rename_i acquire hacquire
    split
    · rw [refunded_put, refunded, hacquire]
      have hsame : (limiter.reconcile clock actualCost acquire).1.rpmRefunded = acquire.rpmRefunded ∧
          (limiter.reconcile clock actualCost acquire).1.tpmRefunded = acquire.tpmRefunded := by
        unfold reconcile
        split
        · simp only
          split <;> exact ⟨rfl, rfl⟩
        · exact ⟨rfl, rfl⟩
      simp [hsame]
    · rfl

theorem giveBack_refunded (clock : Clock) (limiter : RateLimiter) (acquire : Acquire) :
    (limiter.giveBack clock acquire).1.rpmRefunded =
        acquire.rpmRefunded + (if limiter.rpm.isSome ∧ acquire.rpmTaken = true then 1 else 0) ∧
      (limiter.giveBack clock acquire).1.tpmRefunded =
        acquire.tpmRefunded + (if limiter.tpm.isSome ∧ 0 < acquire.tpmTaken then acquire.tpmTaken else 0) := by
  unfold giveBack refundTpm refundRpm
  cases htpm : limiter.tpm with
  | none => cases hrpm : limiter.rpm <;> by_cases h : acquire.rpmTaken = true <;> simp [hrpm, h]
  | some tpm =>
      by_cases hcost : 0 < acquire.tpmTaken
      · cases hrpm : limiter.rpm <;> by_cases h : acquire.rpmTaken = true <;> simp [h, hcost]
      · cases hrpm : limiter.rpm <;> by_cases h : acquire.rpmTaken = true <;> simp [hrpm, h, hcost]

theorem abandon_refunded (h : limiter.Reserved id) :
    (limiter.abandon clock id).refunded id ≠ limiter.refunded id := by
  obtain ⟨acquire, waitedMs, hacquire, hstage, htaken⟩ := h
  obtain ⟨hrpm, htpm⟩ := giveBack_refunded clock limiter acquire
  unfold abandon
  rw [hacquire]
  dsimp only
  rw [hstage]
  dsimp only
  rw [refunded_put, refunded, hacquire, Option.map_some, hrpm, htpm]
  rcases htaken with ⟨hsome, htaken⟩ | ⟨hsome, htaken⟩
  · simp [hsome, htaken]
  · simp [hsome, htaken, htaken.ne']

/-- A reservation is refunded if and only if its lease is abandoned. -/
theorem close_refunds_iff (h : limiter.Reserved id) (closing : Closing) :
    (limiter.close clock id closing).refunded id ≠ limiter.refunded id ↔ closing = .abandoned := by
  cases closing with
  | settled actualCost => simp [close, settle_refunded]
  | abandoned => simp [close, abandon_refunded h]

end

end RateLimiter

end VoiceOrder.RateLimit
