import VoiceOrder.RateLimit.Arrival

/-! # The embedding client and its reservation

One logical request makes up to two attempts under one reservation of the limiter. The request
throws one error for all its attempts, and the limiter reads off that error whether the
provider was reached. -/

namespace VoiceOrder.Menu

open VoiceOrder.RateLimit

structure JinaResponse where
  /-- The index of each input and its vector. -/
  data : List (ℤ × List ℚ)
  deriving DecidableEq, Repr

/-- The response to one attempt. Its body is read once, as JSON or as text. -/
structure Response where
  status : ℕ
  /-- How long to hold off, by its headers. -/
  retryAfterMs : ℚ
  json : Except Thrown JinaResponse
  text : Except Thrown String
  threeDigits : 100 ≤ status ∧ status < 1000

def Response.ok (response : Response) : Bool := 200 ≤ response.status && response.status < 300

/-- What `fetch` comes to. -/
inductive Attempt where
  | threw (error : Thrown)
  | responded (response : Response)

/-- What an attempt does to the limiter and to the time. -/
inductive Effect where
  | penalized (waitMs : ℚ)
  | slept (ms : ℚ)
  deriving DecidableEq, Repr

/-- One retry on 429, 5xx and network failures. -/
def maxRetries : ℕ := 1

def retryBackoffMs : ℚ := 250

def maxRetryBackoffMs : ℚ := 500

/-- What `post` carries from one attempt to the next. -/
structure Progress where
  lastErr : Thrown
  /-- The HTTP status seen across all attempts. -/
  status : ℕ
  backoffMs : ℚ
  effects : List Effect
  /-- History: the attempts made so far. -/
  made : List Attempt

def Progress.start : Progress where
  lastErr := .undefined
  status := 0
  backoffMs := retryBackoffMs
  effects := []
  made := []

/-- How `post` ended. -/
structure Posted where
  result : Except Thrown JinaResponse
  effects : List Effect
  made : List Attempt

def Progress.finish (progress : Progress) (result : Except Thrown JinaResponse) : Posted :=
  ⟨result, progress.effects, progress.made⟩

/-- The detail of a response that is no success. -/
def httpDetail (status : ℕ) (text : String) : String := s!"jina_http_{status}: {text}"

/-- An error that the client made from a 4xx response, by its message. -/
def Thrown.clientError : Thrown → Bool
  | .primitive _ => false
  | .object fields _ => fields.isError && fields.message.startsWith "jina_http_4"

/-- The `catch` of an attempt. -/
def Progress.caught (error : Thrown) (progress : Progress) : Posted ⊕ Progress :=
  if Thrown.clientError error then .inl (progress.finish (.error error))
  else .inr { progress with lastErr := error }

/-- One attempt: it ends the request, or there may be another one. -/
def Progress.attempt (attempt : Attempt) (progress : Progress) : Posted ⊕ Progress :=
  let progress := { progress with made := progress.made ++ [attempt] }
  match attempt with
  | .threw error => progress.caught error
  | .responded response =>
      if response.ok then
        match response.json with
        | .ok json => .inl (progress.finish (.ok json))
        | .error error => progress.caught error
      else
        let progress :=
          if response.status = 429 then
            { progress with
              backoffMs := min response.retryAfterMs maxRetryBackoffMs
              effects := progress.effects ++ [.penalized response.retryAfterMs] }
          else progress
        match response.text with
        | .error error => progress.caught error
        | .ok text =>
            let fields := ErrorFields.new (httpDetail response.status text)
            if response.status ≠ 429 ∧ response.status < 500 then
              progress.caught (.object { fields with status := some response.status } .undefined)
            else
              -- A status that was seen stays, and 429 outranks the others.
              .inr { progress with
                status := if progress.status ≠ 429 then response.status else progress.status
                lastErr := .object fields .undefined }

/-- The error of a request whose attempts have all failed. -/
def Progress.failed (progress : Progress) : Thrown :=
  let fields := ErrorFields.new ("jina embedding request failed: " ++ progress.lastErr.text)
  .object { fields with status := if 0 < progress.status then some progress.status else none }
    progress.lastErr

/-- The loop, `left` attempts from the end. -/
def post.loop (outcomes : ℕ → Attempt) : ℕ → Progress → Posted
  | 0, progress => progress.finish (.error progress.failed)
  | left + 1, progress =>
      match progress.attempt (outcomes (maxRetries - left)) with
      | .inl posted => posted
      | .inr progress =>
          if 0 < left then
            post.loop outcomes left
              { progress with effects := progress.effects ++ [.slept progress.backoffMs] }
          else post.loop outcomes left progress

/-- Post a request whose attempts come to the given outcomes. -/
def post (outcomes : ℕ → Attempt) : Posted := post.loop outcomes (maxRetries + 1) .start

/-! ## What an attempt leaves behind -/

/-- What becomes of an attempt. -/
inductive Verdict where
  | answered (json : JinaResponse)
  /-- A response that was read in full and may be retried. -/
  | transient (status : ℕ) (error : Thrown)
  | failed (error : Thrown)

def Response.verdict (response : Response) : Verdict :=
  if response.ok then
    match response.json with
    | .ok json => .answered json
    | .error error => .failed error
  else
    match response.text with
    | .error error => .failed error
    | .ok text =>
        let fields := ErrorFields.new (httpDetail response.status text)
        if response.status ≠ 429 ∧ response.status < 500 then
          .failed (.object { fields with status := some response.status } .undefined)
        else .transient response.status (.object fields .undefined)

def Attempt.verdict : Attempt → Verdict
  | .threw error => .failed error
  | .responded response => response.verdict

/-- The attempt may have reached the provider: it was answered, or it failed with an error that
leaves it open. -/
def Attempt.mayHaveArrived : Attempt → Bool
  | .threw error => reachedProvider error
  | .responded _ => true

/-- The request keeps the status of the attempt. -/
def Attempt.recorded (attempt : Attempt) : Bool :=
  match attempt.verdict with
  | .transient status _ => status < 600
  | _ => false

/-- The error of the attempt is thrown as it is. -/
def Attempt.rethrown (attempt : Attempt) : Bool :=
  match attempt.verdict with
  | .failed error => Thrown.clientError error
  | _ => false

/-- There is no further attempt after this one. -/
def Attempt.ends (attempt : Attempt) : Bool :=
  match attempt.verdict with
  | .answered _ => true
  | _ => attempt.rethrown

/-- The error of the attempt says that the connection was never established. An error that is
not thrown as it is takes one of the levels that the limiter looks at for its wrapper. -/
def Attempt.denies (attempt : Attempt) : Bool :=
  match attempt.verdict with
  | .failed error =>
      !(if Thrown.clientError error then reachedProvider error
        else reachedWithin (maxCauseDepth - 1) error)
  | _ => false

/-- No attempt that may have arrived is hidden by the one that ends the request: where that one
denies that anything arrived, the first has left its status, or none of them may have arrived. -/
def Discloses (first second : Attempt) : Prop :=
  if first.ends then first.denies = true → first.mayHaveArrived = false
  else second.denies = true → first.recorded = true ∧ second.rethrown = false ∨
    first.mayHaveArrived = false ∧ second.mayHaveArrived = false

instance (first second : Attempt) : Decidable (Discloses first second) :=
  inferInstanceAs (Decidable (if first.ends then first.denies = true → first.mayHaveArrived = false
    else second.denies = true → first.recorded = true ∧ second.rethrown = false ∨
      first.mayHaveArrived = false ∧ second.mayHaveArrived = false))

/-! ## The whole request -/

/-- What an attempt does to the state of the request, by its verdict. -/
def Progress.Follows (attempt : Attempt) (progress : Progress) : Posted ⊕ Progress → Prop
  | .inl posted => posted.made = progress.made ++ [attempt] ∧ attempt.ends = true ∧
      match attempt.verdict with
      | .answered json => posted.result = .ok json
      | .transient _ _ => False
      | .failed error => posted.result = .error error
  | .inr next => next.made = progress.made ++ [attempt] ∧ attempt.ends = false ∧
      match attempt.verdict with
      | .answered _ => False
      | .transient status error => next.lastErr = error ∧
          next.status = if progress.status ≠ 429 then status else progress.status
      | .failed error => next.lastErr = error ∧ next.status = progress.status

section

variable {attempt first second : Attempt} {progress next : Progress} {outcomes : ℕ → Attempt}
  {error : Thrown}

theorem caught_follows (hverdict : attempt.verdict = .failed error)
    (hmade : next.made = progress.made ++ [attempt]) (hstatus : next.status = progress.status) :
    progress.Follows attempt (next.caught error) := by
  unfold Progress.caught
  split
  · rename_i hclient
    simp [Progress.Follows, Progress.finish, Attempt.ends, Attempt.rethrown, hverdict, hmade, hclient]
  · rename_i hclient
    simp [Progress.Follows, Attempt.ends, Attempt.rethrown, hverdict, hmade, hstatus, hclient]

theorem attempt_follows (attempt : Attempt) (progress : Progress) :
    progress.Follows attempt (progress.attempt attempt) := by
  cases attempt with
  | threw error => exact caught_follows rfl rfl rfl
  | responded response =>
      have hverdict : (Attempt.responded response).verdict = response.verdict := rfl
      unfold Progress.attempt
      dsimp only
      split
      · rename_i hok
        cases hjson : response.json with
        | ok json =>
            simp [Progress.Follows, Progress.finish, Attempt.ends, hverdict, Response.verdict, hok, hjson]
        | error error =>
            exact caught_follows (by simp [hverdict, Response.verdict, hok, hjson]) rfl rfl
      · rename_i hok
        -- The backoff of a 429 touches neither the status nor the history.
        generalize hpenalized : (if response.status = 429 then _ else _ : Progress) = penalized
        have hmade : penalized.made = progress.made ++ [.responded response] := by
          rw [← hpenalized]
          split <;> rfl
        have hstatus : penalized.status = progress.status := by
          rw [← hpenalized]
          split <;> rfl
        cases htext : response.text with
        | error error =>
            exact caught_follows (by simp [hverdict, Response.verdict, hok, htext]) hmade hstatus
        | ok text =>
            dsimp only
            split
            · rename_i hterminal
              exact caught_follows (by simp [hverdict, Response.verdict, hok, htext, hterminal])
                hmade hstatus
            · rename_i htransient
              simp [Progress.Follows, Attempt.ends, Attempt.rethrown, hverdict, Response.verdict,
                hok, htext, htransient, hmade, hstatus]

/-- A status that is kept has at least three digits, and its error tells nothing else. -/
theorem verdict_transient {status : ℕ} (h : attempt.verdict = .transient status error) :
    100 ≤ status ∧ ∃ message, error = .object (ErrorFields.new message) .undefined := by
  cases attempt with
  | threw error => cases h
  | responded response =>
      have hverdict : response.verdict = .transient status error := h
      unfold Response.verdict at hverdict
      split at hverdict
      · split at hverdict <;> cases hverdict
      · split at hverdict
        · cases hverdict
        · dsimp only at hverdict
          split at hverdict
          · cases hverdict
          · cases hverdict
            exact ⟨response.threeDigits.1, _, rfl⟩

theorem closing_ok (json : JinaResponse) : closing (.ok json : Except Thrown JinaResponse) ≠ .abandoned :=
  fun h => (nomatch h)

theorem closing_error (error : Thrown) :
    closing (.error error : Except Thrown JinaResponse) = .abandoned ↔ reachedProvider error = false := by
  unfold closing
  cases h : reachedProvider error <;> simp [h]

/-- What the limiter makes of the error for all attempts: a kept status, then the last error. -/
theorem failed_reached (progress : Progress) (hstatus : progress.status = 0 ∨ 100 ≤ progress.status) :
    reachedProvider progress.failed =
      (decide (0 < progress.status ∧ progress.status < 600) ||
        reachedWithin (maxCauseDepth - 1) progress.lastErr) := by
  have hstatus' : isHttpStatus (if 0 < progress.status then some (progress.status : ℚ) else none) =
      decide (0 < progress.status ∧ progress.status < 600) := by
    rcases hstatus with hzero | hdigits
    · simp [hzero, isHttpStatus]
    · have hpos : 0 < progress.status := by omega
      have hcast : (100 : ℚ) ≤ progress.status := by exact_mod_cast hdigits
      have hiff : (progress.status : ℚ) < 600 ↔ progress.status < 600 := by norm_cast
      simp [hpos, isHttpStatus, hcast, hiff]
  change (if isHttpStatus (if 0 < progress.status then some (progress.status : ℚ) else none) ||
      isHttpStatus none then true else
    if (none : Option String).any (· ∈ neverArrivedCodes) then false
    else reachedWithin (maxCauseDepth - 1) progress.lastErr) = _
  rw [hstatus']
  cases decide (0 < progress.status ∧ progress.status < 600) <;> simp [isHttpStatus]

/-- An attempt that ends the request denies its arrival by an error that is thrown as it is. -/
theorem ended_closing {posted : Posted} (h : progress.Follows attempt (.inl posted)) :
    (closing posted.result = .abandoned ↔ attempt.denies = true) ∧
      (attempt.denies = true → attempt.rethrown = true) := by
  obtain ⟨-, hends, hverdict⟩ := h
  cases hcase : attempt.verdict with
  | answered json =>
      rw [hcase] at hverdict
      simp [hverdict, closing_ok, Attempt.denies, hcase]
  | transient status error => simp [hcase] at hverdict
  | failed error =>
      rw [hcase] at hverdict
      have hrethrown : attempt.rethrown = true := by simpa [Attempt.ends, hcase] using hends
      have hclient : Thrown.clientError error = true := by simpa [Attempt.rethrown, hcase] using hrethrown
      refine ⟨?_, fun _ => hrethrown⟩
      rw [hverdict, closing_error]
      simp [Attempt.denies, hcase, hclient]

/-- The status that a request keeps from an attempt. -/
theorem kept_status (hattempt : Progress.start.Follows attempt (.inr next)) :
    (next.status = 0 ∨ 100 ≤ next.status) ∧
      (0 < next.status ∧ next.status < 600 ↔ attempt.recorded = true) := by
  obtain ⟨-, -, hverdict⟩ := hattempt
  cases hcase : attempt.verdict with
  | answered json => simp [hcase] at hverdict
  | transient status error =>
      obtain ⟨hdigits, -⟩ := verdict_transient hcase
      have hstatus : next.status = status := by simpa [hcase, Progress.start] using (hcase ▸ hverdict).2
      rw [hstatus]
      refine ⟨.inr hdigits, ?_⟩
      have hpos : 0 < status := by omega
      simp [Attempt.recorded, hcase, hpos]
  | failed error =>
      have hstatus : next.status = 0 := by simpa [hcase, Progress.start] using (hcase ▸ hverdict).2
      simp [hstatus, Attempt.recorded, hcase]

/-- How the limiter closes the lease of a request. -/
theorem post_spec (outcomes : ℕ → Attempt) (hfirst : outcomes 0 = first)
    (hsecond : outcomes 1 = second) :
    (post outcomes).made = (if first.ends then [first] else [first, second]) ∧
      (closing (post outcomes).result = .abandoned ↔
        if first.ends then first.denies = true
        else second.denies = true ∧ (second.rethrown = true ∨ first.recorded = false)) := by
  have hpost : post outcomes = match Progress.start.attempt first with
      | .inl posted => posted
      | .inr progress =>
          match ({ progress with effects := progress.effects ++ [.slept progress.backoffMs] } :
            Progress).attempt second with
          | .inl posted => posted
          | .inr progress => progress.finish (.error progress.failed) := by
    subst hfirst hsecond
    rfl
  rw [hpost]
  have hstart := attempt_follows first .start
  cases hattempt : Progress.start.attempt first with
  | inl posted =>
      rw [hattempt] at hstart
      simpa [hstart.1, hstart.2.1, Progress.start] using (ended_closing hstart).1
  | inr progress =>
      rw [hattempt] at hstart
      obtain ⟨hstatus, hrecorded⟩ := kept_status hstart
      obtain ⟨hmade, hends, -⟩ := hstart
      dsimp only
      generalize hslept : ({ progress with
        effects := progress.effects ++ [.slept progress.backoffMs] } : Progress) = slept
      have hsame : slept.made = [first] ∧ slept.status = progress.status := by
        subst hslept
        exact ⟨hmade, rfl⟩
      have hretry := attempt_follows second slept
      cases hagain : slept.attempt second with
      | inl posted =>
          rw [hagain] at hretry
          obtain ⟨hclosing, hrethrown⟩ := ended_closing hretry
          refine ⟨by simp [hends, hretry.1, hsame.1], ?_⟩
          rw [hclosing]
          simpa [hends] using fun hdenies => .inl (hrethrown hdenies)
      | inr last =>
          rw [hagain] at hretry
          obtain ⟨hmade', hends', hverdict⟩ := hretry
          refine ⟨by simp [hends, hmade', hsame.1, Progress.finish], ?_⟩
          change closing (.error last.failed : Except Thrown JinaResponse) = .abandoned ↔ _
          rw [closing_error, hends, if_neg Bool.false_ne_true]
          cases hcase : second.verdict with
          | answered json => simp [hcase] at hverdict
          | transient status error =>
              rw [hcase] at hverdict
              obtain ⟨hdigits, message, rfl⟩ := verdict_transient hcase
              have hlast : last.status = 0 ∨ 100 ≤ last.status := by
                rw [hverdict.2, hsame.2]
                split <;> omega
              have hopen : reachedWithin (maxCauseDepth - 1)
                  (.object (ErrorFields.new message) .undefined) = true := rfl
              simp [failed_reached last hlast, hverdict.1, hopen, Attempt.denies, hcase]
          | failed error =>
              rw [hcase] at hverdict
              have hclient : Thrown.clientError error = false := by
                simpa [Attempt.ends, Attempt.rethrown, hcase] using hends'
              have hlast : last.status = progress.status := hverdict.2.trans hsame.2
              rw [failed_reached last (hlast ▸ hstatus), hlast, hverdict.1]
              simp only [Attempt.denies, Attempt.rethrown, hcase, hclient, Bool.or_eq_false_iff,
                decide_eq_false_iff_not, hrecorded, Bool.not_eq_true', Bool.false_eq_true, if_false,
                false_or, Bool.not_eq_true]
              exact and_comm

/-- The reservation of the request is refunded only if none of its attempts may have arrived. -/
def FailClosed (limiter : RateLimiter) (clock : Clock) (id : CallerId) (outcomes : ℕ → Attempt) :
    Prop :=
  (limiter.close clock id (closing (post outcomes).result)).refunded id ≠ limiter.refunded id →
    ∀ attempt ∈ (post outcomes).made, attempt.mayHaveArrived = false

/-- For all outcomes of the attempts, the reservation is fail-closed if and only if no attempt that
may have arrived is hidden by the one that ends the request. -/
theorem post_fail_closed_iff {limiter : RateLimiter} {clock : Clock} {id : CallerId}
    (hreserved : limiter.Reserved id) (outcomes : ℕ → Attempt) :
    FailClosed limiter clock id outcomes ↔ Discloses (outcomes 0) (outcomes 1) := by
  obtain ⟨hmade, hclosing⟩ := post_spec outcomes rfl rfl
  unfold FailClosed Discloses
  rw [RateLimiter.close_refunds_iff hreserved, hclosing, hmade]
  cases hends : (outcomes 0).ends with
  | true => simp
  | false =>
      cases (outcomes 1).rethrown <;> cases (outcomes 0).recorded <;> simp

end

/-! ## A reply that breaks off, and then a refused connection -/

/-- The limiter of the embedding client, which has granted one request. -/
def jinaLimiter : RateLimiter :=
  ((RateLimiter.create "jina" ⟨60, 0, 0⟩ 0).acquire (fun _ => 0) ⟨some 12, none, none⟩).resume
    (fun _ => 0) 0

theorem jinaLimiter_reserved : jinaLimiter.Reserved 0 := by
  have hheld : (jinaLimiter.acquires 0).map (fun acquire => (acquire.stage, acquire.rpmTaken)) =
      some (.leased 0 none, true) := by decide +kernel
  obtain ⟨acquire, hacquire, hpair⟩ := Option.map_eq_some_iff.mp hheld
  obtain ⟨hstage, htaken⟩ := Prod.mk.inj hpair
  exact ⟨acquire, 0, hacquire, hstage, .inl ⟨by decide +kernel, htaken⟩⟩

def refusedConnection : Thrown :=
  .object { ErrorFields.new "fetch failed" with text := "TypeError: fetch failed" }
    (.object { ErrorFields.new "connect ECONNREFUSED" with code := some "ECONNREFUSED" } .undefined)

/-- A success whose body breaks off. -/
def brokenReply : Response where
  status := 200
  retryAfterMs := 5000
  json := .error (.object
    { ErrorFields.new "Unexpected end of JSON input" with
      text := "SyntaxError: Unexpected end of JSON input" } .undefined)
  text := .ok ""
  threeDigits := by decide

theorem post_fail_closed_refused :
    FailClosed jinaLimiter (fun _ => 0) 0 fun _ => .threw refusedConnection :=
  (post_fail_closed_iff jinaLimiter_reserved _).mpr (by decide +kernel)

/-- The provider has answered the first attempt, and its reservation is refunded because the
second one is refused. -/
theorem post_refunds_answered :
    jinaLimiter.Reserved 0 ∧
      ¬FailClosed jinaLimiter (fun _ => 0) 0 fun attempt =>
        if attempt = 0 then .responded brokenReply else .threw refusedConnection := by
  refine ⟨jinaLimiter_reserved, fun hclosed => ?_⟩
  have hnever := hclosed ((RateLimiter.close_refunds_iff jinaLimiter_reserved _).mpr (by decide +kernel))
  rw [(post_spec _ rfl rfl).1, if_neg (by decide +kernel)] at hnever
  exact absurd (hnever (.responded brokenReply) List.mem_cons_self) (by decide)

end VoiceOrder.Menu
