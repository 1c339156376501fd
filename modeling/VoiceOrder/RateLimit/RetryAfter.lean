import VoiceOrder.Ordering.AgentReply
import VoiceOrder.RateLimit.Arrival
import VoiceOrder.Shared.Double

/-! # How long to hold off after a 429

The header gives seconds or a date. Whatever it gives, the wait is bounded: a penalty only ever
extends, so one absurd header would take the provider out for good. -/

namespace VoiceOrder.RateLimit

/-- One of the two fields of an error in which a client says what the status was is 429. -/
def has429 (status statusCode : Option ℚ) : Bool := status = some 429 || statusCode = some 429

/-- A provider says 429. -/
def is429 : Thrown → Bool
  | .primitive _ => false
  | .object fields _ => has429 fields.status fields.statusCode

/-- The floor of the next grant where the 429 says nothing usable. -/
def penalty429Ms : ℚ := 5000

def maxPenaltyMs : ℚ := 60000

def clampPenalty (ms : ℚ) : ℚ := min maxPenaltyMs (max 0 ms)

/-- The wait for what the headers ask for, if they ask for a usable one. -/
def holdOff (delay : Option ℚ) : ℚ := delay.elim penalty429Ms clampPenalty

/-- Whatever is asked for, the wait is bounded. -/
theorem holdOff_bounded (delay : Option ℚ) : 0 ≤ holdOff delay ∧ holdOff delay ≤ maxPenaltyMs := by
  cases delay with
  | none => exact ⟨by norm_num [holdOff, penalty429Ms], by norm_num [holdOff, penalty429Ms, maxPenaltyMs]⟩
  | some ms => exact ⟨le_min (by norm_num [maxPenaltyMs]) (le_max_left 0 ms), min_le_left _ _⟩

/-! ## The header -/

def digits (word : List Char) : Bool := !word.isEmpty && word.all Char.isDigit

/-- Seconds, whole or with a fraction. -/
def isDelaySeconds (text : List Char) : Bool :=
  let whole := text.takeWhile (· ≠ '.')
  match text.dropWhile (· ≠ '.') with
  | [] => digits whole
  | _ :: fraction => digits whole && digits fraction

def digitsValue (word : List Char) : ℕ :=
  word.foldl (fun value digit => 10 * value + (digit.toNat - '0'.toNat)) 0

def delaySeconds (text : List Char) : ℚ :=
  let whole := text.takeWhile (· ≠ '.')
  let fraction := (text.dropWhile (· ≠ '.')).drop 1
  digitsValue whole + digitsValue fraction / 10 ^ fraction.length

def weekdays : List String := ["mon", "tue", "wed", "thu", "fri", "sat", "sun"]

/-- Each form of an HTTP date begins with a weekday. -/
def isHttpDate (text : List Char) : Bool :=
  weekdays.any fun day => day.toList.isPrefixOf (text.map Char.toLower)

/-- The text matches one test a character. -/
def matchesAll : List (Char → Bool) → List Char → Bool
  | [], [] => true
  | test :: tests, c :: text => test c && matchesAll tests text
  | _, _ => false

/-- The date form that names no zone. -/
def isAsctime (text : List Char) : Bool :=
  let letter : Char → Bool := fun c => c.isAlpha
  let digit : Char → Bool := fun c => c.isDigit
  let is (expected : Char) : Char → Bool := fun c => c = expected
  let blank := is ' '
  let name := [letter, letter, letter]
  let two := [digit, digit]
  let clock := two ++ [is ':'] ++ two ++ [is ':'] ++ two
  [[blank], [blank, blank]].any fun blanks =>
    [[digit], two].any fun day =>
      matchesAll (name ++ [blank] ++ name ++ blanks ++ day ++ [blank] ++ clock ++ [blank] ++ two ++ two)
        text

/-- `Math.round(Number(text) * 1000)`, on doubles. -/
def delayMs (text : List Char) : ℤ :=
  round (Double.nearest (Double.nearest (delaySeconds text) * 1000))

example : delayMs "4.0005".toList = 4000 := by decide +kernel

/-- What a header says, if it is usable. `parseDate` is what `Date.parse` reads, and `now` the time
of the wall clock. -/
def headerDelay (parseDate : List Char → Option ℚ) (now : ℚ) (text : List Char) : Option ℚ :=
  if text = [] then none
  else if isDelaySeconds text then some (delayMs text)
  else if isHttpDate text then
    (parseDate (if isAsctime text then text ++ " GMT".toList else text)).map fun instant => instant - now
  else none

/-- How long to hold off, in milliseconds. -/
def retryAfterMs (parseDate : List Char → Option ℚ) (now : ℚ) (header : Option (List Char)) : ℚ :=
  holdOff ((header.map Ordering.AgentReply.trimChars).bind (headerDelay parseDate now))

/-- Whatever the header says, the wait is bounded. -/
theorem retryAfterMs_bounded (parseDate : List Char → Option ℚ) (now : ℚ) (header : Option (List Char)) :
    0 ≤ retryAfterMs parseDate now header ∧ retryAfterMs parseDate now header ≤ maxPenaltyMs :=
  holdOff_bounded _

end VoiceOrder.RateLimit
