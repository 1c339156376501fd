import VoiceOrder.RateLimit.RateLimiter
import VoiceOrder.Shared.OrderedMap

/-! # One limiter for each quota

Two adapters that point at one account share its quota, and so must share one limiter. The first
call for a quota makes its limiter; the later ones get the same, whatever limits they ask for. -/

namespace VoiceOrder.RateLimit

/-- What a provider meters against. The name is a label, and no part of the identity. -/
structure QuotaKey where
  name : String
  provider : String
  baseUrl : Option String
  apiKey : Option String
  model : Option String
  deriving DecidableEq, Repr

def identityOf (key : QuotaKey) : String :=
  key.provider ++ "|" ++ key.baseUrl.getD "" ++ "|" ++ key.apiKey.getD "" ++ "|" ++ key.model.getD ""

/-- A limiter that was made, or none for the one that all uncapped quotas share. -/
abbrev LimiterRef := Option ℕ

structure LimiterReport where
  /-- The name of the limiter itself. -/
  limiter : String
  callSites : List String
  /-- The limits in force. -/
  limits : RateLimits
  shaped : Bool
  deriving DecidableEq, Repr

/-- What is logged when a later call asks for other limits. -/
structure LimitsConflict where
  limiter : String
  requestedBy : String
  kept : RateLimits
  ignored : RateLimits
  shaped : Bool
  deriving DecidableEq, Repr

structure Entry where
  limiter : LimiterRef
  limits : RateLimits
  callSites : List String
  deriving DecidableEq, Repr

/-- A limiter as it was made. -/
structure Made where
  name : String
  limits : RateLimits
  deriving DecidableEq, Repr

structure RateLimiterRegistry where
  limiters : List (String × Entry)
  made : List Made
  /-- History: the warnings, and what each call was given. -/
  conflicts : List LimitsConflict
  given : List (QuotaKey × LimiterRef)

/-- A call of `get`. -/
structure QuotaCall where
  key : QuotaKey
  limits : RateLimits
  deriving DecidableEq, Repr

def QuotaCall.identity (call : QuotaCall) : String := identityOf call.key

namespace RateLimiterRegistry

def empty : RateLimiterRegistry where
  limiters := []
  made := []
  conflicts := []
  given := []

/-- The name of a limiter; the shared one has its own. -/
def nameOf (registry : RateLimiterRegistry) : LimiterRef → String
  | none => "none"
  | some n => ((registry.made[n]?).map Made.name).getD ""

def get (call : QuotaCall) (registry : RateLimiterRegistry) : RateLimiterRegistry :=
  match OrderedMap.get registry.limiters call.identity with
  | some existing =>
      -- The first writer wins: to configure a live limiter again would strand those who wait.
      { registry with
        limiters := OrderedMap.set registry.limiters call.identity
          { existing with callSites := existing.callSites ++ [call.key.name] }
        conflicts := registry.conflicts ++
          (if existing.limits = call.limits then []
          else [{ limiter := registry.nameOf existing.limiter
                  requestedBy := call.key.name
                  kept := existing.limits
                  ignored := call.limits
                  shaped := hasAnyLimit existing.limits }])
        given := registry.given ++ [(call.key, existing.limiter)] }
  | none =>
      let limiter := if hasAnyLimit call.limits then some registry.made.length else none
      { registry with
        limiters := OrderedMap.set registry.limiters call.identity ⟨limiter, call.limits, [call.key.name]⟩
        made := if hasAnyLimit call.limits then registry.made ++ [⟨call.key.name, call.limits⟩]
          else registry.made
        given := registry.given ++ [(call.key, limiter)] }

/-- The registry after the calls, in order. -/
def after (calls : List QuotaCall) : RateLimiterRegistry :=
  calls.foldl (fun registry call => registry.get call) empty

/-- What the registry resolved, one row for each quota. -/
def describe (registry : RateLimiterRegistry) : List LimiterReport :=
  registry.limiters.map fun (_, entry) =>
    { limiter := registry.nameOf entry.limiter
      callSites := entry.callSites
      limits := entry.limits
      shaped := entry.limiter.isSome }

end RateLimiterRegistry

end VoiceOrder.RateLimit
