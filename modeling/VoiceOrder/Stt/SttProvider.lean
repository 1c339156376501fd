import VoiceOrder.Shared.Runs
import VoiceOrder.Stt.SessionHistory

/-! # The speech provider and its limiter

The sessions of one provider share its limiter, whose timers and other callers go on in between.
A session has the lease of the acquire that its `openStream` began with. -/

namespace VoiceOrder.Stt

open RateLimit Runs

/-- A call on the lease settles it without a cost; a penalty is measured from now on. -/
def LeaseCall.apply (clock : Clock) (id : CallerId) (limiter : RateLimiter) : LeaseCall → RateLimiter
  | .settle => limiter.close clock id (.settled none)
  | .abandon => limiter.close clock id .abandoned
  | .penalize ms => limiter.penalize (clock.after 1) (clock 0 + ms)

def applyCalls (clock : Clock) (id : CallerId) (leaseCalls : List LeaseCall) (limiter : RateLimiter) :
    RateLimiter :=
  leaseCalls.foldl (LeaseCall.apply clock id) limiter

structure SttProvider where
  limiter : RateLimiter
  /-- The wait budget of a session. -/
  waitMs : ℚ
  sessions : CallerId → Option SttSession

namespace SttProvider

inductive Action where
  | openStream
  /-- The acquire of a session has settled. -/
  | acquired (id : CallerId)
  | session (id : CallerId) (event : Event)
  | limiter (action : RateLimiter.Action)
  deriving DecidableEq, Repr

def create (name : String) (limits : RateLimits) (waitMs now : ℚ) : SttProvider where
  limiter := .create name limits now
  waitMs := waitMs
  sessions := fun _ => none

def put (id : CallerId) (session : SttSession) (provider : SttProvider) : SttProvider :=
  { provider with sessions := Function.update provider.sessions id (some session) }

/-- Reserve before the handshake: the metered event is the creation of a session. -/
def openStream (clock : Clock) (provider : SttProvider) : SttProvider :=
  { provider with limiter := provider.limiter.acquire clock ⟨none, some provider.waitMs, none⟩ }.put
    provider.limiter.nextAcquire .create

/-- `openStream` goes on with its lease; an acquire that failed is thrown. -/
def acquired (id : CallerId) (session : SttSession) (provider : SttProvider) : Option SttProvider :=
  match (provider.limiter.acquires id).map Acquire.stage with
  | some (.leased _ _) | some .noop => some (provider.put id { session with opening := .making })
  | some (.failed error) =>
      let error := StreamingError.ofLimiter error
      some (provider.put id ({ session with opening := .failed error }.log (.failed error)))
  | _ => none

/-- The leases of the sessions are theirs alone. -/
def foreign (provider : SttProvider) : RateLimiter.Action → Bool
  | .settle id _ | .abandon id => (provider.sessions id).isNone
  | .acquire _ | .resume _ | .penalize _ | .abort _ | .rpmTimer _ | .tpmTimer _ | .permitDeadline _ => true

def step (provider : SttProvider) : Clock × Action → Option SttProvider
  | (clock, .openStream) => some (provider.openStream clock)
  | (_, .acquired id) =>
      (provider.sessions id).bind fun session =>
        if session.opening = .acquiring then provider.acquired id session else none
  | (clock, .session id event) =>
      (provider.sessions id).bind fun session =>
        (session.step event).map fun (session, leaseCalls) =>
          { provider with limiter := applyCalls clock id leaseCalls provider.limiter }.put id session
  | (clock, .limiter action) =>
      if provider.foreign action then
        some { provider with limiter := provider.limiter.step clock action }
      else none

end SttProvider

end VoiceOrder.Stt
