import VoiceOrder.Ordering.OpenAiCompatible
import VoiceOrder.RateLimit.HoldOff
import VoiceOrder.RateLimit.RetryAfter
import VoiceOrder.Shared.Runs
import VoiceOrder.Tts.SegmentText

/-! # A language model behind a limiter

A provider reserves for a call before it sends the request, and closes the lease by what comes
back. The limiter may be shared: between any two steps of a call its timers, the other calls and
its other users go on. -/

namespace VoiceOrder.Llm

open VoiceOrder.Ordering RateLimit Runs

/-- A tool as it is advertised to the model. -/
structure ToolSpec where
  name : String
  description : String
  /-- A JSON schema of its arguments. -/
  parameters : Json
  deriving Repr

def ToolSpec.json (spec : ToolSpec) : Json :=
  .obj [("name", .str spec.name), ("description", .str spec.description), ("parameters", spec.parameters)]

def rawJson (raw : RawToolCall) : Json :=
  .obj ([("id", .str raw.id), ("type", .str raw.type),
    ("function", .obj [("name", .str raw.name), ("arguments", .str raw.arguments)])] ++ raw.providerFields)

def toolCallJson (call : ToolCall) : Json :=
  .obj ([("id", .str call.id), ("name", .str call.name), ("arguments", call.arguments)] ++
    (call.raw.map fun raw => ("raw", rawJson raw)).toList)

/-! ## The estimate of a reservation -/

def charsPerToken : ℕ := 4

/-- The framing that a provider bills on top of the content of a message. -/
def messageEnvelopeTokens : ℕ := 3

/-- The length of a string, in code units. -/
def textLength (text : String) : ℕ := (Tts.codeUnits text).length

def tokensForChars (chars : ℕ) : ℕ := (chars + (charsPerToken - 1)) / charsPerToken

def messageChars (text : JsonText) : AgentMessage → ℕ
  | .system content | .user content => textLength content
  | .assistant content toolCalls =>
      content.elim 0 textLength +
        if toolCalls.isEmpty then 0 else textLength (text.arguments (.arr (toolCalls.map toolCallJson)))
  | .tool toolCallId content => textLength (text.content content) + textLength toolCallId

def estimateMessages (text : JsonText) (messages : List AgentMessage) : ℕ :=
  (messages.map fun message => messageEnvelopeTokens + tokensForChars (messageChars text message)).sum

def estimateTools (text : JsonText) (tools : List ToolSpec) : ℕ :=
  (tools.map fun spec => tokensForChars (textLength (text.arguments spec.json))).sum

/-! ## Calls -/

/-- The two kinds of calls. -/
inductive Request where
  | complete (system user : String)
  | chat (messages : List AgentMessage) (tools : List ToolSpec)
  deriving Repr

structure LlmClientConfig where
  maxOutputTokensEst : Option ℕ
  rateLimitWaitMs : Option ℚ
  deriving DecidableEq, Repr

/-- The input estimate and the assumed output: a completion is charged for both. An unlimited
provider does not even estimate. -/
def reserve (text : JsonText) (config : LlmClientConfig) (shaped : Bool) (request : Request) : ℕ :=
  if shaped then
    let input := match request with
      | .complete system user => estimateMessages text [.system system, .user user]
      | .chat messages tools => estimateMessages text messages + estimateTools text tools
    input + config.maxOutputTokensEst.getD 0
  else 0

/-- Where a call stands: at the acquire, at the API, or settled. -/
inductive CallStage where
  | acquiring
  | sent
  | answered (usage : Option LlmUsage)
  | failed (error : Thrown)
  /-- It never happened. -/
  | refused (error : RateLimitTimeoutError)
  deriving DecidableEq, Repr

structure LlmCall where
  request : Request
  estimate : ℕ
  stage : CallStage

/-- The platform that the providers run on: the texts of JSON values, and `Date.parse`. -/
structure Platform where
  text : JsonText
  parseDate : List Char → Option ℚ

structure LlmProvider where
  config : LlmClientConfig
  limiter : RateLimiter
  calls : CallerId → Option LlmCall

namespace LlmProvider

inductive Action where
  | call (request : Request)
  /-- The acquire of a call has settled. -/
  | acquired (id : CallerId)
  | answered (id : CallerId) (usage : Option CompletionUsage)
  /-- The request threw, with this `Retry-After` header, at this time of the wall clock. -/
  | failed (id : CallerId) (error : Thrown) (header : Option (List Char)) (wallNow : ℚ)
  | limiter (action : RateLimiter.Action)

def create (name : String) (limits : RateLimits) (config : LlmClientConfig) (now : ℚ) : LlmProvider where
  config := config
  limiter := .create name limits now
  calls := fun _ => none

def put (id : CallerId) (call : LlmCall) (provider : LlmProvider) : LlmProvider :=
  { provider with calls := Function.update provider.calls id (some call) }

/-- Reserve once a logical call, outside the retries of the client. -/
def call (platform : Platform) (clock : Clock) (request : Request) (provider : LlmProvider) :
    LlmProvider :=
  let estimate := reserve platform.text provider.config (!provider.limiter.unlimited) request
  let waitMs := provider.config.rateLimitWaitMs.getD defaultWaitMs
  { provider with limiter := provider.limiter.acquire clock ⟨some estimate, some waitMs, none⟩ }.put
    provider.limiter.nextAcquire ⟨request, estimate, .acquiring⟩

/-- A call goes on with its lease; an acquire that failed is thrown. -/
def acquired (id : CallerId) (call : LlmCall) (provider : LlmProvider) : Option LlmProvider :=
  match (provider.limiter.acquires id).map Acquire.stage with
  | some (.leased _ _) | some .noop => some (provider.put id { call with stage := .sent })
  | some (.failed error) => some (provider.put id { call with stage := .refused error })
  | _ => none

/-- How the lease of a call that threw is closed. -/
def failedClosing (error : Thrown) : Closing :=
  if reachedProvider error then .settled none else .abandoned

/-- What a call that threw does to the limiter. A 429 proves the estimate wrong; whether the charge
stands is another question. -/
def onCallFailed (platform : Platform) (clock : Clock) (id : CallerId) (error : Thrown)
    (header : Option (List Char)) (wallNow : ℚ) (limiter : RateLimiter) : RateLimiter :=
  if is429 error then
    (limiter.penalize (clock.after 1) (clock 0 + retryAfterMs platform.parseDate wallNow header)).close
      (clock.after 5) id (failedClosing error)
  else limiter.close clock id (failedClosing error)

/-- The leases of the calls are theirs alone. -/
def foreign (provider : LlmProvider) : RateLimiter.Action → Bool
  | .settle id _ | .abandon id => (provider.calls id).isNone
  | .acquire _ | .resume _ | .penalize _ | .abort _ | .rpmTimer _ | .tpmTimer _ | .permitDeadline _ => true

def step (platform : Platform) (provider : LlmProvider) : Clock × Action → Option LlmProvider
  | (clock, .call request) => some (provider.call platform clock request)
  | (_, .acquired id) =>
      (provider.calls id).bind fun call =>
        if call.stage = .acquiring then provider.acquired id call else none
  | (clock, .answered id usage) =>
      (provider.calls id).bind fun call =>
        if call.stage = .sent then
          let usage : Option LlmUsage := usage.map usageOf
          some ({ provider with
            limiter := provider.limiter.close clock id
              (.settled (usage.map fun usage : LlmUsage => (usage.totalTokens : ℚ))) }.put id
            { call with stage := .answered usage })
        else none
  | (clock, .failed id error header wallNow) =>
      (provider.calls id).bind fun call =>
        if call.stage = .sent then
          some ({ provider with
            limiter := onCallFailed platform clock id error header wallNow provider.limiter }.put id
            { call with stage := .failed error })
        else none
  | (clock, .limiter action) =>
      if provider.foreign action then
        some { provider with limiter := provider.limiter.step clock action }
      else none

end LlmProvider

end VoiceOrder.Llm
