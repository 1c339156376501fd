import VoiceOrder.Ordering.AgentGraph

/-! # The provider's wire format

The transcript maps message by message to the format of the OpenAI API, and the tool calls of a
response map back. A call is replayed from its original payload, since some providers require
fields that only they know. -/

namespace VoiceOrder.Ordering

/-- The text that JSON values have in messages. -/
structure JsonText where
  arguments : Json → String
  content : ToolContent → String

inductive OpenAiMessage where
  | system (content : String)
  | user (content : String)
  /-- Either field is left out where it would be empty. -/
  | assistant (content : Option String) (tool_calls : Option (List RawToolCall))
  | tool (tool_call_id : String) (content : String)
  deriving Repr

/-- Replay the call from its original payload, or rebuild it. -/
def toOpenAiToolCall (text : JsonText) (call : ToolCall) : RawToolCall :=
  match call.raw with
  | some raw => raw
  | none =>
      { id := call.id
        type := "function"
        name := call.name
        arguments := text.arguments call.arguments
        providerFields := [] }

def toOpenAiMessage (text : JsonText) : AgentMessage → OpenAiMessage
  | .system content => .system content
  | .user content => .user content
  | .tool toolCallId content => .tool toolCallId (text.content content)
  | .assistant content toolCalls =>
      .assistant content
        (if toolCalls.isEmpty then none else some (toolCalls.map (toOpenAiToolCall text)))

structure CompletionMessage where
  content : Option String
  tool_calls : Option (List RawToolCall)
  deriving Repr

structure CompletionUsage where
  prompt_tokens : Option ℕ
  completion_tokens : Option ℕ
  total_tokens : Option ℕ
  /-- Where the standard keeps the cache detail. -/
  cached_tokens : Option ℕ
  /-- Where some endpoints keep it. -/
  total_cached_tokens : Option ℕ
  deriving DecidableEq, Repr

/-- A response, with the message of its first choice. -/
structure Completion where
  message : Option CompletionMessage
  usage : Option CompletionUsage
  deriving Repr

def usageOf (usage : CompletionUsage) : LlmUsage where
  promptTokens := usage.prompt_tokens.getD 0
  completionTokens := usage.completion_tokens.getD 0
  totalTokens := usage.total_tokens.getD 0
  cachedTokens := usage.cached_tokens.or usage.total_cached_tokens

/-- Decode one tool call. Malformed arguments become an empty object. -/
def parseToolCall (parseJson : String → Option Json) (call : RawToolCall) : ToolCall where
  id := call.id
  name := call.name
  arguments :=
    (parseJson (if call.arguments = "" then "\x7b\x7d" else call.arguments)).getD (.obj [])
  raw := some call

/-- What a chat goes through: the rate limiter admits it, and the API answers it. The `n`-th
chat of a turn may be treated otherwise than an earlier one. -/
structure OpenAiClient where
  acquire : ℕ → List AgentMessage → Except Failure Unit
  create : ℕ → List OpenAiMessage → Except Failure Completion

/-- A tool-calling chat. A limiter rejection means that the call never happened. -/
def OpenAiClient.chat (client : OpenAiClient) (parseJson : String → Option Json) (text : JsonText)
    (n : ℕ) (messages : List AgentMessage) : Except Failure ChatResult := do
  client.acquire n messages
  let res ← client.create n (messages.map (toOpenAiMessage text))
  let toolCalls := (res.message.bind CompletionMessage.tool_calls).getD []
  pure
    { text := (res.message.bind CompletionMessage.content).filter fun content => content ≠ ""
      toolCalls :=
        (toolCalls.filter fun call => call.type = "function").map (parseToolCall parseJson)
      usage := res.usage.map usageOf }

/-- The services of a turn whose agent speaks to such a provider. -/
def Services.through (services : Services) (text : JsonText) (client : OpenAiClient) : Services :=
  { services with chat := client.chat services.platform.parseJson text }

/-- The payload of a call names it. -/
def ToolCall.Replayable (call : ToolCall) : Prop := ∀ raw ∈ call.raw, raw.id = call.id

theorem ToolCall.Replayable.id {call : ToolCall} (h : call.Replayable) (text : JsonText) :
    (toOpenAiToolCall text call).id = call.id := by
  unfold toOpenAiToolCall
  split
  case h_1 raw hraw => exact h raw hraw
  case h_2 => rfl

/-- Every call that the provider returns keeps its own payload. -/
theorem OpenAiClient.chat_replayable {client : OpenAiClient} {parseJson : String → Option Json}
    {text : JsonText} {n : ℕ} {messages : List AgentMessage} {res : ChatResult}
    (h : client.chat parseJson text n messages = .ok res) :
    ∀ call ∈ res.toolCalls, call.Replayable := by
  obtain ⟨_, -, h⟩ := bind_ok h
  obtain ⟨completion, -, h⟩ := bind_ok h
  cases h
  intro call hcall raw hraw
  obtain ⟨payload, -, rfl⟩ := List.mem_map.mp hcall
  cases hraw
  rfl

end VoiceOrder.Ordering
