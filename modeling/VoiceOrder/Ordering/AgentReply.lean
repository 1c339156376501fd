import VoiceOrder.Ordering.Turns
import VoiceOrder.Shared.Json

/-! # What the agent said

The reply fields are parsed by one function, whether they come bundled with a proposal or as
the JSON that ends a spoken turn. -/

namespace VoiceOrder.Ordering

/-- What the agent said. Without a reply it mentions nothing. -/
structure AgentReply where
  reply : Option String
  language : Option LangCode
  /-- The declared keys, in declared order, before they are verified. -/
  mentionedItems : List String
  deriving DecidableEq, Repr

namespace AgentReply

def trimChars (chars : List Char) : List Char :=
  ((chars.dropWhile isWhiteSpace).reverse.dropWhile isWhiteSpace).reverse

def trim (text : String) : String := String.ofList (trimChars text.toList)

/-- Two or three letters, and after a hyphen or an underscore two to four more. -/
def isLangCode (lang : String) : Bool :=
  let primary := lang.toList.takeWhile Char.isAlpha
  let region? : List Char → Bool
    | [] => true
    | separator :: region =>
        (separator = '-' || separator = '_') && region.all Char.isAlpha &&
          decide (2 ≤ region.length) && decide (region.length ≤ 4)
  decide (2 ≤ primary.length) && decide (primary.length ≤ 3) &&
    region? (lang.toList.dropWhile Char.isAlpha)

/-- Anything off-format is no language. -/
def normalizeLangCode (raw : Option Json) : Option LangCode :=
  let lang := match raw with
    | some (.str text) => trim text
    | _ => ""
  if isLangCode lang then some lang.toLower else none

/-- Entries that are no string, or blank, are dropped. -/
def parseMentionedItemKeys : Option Json → List String
  | some (.arr entries) =>
      entries.filterMap fun
        | .str text => if trim text = "" then none else some (trim text)
        | _ => none
  | _ => []

def parseAgentReply (obj : Json) : AgentReply :=
  let reply := match obj.field "reply" with
    | some (.str text) => if trim text = "" then none else some text
    | _ => none
  match reply with
  | none => { reply := none, language := none, mentionedItems := [] }
  | some reply =>
      { reply := some reply
        language := normalizeLangCode (obj.field "language")
        mentionedItems := parseMentionedItemKeys (obj.field "mentioned_items") }

/-- What stands between the fences of a text that is fenced as a whole. -/
def unfence (text : List Char) : List Char :=
  let fence := ['`', '`', '`']
  if fence.isPrefixOf text && fence.isSuffixOf (text.drop 3) then
    let body := text.drop 3
    let label := (body.take 4).map Char.toLower
    let content := if label = ['j', 's', 'o', 'n'] && fence.isSuffixOf (body.drop 4) then body.drop 4 else body
    trimChars (content.take (content.length - 3))
  else text

/-- From the first opening brace to the last closing one. -/
def outermost (text : List Char) : Option String :=
  let span := ((text.dropWhile (· ≠ '\x7b')).reverse.dropWhile (· ≠ '\x7d')).reverse
  if span = [] then none else some (String.ofList span)

/-- The text that ends a spoken turn. What is no JSON is spoken as it stands; a JSON object is
never read aloud. -/
def parseSpokenReply (parseJson : String → Option Json) (raw : Option String) : AgentReply :=
  match raw.map fun raw => trimChars raw.toList with
  | none | some [] => { reply := none, language := none, mentionedItems := [] }
  | some text =>
      let text := unfence text
      let spoken := { reply := some (String.ofList text), language := none, mentionedItems := [] }
      match outermost text with
      | none => spoken
      | some span => (parseJson span).elim spoken parseAgentReply

/-- A language and mentioned items accompany a reply. -/
theorem parseAgentReply_of_none {obj : Json} (h : (parseAgentReply obj).reply = none) :
    parseAgentReply obj = { reply := none, language := none, mentionedItems := [] } := by
  simp only [parseAgentReply] at h ⊢
  split
  · rfl
  · rename_i hreply
    rw [hreply] at h
    cases h

example : (parseAgentReply (.obj [("language", .str " pt-BR "), ("reply", .str "Oi!"),
    ("mentioned_items", .arr [.str " cola", .num 3, .str "  "])])) =
    { reply := some "Oi!", language := some "pt-br", mentionedItems := ["cola"] } := by
  decide +kernel

end AgentReply

end VoiceOrder.Ordering
