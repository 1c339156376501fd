import VoiceOrder.Ordering.AgentTurns

/-! # Only what was searched for is mentioned

The mentions of a reply are the first declared keys that a search of the turn returned, unless a
key is the name of an inherited property, or is searched for again after the reply. -/

namespace VoiceOrder.Ordering.AgentGraph

open VoiceOrder.CartModule VoiceOrder.Backend FirstHits

/-- The item that the searches of the turn returned last under a key. -/
def returned (messages : List AgentMessage) (key : String) : Option MentionedItem :=
  lastFound (found (answered messages)) key

/-- The declared keys that were returned, each once and no more than there is room for. -/
def verified (messages : List AgentMessage) (utterance : Utterance) : List Mentioned :=
  (firstHits maxMentionedItems (returned messages) (distinct utterance.reply.mentionedItems)).map .own

/-- Looking the key up finds a property of `Object.prototype`. -/
def ReadsInherited (utterance : Utterance) (key : String) : Prop :=
  key ∈ PlainObject.inheritedNames ∧ (key = "__proto__" ∨ lastFound utterance.found key = none)

/-- A search of the same batch returned the key, or returned it otherwise, after the reply. -/
def ReturnedLater (messages : List AgentMessage) (utterance : Utterance) (key : String) : Prop :=
  lastFound utterance.found key ≠ returned messages key

/-- No declared key is inherited or returned later, but for those after enough others. -/
def ReadsAsReturned (messages : List AgentMessage) (utterance : Utterance) : Prop :=
  ∀ before key, before ++ [key] <+: distinct utterance.reply.mentionedItems →
    ReadsInherited utterance key ∨ ReturnedLater messages utterance key →
    maxMentionedItems ≤ (before.filterMap (returned messages)).length

section

variable {utterance : Utterance} {messages : List AgentMessage} {items : List CandidateItem} {key : String}
  {parseJson : String → Option Json} {ttsLanguage : LangCode} {e : SttFinalTranscriptReceived}
  {s final : OrderState} {event : OrderReply} {services : Services}

theorem get_keyed : Keyed mentionKey fun key => (searchResults items).get key := by
  intro key mentioned h
  dsimp only at h
  cases hown : (searchResults items).own key with
  | none =>
      rw [PlainObject.get_of_not_own hown] at h
      split at h
      · cases h
        rfl
      · cases h
  | some item =>
      rw [PlainObject.get_of_own hown] at h
      cases h
      rw [searchResults_own] at hown
      split at hown
      · cases hown
      · exact lastFound_key hown

theorem returned_keyed : Keyed mentionKey fun key => (returned messages key).map Property.own := by
  intro key mentioned h
  obtain ⟨item, hitem, rfl⟩ := Option.map_eq_some_iff.mp h
  exact lastFound_key hitem

/-- The lookup goes wrong on just these keys. -/
theorem get_ne_returned_iff :
    (searchResults utterance.found).get key ≠ (returned messages key).map .own ↔
      ReadsInherited utterance key ∨ ReturnedLater messages utterance key := by
  have hown := searchResults_own utterance.found key
  by_cases hproto : key = "__proto__"
  · have hinherited : key ∈ PlainObject.inheritedNames := by
      rw [hproto]
      decide
    rw [if_pos hproto] at hown
    rw [PlainObject.get_of_not_own hown, if_pos hinherited]
    refine iff_of_true ?_ (.inl ⟨hinherited, .inl hproto⟩)
    cases returned messages key <;> simp
  · rw [if_neg hproto] at hown
    cases hfound : lastFound utterance.found key with
    | none =>
        rw [hfound] at hown
        rw [PlainObject.get_of_not_own hown]
        by_cases hinherited : key ∈ PlainObject.inheritedNames
        · rw [if_pos hinherited]
          refine iff_of_true ?_ (.inl ⟨hinherited, .inr hfound⟩)
          cases returned messages key <;> simp
        · rw [if_neg hinherited]
          cases hreturned : returned messages key <;>
            simp [ReadsInherited, ReturnedLater, hinherited, hfound, hreturned]
    | some item =>
        rw [hfound] at hown
        rw [PlainObject.get_of_own hown]
        cases hreturned : returned messages key <;>
          simp [ReadsInherited, ReturnedLater, hproto, hfound, hreturned]

/-- The mentions are the verified items on just these utterances. -/
theorem mentions_eq_verified_iff :
    utterance.mentions = verified messages utterance ↔ ReadsAsReturned messages utterance := by
  have hverified : verified messages utterance = firstHits maxMentionedItems
      (fun key => (returned messages key).map Property.own) (distinct utterance.reply.mentionedItems) := by
    rw [verified, firstHits, firstHits, List.map_take, List.map_filterMap]
  have hcount : ∀ before : List String,
      (before.filterMap fun key => (returned messages key).map Property.own).length =
        (before.filterMap (returned messages)).length := by
    intro before
    rw [← List.map_filterMap, List.length_map]
  rw [hverified, Utterance.mentions, resolveMentionedItems_eq,
    firstHits_eq_iff get_keyed returned_keyed (distinct_nodup _)]
  constructor
  · intro h before key hunder hwrong
    rw [← hcount]
    exact h before key hunder (get_ne_returned_iff.mpr hwrong)
  · intro h before key hunder hne
    rw [hcount]
    exact h before key hunder (get_ne_returned_iff.mp hne)

/-- What is spoken is the reply of the turn, with its items. -/
theorem spoken_reply (h : spoken ttsLanguage e (interpret s) = some event) :
    s.reply = some event.reply ∧ event.mentionedItems.getD [] = s.mentionedItems := by
  have hnonempty : ∀ items : List Mentioned, ((nonempty items).bind nonempty).getD [] = items := by
    intro items
    cases items <;> rfl
  unfold interpret at h
  split at h
  · cases h
  · cases h
  · cases h
  · rename_i hreply
    cases h
    exact ⟨hreply, hnonempty _⟩
  · rename_i hreply
    cases h
    exact ⟨hreply, hnonempty _⟩
  · cases h

/-- The reply of a turn is what the agent uttered last. -/
theorem ended_uttered (h : Ended parseJson s) {reply : String} (hreply : s.reply = some reply) :
    ∃ utterance, uttered parseJson s.agentMessages = some utterance ∧
      utterance.reply.reply = some reply ∧ s.mentionedItems = utterance.mentions := by
  cases h with
  | silent _ hnone _ => cases hnone.symm.trans hreply
  | spoke utterance _ _ huttered hsaid _ hmentioned =>
      exact ⟨utterance, huttered, hsaid.symm.trans hreply, hmentioned⟩
  | proposed last _ _ _ _ huttered hsaid _ hmentioned =>
      rw [hreply] at hsaid
      cases hlast : (replying (proposals s)).getLast? with
      | none =>
          rw [hlast] at hsaid
          cases hsaid
      | some call =>
          rw [hlast] at hsaid huttered hmentioned
          exact ⟨call.toUtterance, huttered, hsaid.symm, hmentioned⟩

/-- In every turn that speaks, whatever keys the agent declared and whatever the channels held
before, the emitted items are the verified ones if and only if the keys read as returned. -/
theorem mentions_verified_iff (h : invoke services e s = .ok final)
    (hspoken : spoken ttsLanguage e (interpret final) = some event) :
    ∃ utterance, uttered services.platform.parseJson final.agentMessages = some utterance ∧
      utterance.reply.reply = some event.reply ∧
      (event.mentionedItems.getD [] = verified final.agentMessages utterance ↔
        ReadsAsReturned final.agentMessages utterance) := by
  obtain ⟨hreply, hmentioned⟩ := spoken_reply hspoken
  obtain ⟨utterance, huttered, hsaid, hmentions⟩ := ended_uttered (invoke_ended h) hreply
  refine ⟨utterance, huttered, hsaid, ?_⟩
  rw [hmentioned, hmentions]
  exact mentions_eq_verified_iff

end

/-! ## A turn -/

def burger : CandidateItem where
  menuItemKey := "chicken_burger"
  productTmplId := 10
  name := "Chicken Burger"
  names := some [("en_US", "Chicken Burger")]
  matchedText := none
  score := none
  basePriceCents := 500
  availableModifiers := []
  popularity := none

/-- A restaurant that finds one item, and an agent that follows a script. -/
def scripted (parseJson : String → Option Json) (chat : ℕ → ChatResult) : Services where
  platform := { parseJson, searchArgsError := fun _ => "", outputError := fun _ => "" }
  prompts := { system := "", user := fun text _ _ => text }
  classifyIntent := fun _ => .service
  getCart := fun _ => .ok none
  nowIso := "2026-01-01T00:00:00.000Z"
  cartMenu :=
    { resolveItemKey := fun _ _ => .ok none
      findByTmplId := fun _ _ => .ok none
      getItems := fun _ _ => .ok [] }
  chat := fun step _ => .ok (chat step)
  menu := fun _ _ =>
    { resolveItemKey := fun _ _ => .ok none
      findByTmplId := fun _ _ => .ok none
      getItems := fun _ _ => .ok []
      searchMenu := fun _ _ => .ok [burger] }

/-- The agent searches once and then speaks. -/
def searchThenSpeak (text : String) : ℕ → ChatResult
  | 1 =>
      { text := none
        toolCalls :=
          [{ id := "call_1", name := "search_menu", arguments := .obj [("query", .str "burger")] }] }
  | _ => { text := some text, toolCalls := [] }

/-- The channels of a conversation that has just begun. -/
def begun : OrderState where
  requestId := ""
  sessionId := ""
  cartId := ""
  posConfigId := 0
  customerText := ""
  intent := .service
  cartView := none
  baseVersion := 0
  history := []
  output := none
  reply := none
  replyLanguage := none
  agentMessages := []
  agentSteps := 0
  searchResults := .empty
  mentionedItems := []
  failureReason := none

def question : SttFinalTranscriptReceived where
  requestId := "turn_1"
  sessionId := "voice_session_1"
  cartId := "cart_1"
  posConfigId := 7
  text := "do you have burgers"

/-- A reply that mentions the keys, as the agent writes it. -/
def replyText (keys : List String) : String :=
  "\x7b\"reply\":\"We have a chicken burger.\",\"mentioned_items\":[" ++
    ",".intercalate (keys.map fun key => "\"" ++ key ++ "\"") ++ "]\x7d"

def parseReply (keys : List String) (text : String) : Option Json :=
  if text = replyText keys then
    some (.obj [("reply", .str "We have a chicken burger."), ("mentioned_items", .arr (keys.map .str))])
  else none

theorem exists_ok {α : Type} {ran : Except Failure α} {p : α → Bool}
    (h : (match ran with | .ok last => p last | .error _ => false) = true) :
    ∃ last, ran = .ok last ∧ p last = true := by
  cases ran with
  | error failure => cases h
  | ok last => exact ⟨last, rfl, h⟩

/-- The reply names the item that was found. -/
theorem mentions_verified_iff_burger :
    ∃ final event utterance,
      invoke (scripted (parseReply ["chicken_burger"]) (searchThenSpeak (replyText ["chicken_burger"])))
        question begun = .ok final ∧
      spoken "en" question (interpret final) = some event ∧
      event.mentionedItems = some [.own (toMentionedItem burger)] ∧
      (event.mentionedItems.getD [] = verified final.agentMessages utterance ↔
        ReadsAsReturned final.agentMessages utterance) := by
  have hturn : ∃ final, invoke (scripted (parseReply ["chicken_burger"])
      (searchThenSpeak (replyText ["chicken_burger"]))) question begun = .ok final ∧
      ((spoken "en" question (interpret final)).any fun event =>
        event.mentionedItems = some [.own (toMentionedItem burger)]) = true :=
    exists_ok (by decide +kernel)
  obtain ⟨final, hinvoke, hany⟩ := hturn
  obtain ⟨event, hspoken, hmentioned⟩ := (Option.any_eq_true _ _).mp hany
  obtain ⟨utterance, -, -, hiff⟩ := mentions_verified_iff hinvoke hspoken
  exact ⟨final, event, utterance, hinvoke, hspoken, of_decide_eq_true hmentioned, hiff⟩

/-- The reply declares `toString` as well, and what every object inherits under that name is
emitted as its first item. -/
theorem mentions_toString :
    ∃ final event utterance,
      invoke (scripted (parseReply ["toString", "chicken_burger"])
        (searchThenSpeak (replyText ["toString", "chicken_burger"]))) question begun = .ok final ∧
      spoken "en" question (interpret final) = some event ∧
      uttered (parseReply ["toString", "chicken_burger"]) final.agentMessages = some utterance ∧
      event.mentionedItems = some [.inherited "toString", .own (toMentionedItem burger)] ∧
      verified final.agentMessages utterance = [.own (toMentionedItem burger)] ∧
      event.mentionedItems.getD [] ≠ verified final.agentMessages utterance := by
  have hturn : ∃ final, invoke (scripted (parseReply ["toString", "chicken_burger"])
      (searchThenSpeak (replyText ["toString", "chicken_burger"]))) question begun = .ok final ∧
      ((spoken "en" question (interpret final)).any fun event =>
        (uttered (parseReply ["toString", "chicken_burger"]) final.agentMessages).any fun utterance =>
          event.mentionedItems = some [.inherited "toString", .own (toMentionedItem burger)] ∧
          verified final.agentMessages utterance = [.own (toMentionedItem burger)] ∧
          event.mentionedItems.getD [] ≠ verified final.agentMessages utterance) = true :=
    exists_ok (by decide +kernel)
  obtain ⟨final, hinvoke, hany⟩ := hturn
  obtain ⟨event, hspoken, hany⟩ := (Option.any_eq_true _ _).mp hany
  obtain ⟨utterance, huttered, hheld⟩ := (Option.any_eq_true _ _).mp hany
  exact ⟨final, event, utterance, hinvoke, hspoken, huttered, of_decide_eq_true hheld⟩

end VoiceOrder.Ordering.AgentGraph
