import VoiceOrder.Ordering.AgentReply
import VoiceOrder.Shared.JsonText
import Mathlib.Data.List.TakeWhile

/-! # Wrapped replies

Neither white space nor a fence has braces, so what the reply is looked for in has the same
outermost braces as the text it came in. -/

namespace VoiceOrder.Ordering.AgentReply

variable {text before core after : List Char}

/-! ## The span between the outermost braces -/

def span (text : List Char) : List Char :=
  ((text.dropWhile (· ≠ '\x7b')).reverse.dropWhile (· ≠ '\x7d')).reverse

theorem outermost_eq (text : List Char) :
    outermost text = if span text = [] then none else some (String.ofList (span text)) := rfl

/-- Neither brace occurs. -/
structure Braceless (text : List Char) : Prop where
  noOpen : '\x7b' ∉ text
  noClose : '\x7d' ∉ text

theorem dropWhile_ne_append {brace : Char} (h : brace ∉ before) (rest : List Char) :
    (before ++ rest).dropWhile (· ≠ brace) = rest.dropWhile (· ≠ brace) := by
  refine List.dropWhile_append_of_pos ?_
  intro c hmem
  exact decide_eq_true fun hc => h (hc ▸ hmem)

theorem dropWhile_ne_cons (brace : Char) (rest : List Char) :
    (brace :: rest).dropWhile (· ≠ brace) = brace :: rest :=
  List.dropWhile_cons_of_neg (by simp)

/-- What has no braces around the text moves no end of the span. -/
theorem span_append (hbefore : Braceless before) (hafter : Braceless after) :
    span (before ++ core ++ after) = span core := by
  have hclose : '\x7d' ∉ after.reverse := fun hmem => hafter.noClose (List.mem_reverse.mp hmem)
  have hnone : after.dropWhile (· ≠ '\x7b') = [] := by
    have h := dropWhile_ne_append hafter.noOpen []
    rwa [List.append_nil] at h
  unfold span
  rw [List.append_assoc, dropWhile_ne_append hbefore.noOpen, List.dropWhile_append]
  split
  case isTrue hempty => rw [hnone, List.isEmpty_iff.mp hempty]
  case isFalse => rw [List.reverse_append, dropWhile_ne_append hclose]

/-- What starts and ends with a brace is the whole span, behind no opening brace and in front of
no closing one. -/
theorem span_braces (hbefore : '\x7b' ∉ before) (hafter : '\x7d' ∉ after) :
    span (before ++ ('\x7b' :: core ++ ['\x7d']) ++ after) = '\x7b' :: core ++ ['\x7d'] := by
  have hclose : '\x7d' ∉ after.reverse := fun hmem => hafter (List.mem_reverse.mp hmem)
  unfold span
  rw [List.append_assoc, dropWhile_ne_append hbefore, List.cons_append, List.cons_append,
    dropWhile_ne_cons, ← List.cons_append, ← List.cons_append, List.reverse_append,
    dropWhile_ne_append hclose, List.reverse_append, List.reverse_singleton, List.singleton_append,
    dropWhile_ne_cons, List.reverse_cons, List.reverse_reverse]

theorem length_span_le (text : List Char) : (span text).length ≤ text.length := by
  unfold span
  rw [List.length_reverse]
  refine (List.dropWhile_suffix _).length_le.trans ?_
  rw [List.length_reverse]
  exact (List.dropWhile_suffix _).length_le

/-! ## White space and fences have no braces -/

theorem braceless_of_isWhiteSpace (h : ∀ c ∈ text, isWhiteSpace c = true) : Braceless text where
  noOpen := fun hmem => absurd (h _ hmem) (by decide)
  noClose := fun hmem => absurd (h _ hmem) (by decide)

/-- The text stands in the other one, with nothing but braceless characters around it. -/
def Unwraps (text core : List Char) : Prop :=
  ∃ before after, Braceless before ∧ Braceless after ∧ text = before ++ core ++ after

theorem Unwraps.span_eq (h : Unwraps text core) : span text = span core := by
  obtain ⟨before, after, hbefore, hafter, rfl⟩ := h
  exact span_append hbefore hafter

theorem Braceless.append (hbefore : Braceless before) (hafter : Braceless after) :
    Braceless (before ++ after) where
  noOpen := fun hmem => (List.mem_append.mp hmem).elim hbefore.noOpen hafter.noOpen
  noClose := fun hmem => (List.mem_append.mp hmem).elim hbefore.noClose hafter.noClose

theorem Unwraps.refl (text : List Char) : Unwraps text text :=
  ⟨[], [], ⟨by simp, by simp⟩, ⟨by simp, by simp⟩, by simp⟩

theorem Unwraps.trans {inner : List Char} (h : Unwraps text core) (h' : Unwraps core inner) :
    Unwraps text inner := by
  obtain ⟨before, after, hbefore, hafter, rfl⟩ := h
  obtain ⟨before', after', hbefore', hafter', rfl⟩ := h'
  exact ⟨before ++ before', after' ++ after, hbefore.append hbefore', hafter'.append hafter,
    by simp⟩

theorem unwraps_trimChars (text : List Char) : Unwraps text (trimChars text) := by
  have hspace (text : List Char) : Braceless (text.takeWhile isWhiteSpace) :=
    braceless_of_isWhiteSpace fun _ => List.mem_takeWhile_imp
  let rest := text.dropWhile isWhiteSpace
  refine ⟨text.takeWhile isWhiteSpace, (rest.reverse.takeWhile isWhiteSpace).reverse, hspace text, ?_, ?_⟩
  · refine braceless_of_isWhiteSpace ?_
    intro c hmem
    exact List.mem_takeWhile_imp (List.mem_reverse.mp hmem)
  · have hrest : rest = (rest.reverse.dropWhile isWhiteSpace).reverse ++
        (rest.reverse.takeWhile isWhiteSpace).reverse := by
      rw [← List.reverse_append, List.takeWhile_append_dropWhile, List.reverse_reverse]
    rw [List.append_assoc, trimChars, ← hrest, List.takeWhile_append_dropWhile]

theorem braceless_fence : Braceless ['`', '`', '`'] := ⟨by decide, by decide⟩

theorem braceless_label {label : List Char} (h : label.map Char.toLower = ['j', 's', 'o', 'n']) :
    Braceless label := by
  have hlower {c : Char} (hmem : c ∈ label) : c.toLower ∈ ['j', 's', 'o', 'n'] :=
    h ▸ List.mem_map_of_mem hmem
  exact ⟨fun hmem => absurd (hlower hmem) (by decide), fun hmem => absurd (hlower hmem) (by decide)⟩

/-- What a fence leaves when it is taken from the end. -/
theorem unwraps_closed {content : List Char} (h : ['`', '`', '`'] <:+ content) :
    Unwraps content (content.take (content.length - 3)) := by
  obtain ⟨inner, rfl⟩ := h
  refine ⟨[], ['`', '`', '`'], ⟨by simp, by simp⟩, braceless_fence, ?_⟩
  simp

theorem unwraps_unfence (text : List Char) : Unwraps text (unfence text) := by
  unfold unfence
  dsimp only
  split
  case isTrue hfenced =>
    rw [Bool.and_eq_true, List.isPrefixOf_iff_prefix, List.isSuffixOf_iff_suffix] at hfenced
    obtain ⟨⟨body, rfl⟩, hclosed⟩ := hfenced
    have hopened : Unwraps (['`', '`', '`'] ++ body) body :=
      ⟨['`', '`', '`'], [], braceless_fence, ⟨by simp, by simp⟩, by simp⟩
    have hbody : (['`', '`', '`'] ++ body).drop 3 = body := rfl
    refine hopened.trans ?_
    rw [hbody] at hclosed ⊢
    split
    case isTrue hlabel =>
      rw [Bool.and_eq_true, decide_eq_true_iff, List.isSuffixOf_iff_suffix] at hlabel
      have hlabelled : Unwraps body (body.drop 4) :=
        ⟨body.take 4, [], braceless_label hlabel.1, ⟨by simp, by simp⟩, by simp⟩
      exact (hlabelled.trans (unwraps_closed hlabel.2)).trans (unwraps_trimChars _)
    case isFalse => exact (unwraps_closed hclosed).trans (unwraps_trimChars _)
  case isFalse => exact .refl text

/-! ## What is read -/

variable {parseJson : String → Option Json} {raw inner : String} {value : Json}

/-- The text that the reply is looked for in has the span of the text that came in. -/
theorem outermost_unfence (text : List Char) :
    outermost (unfence (trimChars text)) = outermost text := by
  have hunwraps := (unwraps_trimChars text).trans (unwraps_unfence _)
  rw [outermost_eq, outermost_eq, hunwraps.span_eq]

theorem parseSpokenReply_of_outermost (hspan : outermost raw.toList = some inner)
    (hparse : parseJson inner = some value) :
    parseSpokenReply parseJson (some raw) = parseAgentReply value := by
  rw [← outermost_unfence] at hspan
  simp only [parseSpokenReply, Option.map_some]
  split
  case h_1 hnone => cases hnone
  case h_2 hempty =>
    rw [Option.some.inj hempty] at hspan
    cases hspan
  case h_3 text _ htext =>
    rw [Option.some.inj htext] at hspan
    rw [hspan]
    simp only [hparse, Option.elim_some]

theorem reply_parseAgentReply {reply : String} (h : (parseAgentReply value).reply = some reply) :
    value.field "reply" = some (.str reply) := by
  simp only [parseAgentReply] at h
  split at h
  case h_1 => cases h
  case h_2 reply' hreply =>
    obtain rfl := Option.some.inj h
    split at hreply
    case h_1 text htext =>
      split at hreply
      case isTrue => cases hreply
      case isFalse =>
        obtain rfl := Option.some.inj hreply
        exact htext
    case h_2 => cases hreply

theorem outermost_eq_some_iff :
    outermost text = some inner ↔ span text ≠ [] ∧ inner = String.ofList (span text) := by
  rw [outermost_eq]
  split
  case isTrue hnil => simp [hnil]
  case isFalse hne => simp [hne, eq_comm]

theorem length_outermost_le (h : outermost text = some inner) : inner.length ≤ text.length := by
  rw [(outermost_eq_some_iff.mp h).2, String.length_ofList]
  exact length_span_le text

/-- A reply that is read from an object is shorter than the text it is read from. -/
theorem length_reply_lt {numberOf : List Char → ℚ} {reply : String}
    (hparse : Json.parse numberOf inner = some value)
    (hreply : (parseAgentReply value).reply = some reply) : reply.length < inner.length := by
  have hfield := reply_parseAgentReply hreply
  cases value with
  | obj fields =>
      have hmem := OrderedMap.mem_of_get_ofEntries hfield
      have hwithin := (Json.valueWithin_parse hparse).2 fields rfl _ hmem
      exact Nat.lt_of_lt_of_le (Nat.lt_add_of_pos_right (by decide)) hwithin
  | null | bool | num | str | arr => cases hfield

/-- An object is read as if nothing stood around it, and text that has one is never spoken as it
stands: the reply is the one of the object, if it has one. -/
theorem parseSpokenReply_wrapped (numberOf : List Char → ℚ) (numberText : ℚ → List Char) :
    (∀ (fields : List (String × Json)) (before after : String),
      Json.parse numberOf (Json.stringify numberText (.obj fields)) = some (.obj fields) →
      '\x7b' ∉ before.toList → '\x7d' ∉ after.toList →
      parseSpokenReply (Json.parse numberOf)
          (some (before ++ Json.stringify numberText (.obj fields) ++ after)) =
        parseAgentReply (.obj fields)) ∧
    ∀ (raw inner : String) (value : Json),
      outermost raw.toList = some inner → Json.parse numberOf inner = some value →
      let said := parseSpokenReply (Json.parse numberOf) (some raw)
      (said.reply = none ∨
        ∃ reply, value.field "reply" = some (.str reply) ∧ said.reply = some reply) ∧
      said.reply ≠ some raw ∧
      said.reply ≠ some (String.ofList (unfence (trimChars raw.toList))) ∧
      (said.reply = none → said.language = none ∧ said.mentionedItems = []) := by
  refine ⟨?_, ?_⟩
  · intro fields before after hparse hbefore hafter
    refine parseSpokenReply_of_outermost (outermost_eq_some_iff.mpr ?_) hparse
    have hwrite : Json.write numberText (.obj fields) =
        '\x7b' :: Json.writeFields numberText fields ++ ['\x7d'] := by rw [Json.write]
    rw [String.toList_append, String.toList_append, Json.stringify, String.toList_ofList, hwrite,
      span_braces hbefore hafter]
    exact ⟨List.cons_ne_nil _ _, rfl⟩
  · intro raw inner value hspan hparse
    have hsaid := parseSpokenReply_of_outermost hspan hparse
    have hshorter {reply : String} (hreply : (parseAgentReply value).reply = some reply)
        {text : List Char} (htext : outermost text = some inner) : reply ≠ String.ofList text := by
      rintro rfl
      have hlt := length_reply_lt hparse hreply
      have hle := length_outermost_le htext
      rw [String.length_ofList] at hlt
      omega
    dsimp only
    rw [hsaid]
    refine ⟨?_, ?_, ?_, ?_⟩
    · cases hreply : (parseAgentReply value).reply with
      | none => exact .inl rfl
      | some reply => exact .inr ⟨reply, reply_parseAgentReply hreply, rfl⟩
    · intro hreply
      exact hshorter hreply hspan String.ofList_toList.symm
    · intro hreply
      exact hshorter hreply ((outermost_unfence _).trans hspan) rfl
    · intro hreply
      rw [parseAgentReply_of_none hreply]
      exact ⟨rfl, rfl⟩

/-- Braces, a fence and a newline in the strings of the object are none of its wrapping. -/
theorem parseSpokenReply_wrapped_fenced :
    parseSpokenReply (Json.parse fun _ => 0)
        (some ("Sure\x7d: ```json\n" ++ Json.stringify (fun _ => [])
          (.obj [("language", .str "en"), ("reply", .str "Say \"\x7bmild\x7d\"\n```")]) ++
            "\n``` Enjoy \x7b!")) =
      { reply := some "Say \"\x7bmild\x7d\"\n```"
        language := some "en"
        mentionedItems := [] } := by
  have hparse : Json.parse (fun _ => 0) (Json.stringify (fun _ => [])
      (.obj [("language", .str "en"), ("reply", .str "Say \"\x7bmild\x7d\"\n```")])) =
        some (.obj [("language", .str "en"), ("reply", .str "Say \"\x7bmild\x7d\"\n```")]) := by
    rw [Json.stringify, Json.parse, String.toList_ofList]
    rfl
  rw [(parseSpokenReply_wrapped (fun _ => 0) fun _ => []).1 _ _ _ hparse (by decide) (by decide)]
  decide +kernel

end VoiceOrder.Ordering.AgentReply
