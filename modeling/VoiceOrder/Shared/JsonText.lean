import VoiceOrder.Shared.Json
import VoiceOrder.Shared.Runs

/-! # JSON texts

A text is cut into tokens character by character, and the tokens are read one by one into a value,
with what is still open on a stack. How a number is written and how a numeral is rounded are left
open. -/

namespace Json

/-! ## Writing -/

/-- A character of a string, between its quotes. -/
def quoteChar (c : Char) : List Char :=
  if c = '"' then ['\\', '"']
  else if c = '\\' then ['\\', '\\']
  else if c = '\n' then ['\\', 'n']
  else if c = '\r' then ['\\', 'r']
  else if c = '\t' then ['\\', 't']
  else if c.toNat = 8 then ['\\', 'b']
  else if c.toNat = 12 then ['\\', 'f']
  else if c.toNat < 32 then
    ['\\', 'u', '0', '0', Nat.digitChar (c.toNat / 16), Nat.digitChar (c.toNat % 16)]
  else [c]

def quote (text : String) : List Char := '"' :: text.toList.flatMap quoteChar ++ ['"']

section

variable (numberText : ℚ → List Char)

mutual

def write : Json → List Char
  | .null => "null".toList
  | .bool true => "true".toList
  | .bool false => "false".toList
  | .num value => numberText value
  | .str value => quote value
  | .arr elements => '[' :: writeElements elements ++ [']']
  | .obj fields => '\x7b' :: writeFields fields ++ ['\x7d']

def writeElements : List Json → List Char
  | [] => []
  | [value] => write value
  | value :: rest => write value ++ ',' :: writeElements rest

def writeFields : List (String × Json) → List Char
  | [] => []
  | [(key, value)] => quote key ++ ':' :: write value
  | (key, value) :: rest => quote key ++ ':' :: write value ++ ',' :: writeFields rest

end

/-- The text of a value, without white space. -/
def stringify (value : Json) : String := String.ofList (write numberText value)

end

/-! ## Tokens -/

inductive Token where
  | leftBracket
  | rightBracket
  | leftBrace
  | rightBrace
  | colon
  | comma
  /-- A string, a numeral or one of the names. -/
  | value (value : Json)

def punctuation : Char → Option Token
  | '[' => some .leftBracket
  | ']' => some .rightBracket
  | '\x7b' => some .leftBrace
  | '\x7d' => some .rightBrace
  | ':' => some .colon
  | ',' => some .comma
  | _ => none

def isBlank (c : Char) : Bool := c = ' ' || c = '\t' || c = '\n' || c = '\r'

def isInteger : List Char → Bool
  | [] => false
  | ['0'] => true
  | '0' :: _ => false
  | _ => true

def afterFraction : List Char → Option (List Char)
  | '.' :: rest =>
      if rest.takeWhile Char.isDigit = [] then none else some (rest.dropWhile Char.isDigit)
  | rest => some rest

def isExponent : List Char → Bool
  | [] => true
  | e :: rest =>
      let digits := match rest with
        | '+' :: digits => digits
        | '-' :: digits => digits
        | digits => digits
      (e = 'e' || e = 'E') && !digits.isEmpty && digits.all Char.isDigit

def isNumeral (word : List Char) : Bool :=
  let unsigned := match word with
    | '-' :: rest => rest
    | rest => rest
  isInteger (unsigned.takeWhile Char.isDigit) &&
    (afterFraction (unsigned.dropWhile Char.isDigit)).any isExponent

/-- A name or a numeral. -/
def literal (numberOf : List Char → ℚ) (word : List Char) : Option Json :=
  if word = "null".toList then some .null
  else if word = "true".toList then some (.bool true)
  else if word = "false".toList then some (.bool false)
  else if isNumeral word then some (.num (numberOf word))
  else none

def hexValue (c : Char) : Option ℕ :=
  if c.isDigit then some (c.toNat - '0'.toNat)
  else if 'a' ≤ c ∧ c ≤ 'f' then some (c.toNat - 'a'.toNat + 10)
  else if 'A' ≤ c ∧ c ≤ 'F' then some (c.toNat - 'A'.toNat + 10)
  else none

/-- The code unit with the four digits. -/
def hexUnit (a b c d : Char) : Option ℕ :=
  [a, b, c, d].foldlM (fun unit digit => (hexValue digit).map (unit * 16 + ·)) 0

/-- What a backslash in front of a character stands for. -/
def escaped : Char → Option Char
  | '"' => some '"'
  | '\\' => some '\\'
  | '/' => some '/'
  | 'b' => some (Char.ofNat 8)
  | 'f' => some (Char.ofNat 12)
  | 'n' => some '\n'
  | 'r' => some '\r'
  | 't' => some '\t'
  | _ => none

/-- A first half of a surrogate pair that no second half follows: no character, so it is replaced,
as it is where text is encoded. -/
def unpaired (lead : Option ℕ) : List Char := lead.elim [] fun _ => [Char.ofNat 0xFFFD]

def paired (lead : Option ℕ) (trail : ℕ) : Char :=
  match lead with
  | some lead => Char.ofNat (0x10000 + (lead - 0xD800) * 0x400 + (trail - 0xDC00))
  | none => Char.ofNat 0xFFFD

/-- The string between two quotes; `lead` is the first half of a surrogate pair just read. -/
def unescape (lead : Option ℕ) : List Char → Option (List Char)
  | [] => some (unpaired lead)
  | '\\' :: 'u' :: a :: b :: c :: d :: rest =>
      (hexUnit a b c d).bind fun unit =>
        if 0xD800 ≤ unit ∧ unit < 0xDC00 then
          (unescape (some unit) rest).map fun text => unpaired lead ++ text
        else if 0xDC00 ≤ unit ∧ unit < 0xE000 then
          (unescape none rest).map fun text => paired lead unit :: text
        else (unescape none rest).map fun text => unpaired lead ++ Char.ofNat unit :: text
  | ['\\'] => none
  | '\\' :: c :: rest =>
      (escaped c).bind fun c => (unescape none rest).map fun text => unpaired lead ++ c :: text
  | c :: rest =>
      if c.toNat < 32 then none
      else (unescape none rest).map fun text => unpaired lead ++ c :: text

inductive Mode where
  | between
  | word (read : List Char)
  /-- In a string; `afterBackslash` says that the next character is escaped. -/
  | string (read : List Char) (afterBackslash : Bool)

structure Lexer where
  tokens : List Token
  mode : Mode

namespace Lexer

def start : Lexer := { tokens := [], mode := .between }

def emit (s : Lexer) (token : Token) : Lexer := { tokens := s.tokens ++ [token], mode := .between }

def between (s : Lexer) (c : Char) : Lexer :=
  if isBlank c then { s with mode := .between }
  else if c = '"' then { s with mode := .string [] false }
  else match punctuation c with
    | some token => s.emit token
    | none => { s with mode := .word [c] }

def step (numberOf : List Char → ℚ) (s : Lexer) (c : Char) : Option Lexer :=
  match s.mode with
  | .between => some (s.between c)
  | .word read =>
      if c = '"' then none
      else if isBlank c || (punctuation c).isSome then
        (literal numberOf read).map fun value => (s.emit (.value value)).between c
      else some { s with mode := .word (read ++ [c]) }
  | .string read true => some { s with mode := .string (read ++ [c]) false }
  | .string read false =>
      if c = '"' then
        (unescape none read).map fun text => s.emit (.value (.str (String.ofList text)))
      else some { s with mode := .string (read ++ [c]) (c = '\\') }

/-- The tokens at the end of the text. -/
def finish (numberOf : List Char → ℚ) (s : Lexer) : Option (List Token) :=
  match s.mode with
  | .between => some s.tokens
  | .word read => (literal numberOf read).map fun value => s.tokens ++ [.value value]
  | .string _ _ => none

end Lexer

/-! ## Reading -/

/-- An array or an object that is still open, and what it has so far. -/
inductive Frame where
  | arr (elements : List Json)
  | obj (fields : List (String × Json)) (key : String)

/-- What may come next, under what is still open. -/
inductive Reader where
  | awaitValue (stack : List Frame)
  | openArray (stack : List Frame)
  | openObject (stack : List Frame)
  | awaitKey (fields : List (String × Json)) (stack : List Frame)
  | awaitColon (fields : List (String × Json)) (key : String) (stack : List Frame)
  | complete (value : Json) (stack : List Frame)

namespace Reader

def readValue (stack : List Frame) : Token → Option Reader
  | .leftBracket => some (.openArray stack)
  | .leftBrace => some (.openObject stack)
  | .value value => some (.complete value stack)
  | _ => none

def readKey (fields : List (String × Json)) (stack : List Frame) : Token → Option Reader
  | .value (.str key) => some (.awaitColon fields key stack)
  | _ => none

/-- A comma or a closing bracket after an element of an array. -/
def afterElement (elements : List Json) (stack : List Frame) : Token → Option Reader
  | .comma => some (.awaitValue (.arr elements :: stack))
  | .rightBracket => some (.complete (.arr elements) stack)
  | _ => none

/-- A comma or a closing brace after a field of an object. -/
def afterField (fields : List (String × Json)) (stack : List Frame) : Token → Option Reader
  | .comma => some (.awaitKey fields stack)
  | .rightBrace => some (.complete (.obj fields) stack)
  | _ => none

def step : Reader → Token → Option Reader
  | .awaitValue stack, token => readValue stack token
  | .openArray stack, .rightBracket => some (.complete (.arr []) stack)
  | .openArray stack, token => readValue (.arr [] :: stack) token
  | .openObject stack, .rightBrace => some (.complete (.obj []) stack)
  | .openObject stack, token => readKey [] stack token
  | .awaitKey fields stack, token => readKey fields stack token
  | .awaitColon fields key stack, .colon => some (.awaitValue (.obj fields key :: stack))
  | .awaitColon _ _ _, _ => none
  | .complete _ [], _ => none
  | .complete value (.arr elements :: stack), token =>
      afterElement (elements ++ [value]) stack token
  | .complete value (.obj fields key :: stack), token =>
      afterField (fields ++ [(key, value)]) stack token

/-- The value, where nothing is open at the end. -/
def finish : Reader → Option Json
  | .complete value [] => some value
  | _ => none

end Reader

/-- Read a whole text, which is refused where it is no JSON. -/
def parse (numberOf : List Char → ℚ) (text : String) : Option Json :=
  (Runs.exec (Lexer.step numberOf) Lexer.start text.toList).bind fun lexer =>
    (lexer.finish numberOf).bind fun tokens =>
      (Runs.exec Reader.step (.awaitValue []) tokens).bind Reader.finish

example : (parse (fun _ => 0) "\x7b\"a\": [true, \"\\u00e9\\n\", \x7b\x7d]\x7d").map
    (stringify fun _ => []) = some "\x7b\"a\":[true,\"é\\n\",\x7b\x7d]\x7d" := by
  decide +kernel

/-! ## Strings are shorter than the text they are read from -/

variable {numberOf : List Char → ℚ} {n : ℕ}

/-- A string, with the quotes around it, has room in so many characters. -/
def StringWithin (n : ℕ) : Json → Prop
  | .str text => text.length + 2 ≤ n
  | _ => True

def FieldsWithin (n : ℕ) (fields : List (String × Json)) : Prop :=
  ∀ entry ∈ fields, StringWithin n entry.2

def ValueWithin (n : ℕ) (value : Json) : Prop :=
  StringWithin n value ∧ ∀ fields, value = .obj fields → FieldsWithin n fields

theorem StringWithin.mono {m : ℕ} {value : Json} (h : StringWithin n value) (hle : n ≤ m) :
    StringWithin m value := by
  cases value with
  | str text => exact le_trans h hle
  | _ => trivial

theorem ValueWithin.mono {m : ℕ} {value : Json} (h : ValueWithin n value) (hle : n ≤ m) :
    ValueWithin m value :=
  ⟨h.1.mono hle, fun fields hobj entry hmem => (h.2 fields hobj entry hmem).mono hle⟩

theorem length_unpaired_le (lead : Option ℕ) : (unpaired lead).length ≤ 1 := by
  cases lead <;> simp [unpaired]

@[simp] theorem length_unpaired_none : (unpaired none).length = 0 := rfl

theorem length_unescape {lead : Option ℕ} {read text : List Char}
    (h : unescape lead read = some text) : text.length ≤ read.length + (unpaired lead).length := by
  fun_induction unescape lead read generalizing text with
  | case1 lead =>
      obtain rfl := Option.some.inj h
      exact Nat.le_add_left _ _
  | case2 lead a b c d rest ihlead ih =>
      obtain ⟨unit, -, h⟩ := Option.bind_eq_some_iff.mp h
      simp only [List.length_cons]
      split at h
      case isTrue =>
        obtain ⟨text, htext, rfl⟩ := Option.map_eq_some_iff.mp h
        have hle := ihlead unit htext
        have hone := length_unpaired_le (some unit)
        rw [List.length_append]
        omega
      case isFalse =>
        split at h
        case isTrue =>
          obtain ⟨text, htext, rfl⟩ := Option.map_eq_some_iff.mp h
          have hle := ih htext
          rw [length_unpaired_none] at hle
          rw [List.length_cons]
          omega
        case isFalse =>
          obtain ⟨text, htext, rfl⟩ := Option.map_eq_some_iff.mp h
          have hle := ih htext
          rw [length_unpaired_none] at hle
          rw [List.length_append, List.length_cons]
          omega
  | case3 lead => cases h
  | case4 lead c rest _ ih =>
      obtain ⟨c, -, h⟩ := Option.bind_eq_some_iff.mp h
      obtain ⟨text, htext, rfl⟩ := Option.map_eq_some_iff.mp h
      have hle := ih htext
      rw [length_unpaired_none] at hle
      simp only [List.length_append, List.length_cons]
      omega
  | case5 lead c rest => cases h
  | case6 lead c rest _ _ _ _ ih =>
      obtain ⟨text, htext, rfl⟩ := Option.map_eq_some_iff.mp h
      have hle := ih htext
      rw [length_unpaired_none] at hle
      simp only [List.length_append, List.length_cons]
      omega

theorem valueWithin_str {text : String} (h : text.length + 2 ≤ n) : ValueWithin n (.str text) :=
  ⟨h, fun _ hobj => nomatch hobj⟩

theorem valueWithin_arr (elements : List Json) : ValueWithin n (.arr elements) :=
  ⟨trivial, fun _ hobj => nomatch hobj⟩

theorem valueWithin_obj {fields : List (String × Json)} (h : FieldsWithin n fields) :
    ValueWithin n (.obj fields) := by
  refine ⟨trivial, ?_⟩
  rintro _ ⟨⟩
  exact h

/-- A name or a numeral is no string. -/
theorem valueWithin_literal {word : List Char} {value : Json}
    (h : literal numberOf word = some value) (n : ℕ) : ValueWithin n value := by
  unfold literal at h
  split_ifs at h
  all_goals
    obtain rfl := Option.some.inj h
    exact ⟨trivial, fun _ hobj => nomatch hobj⟩

def TokensWithin (n : ℕ) (tokens : List Token) : Prop :=
  ∀ value, .value value ∈ tokens → ValueWithin n value

theorem TokensWithin.mono {m : ℕ} {tokens : List Token} (h : TokensWithin n tokens) (hle : n ≤ m) :
    TokensWithin m tokens := fun value hmem => (h value hmem).mono hle

theorem TokensWithin.concat {tokens : List Token} {token : Token} (h : TokensWithin n tokens)
    (htoken : ∀ value, token = .value value → ValueWithin n value) :
    TokensWithin n (tokens ++ [token]) := by
  intro value hmem
  rcases List.mem_append.mp hmem with hmem | hmem
  · exact h value hmem
  · exact htoken value (List.mem_singleton.mp hmem).symm

/-- The strings of the tokens, and the one being read, have room in what is taken so far. -/
structure Lexer.Within (taken : List Char) (s : Lexer) : Prop where
  tokens : TokensWithin taken.length s.tokens
  reading : ∀ read afterBackslash, s.mode = .string read afterBackslash →
    read.length + 1 ≤ taken.length

namespace Lexer.Within

variable {taken : List Char} {s next : Lexer} {c : Char}

theorem start : Within [] Lexer.start where
  tokens := fun _ hmem => nomatch hmem
  reading := fun _ _ hmode => nomatch hmode

theorem emit {token : Token} (h : TokensWithin taken.length s.tokens)
    (htoken : ∀ value, token = .value value → ValueWithin taken.length value) :
    Within taken (s.emit token) where
  tokens := h.concat htoken
  reading := fun _ _ hmode => nomatch hmode

theorem between (h : TokensWithin taken.length s.tokens) :
    Within (taken ++ [c]) (s.between c) := by
  have htokens : TokensWithin (taken ++ [c]).length s.tokens := h.mono (by simp)
  unfold Lexer.between
  split
  · exact ⟨htokens, fun _ _ hmode => nomatch hmode⟩
  · split
    · refine ⟨htokens, ?_⟩
      intro read afterBackslash hmode
      cases hmode
      simp
    · split
      case h_1 token hpunctuation =>
        refine emit htokens ?_
        rintro value rfl
        unfold punctuation at hpunctuation
        split at hpunctuation <;> cases hpunctuation
      case h_2 => exact ⟨htokens, fun _ _ hmode => nomatch hmode⟩

theorem step (h : Within taken s) (hstep : Lexer.step numberOf s c = some next) :
    Within (taken ++ [c]) next := by
  have hlength : (taken ++ [c]).length = taken.length + 1 := List.length_append
  have htokens : TokensWithin (taken ++ [c]).length s.tokens := h.tokens.mono (by omega)
  unfold Lexer.step at hstep
  split at hstep
  case h_1 =>
    obtain rfl := Option.some.inj hstep
    exact between h.tokens
  case h_2 read hmode =>
    split_ifs at hstep
    · obtain ⟨value, hvalue, rfl⟩ := Option.map_eq_some_iff.mp hstep
      refine between (h.tokens.concat ?_)
      rintro _ ⟨⟩
      exact valueWithin_literal hvalue _
    · obtain rfl := Option.some.inj hstep
      exact ⟨htokens, fun _ _ hmode => nomatch hmode⟩
  case h_3 read hmode =>
    obtain rfl := Option.some.inj hstep
    refine ⟨htokens, ?_⟩
    intro read' afterBackslash hmode'
    cases hmode'
    have hread := h.reading _ _ hmode
    rw [List.length_append, List.length_singleton]
    omega
  case h_4 read hmode =>
    have hread := h.reading _ _ hmode
    split at hstep
    case isTrue =>
      obtain ⟨text, htext, rfl⟩ := Option.map_eq_some_iff.mp hstep
      refine emit htokens ?_
      rintro _ ⟨⟩
      have hle := length_unescape htext
      rw [length_unpaired_none] at hle
      refine valueWithin_str ?_
      rw [String.length_ofList]
      omega
    case isFalse =>
      obtain rfl := Option.some.inj hstep
      refine ⟨htokens, ?_⟩
      intro read' afterBackslash hmode'
      cases hmode'
      rw [List.length_append, List.length_singleton]
      omega

theorem finish {tokens : List Token} (h : Within taken s)
    (hfinish : Lexer.finish numberOf s = some tokens) : TokensWithin taken.length tokens := by
  unfold Lexer.finish at hfinish
  split at hfinish
  case h_1 =>
    obtain rfl := Option.some.inj hfinish
    exact h.tokens
  case h_2 read _ =>
    obtain ⟨last, hlast, rfl⟩ := Option.map_eq_some_iff.mp hfinish
    refine h.tokens.concat ?_
    rintro _ ⟨⟩
    exact valueWithin_literal hlast _
  case h_3 => cases hfinish

end Lexer.Within

def Frame.Within (n : ℕ) : Frame → Prop
  | .arr _ => True
  | .obj fields _ => FieldsWithin n fields

/-- The fields that are strings, of what is read and of what is still open, have room. -/
def Reader.Within (n : ℕ) : Reader → Prop
  | .awaitValue stack | .openArray stack | .openObject stack => ∀ frame ∈ stack, frame.Within n
  | .awaitKey fields stack | .awaitColon fields _ stack =>
      FieldsWithin n fields ∧ ∀ frame ∈ stack, frame.Within n
  | .complete value stack => ValueWithin n value ∧ ∀ frame ∈ stack, frame.Within n

theorem fieldsWithin_nil : FieldsWithin n [] := fun _ hmem => nomatch hmem

theorem FieldsWithin.concat {fields : List (String × Json)} {key : String} {value : Json}
    (h : FieldsWithin n fields) (hvalue : StringWithin n value) :
    FieldsWithin n (fields ++ [(key, value)]) := by
  intro entry hmem
  rcases List.mem_append.mp hmem with hmem | hmem
  · exact h entry hmem
  · obtain rfl := List.mem_singleton.mp hmem
    exact hvalue

namespace Reader.Within

variable {stack : List Frame} {fields : List (String × Json)} {token : Token} {reader next : Reader}

theorem readValue (hstack : ∀ frame ∈ stack, frame.Within n)
    (htoken : ∀ value, token = .value value → ValueWithin n value)
    (h : Reader.readValue stack token = some next) : next.Within n := by
  cases token with
  | value value =>
      obtain rfl := Option.some.inj h
      exact ⟨htoken value rfl, hstack⟩
  | leftBracket | leftBrace =>
      obtain rfl := Option.some.inj h
      exact hstack
  | rightBracket | rightBrace | colon | comma => cases h

theorem readKey (hfields : FieldsWithin n fields) (hstack : ∀ frame ∈ stack, frame.Within n)
    (h : Reader.readKey fields stack token = some next) : next.Within n := by
  unfold Reader.readKey at h
  split at h
  case h_1 =>
    obtain rfl := Option.some.inj h
    exact ⟨hfields, hstack⟩
  case h_2 => cases h

theorem afterElement {elements : List Json} (hstack : ∀ frame ∈ stack, frame.Within n)
    (h : Reader.afterElement elements stack token = some next) : next.Within n := by
  unfold Reader.afterElement at h
  split at h
  case h_1 =>
    obtain rfl := Option.some.inj h
    exact List.forall_mem_cons.mpr ⟨trivial, hstack⟩
  case h_2 =>
    obtain rfl := Option.some.inj h
    exact ⟨valueWithin_arr elements, hstack⟩
  case h_3 => cases h

theorem afterField (hfields : FieldsWithin n fields) (hstack : ∀ frame ∈ stack, frame.Within n)
    (h : Reader.afterField fields stack token = some next) : next.Within n := by
  unfold Reader.afterField at h
  split at h
  case h_1 =>
    obtain rfl := Option.some.inj h
    exact ⟨hfields, hstack⟩
  case h_2 =>
    obtain rfl := Option.some.inj h
    exact ⟨valueWithin_obj hfields, hstack⟩
  case h_3 => cases h

theorem step (h : reader.Within n) (htoken : ∀ value, token = .value value → ValueWithin n value)
    (hstep : Reader.step reader token = some next) : next.Within n := by
  unfold Reader.step at hstep
  split at hstep
  case h_1 => exact readValue h htoken hstep
  case h_2 =>
    obtain rfl := Option.some.inj hstep
    exact ⟨valueWithin_arr [], h⟩
  case h_3 => exact readValue (List.forall_mem_cons.mpr ⟨by trivial, h⟩) htoken hstep
  case h_4 =>
    obtain rfl := Option.some.inj hstep
    exact ⟨valueWithin_obj fieldsWithin_nil, h⟩
  case h_5 => exact readKey fieldsWithin_nil h hstep
  case h_6 => exact readKey h.1 h.2 hstep
  case h_7 =>
    obtain rfl := Option.some.inj hstep
    exact List.forall_mem_cons.mpr ⟨h.1, h.2⟩
  case h_8 | h_9 => cases hstep
  case h_10 => exact afterElement (List.forall_mem_cons.mp h.2).2 hstep
  case h_11 =>
    obtain ⟨hframe, hstack⟩ := List.forall_mem_cons.mp h.2
    exact afterField (FieldsWithin.concat hframe h.1.1) hstack hstep

end Reader.Within

/-- A string, and each field of an object that is one, is shorter than the text it is read from. -/
theorem valueWithin_parse {text : String} {value : Json} (h : parse numberOf text = some value) :
    ValueWithin text.length value := by
  unfold parse at h
  obtain ⟨lexer, hlexer, h⟩ := Option.bind_eq_some_iff.mp h
  obtain ⟨tokens, htokens, h⟩ := Option.bind_eq_some_iff.mp h
  obtain ⟨reader, hreader, h⟩ := Option.bind_eq_some_iff.mp h
  have hlexed : lexer.Within text.toList :=
    Runs.exec_invariant Lexer.Within hlexer .start fun _ _ _ _ hwithin hstep => hwithin.step hstep
  have htokens := hlexed.finish htokens
  have hread : TokensWithin text.length tokens → reader.Within text.length := by
    refine Runs.exec_invariant
      (fun taken reader => TokensWithin text.length taken → reader.Within text.length) hreader ?_ ?_
    · exact fun _ _ hmem => nomatch hmem
    · intro taken reader token next hwithin hstep htaken
      refine (hwithin fun value hmem => ?_).step (fun value htoken => ?_) hstep
      · exact htaken value (List.mem_append_left _ hmem)
      · exact htaken value (htoken ▸ List.mem_append_right _ List.mem_cons_self)
  unfold Reader.finish at h
  split at h
  case h_1 =>
    obtain rfl := Option.some.inj h
    exact (hread htokens).1
  case h_2 => cases h

end Json
