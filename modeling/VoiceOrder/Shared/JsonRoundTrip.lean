import VoiceOrder.Shared.JsonText

/-! # What is written is read back

The text of a value is cut into the tokens of the value, and these are read into the value. All
that this takes of the numbers is that each is written as a numeral which stands for it. -/

namespace Json

/-! ## Strings -/

section

variable {numberOf : List Char → ℚ} {acc : List Token} {read rest : List Char}

/-- The digits of a control character stand for it. -/
theorem hexUnit_digits : ∀ n < 32,
    hexUnit '0' '0' (Nat.digitChar (n / 16)) (Nat.digitChar (n % 16)) = some n := by
  decide

theorem unescape_escaped {c e : Char} (hne : e ≠ 'u') (hescaped : escaped e = some c) :
    unescape none ('\\' :: e :: rest) = (unescape none rest).map (c :: ·) := by
  rw [unescape, hescaped]
  · rfl
  · exact fun _ _ _ _ _ hu => (hne hu).elim

theorem unescape_unit {n : ℕ} (h : n < 32) :
    unescape none ('\\' :: 'u' :: '0' :: '0' :: Nat.digitChar (n / 16) :: Nat.digitChar (n % 16) :: rest) =
      (unescape none rest).map (Char.ofNat n :: ·) := by
  rw [unescape, hexUnit_digits n h, Option.bind_some, if_neg (by omega), if_neg (by omega)]
  rfl

theorem unescape_plain {c : Char} (hbackslash : c ≠ '\\') (h : ¬c.toNat < 32) :
    unescape none (c :: rest) = (unescape none rest).map (c :: ·) := by
  rw [unescape, if_neg h]
  · rfl
  · exact fun _ _ _ _ _ hu => (hbackslash hu).elim
  · exact fun hu => (hbackslash hu).elim
  · exact fun _ _ hu => (hbackslash hu).elim

theorem unescape_quoteChar (c : Char) :
    unescape none (quoteChar c ++ rest) = (unescape none rest).map (c :: ·) := by
  unfold quoteChar
  split_ifs with hquote hbackslash hnewline hreturn htab hback hfeed hcontrol
  · subst hquote
    exact unescape_escaped (by decide) rfl
  · subst hbackslash
    exact unescape_escaped (by decide) rfl
  · subst hnewline
    exact unescape_escaped (by decide) rfl
  · subst hreturn
    exact unescape_escaped (by decide) rfl
  · subst htab
    exact unescape_escaped (by decide) rfl
  · exact unescape_escaped (by decide) (congrArg some (hback ▸ Char.ofNat_toNat c))
  · exact unescape_escaped (by decide) (congrArg some (hfeed ▸ Char.ofNat_toNat c))
  · have hunit := @unescape_unit rest _ hcontrol
    rwa [Char.ofNat_toNat] at hunit
  · exact unescape_plain hbackslash hcontrol

theorem unescape_quoteChars (text : List Char) : unescape none (text.flatMap quoteChar) = some text := by
  induction text with
  | nil => rfl
  | cons c text ih => rw [List.flatMap_cons, unescape_quoteChar, ih, Option.map_some]

theorem exec_escape (e : Char) :
    Runs.exec (Lexer.step numberOf) ⟨acc, .string read false⟩ ('\\' :: e :: rest) =
      Runs.exec (Lexer.step numberOf) ⟨acc, .string (read ++ ['\\', e]) false⟩ rest := by
  simp [Runs.exec, Lexer.step]

theorem exec_plain {c : Char} (hquote : c ≠ '"') (hbackslash : c ≠ '\\') :
    Runs.exec (Lexer.step numberOf) ⟨acc, .string read false⟩ (c :: rest) =
      Runs.exec (Lexer.step numberOf) ⟨acc, .string (read ++ [c]) false⟩ rest := by
  simp [Runs.exec, Lexer.step, hquote, hbackslash]

/-- No digit ends a string or escapes what follows. -/
theorem digitChar_plain : ∀ n < 16, Nat.digitChar n ≠ '"' ∧ Nat.digitChar n ≠ '\\' := by
  decide

theorem exec_quoteChar (c : Char) :
    Runs.exec (Lexer.step numberOf) ⟨acc, .string read false⟩ (quoteChar c ++ rest) =
      Runs.exec (Lexer.step numberOf) ⟨acc, .string (read ++ quoteChar c) false⟩ rest := by
  unfold quoteChar
  split_ifs with hquote hbackslash hnewline hreturn htab hback hfeed hcontrol
  · exact exec_escape _
  · exact exec_escape _
  · exact exec_escape _
  · exact exec_escape _
  · exact exec_escape _
  · exact exec_escape _
  · exact exec_escape _
  · obtain ⟨hquote₁, hbackslash₁⟩ := digitChar_plain (c.toNat / 16) (by omega)
    obtain ⟨hquote₂, hbackslash₂⟩ := digitChar_plain (c.toNat % 16) (by omega)
    refine (exec_escape 'u').trans ?_
    refine (exec_plain (c := '0') (by decide) (by decide)).trans ?_
    refine (exec_plain (c := '0') (by decide) (by decide)).trans ?_
    refine (exec_plain hquote₁ hbackslash₁).trans ?_
    refine (exec_plain hquote₂ hbackslash₂).trans ?_
    simp
  · exact exec_plain hquote hbackslash

theorem exec_quoteChars (text : List Char) :
    Runs.exec (Lexer.step numberOf) ⟨acc, .string read false⟩ (text.flatMap quoteChar ++ rest) =
      Runs.exec (Lexer.step numberOf) ⟨acc, .string (read ++ text.flatMap quoteChar) false⟩ rest := by
  induction text generalizing read with
  | nil => simp
  | cons c text ih =>
      rw [List.flatMap_cons, List.append_assoc, exec_quoteChar, ih, List.append_assoc]

end

/-! ## Tokens -/

section

variable {numberOf : List Char → ℚ} {text later : List Char} {tokens rest : List Token} {c : Char}
  {token : Token}

/-- The word that the lexer is in is taken to its end. -/
def Lexer.settle (numberOf : List Char → ℚ) (s : Lexer) : Option Lexer :=
  match s.mode with
  | .between => some s
  | .word read => (literal numberOf read).map fun value => s.emit (.value value)
  | .string _ _ => none

theorem Lexer.finish_eq (s : Lexer) : s.finish numberOf = (s.settle numberOf).map Lexer.tokens := by
  obtain ⟨tokens, mode⟩ := s
  cases mode with
  | between => rfl
  | word read =>
      simp only [finish, settle, Option.map_map]
      rfl
  | string read afterBackslash => rfl

/-- A text is cut into these tokens; the last of them may still be open. -/
def Lexes (numberOf : List Char → ℚ) (text : List Char) (tokens : List Token) : Prop :=
  ∀ acc, ∃ s, Runs.exec (Lexer.step numberOf) ⟨acc, .between⟩ text = some s ∧
    s.settle numberOf = some ⟨acc ++ tokens, .between⟩

/-- A text is cut into these tokens, and none of them is open. -/
def Closes (numberOf : List Char → ℚ) (text : List Char) (tokens : List Token) : Prop :=
  ∀ acc, Runs.exec (Lexer.step numberOf) ⟨acc, .between⟩ text = some ⟨acc ++ tokens, .between⟩

theorem Closes.lexes (h : Closes numberOf text tokens) : Lexes numberOf text tokens := fun acc =>
  ⟨_, h acc, rfl⟩

theorem closes_nil : Closes numberOf [] [] := fun acc => by simp [Runs.exec]

theorem Closes.append (h : Closes numberOf text tokens) (hlater : Closes numberOf later rest) :
    Closes numberOf (text ++ later) (tokens ++ rest) := fun acc => by
  rw [Runs.exec_append, h acc, Option.bind_some, hlater, List.append_assoc]

theorem Closes.append_lexes (h : Closes numberOf text tokens) (hlater : Lexes numberOf later rest) :
    Lexes numberOf (text ++ later) (tokens ++ rest) := fun acc => by
  rw [Runs.exec_append, h acc, Option.bind_some, ← List.append_assoc]
  exact hlater (acc ++ tokens)

theorem punctuation_plain (h : punctuation c = some token) : c ≠ '"' ∧ isBlank c = false := by
  unfold punctuation at h
  split at h
  all_goals first | cases h; done | exact ⟨by decide, by decide⟩

/-- Punctuation ends a word, and is a token itself. -/
theorem Lexes.close (h : Lexes numberOf text tokens) (hc : punctuation c = some token) :
    Closes numberOf (text ++ [c]) (tokens ++ [token]) := fun acc => by
  obtain ⟨s, hexec, hsettle⟩ := h acc
  obtain ⟨hquote, hblank⟩ := punctuation_plain hc
  have hbetween : ∀ s : Lexer, s.between c = s.emit token := fun s => by
    simp [Lexer.between, hblank, hquote, hc]
  have hstep : Lexer.step numberOf s c = some ((⟨acc ++ tokens, .between⟩ : Lexer).between c) := by
    unfold Lexer.settle at hsettle
    unfold Lexer.step
    split at hsettle
    case h_1 hmode =>
      cases hsettle
      rfl
    case h_2 read hmode =>
      rw [hmode]
      simp only [hquote, if_false, hblank, Bool.false_or, hc, Option.isSome_some, if_true]
      obtain ⟨value, hvalue, heq⟩ := Option.map_eq_some_iff.mp hsettle
      rw [hvalue, Option.map_some, heq]
    case h_3 => cases hsettle
  rw [Runs.exec_append, hexec, Option.bind_some, Runs.exec, hstep, hbetween, ← List.append_assoc]
  rfl

theorem closes_punctuation (hc : punctuation c = some token) : Closes numberOf [c] [token] :=
  closes_nil.lexes.close hc

theorem closes_quote (text : String) : Closes numberOf (quote text) [.value (.str text)] := fun acc => by
  have hopen : Runs.exec (Lexer.step numberOf) ⟨acc, .between⟩ (quote text) =
      Runs.exec (Lexer.step numberOf) ⟨acc, .string [] false⟩ (text.toList.flatMap quoteChar ++ ['"']) := by
    simp [quote, Runs.exec, Lexer.step, Lexer.between, isBlank]
  rw [hopen, exec_quoteChars, List.nil_append, Runs.exec]
  simp [Lexer.step, unescape_quoteChars, Lexer.emit, Runs.exec]

/-! ## Names and numerals -/

/-- A character that goes on with a word. -/
def InWord (c : Char) : Prop := c ≠ '"' ∧ isBlank c = false ∧ punctuation c = none

instance : DecidablePred InWord := fun c =>
  inferInstanceAs (Decidable (c ≠ '"' ∧ isBlank c = false ∧ punctuation c = none))

theorem inWord_of_all {word : List Char} (h : (word.all fun c => decide (InWord c)) = true) :
    ∀ c ∈ word, InWord c := fun c hc => of_decide_eq_true (List.all_eq_true.mp h c hc)

theorem exec_word {acc : List Token} {read word : List Char} (h : ∀ c ∈ word, InWord c) :
    Runs.exec (Lexer.step numberOf) ⟨acc, .word read⟩ word = some ⟨acc, .word (read ++ word)⟩ := by
  induction word generalizing read with
  | nil => simp [Runs.exec]
  | cons c word ih =>
      obtain ⟨⟨hquote, hblank, hpunctuation⟩, hword⟩ := List.forall_mem_cons.mp h
      have hstep : Lexer.step numberOf ⟨acc, .word read⟩ c = some ⟨acc, .word (read ++ [c])⟩ := by
        simp [Lexer.step, hquote, hblank, hpunctuation]
      rw [Runs.exec, hstep, Option.bind_some, ih hword, List.append_assoc]
      rfl

theorem lexes_word {value : Json} (hne : text ≠ []) (hword : ∀ c ∈ text, InWord c)
    (hliteral : literal numberOf text = some value) : Lexes numberOf text [.value value] := fun acc => by
  cases text with
  | nil => exact (hne rfl).elim
  | cons c word =>
      obtain ⟨⟨hquote, hblank, hpunctuation⟩, hword⟩ := List.forall_mem_cons.mp hword
      refine ⟨⟨acc, .word (c :: word)⟩, ?_, ?_⟩
      · have hstep : Lexer.step numberOf ⟨acc, .between⟩ c = some ⟨acc, .word [c]⟩ := by
          simp [Lexer.step, Lexer.between, hquote, hblank, hpunctuation]
        rw [Runs.exec, hstep, Option.bind_some, exec_word hword]
        rfl
      · simp [Lexer.settle, hliteral, Lexer.emit]

/-- The characters of numerals. -/
def InNumeral (c : Char) : Prop := c.isDigit = true ∨ c ∈ ['-', '+', '.', 'e', 'E']

theorem InNumeral.inWord (h : InNumeral c) : InWord c := by
  rcases h with hdigit | hsign
  · refine ⟨?_, ?_, ?_⟩
    · rintro rfl
      cases hdigit
    · unfold isBlank
      simp only [Bool.or_eq_false_iff, decide_eq_false_iff_not]
      refine ⟨⟨⟨?_, ?_⟩, ?_⟩, ?_⟩
      · rintro rfl
        cases hdigit
      · rintro rfl
        cases hdigit
      · rintro rfl
        cases hdigit
      · rintro rfl
        cases hdigit
    · unfold punctuation
      split
      · cases hdigit
      · cases hdigit
      · cases hdigit
      · cases hdigit
      · cases hdigit
      · cases hdigit
      · rfl
  · exact inWord_of_all (by decide) c hsign

theorem inNumeral_of_dropWhile {word : List Char} (h : ∀ c ∈ word.dropWhile Char.isDigit, InNumeral c) :
    ∀ c ∈ word, InNumeral c := by
  intro c hc
  rw [← List.takeWhile_append_dropWhile (p := Char.isDigit) (l := word)] at hc
  rcases List.mem_append.mp hc with hdigit | hrest
  · exact .inl (List.all_eq_true.mp List.all_takeWhile c hdigit)
  · exact h c hrest

theorem inNumeral_of_isExponent {word : List Char} (h : isExponent word = true) :
    ∀ c ∈ word, InNumeral c := by
  unfold isExponent at h
  split at h
  case h_1 => simp
  case h_2 e rest =>
    simp only [Bool.and_eq_true, Bool.or_eq_true, decide_eq_true_eq, List.all_eq_true] at h
    obtain ⟨⟨he, -⟩, hdigits⟩ := h
    have hfirst : InNumeral e := by
      rcases he with rfl | rfl
      · exact .inr (by decide)
      · exact .inr (by decide)
    refine List.forall_mem_cons.mpr ⟨hfirst, ?_⟩
    split at hdigits
    · exact List.forall_mem_cons.mpr ⟨.inr (by decide), fun c hc => .inl (hdigits c hc)⟩
    · exact List.forall_mem_cons.mpr ⟨.inr (by decide), fun c hc => .inl (hdigits c hc)⟩
    · exact fun c hc => .inl (hdigits c hc)

theorem inNumeral_of_isNumeral {word : List Char} (h : isNumeral word = true) :
    ∀ c ∈ word, InNumeral c := by
  have hunsigned : ∀ {unsigned : List Char},
      (afterFraction (unsigned.dropWhile Char.isDigit)).any isExponent = true →
        ∀ c ∈ unsigned, InNumeral c := by
    intro unsigned hrest
    obtain ⟨exponent, hafter, hexponent⟩ := (Option.any_eq_true _ _).mp hrest
    refine inNumeral_of_dropWhile ?_
    unfold afterFraction at hafter
    split at hafter
    case h_1 fraction heq =>
      obtain ⟨-, hfraction⟩ := Option.ite_none_left_eq_some.mp hafter
      cases hfraction
      rw [heq]
      exact List.forall_mem_cons.mpr
        ⟨.inr (by decide), inNumeral_of_dropWhile (inNumeral_of_isExponent hexponent)⟩
    case h_2 =>
      cases hafter
      exact inNumeral_of_isExponent hexponent
  unfold isNumeral at h
  simp only [Bool.and_eq_true] at h
  split at h
  · exact List.forall_mem_cons.mpr ⟨.inr (by decide), hunsigned h.2⟩
  · exact hunsigned h.2

theorem lexes_null : Lexes numberOf "null".toList [.value .null] :=
  lexes_word (by decide) (inWord_of_all (by decide)) rfl

theorem lexes_true : Lexes numberOf "true".toList [.value (.bool true)] :=
  lexes_word (by decide) (inWord_of_all (by decide)) rfl

theorem lexes_false : Lexes numberOf "false".toList [.value (.bool false)] :=
  lexes_word (by decide) (inWord_of_all (by decide)) rfl

/-- A number is written as a numeral that stands for it. -/
def Written (numberOf : List Char → ℚ) (numberText : ℚ → List Char) (number : ℚ) : Prop :=
  isNumeral (numberText number) = true ∧ numberOf (numberText number) = number

instance (numberOf : List Char → ℚ) (numberText : ℚ → List Char) :
    DecidablePred (Written numberOf numberText) := fun number =>
  inferInstanceAs (Decidable (isNumeral (numberText number) = true ∧ numberOf (numberText number) = number))

theorem lexes_number {numberText : ℚ → List Char} {number : ℚ} (h : Written numberOf numberText number) :
    Lexes numberOf (numberText number) [.value (.num number)] := by
  obtain ⟨hnumeral, hnumber⟩ := h
  have hne : ∀ name : List Char, isNumeral name = false → numberText number ≠ name := by
    intro name hname heq
    rw [heq, hname] at hnumeral
    cases hnumeral
  refine lexes_word (hne [] rfl) (fun c hc => (inNumeral_of_isNumeral hnumeral c hc).inWord) ?_
  unfold literal
  rw [if_neg (hne _ (by decide)), if_neg (hne _ (by decide)), if_neg (hne _ (by decide)), if_pos hnumeral,
    hnumber]

end

/-! ## Values -/

mutual

/-- The tokens of a value. -/
def tokensOf : Json → List Token
  | .arr elements => .leftBracket :: elementTokens elements ++ [.rightBracket]
  | .obj fields => .leftBrace :: fieldTokens fields ++ [.rightBrace]
  | .null => [.value .null]
  | .bool value => [.value (.bool value)]
  | .num value => [.value (.num value)]
  | .str value => [.value (.str value)]

def elementTokens : List Json → List Token
  | [] => []
  | [value] => tokensOf value
  | value :: rest => tokensOf value ++ .comma :: elementTokens rest

def fieldTokens : List (String × Json) → List Token
  | [] => []
  | [(key, value)] => .value (.str key) :: .colon :: tokensOf value
  | (key, value) :: rest => .value (.str key) :: .colon :: tokensOf value ++ .comma :: fieldTokens rest

end

mutual

/-- The numbers in a value. -/
def numbers : Json → List ℚ
  | .num value => [value]
  | .arr elements => elementNumbers elements
  | .obj fields => fieldNumbers fields
  | .null | .bool _ | .str _ => []

def elementNumbers : List Json → List ℚ
  | [] => []
  | value :: rest => numbers value ++ elementNumbers rest

def fieldNumbers : List (String × Json) → List ℚ
  | [] => []
  | (_, value) :: rest => numbers value ++ fieldNumbers rest

end

section

variable {numberOf : List Char → ℚ} {numberText : ℚ → List Char}

theorem closes_key (key : String) :
    Closes numberOf (quote key ++ [':']) [.value (.str key), .colon] :=
  (closes_quote key).lexes.close rfl

mutual

theorem lexes_write : ∀ value : Json, (∀ number ∈ numbers value, Written numberOf numberText number) →
    Lexes numberOf (write numberText value) (tokensOf value)
  | .null, _ => lexes_null
  | .bool true, _ => lexes_true
  | .bool false, _ => lexes_false
  | .num value, h => lexes_number (h value (by simp [numbers]))
  | .str value, _ => (closes_quote value).lexes
  | .arr elements, h =>
      ((closes_punctuation (c := '[') rfl).append_lexes (lexes_writeElements elements h)).close
        (c := ']') rfl |>.lexes
  | .obj fields, h =>
      ((closes_punctuation (c := '\x7b') rfl).append_lexes (lexes_writeFields fields h)).close
        (c := '\x7d') rfl |>.lexes

theorem lexes_writeElements : ∀ elements : List Json,
    (∀ number ∈ elementNumbers elements, Written numberOf numberText number) →
      Lexes numberOf (writeElements numberText elements) (elementTokens elements)
  | [], _ => closes_nil.lexes
  | [value], h => lexes_write value fun number hnumber => h number (by simp [elementNumbers, hnumber])
  | value :: next :: rest, h => by
      have hvalue := lexes_write value fun number hnumber =>
        h number (List.mem_append_left _ hnumber)
      have hrest := lexes_writeElements (next :: rest) fun number hnumber =>
        h number (List.mem_append_right _ hnumber)
      have hall := (hvalue.close (c := ',') rfl).append_lexes hrest
      simpa [writeElements, elementTokens] using hall

theorem lexes_writeFields : ∀ fields : List (String × Json),
    (∀ number ∈ fieldNumbers fields, Written numberOf numberText number) →
      Lexes numberOf (writeFields numberText fields) (fieldTokens fields)
  | [], _ => closes_nil.lexes
  | [(key, value)], h => by
      have hvalue := lexes_write value fun number hnumber => h number (by simp [fieldNumbers, hnumber])
      have hall := (closes_key key).append_lexes hvalue
      simpa [writeFields, fieldTokens] using hall
  | (key, value) :: next :: rest, h => by
      have hvalue := lexes_write value fun number hnumber =>
        h number (List.mem_append_left _ hnumber)
      have hrest := lexes_writeFields (next :: rest) fun number hnumber =>
        h number (List.mem_append_right _ hnumber)
      have hall := (((closes_key key).append_lexes hvalue).close (c := ',') rfl).append_lexes hrest
      simpa [writeFields, fieldTokens] using hall

end

end

/-! ## Reading the tokens -/

section

variable {reader : Reader} {stack : List Frame} {tokens : List Token}

/-- The reader takes a value next, under what is on the stack. -/
def Takes (reader : Reader) (stack : List Frame) : Prop :=
  ∀ token, token ≠ .rightBracket → Reader.step reader token = Reader.readValue stack token

theorem takes_awaitValue (stack : List Frame) : Takes (.awaitValue stack) stack := fun _ _ => rfl

theorem takes_openArray (stack : List Frame) : Takes (.openArray stack) (.arr [] :: stack) := by
  intro token hne
  cases token with
  | rightBracket => exact (hne rfl).elim
  | leftBracket | leftBrace | rightBrace | colon | comma | value => rfl

/-- The reader takes a field next. -/
def TakesField (reader : Reader) (fields : List (String × Json)) (stack : List Frame) : Prop :=
  ∀ key, Reader.step reader (.value (.str key)) = some (.awaitColon fields key stack)

theorem takesField_openObject (stack : List Frame) : TakesField (.openObject stack) [] stack := fun _ => rfl

theorem takesField_awaitKey (fields : List (String × Json)) (stack : List Frame) :
    TakesField (.awaitKey fields stack) fields stack := fun _ => rfl

mutual

theorem read_value : ∀ (value : Json) {reader : Reader} {stack : List Frame} {tokens : List Token},
    Takes reader stack → Runs.exec Reader.step reader (tokensOf value ++ tokens) =
      Runs.exec Reader.step (.complete value stack) tokens
  | .null, _, _, _, h => by rw [tokensOf, List.singleton_append, Runs.exec, h _ (by simp)]; rfl
  | .bool _, _, _, _, h => by rw [tokensOf, List.singleton_append, Runs.exec, h _ (by simp)]; rfl
  | .num _, _, _, _, h => by rw [tokensOf, List.singleton_append, Runs.exec, h _ (by simp)]; rfl
  | .str _, _, _, _, h => by rw [tokensOf, List.singleton_append, Runs.exec, h _ (by simp)]; rfl
  | .arr elements, reader, stack, tokens, h => by
      have hopen : Runs.exec Reader.step reader (tokensOf (.arr elements) ++ tokens) =
          Runs.exec Reader.step (.openArray stack) (elementTokens elements ++ .rightBracket :: tokens) := by
        rw [tokensOf, List.append_assoc, List.cons_append, Runs.exec, h _ (by simp)]
        rfl
      rw [hopen]
      by_cases hne : elements = []
      · subst hne
        rfl
      · exact read_elements elements hne (takes_openArray stack)
  | .obj fields, reader, stack, tokens, h => by
      have hopen : Runs.exec Reader.step reader (tokensOf (.obj fields) ++ tokens) =
          Runs.exec Reader.step (.openObject stack) (fieldTokens fields ++ .rightBrace :: tokens) := by
        rw [tokensOf, List.append_assoc, List.cons_append, Runs.exec, h _ (by simp)]
        rfl
      rw [hopen]
      by_cases hne : fields = []
      · subst hne
        rfl
      · exact read_fields fields hne (takesField_openObject stack)

theorem read_elements : ∀ (elements : List Json) {reader : Reader} {before : List Json}
    {stack : List Frame} {tokens : List Token}, elements ≠ [] → Takes reader (.arr before :: stack) →
      Runs.exec Reader.step reader (elementTokens elements ++ .rightBracket :: tokens) =
        Runs.exec Reader.step (.complete (.arr (before ++ elements)) stack) tokens
  | [], _, _, _, _, hne, _ => (hne rfl).elim
  | [value], _, before, stack, tokens, _, h => by
      rw [elementTokens, read_value value h]
      rfl
  | value :: next :: rest, _, before, stack, tokens, _, h => by
      have hrest := @read_elements (next :: rest) (.awaitValue (.arr (before ++ [value]) :: stack))
        (before ++ [value]) stack tokens (by simp) (takes_awaitValue _)
      rw [List.append_assoc, List.singleton_append] at hrest
      rw [elementTokens, List.append_assoc, read_value value h, ← hrest]
      · rfl
      · simp

theorem read_fields : ∀ (fields : List (String × Json)) {reader : Reader}
    {before : List (String × Json)} {stack : List Frame} {tokens : List Token}, fields ≠ [] →
      TakesField reader before stack →
        Runs.exec Reader.step reader (fieldTokens fields ++ .rightBrace :: tokens) =
          Runs.exec Reader.step (.complete (.obj (before ++ fields)) stack) tokens
  | [], _, _, _, _, hne, _ => (hne rfl).elim
  | [(key, value)], reader, before, stack, tokens, _, h => by
      have hkey : Runs.exec Reader.step reader (fieldTokens [(key, value)] ++ .rightBrace :: tokens) =
          Runs.exec Reader.step (.awaitValue (.obj before key :: stack))
            (tokensOf value ++ .rightBrace :: tokens) := by
        rw [fieldTokens, List.cons_append, Runs.exec, h key]
        rfl
      rw [hkey, read_value value (takes_awaitValue _)]
      rfl
  | (key, value) :: next :: rest, reader, before, stack, tokens, _, h => by
      have hrest := @read_fields (next :: rest) (.awaitKey (before ++ [(key, value)]) stack)
        (before ++ [(key, value)]) stack tokens (by simp) (takesField_awaitKey _ stack)
      rw [List.append_assoc, List.singleton_append] at hrest
      have hkey : Runs.exec Reader.step reader
            (fieldTokens ((key, value) :: next :: rest) ++ .rightBrace :: tokens) =
          Runs.exec Reader.step (.awaitValue (.obj before key :: stack))
            (tokensOf value ++ .comma :: (fieldTokens (next :: rest) ++ .rightBrace :: tokens)) := by
        rw [fieldTokens, List.append_assoc, List.cons_append, Runs.exec, h key]
        · simp only [List.cons_append]
          rfl
        · simp
      rw [hkey, read_value value (takes_awaitValue _), ← hrest]
      rfl

end

/-- What is written is read back. -/
theorem parse_stringify {numberOf : List Char → ℚ} {numberText : ℚ → List Char} (value : Json)
    (h : ∀ number ∈ numbers value, Written numberOf numberText number) :
    parse numberOf (stringify numberText value) = some value := by
  obtain ⟨s, hexec, hsettle⟩ := lexes_write value h []
  have hfinish : s.finish numberOf = some (tokensOf value) := by
    rw [Lexer.finish_eq, hsettle]
    rfl
  have hread := @read_value value (.awaitValue []) [] [] (takes_awaitValue [])
  rw [List.append_nil] at hread
  have hstart : Lexer.start = ⟨[], .between⟩ := rfl
  rw [parse, stringify, String.toList_ofList, hstart, hexec, Option.bind_some, hfinish,
    Option.bind_some, hread]
  rfl

end

/-! ## Objects with fields that may be absent -/

/-- A field that is left out where it has no value. -/
def entry (key : String) (value : Option Json) : List (String × Json) :=
  (value.map fun value => (key, value)).toList

theorem field_append (entries others : List (String × Json)) (key : String) :
    (obj (entries ++ others)).field key = ((obj others).field key).or ((obj entries).field key) := by
  simp only [field, OrderedMap.get_ofEntries, List.reverse_append, List.find?_append]
  cases others.reverse.find? (fun entry => entry.1 = key) with
  | none => rfl
  | some found => rfl

theorem field_entry (name key : String) (value : Option Json) :
    (obj (entry name value)).field key = if name = key then value else none := by
  cases value with
  | none => simp [entry, field, OrderedMap.get_ofEntries]
  | some value => by_cases h : name = key <;> simp [entry, field, OrderedMap.get_ofEntries, h]

end Json
