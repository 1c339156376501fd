import VoiceOrder.Shared.UrlParser

/-! # Components of URIs

A component is written by the bytes of its UTF-8 encoding, and read back only where they are
well formed. The dot segments of a path are those that are read as dots. -/

namespace UriComponent

open UrlPath

/-- The bytes that a component stands for; a percent sign needs two digits. -/
def percentBytes : List Char → Option (List UInt8)
  | '%' :: high :: low :: rest =>
      (escaped? high low).bind fun byte => (percentBytes rest).map (UInt8.ofNat byte.toNat :: ·)
  | c :: rest => if c = '%' then none else (percentBytes rest).map (String.utf8EncodeChar c ++ ·)
  | [] => some []

def decodeURIComponent (component : List Char) : Option String :=
  (percentBytes component).bind fun bytes => String.fromUTF8? bytes.toByteArray

/-- What a component may hold as it is. -/
def isUnreserved (c : Char) : Bool :=
  c.isAlphanum || c ∈ ['-', '_', '.', '!', '~', '*', '\x27', '(', ')']

/-- How a client writes a component. -/
def encodeURIComponent (text : String) : List Char := Url.encode (fun c => !isUnreserved c) text.toList

variable {component rest : List Char} {bytes : List UInt8} {text : String} {c high low : Char}

/-! ## Reading and writing -/

theorem fromUTF8?_eq_some : String.fromUTF8? bytes.toByteArray = some text ↔
    bytes = text.toList.flatMap String.utf8EncodeChar := by
  have htext : (text.toList.flatMap String.utf8EncodeChar).toByteArray = text.toByteArray :=
    String.utf8Encode_toList
  constructor
  · intro h
    obtain ⟨hvalid, heq⟩ := Option.dite_none_right_eq_some.mp h
    have hbytes : bytes.toByteArray = text.toByteArray := congrArg String.toByteArray (Option.some.inj heq)
    exact List.toByteArray_inj.mp (hbytes.trans htext.symm)
  · rintro rfl
    rw [htext]
    exact dif_pos text.isValidUTF8

theorem decodeURIComponent_eq_some : decodeURIComponent component = some text ↔
    percentBytes component = some (text.toList.flatMap String.utf8EncodeChar) := by
  rw [decodeURIComponent, Option.bind_eq_some_iff]
  constructor
  · rintro ⟨bytes, hbytes, htext⟩
    rw [hbytes, fromUTF8?_eq_some.mp htext]
  · intro h
    exact ⟨_, h, fromUTF8?_eq_some.mpr rfl⟩

theorem hexValue_hexDigit : ∀ n < 16, hexValue (Url.hexDigit n) = some n := by
  decide

theorem percentBytes_escape (byte : UInt8) (rest : List Char) :
    percentBytes (Url.escape byte ++ rest) = (percentBytes rest).map (byte :: ·) := by
  have hsize : byte.toNat < 256 := byte.toNat_lt
  have hescaped : escaped? (Url.hexDigit (byte.toNat / 16)) (Url.hexDigit (byte.toNat % 16)) =
      some (Char.ofNat byte.toNat) := by
    rw [escaped?, hexValue_hexDigit _ (by omega), hexValue_hexDigit _ (by omega), Option.bind_some,
      Option.map_some, Nat.div_add_mod]
  rw [Url.escape, List.cons_append, List.cons_append, List.cons_append, List.nil_append, percentBytes,
    hescaped, Option.bind_some, toNat_ofNat_byte hsize, UInt8.ofNat_toNat]

theorem percentBytes_escapes (bytes : List UInt8) (rest : List Char) :
    percentBytes (bytes.flatMap Url.escape ++ rest) = (percentBytes rest).map (bytes ++ ·) := by
  induction bytes with
  | nil => simp
  | cons byte bytes ih =>
      rw [List.flatMap_cons, List.append_assoc, percentBytes_escape, ih, Option.map_map]
      rfl

theorem percentBytes_plain (hc : c ≠ '%') :
    percentBytes (c :: rest) = (percentBytes rest).map (String.utf8EncodeChar c ++ ·) := by
  rw [percentBytes, if_neg hc]
  rintro _ _ _ rfl
  exact absurd rfl hc

/-- What a client writes is read back. -/
theorem decode_encode (text : String) : decodeURIComponent (encodeURIComponent text) = some text := by
  rw [decodeURIComponent_eq_some, encodeURIComponent]
  induction text.toList with
  | nil => rfl
  | cons c word ih =>
      rw [Url.encode] at ih ⊢
      rw [List.flatMap_cons, List.flatMap_cons]
      split
      · rw [percentBytes_escapes, ih, Option.map_some]
      · rename_i hc
        have hpercent : c ≠ '%' := by
          rintro rfl
          exact hc rfl
        rw [List.singleton_append, percentBytes_plain hpercent, ih, Option.map_some]

/-! ## Dots -/

theorem toLower_of_lt (h : c.toNat < 65) : c.toLower = c := by
  refine dif_neg fun hupper => ?_
  have hlow : 65 ≤ c.val.toNat := UInt32.le_iff_toNat_le.mp hupper.1
  exact absurd hlow (Nat.not_le.mpr h)

theorem le_toLower (h : 65 ≤ c.toNat) : 65 ≤ c.toLower.toNat := by
  unfold Char.toLower
  split
  · rename_i hupper
    have hhigh : c.val.toNat ≤ 90 := UInt32.le_iff_toNat_le.mp hupper.2
    have hgap : ('a'.val - 'A'.val).toNat = 32 := rfl
    have hsum : (c.val + ('a'.val - 'A'.val)).toNat = c.val.toNat + 32 := by
      rw [UInt32.toNat_add, hgap]
      exact Nat.mod_eq_of_lt (by omega)
    exact (hsum ▸ Nat.le_add_right_of_le h : 65 ≤ (c.val + ('a'.val - 'A'.val)).toNat)
  · exact h

theorem toLower_eq_iff {d : Char} (hd : d.toNat < 65) : c.toLower = d ↔ c = d := by
  constructor
  · rintro rfl
    rcases Nat.lt_or_ge c.toNat 65 with hlow | hhigh
    · exact (toLower_of_lt hlow).symm
    · exact absurd (le_toLower hhigh) (Nat.not_le.mpr hd)
  · rintro rfl
    exact toLower_of_lt hd

theorem hexValue_congr {d : Char} (h : c.toLower = d.toLower) : hexValue c = hexValue d := by
  rw [hexValue, hexValue, h]

theorem isSingleDot_iff : isSingleDot component = true ↔ component = ['.'] ∨
    ∃ digit, component = ['%', '2', digit] ∧ digit.toLower = 'e' := by
  have hdot : ".".toList = ['.'] := rfl
  have hescape : "%2e".toList = ['%', '2', 'e'] := rfl
  rw [isSingleDot, decide_eq_true_eq, hdot, hescape, List.mem_cons, List.mem_singleton]
  refine or_congr ?_ ?_
  · rw [List.map_eq_singleton_iff]
    constructor
    · rintro ⟨c, rfl, hc⟩
      rw [(toLower_eq_iff (by decide)).mp hc]
    · rintro rfl
      exact ⟨'.', rfl, rfl⟩
  · rw [List.map_eq_cons_iff]
    constructor
    · rintro ⟨c, _, rfl, hc, hrest⟩
      obtain ⟨high, _, rfl, hhigh, hrest⟩ := List.map_eq_cons_iff.mp hrest
      obtain ⟨low, rfl, hlow⟩ := List.map_eq_singleton_iff.mp hrest
      rw [(toLower_eq_iff (by decide)).mp hc, (toLower_eq_iff (by decide)).mp hhigh]
      exact ⟨low, rfl, hlow⟩
    · rintro ⟨digit, rfl, hdigit⟩
      refine ⟨'%', _, rfl, rfl, ?_⟩
      rw [List.map_cons, List.map_cons, List.map_nil, hdigit]
      rfl

theorem percentBytes_dot (h : isSingleDot component = true) :
    percentBytes (component ++ rest) = (percentBytes rest).map (46 :: ·) := by
  rcases isSingleDot_iff.mp h with rfl | ⟨digit, rfl, hdigit⟩
  · exact percentBytes_plain (by decide)
  · have hescaped : escaped? '2' digit = some '.' := by
      rw [escaped?, hexValue_congr (hdigit.trans (by decide : 'e' = 'e'.toLower))]
      decide
    rw [List.cons_append, List.cons_append, List.cons_append, List.nil_append, percentBytes, hescaped,
      Option.bind_some]
    rfl

theorem utf8EncodeChar_eq_cons {byte : UInt8} {later : List UInt8} (hbyte : byte.toNat < 128)
    (h : String.utf8EncodeChar c ++ bytes = byte :: later) : c.toNat = byte.toNat ∧ bytes = later := by
  have hfirst : ∀ n < 256, 128 ≤ n → UInt8.ofNat n ≠ byte := by
    rintro n hn hlarge rfl
    rw [UInt8.toNat_ofNat', Nat.mod_eq_of_lt hn] at hbyte
    omega
  unfold String.utf8EncodeChar at h
  dsimp only at h
  split at h
  · rename_i hsmall
    obtain ⟨rfl, rfl⟩ := List.cons_eq_cons.mp h
    rw [UInt8.toNat_ofNat']
    exact ⟨(Nat.mod_eq_of_lt (Nat.lt_of_le_of_lt hsmall (by decide))).symm, rfl⟩
  · split at h
    · exact absurd (List.cons_eq_cons.mp h).1 (hfirst _ (by omega) (by omega))
    · split at h
      · exact absurd (List.cons_eq_cons.mp h).1 (hfirst _ (by omega) (by omega))
      · exact absurd (List.cons_eq_cons.mp h).1 (hfirst _ (by omega) (by omega))

theorem percentBytes_eq_nil (h : percentBytes component = some []) : component = [] := by
  unfold percentBytes at h
  split at h
  · obtain ⟨_, -, h⟩ := Option.bind_eq_some_iff.mp h
    obtain ⟨_, -, h⟩ := Option.map_eq_some_iff.mp h
    cases h
  · split at h
    · cases h
    · obtain ⟨_, -, h⟩ := Option.map_eq_some_iff.mp h
      exact absurd (List.append_eq_nil_iff.mp h).1 String.utf8EncodeChar_ne_nil
  · rfl

/-- What is read as a dot is a dot, or the escape of one. -/
theorem dot_of_percentBytes (h : percentBytes component = some (46 :: bytes)) :
    ∃ front rest, component = front ++ rest ∧ isSingleDot front = true ∧ percentBytes rest = some bytes := by
  unfold percentBytes at h
  split at h
  · rename_i high low rest
    obtain ⟨byte, hbyte, h⟩ := Option.bind_eq_some_iff.mp h
    obtain ⟨later, hlater, h⟩ := Option.map_eq_some_iff.mp h
    obtain ⟨hdot, rfl⟩ := List.cons_eq_cons.mp h
    obtain ⟨m, n, hm, hn, hhigh, hlow, hvalue⟩ := escaped?_eq hbyte
    have hvalue : 16 * m + n = 46 := by
      have hdot := congrArg UInt8.toNat hdot
      rw [UInt8.toNat_ofNat', hvalue, Nat.mod_eq_of_lt (by omega)] at hdot
      exact hdot
    obtain ⟨rfl, rfl⟩ : m = 2 ∧ n = 14 := by omega
    rw [(toLower_eq_iff (by decide)).mp hhigh.symm] at *
    exact ⟨['%', '2', low], rest, rfl, isSingleDot_iff.mpr (.inr ⟨low, rfl, hlow.symm⟩), hlater⟩
  · rename_i c rest _
    split at h
    · cases h
    · obtain ⟨later, hlater, h⟩ := Option.map_eq_some_iff.mp h
      obtain ⟨hc, rfl⟩ := utf8EncodeChar_eq_cons (by decide) h
      have hc : c = '.' := Char.toNat_inj.mp hc
      exact ⟨['.'], rest, by rw [hc]; rfl, isSingleDot_iff.mpr (.inl rfl), hlater⟩
  · cases h

theorem isDoubleDot_iff : isDoubleDot component = true ↔
    ∃ front rest, component = front ++ rest ∧ isSingleDot front = true ∧ isSingleDot rest = true := by
  have hdots : ∀ word : List Char, word ∈ ["..".toList, ".%2e".toList, "%2e.".toList, "%2e%2e".toList] ↔
      ∃ front ∈ [".".toList, "%2e".toList], ∃ rest ∈ [".".toList, "%2e".toList], word = front ++ rest := by
    intro word
    simp only [List.mem_cons, List.not_mem_nil, or_false, exists_eq_or_imp, exists_eq_left]
    tauto
  simp only [isDoubleDot, isSingleDot, decide_eq_true_eq]
  rw [hdots]
  constructor
  · rintro ⟨front, hfront, rest, hrest, heq⟩
    obtain ⟨first, last, rfl, rfl, rfl⟩ := List.map_eq_append_iff.mp heq
    exact ⟨first, last, rfl, hfront, hrest⟩
  · rintro ⟨front, rest, rfl, hfront, hrest⟩
    exact ⟨_, hfront, _, hrest, List.map_append⟩

/-- The dot segments are those that are read as dots. -/
theorem isSingleDot_iff_decode : isSingleDot component = true ↔ decodeURIComponent component = some "." := by
  have hdot : ".".toList.flatMap String.utf8EncodeChar = [46] := rfl
  rw [decodeURIComponent_eq_some, hdot]
  constructor
  · intro h
    have hread := @percentBytes_dot component [] h
    rwa [List.append_nil] at hread
  · intro h
    obtain ⟨front, rest, rfl, hfront, hrest⟩ := dot_of_percentBytes h
    rwa [percentBytes_eq_nil hrest, List.append_nil]

theorem isDoubleDot_iff_decode : isDoubleDot component = true ↔ decodeURIComponent component = some ".." := by
  have hdots : "..".toList.flatMap String.utf8EncodeChar = [46, 46] := rfl
  rw [decodeURIComponent_eq_some, hdots, isDoubleDot_iff]
  constructor
  · rintro ⟨front, rest, rfl, hfront, hrest⟩
    have hread := @percentBytes_dot rest [] hrest
    rw [List.append_nil] at hread
    rw [percentBytes_dot hfront, hread]
    rfl
  · intro h
    obtain ⟨front, rest, rfl, hfront, hrest⟩ := dot_of_percentBytes h
    obtain ⟨next, last, rfl, hnext, hlast⟩ := dot_of_percentBytes hrest
    refine ⟨front, next, ?_, hfront, hnext⟩
    rw [percentBytes_eq_nil hlast, List.append_nil]

end UriComponent
