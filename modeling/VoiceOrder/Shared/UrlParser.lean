import VoiceOrder.Shared.UrlPath
import Mathlib.Data.List.DropRight

/-! # Reading URLs

What a reference comes to against a base. References that are absolute paths are read here; what
names a scheme or a host is left to a parameter. -/

open UrlPath

structure Url where
  origin : String
  /-- The scheme is one of those that read a backslash as a slash, and not that of files. -/
  special : Bool
  pathname : List Char
  /-- The query, with its question mark; an empty query has none. -/
  search : List Char
  deriving DecidableEq, Repr

namespace Url

/-! ## Percent-encoding -/

def hexDigit (n : ℕ) : Char := (Nat.digitChar n).toUpper

def escape (byte : UInt8) : List Char := ['%', hexDigit (byte.toNat / 16), hexDigit (byte.toNat % 16)]

/-- The characters of the set are written by the bytes of their UTF-8 encoding. -/
def encode (set : Char → Bool) (text : List Char) : List Char :=
  text.flatMap fun c => if set c then (String.utf8EncodeChar c).flatMap escape else [c]

def inQuerySet (c : Char) : Bool :=
  c.toNat ≤ 0x20 || 0x7E < c.toNat || c = '"' || c = '#' || c = '<' || c = '>'

def inSpecialQuerySet (c : Char) : Bool := inQuerySet c || c = '\x27'

def inPathSet (c : Char) : Bool :=
  inQuerySet c || c = '?' || c = '^' || c = '\x60' || c = '\x7b' || c = '\x7d'

/-! ## Absolute paths -/

def isBlank (c : Char) : Bool := c.toNat ≤ 0x20

/-- Blanks around a reference, and tabs and line ends in it, do not count. -/
def clean (reference : List Char) : List Char :=
  ((reference.dropWhile isBlank).rdropWhile isBlank).filter fun c => c ≠ '\t' && c ≠ '\n' && c ≠ '\r'

/-- Begins with one slash, so that it names no host. -/
def isAbsolutePath : List Char → Bool
  | '/' :: c :: _ => !isSeparator c
  | ['/'] => true
  | _ => false

def readQuery : List Char → List Char
  | '?' :: c :: rest => '?' :: encode inSpecialQuerySet (c :: rest)
  | _ => []

/-- An absolute path against a base whose scheme is special. -/
def atPath (base : Url) (reference : List Char) : Url :=
  let reference := reference.takeWhile (· ≠ '#')
  let path := (reference.takeWhile (· ≠ '?')).map fun c => if c = '\\' then '/' else c
  { base with
    pathname := text (normalize [] (segmentsOf (encode inPathSet path.tail)))
    search := readQuery (reference.dropWhile (· ≠ '?')) }

/-! ## What is read -/

/-- The path has no dot segments, and what must be encoded is. -/
structure Serialized (url : Url) : Prop where
  path : ∀ rest, url.pathname = '/' :: rest → ∃ path, url.pathname = text path ∧
    ∀ segment ∈ path, Proper segment ∧ ∀ c ∈ segment, c ≠ '/' ∧ inPathSet c = false
  search : ∀ c ∈ url.search, inQuerySet c = false
  query : url.search = [] ∨ ∃ rest, url.search = '?' :: rest

/-- A URL parser. -/
structure Parser where
  /-- A reference that names a scheme or a host, or is relative to a path. -/
  other : List Char → Option Url → Option Url
  serialized : ∀ {reference base url}, other reference base = some url → url.Serialized

def Parser.parse (parser : Parser) (reference : List Char) (base : Option Url) : Option Url :=
  match base with
  | some site =>
      if site.special && isAbsolutePath (clean reference) then some (site.atPath (clean reference))
      else parser.other (clean reference) base
  | none => parser.other (clean reference) none

/-- A parser that knows one site. -/
def Parser.knowing (origin : String) : Parser where
  other reference base := if base = none ∧ reference = origin.toList then some ⟨origin, true, ['/'], []⟩ else none
  serialized := by
    intro reference base url h
    obtain ⟨-, hurl⟩ := Option.ite_none_right_eq_some.mp h
    obtain rfl := Option.some.inj hurl
    refine ⟨fun _ _ => ⟨[[]], rfl, fun segment hsegment => ?_⟩, fun _ hc => (List.not_mem_nil hc).elim, .inl rfl⟩
    obtain rfl := List.mem_singleton.mp hsegment
    exact ⟨⟨rfl, rfl⟩, fun _ hc => (List.not_mem_nil hc).elim⟩

variable {url base : Url} {set : Char → Bool} {word : List Char} {c : Char}

theorem mem_encode (h : c ∈ encode set word) :
    c ∈ word ∧ set c = false ∨ c = '%' ∨ ∃ n < 16, c = hexDigit n := by
  obtain ⟨d, hd, hc⟩ := List.mem_flatMap.mp h
  split at hc
  · obtain ⟨byte, -, hbyte⟩ := List.mem_flatMap.mp hc
    have hsize : byte.toNat < 256 := byte.toNat_lt
    simp only [escape, List.mem_cons, List.not_mem_nil, or_false] at hbyte
    rcases hbyte with rfl | rfl | rfl
    · exact .inr (.inl rfl)
    · exact .inr (.inr ⟨_, by omega, rfl⟩)
    · exact .inr (.inr ⟨_, by omega, rfl⟩)
  · rename_i hset
    obtain rfl := List.mem_singleton.mp hc
    exact .inl ⟨hd, Bool.not_eq_true _ ▸ hset⟩

theorem hexDigit_plain : ∀ n < 16, inPathSet (hexDigit n) = false ∧ hexDigit n ≠ '/' ∧ hexDigit n ≠ '\\' := by
  decide

theorem mem_encode_path (h : c ∈ encode inPathSet word) : inPathSet c = false := by
  rcases mem_encode h with ⟨-, hset⟩ | rfl | ⟨n, hn, rfl⟩
  · exact hset
  · rfl
  · exact (hexDigit_plain n hn).1

theorem encode_of_plain (h : ∀ c ∈ word, set c = false) : encode set word = word := by
  induction word with
  | nil => rfl
  | cons c word ih =>
      obtain ⟨hc, hword⟩ := List.forall_mem_cons.mp h
      have hrest := ih hword
      rw [encode] at hrest ⊢
      rw [List.flatMap_cons, hrest, hc]
      rfl

theorem mem_readQuery (h : c ∈ readQuery word) : inQuerySet c = false := by
  unfold readQuery at h
  split at h
  · rcases List.mem_cons.mp h with rfl | h
    · rfl
    · rcases mem_encode h with ⟨-, hset⟩ | rfl | ⟨n, hn, rfl⟩
      · exact (Bool.or_eq_false_iff.mp hset).1
      · rfl
      · have hplain := (hexDigit_plain n hn).1
        simp only [inPathSet, Bool.or_eq_false_iff] at hplain
        exact hplain.1.1.1.1.1
  · cases h

theorem readQuery_shape (word : List Char) : readQuery word = [] ∨ ∃ rest, readQuery word = '?' :: rest := by
  unfold readQuery
  split
  · exact .inr ⟨_, rfl⟩
  · exact .inl rfl

theorem proper_nil : Proper [] := ⟨rfl, rfl⟩

theorem atPath_serialized (base : Url) (reference : List Char) : (base.atPath reference).Serialized where
  path := by
    intro rest hrest
    refine ⟨_, rfl, fun segment hmem => ?_⟩
    rcases mem_normalize hmem with hnone | rfl | ⟨hmem, hproper⟩
    · cases hnone
    · exact ⟨proper_nil, fun _ hc => by cases hc⟩
    · refine ⟨hproper, fun c hc => ?_⟩
      obtain ⟨hencoded, hslash⟩ := mem_segmentsOf hmem hc
      exact ⟨hslash, mem_encode_path hencoded⟩
  search := fun c hc => mem_readQuery hc
  query := readQuery_shape _

theorem Parser.parse_serialized {parser : Parser} {reference : List Char} {site : Option Url}
    (h : parser.parse reference site = some url) : url.Serialized := by
  unfold parse at h
  split at h
  · split at h
    · obtain rfl := Option.some.inj h
      exact atPath_serialized _ _
    · exact parser.serialized h
  · exact parser.serialized h

/-! ## Reading what was read -/

theorem plain_of_text {path : List Segment} (h : ∀ segment ∈ path, ∀ c ∈ segment, c ≠ '/' ∧ inPathSet c = false)
    (hc : c ∈ text path) : inPathSet c = false := by
  obtain ⟨segment, hmem, hc⟩ := List.mem_flatMap.mp hc
  rcases List.mem_cons.mp hc with rfl | hc
  · rfl
  · exact (h segment hmem c hc).2

theorem clean_of_plain (h : ∀ c ∈ word, inQuerySet c = false) : clean word = word := by
  have hblank : ∀ c ∈ word, ¬c.toNat ≤ 0x20 := fun c hc => by
    have hplain := h c hc
    simp only [inQuerySet, Bool.or_eq_false_iff, decide_eq_false_iff_not] at hplain
    exact hplain.1.1.1.1.1
  have hdrop : word.dropWhile isBlank = word := by
    cases word with
    | nil => rfl
    | cons c word =>
        exact List.dropWhile_cons_of_neg (by simpa [isBlank] using hblank c List.mem_cons_self)
  have hrdrop : word.rdropWhile isBlank = word := by
    refine List.rdropWhile_eq_self_iff.mpr fun hne => ?_
    simpa [isBlank] using hblank _ (List.getLast_mem hne)
  rw [clean, hdrop, hrdrop, List.filter_eq_self]
  intro c hc
  have hc := hblank c hc
  simp only [Bool.and_eq_true, ne_eq, decide_not, Bool.not_eq_true', decide_eq_false_iff_not]
  refine ⟨⟨?_, ?_⟩, ?_⟩ <;> rintro rfl <;> exact hc (by decide)

theorem takeWhile_of_plain {stop : Char} {tail : List Char} (h : stop ∉ word)
    (htail : tail = [] ∨ ∃ rest, tail = stop :: rest) :
    (word ++ tail).takeWhile (· ≠ stop) = word ∧ (word ++ tail).dropWhile (· ≠ stop) = tail := by
  have hword : ∀ c ∈ word, decide (c ≠ stop) = true := fun c hc => decide_eq_true fun heq => h (heq ▸ hc)
  rw [List.takeWhile_append_of_pos hword, List.dropWhile_append_of_pos hword]
  rcases htail with rfl | ⟨rest, rfl⟩ <;> simp

/-- A path that was read is read again as itself. -/
theorem parse_pathname {parser : Parser} {site : Url} (hsite : site.special = true)
    (h : url.Serialized) (habsolute : isAbsolutePath url.pathname = true) (hbackslash : '\\' ∉ url.pathname) :
    ∃ found, parser.parse (url.pathname ++ url.search) (some site) = some found ∧
      found.origin = site.origin ∧ found.pathname = url.pathname := by
  obtain ⟨rest, hrest⟩ : ∃ rest, url.pathname = '/' :: rest := by
    unfold isAbsolutePath at habsolute
    split at habsolute
    · exact ⟨_, by assumption⟩
    · exact ⟨_, by assumption⟩
    · cases habsolute
  obtain ⟨path, hpath, hsegments⟩ := h.path rest hrest
  have hplain : ∀ c ∈ url.pathname, inPathSet c = false := fun c hc =>
    plain_of_text (fun segment hmem => (hsegments segment hmem).2) (hpath ▸ hc)
  have hquery : ∀ c ∈ url.pathname ++ url.search, inQuerySet c = false := by
    intro c hc
    rcases List.mem_append.mp hc with hc | hc
    · have hc := hplain c hc
      simp only [inPathSet, Bool.or_eq_false_iff] at hc
      exact hc.1.1.1.1.1
    · exact h.search c hc
  have habsolute' : isAbsolutePath (url.pathname ++ url.search) = true := by
    rw [hrest] at habsolute ⊢
    cases rest with
    | nil =>
        rcases h.query with hnone | ⟨query, hquestion⟩
        · rw [hnone]
          rfl
        · rw [hquestion]
          rfl
    | cons c rest => exact habsolute
  have hhash : '#' ∉ url.pathname ++ url.search := fun hmem => by
    have hset := hquery _ hmem
    cases hset
  have hquestion : '?' ∉ url.pathname := fun hmem => by
    have hset := hplain _ hmem
    cases hset
  have hreference := (takeWhile_of_plain hhash (.inl rfl)).1
  rw [List.append_nil] at hreference
  have hslashes : url.pathname.map (fun c => if c = '\\' then '/' else c) = url.pathname := by
    refine (List.map_congr_left fun c hc => if_neg fun heq : c = '\\' => hbackslash (heq ▸ hc)).trans ?_
    exact List.map_id _
  have hsplit : segmentsOf rest = path := by
    have hwhole := segmentsOf_text fun segment hmem hslash => ((hsegments segment hmem).2 '/' hslash).1 rfl
    rw [← hpath, hrest, segmentsOf, List.splitOnP_cons_eq_if_modifyHead, if_pos (decide_eq_true rfl)] at hwhole
    exact (List.cons_eq_cons.mp hwhole).2
  refine ⟨site.atPath (url.pathname ++ url.search), ?_, rfl, ?_⟩
  · rw [Parser.parse, clean_of_plain hquery, hsite, habsolute']
    rfl
  · have hencoded : encode inPathSet rest = rest := encode_of_plain fun c hc =>
      hplain c (hrest ▸ List.mem_cons_of_mem _ hc)
    dsimp only [atPath]
    rw [hreference, (takeWhile_of_plain hquestion h.query).1, hslashes, hrest, List.tail_cons, hencoded,
      hsplit, normalize_proper fun segment hmem => (hsegments segment hmem).1, List.nil_append, ← hpath, hrest]

end Url
