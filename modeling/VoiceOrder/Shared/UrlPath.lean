import Mathlib.Data.List.Basic
import Mathlib.Data.List.Infix

/-! # Paths of URLs

A path is a list of segments. Dot segments are resolved when it is read; percent-escapes are not,
so a reader that unquotes the text may find separators and dots that were not there. -/

namespace UrlPath

abbrev Segment := List Char

/-- The text of a path: each segment follows a slash. -/
def text (path : List Segment) : List Char := path.flatMap fun segment => '/' :: segment

def segmentsOf (text : List Char) : List Segment := text.splitOnP fun c => c = '/'

/-! ## Dot segments -/

def isSingleDot (segment : Segment) : Bool :=
  segment.map Char.toLower ∈ [".".toList, "%2e".toList]

def isDoubleDot (segment : Segment) : Bool :=
  segment.map Char.toLower ∈ ["..".toList, ".%2e".toList, "%2e.".toList, "%2e%2e".toList]

/-- Add a segment to a path. A dot segment at the end leaves an empty one. -/
def push (path : List Segment) (segment : Segment) (last : Bool) : List Segment :=
  if isDoubleDot segment then path.dropLast ++ (if last then [[]] else [])
  else if isSingleDot segment then path ++ (if last then [[]] else [])
  else path ++ [segment]

def normalize (path : List Segment) : List Segment → List Segment
  | [] => path
  | [segment] => push path segment true
  | segment :: next :: rest => normalize (push path segment false) (next :: rest)

/-- Not a dot segment, in any of its spellings. -/
def Proper (segment : Segment) : Prop := isSingleDot segment = false ∧ isDoubleDot segment = false

/-! ## Escapes -/

def hexValue (c : Char) : Option ℕ := (List.range 16).find? fun n => Nat.digitChar n = c.toLower

/-- The byte that two digits of an escape stand for. -/
def escaped? (high low : Char) : Option Char :=
  (hexValue high).bind fun h => (hexValue low).map fun l => Char.ofNat (16 * h + l)

/-- What a reader makes of the text: each escape is replaced by its byte. -/
def unquote : List Char → List Char
  | '%' :: high :: low :: rest =>
      match escaped? high low with
      | some c => c :: unquote rest
      | none => '%' :: unquote (high :: low :: rest)
  | c :: rest => c :: unquote rest
  | [] => []

/-- The text begins with a backslash, or with an escaped separator or dot. -/
def startsTraversal : List Char → Bool
  | [] => false
  | c :: rest => decide (c = '\\') || decide (c = '%') &&
      ["2e", "2f", "5c"].any fun digits => digits.toList.isPrefixOf (rest.map Char.toLower)

def encodedTraversal (text : List Char) : Bool := text.tails.any startsTraversal

/-! ## The reader behind -/

def isSeparator (c : Char) : Bool := c = '/' || c = '\\'

/-- Dot segments resolved once more, after the unquoting. -/
def resolve (path : List Segment) : List Segment → List Segment
  | [] => path
  | segment :: rest =>
      resolve (if segment = ['.', '.'] then path.dropLast else if segment = ['.'] then path
        else path ++ [segment]) rest

/-- The path that a reader serves who unquotes the text before splitting it. -/
def served (text : List Char) : List Segment :=
  resolve [] ((unquote text).splitOnP isSeparator)

variable {path : List Segment} {segment : Segment} {word tail : List Char} {c high low : Char}

/-! ## What a resolved path is made of -/

theorem mem_segmentsOf (h : segment ∈ segmentsOf word) (hc : c ∈ segment) : c ∈ word ∧ c ≠ '/' := by
  induction word generalizing segment with
  | nil =>
      rw [segmentsOf, List.splitOnP_nil, List.mem_singleton] at h
      exact absurd hc (h ▸ List.not_mem_nil)
  | cons d word ih =>
      rw [segmentsOf, List.splitOnP_cons_eq_if_modifyHead] at h
      split at h
      · rcases List.mem_cons.mp h with rfl | h
        · cases hc
        · exact (ih h hc).imp_left (List.mem_cons_of_mem _)
      · rename_i hd
        obtain ⟨first, rest, hsegments⟩ := List.exists_cons_of_ne_nil (List.splitOnP_ne_nil _ word)
        rw [hsegments, List.modifyHead_cons] at h
        rw [segmentsOf, hsegments] at ih
        rcases List.mem_cons.mp h with rfl | h
        · rcases List.mem_cons.mp hc with rfl | hc
          · exact ⟨List.mem_cons_self, fun heq => hd (decide_eq_true heq)⟩
          · exact (ih List.mem_cons_self hc).imp_left (List.mem_cons_of_mem _)
        · exact (ih (List.mem_cons_of_mem _ h) hc).imp_left (List.mem_cons_of_mem _)

/-- A text is split where it was put together, whatever else it is split at. -/
theorem splitOnP_text {isCut : Char → Bool} (hslash : isCut '/' = true)
    (h : ∀ segment ∈ path, ∀ c ∈ segment, isCut c = false) : (text path).splitOnP isCut = [] :: path := by
  suffices hfront : ∀ front : Segment, (∀ c ∈ front, isCut c = false) →
      (front ++ text path).splitOnP isCut = front :: path from
    hfront [] fun _ hc => (List.not_mem_nil hc).elim
  induction path with
  | nil =>
      intro front hfront
      rw [text, List.flatMap_nil, List.append_nil]
      exact List.splitOnP_eq_singleton hfront
  | cons segment path ih =>
      intro front hfront
      obtain ⟨hsegment, hpath⟩ := List.forall_mem_cons.mp h
      rw [text, List.flatMap_cons, List.cons_append]
      exact (List.splitOnP_append_cons_of_forall_mem hfront '/' hslash _).trans
        (congrArg (front :: ·) (ih hpath segment hsegment))

theorem segmentsOf_text (h : ∀ segment ∈ path, '/' ∉ segment) : segmentsOf (text path) = [] :: path :=
  splitOnP_text (decide_eq_true rfl) fun segment hmem _ hc =>
    decide_eq_false fun heq => h segment hmem (heq ▸ hc)

theorem mem_push {last : Bool} {other : Segment} (h : other ∈ push path segment last) :
    other ∈ path ∨ other = [] ∨ other = segment ∧ Proper segment := by
  unfold push at h
  split at h
  · rcases List.mem_append.mp h with h | h
    · exact .inl ((List.dropLast_sublist _).subset h)
    · cases last with
      | true => exact .inr (.inl (List.mem_singleton.mp h))
      | false => cases h
  · rename_i hdouble
    split at h
    · rcases List.mem_append.mp h with h | h
      · exact .inl h
      · cases last with
        | true => exact .inr (.inl (List.mem_singleton.mp h))
        | false => cases h
    · rename_i hsingle
      rcases List.mem_append.mp h with h | h
      · exact .inl h
      · exact .inr (.inr ⟨List.mem_singleton.mp h, Bool.not_eq_true _ ▸ hsingle, Bool.not_eq_true _ ▸ hdouble⟩)

theorem mem_normalize {segments : List Segment} {other : Segment} (h : other ∈ normalize path segments) :
    other ∈ path ∨ other = [] ∨ other ∈ segments ∧ Proper other := by
  induction path, segments using normalize.induct with
  | case1 path => exact .inl h
  | case2 path segment =>
      rcases mem_push h with h | h | ⟨rfl, hproper⟩
      · exact .inl h
      · exact .inr (.inl h)
      · exact .inr (.inr ⟨List.mem_singleton_self _, hproper⟩)
  | case3 path segment next rest ih =>
      rcases ih h with h | h | ⟨h, hproper⟩
      · rcases mem_push h with h | h | ⟨rfl, hproper⟩
        · exact .inl h
        · exact .inr (.inl h)
        · exact .inr (.inr ⟨List.mem_cons_self, hproper⟩)
      · exact .inr (.inl h)
      · exact .inr (.inr ⟨List.mem_cons_of_mem _ h, hproper⟩)

theorem push_proper (h : Proper segment) (last : Bool) : push path segment last = path ++ [segment] := by
  simp [push, h.1, h.2]

/-- A path without dot segments is left as it is. -/
theorem normalize_proper {segments : List Segment} (h : ∀ segment ∈ segments, Proper segment) :
    normalize path segments = path ++ segments := by
  induction path, segments using normalize.induct with
  | case1 path => rw [normalize, List.append_nil]
  | case2 path segment => exact push_proper (h segment (List.mem_singleton_self _)) true
  | case3 path segment next rest ih =>
      obtain ⟨hsegment, hrest⟩ := List.forall_mem_cons.mp h
      rw [normalize, ih hrest, push_proper hsegment, List.append_assoc, List.singleton_append]

/-! ## What unquoting brings to light -/

theorem hexValue_eq {n : ℕ} (h : hexValue c = some n) : n < 16 ∧ Nat.digitChar n = c.toLower := by
  have hfound := List.find?_some h
  exact ⟨List.mem_range.mp (List.mem_of_find?_eq_some h), of_decide_eq_true hfound⟩

theorem toNat_ofNat_byte {n : ℕ} (h : n < 256) : (Char.ofNat n).toNat = n := by
  have hvalid : n.isValidChar := .inl (by omega)
  rw [Char.ofNat, dif_pos hvalid]
  rfl

theorem escaped?_eq (h : escaped? high low = some c) : ∃ m n, m < 16 ∧ n < 16 ∧
    Nat.digitChar m = high.toLower ∧ Nat.digitChar n = low.toLower ∧ c.toNat = 16 * m + n := by
  obtain ⟨m, hm, h⟩ := Option.bind_eq_some_iff.mp h
  obtain ⟨n, hn, rfl⟩ := Option.map_eq_some_iff.mp h
  obtain ⟨hm, hhigh⟩ := hexValue_eq hm
  obtain ⟨hn, hlow⟩ := hexValue_eq hn
  exact ⟨m, n, hm, hn, hhigh, hlow, toNat_ofNat_byte (by omega)⟩

theorem encodedTraversal_eq_false : encodedTraversal word = false ↔
    ∀ tail, tail <:+ word → startsTraversal tail = false := by
  simp only [encodedTraversal, List.any_eq_false, Bool.not_eq_true, List.mem_tails]

theorem startsTraversal_append (h : startsTraversal word = true) : startsTraversal (word ++ tail) = true := by
  cases word with
  | nil => cases h
  | cons c word =>
      simp only [startsTraversal, List.cons_append, Bool.or_eq_true, Bool.and_eq_true, List.any_eq_true,
        List.isPrefixOf_iff_prefix] at h ⊢
      refine h.imp_right fun ⟨hc, digits, hmem, hdigits⟩ => ⟨hc, digits, hmem, hdigits.trans ?_⟩
      rw [List.map_append]
      exact List.prefix_append _ _

/-- Each part of a text that passes the check passes it. -/
theorem encodedTraversal_infix (h : encodedTraversal tail = false) (hword : word <:+: tail) :
    encodedTraversal word = false := by
  rw [encodedTraversal_eq_false] at h ⊢
  intro last hlast
  obtain ⟨before, after, rfl⟩ := hword
  have hwhole := h (last ++ after) ?_
  · exact Bool.eq_false_iff.mpr fun hstarts => Bool.eq_false_iff.mp hwhole (startsTraversal_append hstarts)
  · obtain ⟨front, rfl⟩ := hlast
    exact ⟨before ++ front, by simp⟩

/-- No escape of a text that passes the check stands for a separator or a dot. -/
theorem escaped?_harmless (h : encodedTraversal ('%' :: high :: low :: tail) = false)
    (hc : escaped? high low = some c) : c ≠ '.' ∧ isSeparator c = false := by
  obtain ⟨m, n, hm, hn, hhigh, hlow, hvalue⟩ := escaped?_eq hc
  have hstarts := encodedTraversal_eq_false.mp h _ (List.suffix_refl _)
  have hlisted : ∀ digits ∈ ["2e", "2f", "5c"], digits.toList ≠ [Nat.digitChar m, Nat.digitChar n] := by
    intro digits hmem heq
    refine Bool.eq_false_iff.mp hstarts ?_
    simp only [startsTraversal, Bool.or_eq_true, Bool.and_eq_true, List.any_eq_true,
      List.isPrefixOf_iff_prefix]
    refine .inr ⟨by decide, digits, hmem, ?_⟩
    rw [heq, hhigh, hlow]
    exact ⟨tail.map Char.toLower, rfl⟩
  have hne : ∀ d : Char, ∀ i j, d.toNat = 16 * i + j → j < 16 →
      (∃ digits ∈ ["2e", "2f", "5c"], digits.toList = [Nat.digitChar i, Nat.digitChar j]) → c ≠ d := by
    rintro d i j hd hj ⟨digits, hmem, heq⟩ rfl
    obtain ⟨rfl, rfl⟩ : m = i ∧ n = j := by omega
    exact hlisted digits hmem heq
  refine ⟨hne '.' 2 14 rfl (by decide) ⟨"2e", by decide, rfl⟩, ?_⟩
  simp only [isSeparator, Bool.or_eq_false_iff, decide_eq_false_iff_not]
  exact ⟨hne '/' 2 15 rfl (by decide) ⟨"2f", by decide, rfl⟩,
    hne '\\' 5 12 rfl (by decide) ⟨"5c", by decide, rfl⟩⟩

/-! ## Unquoting segment by segment -/

/-- A character of the unquoted text was there before, or it is harmless. -/
theorem mem_unquote (h : encodedTraversal word = false) (hc : c ∈ unquote word) :
    c ∈ word ∨ c ≠ '.' ∧ isSeparator c = false := by
  induction word using unquote.induct with
  | case1 high low rest d hd ih =>
      rw [unquote, hd] at hc
      rcases List.mem_cons.mp hc with rfl | hc
      · exact .inr (escaped?_harmless h hd)
      · have hrest : encodedTraversal rest = false :=
          encodedTraversal_infix h ⟨['%', high, low], [], List.append_nil _⟩
        exact (ih hrest hc).imp_left fun hmem => List.mem_cons_of_mem _ (List.mem_cons_of_mem _
          (List.mem_cons_of_mem _ hmem))
  | case2 high low rest hnone ih =>
      rw [unquote, hnone] at hc
      rcases List.mem_cons.mp hc with rfl | hc
      · exact .inl List.mem_cons_self
      · have hrest : encodedTraversal (high :: low :: rest) = false :=
          encodedTraversal_infix h ⟨['%'], [], List.append_nil _⟩
        exact (ih hrest hc).imp_left (List.mem_cons_of_mem _)
  | case3 d rest hnot ih =>
      rw [unquote] at hc
      · rcases List.mem_cons.mp hc with rfl | hc
        · exact .inl List.mem_cons_self
        · have hrest : encodedTraversal rest = false :=
            encodedTraversal_infix h ⟨[d], [], List.append_nil _⟩
          exact (ih hrest hc).imp_left (List.mem_cons_of_mem _)
      · exact hnot
  | case4 => cases hc

theorem unquote_cons (h : ∀ high low rest, c = '%' → word = high :: low :: rest → escaped? high low = none) :
    unquote (c :: word) = c :: unquote word := by
  by_cases hshape : ∃ high low rest, c = '%' ∧ word = high :: low :: rest
  · obtain ⟨high, low, rest, rfl, rfl⟩ := hshape
    rw [unquote, h high low rest rfl rfl]
  · rw [unquote]
    intro high low rest hc hword
    exact hshape ⟨high, low, rest, hc, hword⟩

theorem escaped?_slash_left : escaped? '/' low = none := by
  have hslash : hexValue '/' = none := by decide
  rw [escaped?, hslash, Option.bind_none]

theorem escaped?_slash_right : escaped? high '/' = none := by
  have hslash : hexValue '/' = none := by decide
  cases hhigh : hexValue high <;> simp [escaped?, hhigh, hslash]

/-- No escape goes over a slash. -/
theorem unquote_slash : unquote (word ++ '/' :: tail) = unquote word ++ '/' :: unquote tail := by
  induction word using unquote.induct with
  | case1 high low rest d hd ih =>
      rw [List.cons_append, List.cons_append, List.cons_append, unquote, unquote, hd]
      exact congrArg (d :: ·) ih
  | case2 high low rest hnone ih =>
      rw [List.cons_append, unquote_cons, unquote_cons, ih, List.cons_append]
      · rintro _ _ _ - ⟨⟩
        exact hnone
      · rintro _ _ _ - ⟨⟩
        exact hnone
  | case3 d rest hnot ih =>
      rw [List.cons_append, unquote_cons, unquote_cons, ih, List.cons_append]
      · intro high low last hd hrest
        exact (hnot high low last hd hrest).elim
      · rintro high low last hd heq
        cases rest with
        | nil =>
            obtain ⟨rfl, -⟩ := List.cons_eq_cons.mp heq
            exact escaped?_slash_left
        | cons a rest =>
            cases rest with
            | nil =>
                obtain ⟨-, heq⟩ := List.cons_eq_cons.mp heq
                obtain ⟨rfl, -⟩ := List.cons_eq_cons.mp heq
                exact escaped?_slash_right
            | cons b rest => exact (hnot a b rest hd rfl).elim
  | case4 =>
      rw [List.nil_append, unquote_cons]
      · rfl
      · rintro _ _ _ ⟨⟩

theorem unquote_text : unquote (text path) = text (path.map unquote) := by
  suffices hfront : ∀ front, unquote (front ++ text path) = unquote front ++ text (path.map unquote) from
    hfront []
  induction path with
  | nil =>
      intro front
      rw [text, List.flatMap_nil, List.append_nil, List.map_nil, text, List.flatMap_nil, List.append_nil]
  | cons segment path ih =>
      intro front
      rw [text, List.flatMap_cons, List.cons_append, unquote_slash, List.map_cons, text, List.flatMap_cons,
        List.cons_append]
      exact congrArg (unquote front ++ '/' :: ·) (ih segment)

/-- Unquoting makes no dot segment. -/
theorem unquote_of_dots (h : encodedTraversal word = false) (hdots : ∀ c ∈ unquote word, c = '.') :
    unquote word = word := by
  induction word using unquote.induct with
  | case1 high low rest d hd ih =>
      rw [unquote, hd] at hdots
      exact absurd (hdots d List.mem_cons_self) (escaped?_harmless h hd).1
  | case2 high low rest hnone ih =>
      rw [unquote, hnone] at hdots
      exact absurd (hdots '%' List.mem_cons_self) (by decide)
  | case3 d rest hnot ih =>
      have hcons : unquote (d :: rest) = d :: unquote rest :=
        unquote_cons fun high low last hd hrest => (hnot high low last hd hrest).elim
      have hrest : encodedTraversal rest = false := encodedTraversal_infix h ⟨[d], [], List.append_nil _⟩
      rw [hcons] at hdots ⊢
      rw [ih hrest fun c hc => hdots c (List.mem_cons_of_mem _ hc)]
  | case4 => rfl

theorem resolve_of_ne {segments : List Segment} (h : ∀ segment ∈ segments, segment ≠ ['.'] ∧ segment ≠ ['.', '.']) :
    resolve path segments = path ++ segments := by
  induction segments generalizing path with
  | nil => exact (List.append_nil _).symm
  | cons segment segments ih =>
      obtain ⟨⟨hsingle, hdouble⟩, hrest⟩ := List.forall_mem_cons.mp h
      rw [resolve, if_neg hdouble, if_neg hsingle, ih hrest, List.append_assoc, List.singleton_append]

/-- A reader who unquotes first serves the segments of the path, each unquoted, where the path has
no dot segments and passes the check. -/
theorem served_text (hproper : ∀ segment ∈ path, '/' ∉ segment ∧ Proper segment)
    (h : encodedTraversal (text path) = false) : served (text path) = [] :: path.map unquote := by
  have hsafe : ∀ segment ∈ path, encodedTraversal segment = false := fun segment hmem => by
    obtain ⟨front, rest, rfl⟩ := List.append_of_mem hmem
    refine encodedTraversal_infix h ⟨text front ++ ['/'], text rest, ?_⟩
    simp [text]
  have hclean : ∀ segment ∈ path.map unquote, ∀ c ∈ segment, isSeparator c = false := by
    intro read hread c hc
    obtain ⟨segment, hmem, rfl⟩ := List.mem_map.mp hread
    rcases mem_unquote (hsafe segment hmem) hc with hold | hnew
    · simp only [isSeparator, Bool.or_eq_false_iff, decide_eq_false_iff_not]
      refine ⟨fun heq => (hproper segment hmem).1 (heq ▸ hold), fun heq => ?_⟩
      obtain ⟨front, rest, rfl⟩ := List.append_of_mem hold
      have hhere := encodedTraversal_eq_false.mp (hsafe _ hmem) (c :: rest) (List.suffix_append _ _)
      simp [startsTraversal, heq] at hhere
    · exact hnew.2
  have hdots : ∀ segment ∈ path.map unquote, segment ≠ ['.'] ∧ segment ≠ ['.', '.'] := by
    intro read hread
    obtain ⟨segment, hmem, rfl⟩ := List.mem_map.mp hread
    obtain ⟨-, hsingle, hdouble⟩ := hproper segment hmem
    constructor
    · intro heq
      have hsame := unquote_of_dots (hsafe segment hmem) (by rw [heq]; simp)
      rw [← hsame, heq] at hsingle
      exact absurd hsingle (by decide)
    · intro heq
      have hsame := unquote_of_dots (hsafe segment hmem) (by rw [heq]; simp)
      rw [← hsame, heq] at hdouble
      exact absurd hdouble (by decide)
  rw [served, unquote_text, splitOnP_text rfl hclean, resolve, if_neg (by simp), if_neg (by simp),
    resolve_of_ne hdots]
  rfl

theorem segmentsOf_append : segmentsOf (word ++ '/' :: tail) = segmentsOf word ++ segmentsOf tail :=
  List.splitOnP_append_cons _ _ (decide_eq_true rfl)

/-- What a path is, from what its text starts with. -/
theorem path_of_front {front : List Segment} (hpath : ∀ segment ∈ path, '/' ∉ segment)
    (hfront : ∀ segment ∈ front, '/' ∉ segment) (h : text path = text front ++ '/' :: tail) :
    path = front ++ segmentsOf tail := by
  have hsegments := segmentsOf_text hpath
  rw [h, segmentsOf_append, segmentsOf_text hfront, List.cons_append] at hsegments
  exact (List.cons_eq_cons.mp hsegments).2.symm

end UrlPath
