import VoiceOrder.Shared.Words
import VoiceOrder.Tts.SegmentText

/-! # Words that stay whole

Sentences are split at any white space and segments trimmed of any, but an over-long sentence is
cut at a space character. Where it has none before the cap, the cut falls where it may. -/

namespace VoiceOrder.Tts

open Words

/-- The code unit of the space character. -/
def space : UInt16 := ' '.val.toUInt16

/-- The words of a text, between white space of any kind. -/
abbrev wordsOf (text : CodeUnits) : List CodeUnits := words isSpace text

/-- The sentences of a text. -/
def sentences (text : CodeUnits) : List CodeUnits :=
  ((splitSentences false [] (trim text)).map trim).filter fun sentence => !sentence.isEmpty

theorem dropWhile_length_le (text : CodeUnits) : (text.dropWhile isSpace).length ≤ text.length :=
  (List.dropWhile_suffix _).length_le

/-- Cut at the cap again and again, with the white space at the cut left out, the stretch is always
cut next to white space. -/
def breaksAtCaps (stretch : CodeUnits) : Bool :=
  if maxChars < stretch.length then
    (stretch[maxChars - 1]?.any isSpace || stretch[maxChars]?.any isSpace) &&
      breaksAtCaps ((stretch.drop maxChars).dropWhile isSpace)
  else true
termination_by stretch.length
decreasing_by
  have hle := dropWhile_length_le (stretch.drop maxChars)
  have hpos : 0 < maxChars := by decide
  rw [List.length_drop] at hle
  omega

/-- Every stretch of the sentence without a space character is cut next to white space. -/
def BreaksWell (sentence : CodeUnits) : Prop :=
  ∀ stretch ∈ sentence.splitOn space, breaksAtCaps (stretch.dropWhile isSpace) = true

/-! ## Sentences -/

@[simp]
theorem wordsOf_trim (text : CodeUnits) : wordsOf (trim text) = wordsOf text := by
  rw [wordsOf, trim, words_rdropWhile, words_dropWhile]

/-- Sentences are split between words. -/
theorem wordsOf_splitSentences {inGap : Bool} {sentence : CodeUnits} (text : CodeUnits)
    (hgap : inGap = true → sentence = []) :
    (splitSentences inGap sentence text).flatMap wordsOf = wordsOf (sentence ++ text) := by
  induction text generalizing inGap sentence with
  | nil => rw [splitSentences, List.flatMap_singleton, List.append_nil]
  | cons unit rest ih =>
      rw [splitSentences]
      by_cases hunit : isSpace unit = true
      · rw [if_pos hunit]
        split
        case isTrue hin =>
            rw [ih fun _ => hgap hin, hgap hin, List.nil_append, List.nil_append]
            exact (words_cons hunit rest).symm
        case isFalse hout =>
            split
            case isTrue =>
                rw [List.flatMap_cons, ih fun _ => rfl]
                exact (words_append_cons hunit sentence rest).symm
            case isFalse =>
                rw [ih fun hfalse => absurd hfalse Bool.false_ne_true, List.append_assoc,
                  List.singleton_append]
      · rw [if_neg hunit, ih fun hfalse => absurd hfalse Bool.false_ne_true, List.append_assoc,
          List.singleton_append]

theorem wordsOf_sentences (text : CodeUnits) : (sentences text).flatMap wordsOf = wordsOf text := by
  have hsplit : (splitSentences false [] (trim text)).flatMap wordsOf = wordsOf (trim text) :=
    wordsOf_splitSentences (trim text) fun hfalse => absurd hfalse Bool.false_ne_true
  have htrims : ∀ split : List CodeUnits, (split.map trim).flatMap wordsOf = split.flatMap wordsOf := by
    intro split
    rw [List.flatMap_map]
    exact congrArg split.flatMap (funext wordsOf_trim)
  rw [sentences, flatMap_filter_nonempty rfl, htrims, hsplit, wordsOf_trim]

/-- The segments are the pieces of the sentences. -/
theorem segmentText_eq (text : CodeUnits) : segmentText text = (sentences text).flatMap wrap := by
  have hpieces : ∀ sentence ∈ sentences text,
      (if sentence.length ≤ maxChars then [sentence] else wrap sentence) = wrap sentence := by
    intro sentence hsentence
    have hne : ¬sentence.isEmpty = true := by simpa using (List.mem_filter.mp hsentence).2
    split
    case isTrue hshort => rw [wrap, if_neg (not_lt.mpr hshort), if_neg hne]
    case isFalse => rfl
  have hmap := List.flatMap_congr hpieces
  rw [segmentText]
  split
  case isTrue hempty =>
      rw [sentences, List.isEmpty_iff.mp hempty]
      rfl
  case isFalse => exact hmap

/-! ## Stretches without a space -/

theorem breaksAtCaps_of_short {stretch : CodeUnits} (h : stretch.length ≤ maxChars) :
    breaksAtCaps stretch = true := by
  rw [breaksAtCaps, if_neg (not_lt.mpr h)]

theorem splitOn_cons (unit : UInt16) (text : CodeUnits) :
    (unit :: text).splitOn space =
      if unit = space then [] :: text.splitOn space
      else (text.splitOn space).modifyHead (unit :: ·) := by
  rw [List.splitOn_cons_eq_if_modifyHead]
  simp only [beq_iff_eq]

theorem exists_splitOn (text : CodeUnits) :
    ∃ stretch later, text.splitOn space = stretch :: later :=
  List.exists_cons_of_ne_nil (List.splitOn_ne_nil space text)

theorem length_le_of_mem_splitOn {text stretch : CodeUnits} (h : stretch ∈ text.splitOn space) :
    stretch.length ≤ text.length := by
  induction text generalizing stretch with
  | nil =>
      rw [List.splitOn_nil, List.mem_singleton] at h
      rw [h]
  | cons unit text ih =>
      rw [splitOn_cons] at h
      split at h
      · rcases List.mem_cons.mp h with rfl | hlater
        · exact Nat.zero_le _
        · exact (ih hlater).trans (Nat.le_succ _)
      · obtain ⟨first, later, hsplit⟩ := exists_splitOn text
        rw [hsplit, List.modifyHead_cons] at h
        rcases List.mem_cons.mp h with rfl | hlater
        · exact Nat.succ_le_succ (ih (hsplit ▸ List.mem_cons_self))
        · exact (ih (hsplit ▸ List.mem_cons_of_mem _ hlater)).trans (Nat.le_succ _)

/-- What has no space character is part of the first stretch. -/
theorem splitOn_append {first : CodeUnits} (h : space ∉ first) (second : CodeUnits) :
    (first ++ second).splitOn space = (second.splitOn space).modifyHead (first ++ ·) := by
  obtain ⟨stretch, later, hsplit⟩ := exists_splitOn second
  induction first with
  | nil => rw [List.nil_append, hsplit, List.modifyHead_cons, List.nil_append]
  | cons unit first ih =>
      have hunit : unit ≠ space := fun heq => h (heq ▸ List.mem_cons_self)
      rw [List.cons_append, splitOn_cons, if_neg hunit, ih fun hmem => h (List.mem_cons_of_mem _ hmem),
        hsplit, List.modifyHead_cons, List.modifyHead_cons, List.modifyHead_cons, List.cons_append]

theorem isSpace_space : isSpace space = true := by decide

/-- White space in front of a text does not matter to its stretches. -/
theorem breaksWell_dropWhile (text : CodeUnits) :
    BreaksWell (text.dropWhile isSpace) ↔ BreaksWell text := by
  induction text with
  | nil => rfl
  | cons unit text ih =>
      by_cases hunit : isSpace unit = true
      · rw [List.dropWhile_cons_of_pos hunit, ih]
        unfold BreaksWell
        obtain ⟨stretch, later, hsplit⟩ := exists_splitOn text
        rw [splitOn_cons]
        split
        · rw [List.forall_mem_cons]
          exact ⟨fun hall => ⟨breaksAtCaps_of_short (Nat.zero_le _), hall⟩, And.right⟩
        · rw [hsplit, List.modifyHead_cons, List.forall_mem_cons, List.forall_mem_cons,
            List.dropWhile_cons_of_pos hunit]
      · rw [List.dropWhile_cons_of_neg hunit]

theorem breaksWell_of_short {text : CodeUnits} (h : text.length ≤ maxChars) : BreaksWell text := by
  intro stretch hstretch
  refine breaksAtCaps_of_short ((dropWhile_length_le stretch).trans ?_)
  exact (length_le_of_mem_splitOn hstretch).trans h

theorem breaksWell_append_cons (first second : CodeUnits) :
    BreaksWell (first ++ space :: second) ↔ BreaksWell first ∧ BreaksWell second := by
  unfold BreaksWell
  rw [List.splitOn_append_cons_self]
  exact List.forall_mem_append

/-! ## Cuts -/

/-- An over-long sentence is cut at a space character, or at the cap if there is none before it. -/
theorem cutPoint_cases {rest : CodeUnits} (hstarts : StartsSpoken rest) :
    rest[cutPoint rest]? = some space ∨
      cutPoint rest = maxChars ∧ ∀ index ≤ maxChars, rest[index]? ≠ some space := by
  unfold cutPoint
  cases hlast : lastSpace rest with
  | some index =>
      have hmem := (List.mem_filter.mp (List.mem_of_getLast? hlast)).2
      have hspace : rest[index]? = some space := of_decide_eq_true hmem
      dsimp only
      split
      case isTrue => exact Or.inl hspace
      case isFalse hzero =>
          -- A text that starts with no white space has no space character at its start.
          obtain rfl : index = 0 := Nat.eq_zero_of_not_pos hzero
          rw [← List.head?_eq_getElem?] at hspace
          exact absurd (hstarts space hspace) (by simp [isSpace_space])
  | none =>
      refine Or.inr ⟨rfl, fun index hle hspace => ?_⟩
      have hnil := List.getLast?_eq_none_iff.mp hlast
      have hmem : index ∈ (List.range (maxChars + 1)).filter fun index =>
          rest[index]? = some ' '.val.toUInt16 :=
        List.mem_filter.mpr ⟨List.mem_range.mpr (Nat.lt_succ_of_le hle), decide_eq_true hspace⟩
      rw [hnil] at hmem
      cases hmem

/-- What follows a cut needs no trimming at its end. -/
theorem trim_drop {rest : CodeUnits} (hends : EndsSpoken rest) (cut : ℕ) :
    trim (rest.drop cut) = (rest.drop cut).dropWhile isSpace := by
  refine List.rdropWhile_eq_self_iff.mpr fun hne => ?_
  obtain ⟨start, hstart⟩ := (List.dropWhile_suffix isSpace).trans (List.drop_suffix cut rest)
  have hlast := List.getLast?_append_of_ne_nil start hne
  rw [hstart, List.getLast?_eq_some_getLast hne] at hlast
  exact Bool.eq_false_iff.mp (hends _ hlast)

theorem dropWhile_of_startsSpoken {text : CodeUnits} (h : StartsSpoken text) :
    text.dropWhile isSpace = text := by
  cases text with
  | nil => rfl
  | cons unit rest => exact List.dropWhile_cons_of_neg (Bool.eq_false_iff.mp (h unit rfl))

theorem divides_iff {first second : CodeUnits} {last head : UInt16} (hlast : first.getLast? = some last)
    (hhead : second.head? = some head) :
    Divides isSpace first second ↔ isSpace last = false ∧ isSpace head = false := by
  unfold Divides
  rw [hlast, hhead]
  simp

/-- Where there is no space character up to the cap, the first stretch is the one that is cut. -/
theorem breaksWell_cap {rest : CodeUnits} (hstarts : StartsSpoken rest) (hlong : maxChars < rest.length)
    (hnone : ∀ index ≤ maxChars, rest[index]? ≠ some space) :
    BreaksWell rest ↔ ¬Divides isSpace (rest.take maxChars) (rest.drop maxChars) ∧
      BreaksWell (rest.drop maxChars) := by
  have hpos : 0 < maxChars := by decide
  have hbefore : maxChars - 1 < rest.length := (Nat.sub_le _ _).trans_lt hlong
  have hlength : (rest.take maxChars).length = maxChars := List.length_take_of_le hlong.le
  have hlast : (rest.take maxChars).getLast? = some rest[maxChars - 1] := by
    rw [List.getLast?_take, if_neg hpos.ne', List.getElem?_eq_getElem hbefore]
    rfl
  have hdrop : rest.drop maxChars = rest[maxChars] :: rest.drop (maxChars + 1) :=
    List.drop_eq_getElem_cons hlong
  have hfirst : space ∉ rest.take maxChars := by
    intro hmem
    obtain ⟨index, hindex⟩ := List.mem_iff_getElem?.mp hmem
    rw [List.getElem?_take] at hindex
    split at hindex
    case isTrue hlt => exact hnone index hlt.le hindex
    case isFalse => cases hindex
  have hunit : rest[maxChars] ≠ space := fun heq =>
    hnone maxChars le_rfl (heq ▸ List.getElem?_eq_getElem hlong)
  obtain ⟨stretch, later, hsplit⟩ := exists_splitOn (rest.drop (maxChars + 1))
  have hsecond : (rest.drop maxChars).splitOn space = (rest[maxChars] :: stretch) :: later := by
    rw [hdrop, splitOn_cons, if_neg hunit, hsplit, List.modifyHead_cons]
  have hwhole : rest.splitOn space =
      (rest.take maxChars ++ rest[maxChars] :: stretch) :: later := by
    have h := splitOn_append hfirst (rest.drop maxChars)
    rwa [List.take_append_drop, hsecond, List.modifyHead_cons] at h
  have hcap : breaksAtCaps ((rest.take maxChars ++ rest[maxChars] :: stretch).dropWhile isSpace) =
      ((isSpace rest[maxChars - 1] || isSpace rest[maxChars]) &&
        breaksAtCaps ((rest[maxChars] :: stretch).dropWhile isSpace)) := by
    have hspoken : StartsSpoken (rest.take maxChars ++ rest[maxChars] :: stretch) := by
      intro unit hunit
      refine hstarts unit ?_
      rwa [List.head?_append_of_ne_nil _ (List.ne_nil_of_length_pos (by omega)),
        List.head?_take, if_neg hpos.ne'] at hunit
    rw [dropWhile_of_startsSpoken hspoken, breaksAtCaps,
      if_pos (by rw [List.length_append, hlength, List.length_cons]; omega),
      List.drop_left' hlength, List.getElem?_append_right hlength.le, hlength, Nat.sub_self,
      List.getElem?_append_left (by omega), List.getElem?_take_of_lt (by omega),
      List.getElem?_eq_getElem hbefore]
    rfl
  unfold BreaksWell
  rw [hwhole, hsecond, List.forall_mem_cons, List.forall_mem_cons, hcap, Bool.and_eq_true,
    divides_iff hlast (by rw [hdrop]; rfl), and_assoc]
  refine and_congr_left fun _ => ?_
  cases isSpace rest[maxChars - 1] <;> simp

/-- The cut goes through no word, and what follows breaks well, just if the whole breaks well. -/
theorem breaksWell_iff {rest : CodeUnits} (hstarts : StartsSpoken rest) (hlong : maxChars < rest.length) :
    BreaksWell rest ↔
      ¬Divides isSpace (rest.take (cutPoint rest)) (rest.drop (cutPoint rest)) ∧
        BreaksWell (rest.drop (cutPoint rest)) := by
  have hcut := cutPoint_le rest
  rcases cutPoint_cases hstarts with hspace | ⟨hcap, hnone⟩
  · -- The stretches before a space character are too short to be cut.
    obtain ⟨hlt, hget⟩ := List.getElem?_eq_some_iff.mp hspace
    have hdrop : rest.drop (cutPoint rest) = space :: rest.drop (cutPoint rest + 1) := by
      rw [List.drop_eq_getElem_cons hlt, hget]
    have hshort : BreaksWell (rest.take (cutPoint rest)) :=
      breaksWell_of_short ((List.length_take_le _ _).trans hcut)
    have hwhole : ¬Divides isSpace (rest.take (cutPoint rest)) (rest.drop (cutPoint rest)) := by
      rintro ⟨-, unit, hunit, hword⟩
      rw [hdrop] at hunit
      obtain rfl : space = unit := Option.some.inj hunit
      exact absurd hword (by simp [isSpace_space])
    have hsplit := breaksWell_append_cons (rest.take (cutPoint rest)) (rest.drop (cutPoint rest + 1))
    have hafter := breaksWell_append_cons [] (rest.drop (cutPoint rest + 1))
    rw [← hdrop, List.take_append_drop] at hsplit
    rw [List.nil_append, ← hdrop] at hafter
    rw [hsplit, hafter]
    exact ⟨fun hand => ⟨hwhole, breaksWell_of_short (Nat.zero_le _), hand.2⟩,
      fun hand => ⟨hshort, hand.2.2⟩⟩
  · rw [hcap]
    exact breaksWell_cap hstarts hlong hnone

/-! ## Segments -/

/-- No cut makes words fewer. -/
theorem length_words_wrap (rest : CodeUnits) :
    (wordsOf rest).length ≤ ((wrap rest).flatMap wordsOf).length := by
  induction rest using wrap.induct with
  | case1 rest hlong ih =>
      have hcut : (wordsOf (rest.take (cutPoint rest) ++ rest.drop (cutPoint rest))).length ≤ _ :=
        length_words_append_le _ _
      rw [List.take_append_drop] at hcut
      rw [wordsOf_trim] at ih
      rw [wrap, if_pos hlong, List.flatMap_cons, List.length_append, wordsOf_trim]
      exact hcut.trans (Nat.add_le_add_left ih _)
  | case2 rest hlong hempty =>
      rw [List.isEmpty_iff.mp hempty]
      exact Nat.zero_le _
  | case3 rest hlong hempty => rw [wrap, if_neg hlong, if_neg hempty, List.flatMap_singleton]

/-- The pieces of a sentence have its words just if it breaks well. -/
theorem words_wrap_iff {rest : CodeUnits} (hstarts : StartsSpoken rest) (hends : EndsSpoken rest) :
    (wrap rest).flatMap wordsOf = wordsOf rest ↔ BreaksWell rest := by
  induction rest using wrap.induct with
  | case1 rest hlong ih =>
      have hfewer := length_words_wrap (trim (rest.drop (cutPoint rest)))
      rw [wordsOf_trim] at hfewer
      have hcut : wordsOf (rest.take (cutPoint rest)) ++
          (wrap (trim (rest.drop (cutPoint rest)))).flatMap wordsOf =
            wordsOf (rest.take (cutPoint rest) ++ rest.drop (cutPoint rest)) ↔ _ :=
        words_append_eq_iff hfewer
      have hlater := ih (startsSpoken_trim _) (endsSpoken_trim _)
      rw [wordsOf_trim, trim_drop hends, breaksWell_dropWhile, ← trim_drop hends] at hlater
      rw [List.take_append_drop, hlater, ← breaksWell_iff hstarts hlong] at hcut
      rw [wrap, if_pos hlong, List.flatMap_cons, wordsOf_trim]
      exact hcut
  | case2 rest hlong hempty =>
      rw [wrap, if_neg hlong, if_pos hempty, List.isEmpty_iff.mp hempty]
      exact iff_of_true rfl (breaksWell_of_short (Nat.zero_le _))
  | case3 rest hlong hempty =>
      rw [wrap, if_neg hlong, if_neg hempty, List.flatMap_singleton]
      exact iff_of_true rfl (breaksWell_of_short (not_lt.mp hlong))

/-- The segments have the words of the text, whole and in order, just if each sentence breaks well. -/
theorem segmentText_words_iff (text : CodeUnits) :
    (segmentText text).flatMap wordsOf = wordsOf text ↔
      ∀ sentence ∈ sentences text, BreaksWell sentence := by
  have hsentence : ∀ sentence ∈ sentences text,
      (wrap sentence).flatMap wordsOf = wordsOf sentence ↔ BreaksWell sentence := by
    intro sentence hmem
    obtain ⟨raw, -, rfl⟩ := List.mem_map.mp (List.mem_of_mem_filter hmem)
    exact words_wrap_iff (startsSpoken_trim raw) (endsSpoken_trim raw)
  rw [segmentText_eq, List.flatMap_assoc, ← wordsOf_sentences,
    flatMap_eq_iff fun sentence _ => length_words_wrap sentence]
  exact forall₂_congr hsentence

/-- A list of dishes, one a line, in a language without spaces. -/
def dishes : CodeUnits :=
  (codeUnits "\n").intercalate (List.replicate 15 (codeUnits "北京烤鸭配薄饼甜面酱"))

/-- The last of them is cut in two. -/
theorem dishes_divided :
    (∀ word ∈ wordsOf dishes, word.length ≤ 160) ∧
      (segmentText dishes).flatMap wordsOf ≠ wordsOf dishes := by
  decide +kernel

end VoiceOrder.Tts
