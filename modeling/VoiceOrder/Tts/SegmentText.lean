import VoiceOrder.Shared.Types
import Mathlib.Data.List.DropRight
import Mathlib.Order.Basic

/-! # Speakable segments

A spoken reply is split into segments of about one sentence, so that each can be played while
the next is still in synthesis. Text is a list of UTF-16 code units here, since its lengths and
cuts count these. -/

namespace VoiceOrder.Tts

abbrev CodeUnits := List UInt16

/-- The code units of one character: a surrogate pair outside the basic plane. -/
def charUnits (c : Char) : CodeUnits :=
  if c.val < 0x10000 then [c.val.toUInt16]
  else
    let offset := c.val - 0x10000
    [(0xD800 : UInt16) + (offset >>> 10).toUInt16, (0xDC00 : UInt16) + (offset &&& 0x3FF).toUInt16]

def codeUnits (text : String) : CodeUnits := text.toList.flatMap charUnits

def isSpace (unit : UInt16) : Bool := isWhiteSpace (Char.ofNat unit.toNat)

/-- Sentence-ending punctuation. -/
def isTerminator (unit : UInt16) : Bool :=
  unit = '.'.val.toUInt16 || unit = '!'.val.toUInt16 || unit = '?'.val.toUInt16

/-- Hard cap so one long clause without punctuation still breaks into playable pieces. -/
def maxChars : ℕ := 160

def trim (text : CodeUnits) : CodeUnits := (text.dropWhile isSpace).rdropWhile isSpace

/-- Split at each run of white space that follows sentence-ending punctuation; a point inside a
price has no space after it. `inGap` says that such a run is being consumed. -/
def splitSentences (inGap : Bool) (sentence : CodeUnits) : CodeUnits → List CodeUnits
  | [] => [sentence]
  | unit :: rest =>
      if isSpace unit then
        if inGap then splitSentences true sentence rest
        else if sentence.getLast?.any isTerminator then
          sentence :: splitSentences true [] rest
        else splitSentences false (sentence ++ [unit]) rest
      else splitSentences false (sentence ++ [unit]) rest

/-- The last index of a space among the first `maxChars + 1` code units. -/
def lastSpace (text : CodeUnits) : Option ℕ :=
  ((List.range (maxChars + 1)).filter fun index =>
    text[index]? = some ' '.val.toUInt16).getLast?

/-- Where an over-long text is cut: at the last space before the cap, else at the cap. -/
def cutPoint (text : CodeUnits) : ℕ :=
  match lastSpace text with
  | some space => if 0 < space then space else maxChars
  | none => maxChars

theorem cutPoint_pos (text : CodeUnits) : 0 < cutPoint text := by
  unfold cutPoint
  split
  · split
    · assumption
    · decide
  · decide

theorem cutPoint_le (text : CodeUnits) : cutPoint text ≤ maxChars := by
  unfold cutPoint
  split
  case h_1 space hspace =>
    have hmem := List.mem_of_getLast? hspace
    have hle : space < maxChars + 1 := List.mem_range.mp (List.mem_filter.mp hmem).1
    split <;> omega
  case h_2 => exact le_refl _

theorem trim_length_le (text : CodeUnits) : (trim text).length ≤ text.length := by
  refine le_trans (List.IsPrefix.length_le (List.rdropWhile_prefix _ _)) ?_
  exact (List.dropWhile_suffix _).length_le

/-- Cut an over-long sentence into pieces. -/
def wrap (rest : CodeUnits) : List CodeUnits :=
  if maxChars < rest.length then
    trim (rest.take (cutPoint rest)) :: wrap (trim (rest.drop (cutPoint rest)))
  else if rest.isEmpty then []
  else [rest]
termination_by rest.length
decreasing_by
  have hpos := cutPoint_pos rest
  have hle := trim_length_le (rest.drop (cutPoint rest))
  simp only [List.length_drop] at hle
  omega

def segmentText (text : CodeUnits) : List CodeUnits :=
  let trimmed := trim text
  if trimmed.isEmpty then []
  else
    let sentences := ((splitSentences false [] trimmed).map trim).filter fun sentence =>
      !sentence.isEmpty
    sentences.flatMap fun sentence =>
      if sentence.length ≤ maxChars then [sentence] else wrap sentence

example : segmentText (codeUnits "  That's $2.50.   Anything else? ") =
    [codeUnits "That's $2.50.", codeUnits "Anything else?"] := by decide

/-! ## What the segments hold -/

/-- What is heard of a text: everything but its white space. -/
def spokenUnits (text : CodeUnits) : CodeUnits := text.filter fun unit => !isSpace unit

@[simp]
theorem spokenUnits_append (first second : CodeUnits) :
    spokenUnits (first ++ second) = spokenUnits first ++ spokenUnits second :=
  List.filter_append ..

theorem spokenUnits_dropWhile (text : CodeUnits) :
    spokenUnits (text.dropWhile isSpace) = spokenUnits text := by
  induction text with
  | nil => rfl
  | cons unit rest ih =>
      by_cases hunit : isSpace unit
      · simpa [spokenUnits, List.dropWhile_cons, hunit] using ih
      · simp [hunit]

@[simp]
theorem spokenUnits_trim (text : CodeUnits) : spokenUnits (trim text) = spokenUnits text := by
  have hreverse : ∀ units, spokenUnits units.reverse = (spokenUnits units).reverse := fun _ =>
    List.filter_reverse
  rw [trim, List.rdropWhile, hreverse, spokenUnits_dropWhile, hreverse, List.reverse_reverse,
    spokenUnits_dropWhile]

theorem spokenUnits_splitSentences (inGap : Bool) (sentence text : CodeUnits) :
    (splitSentences inGap sentence text).flatMap spokenUnits =
      spokenUnits sentence ++ spokenUnits text := by
  induction text generalizing inGap sentence with
  | nil => simp [splitSentences, spokenUnits]
  | cons unit rest ih =>
      have hcons : spokenUnits (unit :: rest) = spokenUnits [unit] ++ spokenUnits rest :=
        spokenUnits_append [unit] rest
      by_cases hunit : isSpace unit
      · have hblank : spokenUnits [unit] = [] := by simp [spokenUnits, hunit]
        by_cases hgap : inGap = true
        · simp [splitSentences, hunit, hgap, ih, hcons, hblank]
        · by_cases hended : sentence.getLast?.any isTerminator = true
          · simp [splitSentences, hunit, hgap, hended, ih, spokenUnits]
          · simp [splitSentences, hunit, hgap, hended, ih, hcons, hblank]
      · simp [splitSentences, hunit, ih, hcons]

theorem spokenUnits_wrap (rest : CodeUnits) : (wrap rest).flatMap spokenUnits = spokenUnits rest := by
  induction rest using wrap.induct with
  | case1 rest hlong ih =>
      rw [wrap, if_pos hlong, List.flatMap_cons, ih, spokenUnits_trim, spokenUnits_trim,
        ← spokenUnits_append, List.take_append_drop]
  | case2 rest hlong hempty =>
      rw [wrap, if_neg hlong, if_pos hempty, List.isEmpty_iff.mp hempty]
      rfl
  | case3 rest hlong hempty =>
      rw [wrap, if_neg hlong, if_neg hempty]
      exact List.flatMap_singleton ..

theorem flatMap_filter_nonempty {α : Type} {f : CodeUnits → List α} (hf : f [] = [])
    (sentences : List CodeUnits) :
    (sentences.filter fun sentence => !sentence.isEmpty).flatMap f = sentences.flatMap f := by
  induction sentences with
  | nil => rfl
  | cons sentence rest ih =>
      cases sentence with
      | nil => simpa [hf] using ih
      | cons unit units => simp [ih]

/-- The segments speak the text: all of it but white space, in its order. -/
theorem segmentText_speaks (text : CodeUnits) :
    (segmentText text).flatMap spokenUnits = spokenUnits text := by
  have hpieces : ∀ sentence : CodeUnits,
      (if sentence.length ≤ maxChars then [sentence] else wrap sentence).flatMap spokenUnits =
        spokenUnits sentence := by
    intro sentence
    split
    · exact List.flatMap_singleton ..
    · exact spokenUnits_wrap sentence
  have htrims : ∀ sentences : List CodeUnits,
      (sentences.map trim).flatMap spokenUnits = sentences.flatMap spokenUnits := by
    intro sentences
    rw [List.flatMap_map]
    exact congrArg sentences.flatMap (funext spokenUnits_trim)
  rw [← spokenUnits_trim text, segmentText]
  split
  case isTrue hempty =>
      rw [List.isEmpty_iff.mp hempty]
      rfl
  case isFalse =>
      rw [List.flatMap_assoc]
      simp only [hpieces]
      rw [flatMap_filter_nonempty rfl, htrims, spokenUnits_splitSentences]
      rfl

/-- A text that does not start with white space. -/
def StartsSpoken (text : CodeUnits) : Prop := ∀ unit ∈ text.head?, isSpace unit = false

theorem startsSpoken_trim (text : CodeUnits) : StartsSpoken (trim text) := by
  intro unit hunit
  obtain ⟨tail, htail⟩ : trim text <+: text.dropWhile isSpace := List.rdropWhile_prefix _ _
  have hhead : unit ∈ (text.dropWhile isSpace).head? := by
    rw [← htail, List.head?_append, Option.mem_def.mp hunit]
    rfl
  have hnot := List.head?_dropWhile_not isSpace text
  rw [Option.mem_def.mp hhead] at hnot
  exact hnot

theorem trim_take_pos {text : CodeUnits} {cut : ℕ} (hstarts : StartsSpoken text)
    (htext : 0 < text.length) (hcut : 0 < cut) : 0 < (trim (text.take cut)).length := by
  cases text with
  | nil => cases htext
  | cons unit rest =>
      obtain ⟨count, rfl⟩ : ∃ count, cut = count + 1 := ⟨cut - 1, by omega⟩
      have hunit : isSpace unit = false := hstarts unit rfl
      have hspoken : unit ∈ spokenUnits (trim ((unit :: rest).take (count + 1))) := by
        rw [spokenUnits_trim]
        simp [spokenUnits, hunit]
      exact List.length_pos_of_mem (List.mem_filter.mp hspoken).1

/-- No piece of an over-long text is empty, and none exceeds the cap. -/
theorem wrap_length {rest piece : CodeUnits} (hstarts : StartsSpoken rest)
    (h : piece ∈ wrap rest) : 0 < piece.length ∧ piece.length ≤ maxChars := by
  induction rest using wrap.induct with
  | case1 rest hlong ih =>
      rw [wrap, if_pos hlong, List.mem_cons] at h
      cases h with
      | inl hpiece =>
          have hpos : 0 < rest.length := by omega
          have hle := trim_length_le (rest.take (cutPoint rest))
          have hcut := cutPoint_le rest
          rw [List.length_take] at hle
          rw [hpiece]
          exact ⟨trim_take_pos hstarts hpos (cutPoint_pos rest), by omega⟩
      | inr hpiece => exact ih (startsSpoken_trim _) hpiece
  | case2 rest hlong hempty =>
      rw [wrap, if_neg hlong, if_pos hempty] at h
      cases h
  | case3 rest hlong hempty =>
      rw [wrap, if_neg hlong, if_neg hempty, List.mem_singleton] at h
      rw [List.isEmpty_iff, ← List.length_eq_zero_iff] at hempty
      rw [h]
      omega

/-- A segment is a sentence or a piece of an over-long one. -/
theorem mem_segmentText {text segment : CodeUnits} (h : segment ∈ segmentText text) :
    ∃ raw, trim raw ≠ [] ∧
      segment ∈ (if (trim raw).length ≤ maxChars then [trim raw] else wrap (trim raw)) := by
  rw [segmentText] at h
  split at h
  case isTrue => cases h
  case isFalse =>
      obtain ⟨sentence, hsentence, hsegment⟩ := List.mem_flatMap.mp h
      obtain ⟨hmem, hne⟩ := List.mem_filter.mp hsentence
      obtain ⟨raw, -, rfl⟩ := List.mem_map.mp hmem
      exact ⟨raw, by simpa using hne, hsegment⟩

/-- No segment is empty, and none exceeds the cap. -/
theorem segmentText_length {text segment : CodeUnits} (h : segment ∈ segmentText text) :
    0 < segment.length ∧ segment.length ≤ maxChars := by
  obtain ⟨raw, hne, hpiece⟩ := mem_segmentText h
  split at hpiece
  case isTrue hle =>
      rw [List.mem_singleton.mp hpiece]
      exact ⟨List.length_pos_of_ne_nil hne, hle⟩
  case isFalse => exact wrap_length (startsSpoken_trim raw) hpiece

/-- A text that does not end with white space. -/
def EndsSpoken (text : CodeUnits) : Prop := ∀ unit ∈ text.getLast?, isSpace unit = false

theorem endsSpoken_trim (text : CodeUnits) : EndsSpoken (trim text) := by
  intro unit hunit
  obtain ⟨hne, rfl⟩ := List.mem_getLast?_eq_getLast hunit
  exact Bool.eq_false_iff.mpr (List.rdropWhile_last_not isSpace _ hne)

/-- A segment that can be spoken: not empty, without white space around it, and within the cap. -/
structure Speakable (segment : CodeUnits) : Prop where
  nonempty : segment ≠ []
  starts : StartsSpoken segment
  ends : EndsSpoken segment
  length_le : segment.length ≤ 160

/-- The pieces of an over-long text are trimmed. -/
theorem wrap_trimmed {rest piece : CodeUnits} (hstarts : StartsSpoken rest)
    (hends : EndsSpoken rest) (h : piece ∈ wrap rest) : StartsSpoken piece ∧ EndsSpoken piece := by
  induction rest using wrap.induct with
  | case1 rest hlong ih =>
      rw [wrap, if_pos hlong, List.mem_cons] at h
      rcases h with rfl | hpiece
      · exact ⟨startsSpoken_trim _, endsSpoken_trim _⟩
      · exact ih (startsSpoken_trim _) (endsSpoken_trim _) hpiece
  | case2 rest hlong hempty =>
      rw [wrap, if_neg hlong, if_pos hempty] at h
      cases h
  | case3 rest hlong hempty =>
      rw [wrap, if_neg hlong, if_neg hempty, List.mem_singleton] at h
      rw [h]
      exact ⟨hstarts, hends⟩

/-- The segmentation is total and loses nothing. -/
theorem segmentText_lossless (text : CodeUnits) :
    (∀ segment ∈ segmentText text, Speakable segment) ∧
      spokenUnits (segmentText text).flatten = spokenUnits text := by
  constructor
  · intro segment hsegment
    obtain ⟨hpos, hle⟩ := segmentText_length hsegment
    have htrimmed : StartsSpoken segment ∧ EndsSpoken segment := by
      obtain ⟨raw, -, hpiece⟩ := mem_segmentText hsegment
      split at hpiece
      case isTrue =>
          rw [List.mem_singleton.mp hpiece]
          exact ⟨startsSpoken_trim raw, endsSpoken_trim raw⟩
      case isFalse => exact wrap_trimmed (startsSpoken_trim raw) (endsSpoken_trim raw) hpiece
    exact ⟨List.ne_nil_of_length_pos hpos, htrimmed.1, htrimmed.2, hle⟩
  · rw [spokenUnits, List.filter_flatten, ← List.flatMap_def]
    exact segmentText_speaks text

end VoiceOrder.Tts
