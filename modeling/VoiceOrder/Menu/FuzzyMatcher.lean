import VoiceOrder.Menu.Items
import VoiceOrder.Ordering.AgentReply
import VoiceOrder.Shared.EditDistance
import VoiceOrder.Tts.SegmentText
import Mathlib.Algebra.Order.Field.Rat
import Mathlib.Data.List.Infix

/-! # String similarity

One of the signals of the ranking: insensitive to case and white space, it rewards containment
and penalises edit distance. The case mapping of the language is left open. -/

namespace VoiceOrder.Menu

open EditDistance VoiceOrder.Ordering VoiceOrder.Tts

/-- A run of white space is replaced by one space; `inGap` says that one is being consumed. -/
def collapseSpaces (inGap : Bool) : List Char → List Char
  | [] => []
  | c :: rest =>
      if isWhiteSpace c then
        if inGap then collapseSpaces true rest else ' ' :: collapseSpaces true rest
      else c :: collapseSpaces false rest

def normalize (toLowerCase : String → String) (s : String) : String :=
  String.ofList (AgentReply.trimChars (collapseSpaces false (toLowerCase s).toList))

/-- The row after `prev` in the table of edit distances, from its second entry: `left` is the one
before, and `unit` the code unit the row is about. -/
def nextRow (unit : UInt16) (left : ℕ) : List ℕ → CodeUnits → List ℕ
  | diagonal :: above :: prev, other :: b =>
      let cost := if unit = other then 0 else 1
      let entry := min (min (above + 1) (left + 1)) (diagonal + cost)
      entry :: nextRow unit entry (above :: prev) b
  | _, _ => []

/-- The rows for the code units of `a`, of which the next is number `i`. -/
def rowsFrom (i : ℕ) (prev : List ℕ) (b : CodeUnits) : CodeUnits → List ℕ
  | [] => prev
  | unit :: a => rowsFrom (i + 1) (i :: nextRow unit i prev b) b a

/-- Classic edit distance, with two rows of the table at a time. -/
def levenshtein (a b : CodeUnits) : ℕ :=
  if a.length = 0 then b.length
  else if b.length = 0 then a.length
  else ((rowsFrom 1 (List.range (b.length + 1)) b a)[b.length]?).getD 0

/-- 1 for the same text up to case and white space, 0 for an empty one. -/
def similarity (toLowerCase : String → String) (a b : String) : ℚ :=
  let na := normalize toLowerCase a
  let nb := normalize toLowerCase b
  if na = "" ∨ nb = "" then 0
  else if na = nb then 1
  else if nb.toList <:+: na.toList ∨ na.toList <:+: nb.toList then 9 / 10
  else
    let dist := levenshtein (codeUnits na) (codeUnits nb)
    let maxLen := max (codeUnits na).length (codeUnits nb).length
    if maxLen = 0 then 0 else 1 - (dist : ℚ) / maxLen

/-- The best of some scores, where none is worse than 0. -/
def bestOf (scores : List ℚ) : ℚ := scores.foldl (fun best s => if best < s then s else best) 0

/-- Below this a phrase and a modifier are unrelated. -/
def modifierMatchThreshold : ℚ := 6 / 10

/-- The best similarity between any phrase and any of the modifiers, 0 if it is too low. -/
def modifierMatchScore (toLowerCase : String → String) (phrases : List String)
    (modifiers : List CandidateModifier) : ℚ :=
  let best := bestOf (phrases.flatMap fun phrase =>
    modifiers.map fun mod => similarity toLowerCase phrase mod.name)
  if modifierMatchThreshold ≤ best then best else 0

/-! ## The rows of the table -/

/-- The next row of the table, after its first entry. -/
theorem nextRow_rowAfter (unit : UInt16) (a done b : CodeUnits) :
    nextRow unit (distance (a ++ [unit]) done) (rowAfter a done b) b =
      (rowAfter (a ++ [unit]) done b).tail := by
  induction b generalizing done with
  | nil => simp [nextRow]
  | cons other b ih =>
      have hentry := distance_concat unit other a done
      have hrest := ih (done ++ [other])
      rw [rowAfter_eq_cons a] at hrest
      rw [rowAfter_cons, rowAfter_cons, List.tail_cons, rowAfter_eq_cons a, nextRow, ← hentry, hrest,
        ← rowAfter_eq_cons]

theorem rowsFrom_row (read b a : CodeUnits) :
    rowsFrom (read.length + 1) (row read b) b a = row (read ++ a) b := by
  induction a generalizing read with
  | nil => rw [rowsFrom, List.append_nil]
  | cons unit a ih =>
      have hfirst : distance (read ++ [unit]) [] = read.length + 1 := by simp
      have hrow : row (read ++ [unit]) b =
          (read.length + 1) :: nextRow unit (read.length + 1) (row read b) b := by
        have hrest := nextRow_rowAfter unit read [] b
        rw [hfirst] at hrest
        rw [row, rowAfter_eq_cons, hfirst, ← hrest, row]
      have hih := ih (read ++ [unit])
      rw [List.length_append, List.length_singleton, List.append_assoc, List.singleton_append] at hih
      rw [rowsFrom, ← hrow, hih]

theorem levenshtein_eq_distance (a b : CodeUnits) : levenshtein a b = distance a b := by
  unfold levenshtein
  split
  case isTrue ha => rw [List.length_eq_zero_iff.mp ha, distance_nil_left]
  case isFalse =>
    split
    case isTrue hb => rw [List.length_eq_zero_iff.mp hb, distance_nil_right]
    case isFalse =>
      have hrows : rowsFrom 1 (List.range (b.length + 1)) b a = row a b := by
        rw [← row_nil]
        exact rowsFrom_row [] b a
      rw [hrows, getElem?_row_length]
      rfl

/-! ## Every score is in [0, 1] -/

/-- At worst every code unit of the longer text is edited. -/
theorem levenshtein_le (a b : CodeUnits) : levenshtein a b ≤ max a.length b.length := by
  rw [levenshtein_eq_distance]
  exact distance_le_max a b

theorem similarity_nonneg (toLowerCase : String → String) (a b : String) :
    0 ≤ similarity toLowerCase a b := by
  unfold similarity
  dsimp only
  split_ifs with hempty heq hin hlen
  · exact le_rfl
  · exact zero_le_one
  · norm_num
  · exact le_rfl
  · have hle := levenshtein_le (codeUnits (normalize toLowerCase a))
      (codeUnits (normalize toLowerCase b))
    refine sub_nonneg.mpr (div_le_one_of_le₀ ?_ (Nat.cast_nonneg _))
    exact_mod_cast hle

theorem similarity_le_one (toLowerCase : String → String) (a b : String) :
    similarity toLowerCase a b ≤ 1 := by
  unfold similarity
  dsimp only
  split_ifs with hempty heq hin hlen
  · exact zero_le_one
  · exact le_rfl
  · norm_num
  · exact zero_le_one
  · exact sub_le_self _ (div_nonneg (Nat.cast_nonneg _) (Nat.cast_nonneg _))

theorem bestOf_le {bound : ℚ} {scores : List ℚ} (hbound : 0 ≤ bound) (h : ∀ s ∈ scores, s ≤ bound) :
    bestOf scores ≤ bound := by
  unfold bestOf
  induction scores using List.reverseRecOn with
  | nil => exact hbound
  | append_singleton scores s ih =>
      rw [List.foldl_append, List.foldl_cons, List.foldl_nil]
      split
      · exact h s (by simp)
      · exact ih fun s hs => h s (List.mem_append_left _ hs)

theorem bestOf_nonneg (scores : List ℚ) : 0 ≤ bestOf scores := by
  unfold bestOf
  induction scores using List.reverseRecOn with
  | nil => exact le_rfl
  | append_singleton scores s ih =>
      rw [List.foldl_append, List.foldl_cons, List.foldl_nil]
      split
      · exact ih.trans (le_of_lt (by assumption))
      · exact ih

theorem modifierMatchScore_mem (toLowerCase : String → String) (phrases : List String)
    (modifiers : List CandidateModifier) :
    0 ≤ modifierMatchScore toLowerCase phrases modifiers ∧
      modifierMatchScore toLowerCase phrases modifiers ≤ 1 := by
  unfold modifierMatchScore
  dsimp only
  split
  · refine ⟨bestOf_nonneg _, bestOf_le zero_le_one ?_⟩
    intro s hs
    obtain ⟨phrase, -, hs⟩ := List.mem_flatMap.mp hs
    obtain ⟨mod, -, rfl⟩ := List.mem_map.mp hs
    exact similarity_le_one _ _ _
  · exact ⟨le_rfl, zero_le_one⟩

end VoiceOrder.Menu
