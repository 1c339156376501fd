import VoiceOrder.Menu.FuzzyMatcher
import VoiceOrder.Menu.MenuStore
import VoiceOrder.Ordering.RunTools
import VoiceOrder.Shared.Rankings

/-! # Finding likely items

Retrieve, then rank: the items near the phrases of a text and those named alike are ranked by a
weighted score. Where nothing can be retrieved the whole menu is. -/

namespace VoiceOrder.Menu

open VoiceOrder.Ordering

/-! ## Phrases -/

/-- The word characters of `\b`. -/
def isWordChar (c : Char) : Bool := c.isAlphanum || c = '_'

/-- Whether the text starts with the word, as a whole word and in any case. -/
def startsWithWord (word text : List Char) : Bool :=
  (text.take word.length).map Char.toLower = word &&
    !((text.drop word.length).head?.any isWordChar)

/-- How long the separator is that the text starts with, 0 for none. -/
def separatorLength (afterWord : Bool) (text : List Char) : ℕ :=
  if text.head? = some ',' then 1
  else if afterWord then 0
  else
    (([['a', 'n', 'd'], ['w', 'i', 't', 'h'], ['n', 'o']].find? fun word => startsWithWord word text).map
      List.length).getD 0

/-- Split at the separators. `skip` characters of one are left, and `phrase` is what has been read
of the current phrase, backwards. -/
def splitPhrases (afterWord : Bool) (skip : ℕ) (phrase : List Char) : List Char → List (List Char)
  | [] => [phrase.reverse]
  | c :: rest =>
      match skip with
      | left + 1 => splitPhrases (isWordChar c) left phrase rest
      | 0 =>
          match separatorLength afterWord (c :: rest) with
          | 0 => splitPhrases (isWordChar c) 0 (c :: phrase) rest
          | left + 1 => phrase.reverse :: splitPhrases (isWordChar c) left [] rest

/-- The likely phrases of a text. -/
def chunk (text : String) : List String :=
  (((splitPhrases false 0 [] text.toList).map AgentReply.trimChars).filter fun phrase =>
    !phrase.isEmpty).map String.ofList

example : chunk "Two burgers with cheese, no onions" = ["Two burgers", "cheese", "onions"] := by
  decide

/-! ## Options -/

/-- How many items to return. -/
inductive Limit where
  | upTo (n : ℤ)
  | infinity
  deriving DecidableEq, Repr

/-- `slice(0, limit)`: a negative limit counts from the end. -/
def Limit.slice {α : Type*} (limit : Limit) (entries : List α) : List α :=
  match limit with
  | .infinity => entries
  | .upTo n => if 0 ≤ n then entries.take n.toNat else entries.take (entries.length - (-n).toNat)

/-- The constraints that apply while ranking. -/
structure MatchOptions where
  limit : Option Limit
  minPriceCents : Option Cents
  maxPriceCents : Option Cents
  deriving DecidableEq, Repr

def maxCandidatesToLlm : ℤ := 8

/-- An absent bound is no bound, and the bounds are inclusive. -/
def withinPrice (price : Cents) (opts : MatchOptions) : Bool :=
  (opts.minPriceCents.all fun min => min ≤ price) && opts.maxPriceCents.all fun max => price ≤ max

/-! ## Ranking -/

/-- The weights of the hybrid score. -/
def wEmbed : ℚ := 55 / 100

def wFuzzy : ℚ := 35 / 100

def wModifier : ℚ := 1 / 10

/-- A score below this is no match. -/
def scoreThreshold : ℚ := 15 / 100

/-- How many neighbours are retrieved for a phrase. -/
def knnK : ℕ := 24

/-- The item as the agent sees it, without a score. -/
def toCandidate (item : MenuItem) : CandidateItem where
  menuItemKey := item.menuItemKey
  productTmplId := item.productTmplId
  name := displayName (some item.names) item.menuItemKey
  names := some item.names
  matchedText := none
  score := none
  basePriceCents := item.basePriceCents
  availableModifiers := item.modifiers
  popularity := none

/-- A ranked item and its score. -/
structure Scored where
  item : CandidateItem
  score : ℚ

section

variable (toLowerCase : String → String)

/-- The best similarity of a phrase and a name. -/
def fuzzyScore (phrases : List String) (item : MenuItem) : ℚ :=
  let names := item.names.map fun name => toLowerCase name.2
  bestOf (phrases.flatMap fun phrase => names.map (similarity toLowerCase phrase))

def score (phrases : List String) (embOf : MenuItem → ℚ) (item : MenuItem) : ℚ :=
  wEmbed * embOf item + wFuzzy * fuzzyScore toLowerCase phrases item +
    wModifier * modifierMatchScore toLowerCase phrases item.modifiers

/-- An item that passes the filters and the threshold. -/
def scored (phrases : List String) (embOf : MenuItem → ℚ) (opts : MatchOptions) (item : MenuItem) :
    Option Scored :=
  if !item.available then none
  else if !withinPrice item.basePriceCents opts then none
  else
    let score := score toLowerCase phrases embOf item
    if score < scoreThreshold then none
    else some { item := { toCandidate item with score := some score }, score }

def rank (items : List MenuItem) (phrases : List String) (embOf : MenuItem → ℚ)
    (opts : MatchOptions) : List CandidateItem :=
  let sorted := Rankings.sortBy (fun s => -s.score)
    (items.filterMap (scored toLowerCase phrases embOf opts))
  ((opts.limit.getD (.upTo maxCandidatesToLlm)).slice sorted).map Scored.item

/-- The item as a ranked search returns it. -/
def rankedItem (phrases : List String) (embOf : MenuItem → ℚ) (item : MenuItem) : CandidateItem :=
  { toCandidate item with score := some (score toLowerCase phrases embOf item) }

variable {m : Type → Type} [Monad m] (store : MenuStore m) (embedder : EmbeddingService m)

def fuzzyScan (pos : PosConfigId) (phrases : List String) (opts : MatchOptions) :
    m (List CandidateItem) := do
  let items ← store.allItems pos
  return rank toLowerCase items phrases (fun _ => 0) opts

/-- The matcher's `match`. -/
def matchCandidates (pos : PosConfigId) (text : String) (opts : MatchOptions) :
    m (List CandidateItem) := do
  let phrases := chunk (toLowerCase text)
  if phrases.isEmpty then return []
  if embedder.dimensions = 0 then return ← fuzzyScan toLowerCase store pos phrases opts
  let phraseVectors := (← embedder.embedBatch phrases .query).filter fun v => !v.isEmpty
  if phraseVectors.isEmpty then return ← fuzzyScan toLowerCase store pos phrases opts
  let sims ← store.knnSearch pos phraseVectors knnK
  let lexIds ← store.lexicalSearch pos phrases
  let retrieveIds := (sims.keys ++ lexIds).foldl OrderedMap.add []
  -- Nothing retrieved: the index is missing or empty.
  if retrieveIds.isEmpty then return ← fuzzyScan toLowerCase store pos phrases opts
  let items ← store.getItems pos retrieveIds
  return rank toLowerCase items phrases (fun item => (sims.get item.productTmplId).getD 0) opts

end

/-! ## The ranking -/

section

variable {α β : Type*} {toLowerCase : String → String} {phrases : List String}
  {embOf : MenuItem → ℚ} {opts : MatchOptions} {limit : Limit} {n : ℤ}

theorem fuzzyScore_mem (toLowerCase : String → String) (phrases : List String) (item : MenuItem) :
    0 ≤ fuzzyScore toLowerCase phrases item ∧ fuzzyScore toLowerCase phrases item ≤ 1 := by
  refine ⟨bestOf_nonneg _, bestOf_le zero_le_one ?_⟩
  intro s hs
  obtain ⟨phrase, -, hs⟩ := List.mem_flatMap.mp hs
  obtain ⟨name, -, rfl⟩ := List.mem_map.mp hs
  exact similarity_le_one _ _ _

/-- The weights add up to one, so a score is in [0, 1] where the similarity of the vectors is. -/
theorem score_mem {item : MenuItem} (h : 0 ≤ embOf item ∧ embOf item ≤ 1) :
    0 ≤ score toLowerCase phrases embOf item ∧ score toLowerCase phrases embOf item ≤ 1 := by
  obtain ⟨hfuzzy, hfuzzy'⟩ := fuzzyScore_mem toLowerCase phrases item
  obtain ⟨hmod, hmod'⟩ := modifierMatchScore_mem toLowerCase phrases item.modifiers
  unfold score wEmbed wFuzzy wModifier
  constructor <;> linarith

theorem Limit.slice_map (f : α → β) (entries : List α) :
    limit.slice (entries.map f) = (limit.slice entries).map f := by
  cases limit with
  | infinity => rfl
  | upTo n =>
      dsimp only [Limit.slice]
      rw [List.length_map]
      split <;> exact List.map_take.symm

theorem Limit.slice_upTo (hn : 0 ≤ n) (entries : List α) :
    (Limit.upTo n).slice entries = entries.take n.toNat :=
  if_pos hn

@[simp] theorem Limit.slice_nil : limit.slice ([] : List α) = [] := by
  cases limit with
  | infinity => rfl
  | upTo n => simp [Limit.slice]

/-- The filters and the threshold. -/
def passes (toLowerCase : String → String) (phrases : List String) (embOf : MenuItem → ℚ)
    (opts : MatchOptions) (item : MenuItem) : Bool :=
  item.available && withinPrice item.basePriceCents opts &&
    decide (scoreThreshold ≤ score toLowerCase phrases embOf item)

theorem filterMap_scored (items : List MenuItem) :
    items.filterMap (scored toLowerCase phrases embOf opts) =
      (items.filter (passes toLowerCase phrases embOf opts)).map fun item =>
        ⟨rankedItem toLowerCase phrases embOf item, score toLowerCase phrases embOf item⟩ := by
  induction items with
  | nil => rfl
  | cons item items ih =>
      rw [List.filterMap_cons, List.filter_cons, ih]
      unfold scored passes rankedItem
      cases item.available with
      | false => simp
      | true =>
          cases withinPrice item.basePriceCents opts with
          | false => simp
          | true =>
              by_cases hscore : scoreThreshold ≤ score toLowerCase phrases embOf item
              · simp [hscore, not_lt.mpr hscore]
              · simp [hscore, not_le.mp hscore]

/-- What passes, ranked by score and then cut. -/
theorem rank_eq (items : List MenuItem) :
    rank toLowerCase items phrases embOf opts =
      ((opts.limit.getD (.upTo maxCandidatesToLlm)).slice
        (Rankings.sortBy (fun item => -score toLowerCase phrases embOf item)
          (items.filter (passes toLowerCase phrases embOf opts)))).map
        (rankedItem toLowerCase phrases embOf) := by
  unfold rank
  dsimp only
  rw [filterMap_scored, Rankings.sortBy_map, Limit.slice_map, List.map_map]
  rfl

end

end VoiceOrder.Menu
