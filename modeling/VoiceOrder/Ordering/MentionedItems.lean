import VoiceOrder.Backend.Services
import VoiceOrder.Shared.FirstHits

/-! # The items that a reply mentions

The agent declares keys. Each is looked up in what the searches of the turn returned. -/

namespace VoiceOrder.Ordering

open VoiceOrder.Menu VoiceOrder.Backend

/-- An item as a search returns it. -/
structure CandidateItem where
  menuItemKey : String
  productTmplId : ProductTmplId
  name : String
  names : Option LangMap
  matchedText : Option String
  score : Option ℚ
  basePriceCents : Cents
  availableModifiers : List CandidateModifier
  popularity : Option PopularityTier
  deriving DecidableEq, Repr

/-- Drop what the matcher added and the modifiers. An empty map of names is left out. -/
def toMentionedItem (item : CandidateItem) : MentionedItem where
  menuItemKey := item.menuItemKey
  productTmplId := item.productTmplId
  name := item.name
  names := item.names.filter fun names => !names.isEmpty
  basePriceCents := item.basePriceCents
  popularity := item.popularity

/-- The items that searches returned, by key. -/
abbrev SearchResults := PlainObject MentionedItem

def maxMentionedItems : ℕ := 8

/-- The declared keys, each once. -/
def distinct (keys : List String) : List String := keys.foldl OrderedMap.add []

def resolveMentionedItems (keys : List String) (known : SearchResults) : List Mentioned :=
  (distinct keys).foldl (fun resolved key =>
    match known.get key with
    | none => resolved
    | some item => if resolved.length < maxMentionedItems then resolved ++ [item] else resolved) []

/-- One search: its items under their keys. -/
def searchResults (items : List CandidateItem) : SearchResults :=
  items.foldl (fun results item => results.assign item.menuItemKey (toMentionedItem item)) .empty

/-! ## What was returned -/

/-- The item last returned under a key. -/
def lastFound (items : List CandidateItem) (key : String) : Option MentionedItem :=
  (items.reverse.find? fun item => item.menuItemKey = key).map toMentionedItem

/-- The key that a mention was found under. -/
def mentionKey : Mentioned → String
  | .own item => item.menuItemKey
  | .inherited name => name

section

variable {items later : List CandidateItem} {item : CandidateItem} {key : String}

theorem resolveMentionedItems_eq (keys : List String) (known : SearchResults) :
    resolveMentionedItems keys known =
      FirstHits.firstHits maxMentionedItems (fun key => known.get key) (distinct keys) := by
  rw [← FirstHits.foldl_eq_firstHits, resolveMentionedItems]
  congr 1
  funext resolved key
  cases known.get key <;> rfl

theorem distinct_nodup (keys : List String) : (distinct keys).Nodup :=
  OrderedMap.nodup_foldl_add keys List.nodup_nil

@[simp] theorem lastFound_nil : lastFound [] key = none := rfl

theorem lastFound_append :
    lastFound (items ++ later) key = (lastFound later key).or (lastFound items key) := by
  unfold lastFound
  rw [List.reverse_append, List.find?_append]
  cases later.reverse.find? fun item => item.menuItemKey = key <;> rfl

theorem lastFound_singleton :
    lastFound [item] key = if item.menuItemKey = key then some (toMentionedItem item) else none := by
  by_cases h : item.menuItemKey = key <;> simp [lastFound, h]

theorem lastFound_key {mentioned : MentionedItem} (h : lastFound items key = some mentioned) :
    mentioned.menuItemKey = key := by
  obtain ⟨item, hfind, rfl⟩ := Option.map_eq_some_iff.mp h
  have hkey := List.find?_some hfind
  exact of_decide_eq_true hkey

/-- A search keeps its last item of each key, but for the key `__proto__`. -/
theorem searchResults_own (items : List CandidateItem) (key : String) :
    (searchResults items).own key = if key = "__proto__" then none else lastFound items key := by
  unfold searchResults
  induction items using List.reverseRecOn with
  | nil => exact (ite_self _).symm
  | append_singleton items item ih =>
      rw [List.foldl_append, List.foldl_cons, List.foldl_nil, PlainObject.assign_own, ih,
        lastFound_append, lastFound_singleton]
      by_cases hkey : item.menuItemKey = key
      · subst hkey
        by_cases hproto : item.menuItemKey = "__proto__" <;> simp [hproto]
      · simp [hkey]

end

end VoiceOrder.Ordering
