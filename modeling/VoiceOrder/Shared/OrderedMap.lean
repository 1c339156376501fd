import Mathlib.Data.List.Basic
import Mathlib.Data.List.Induction
import Mathlib.Data.List.Nodup

/-! # Insertion-ordered maps and sets

Association lists that keep the position of the first write of a key, and sets
that keep the position of the first addition. -/

namespace OrderedMap

variable {κ ν : Type*} [DecidableEq κ]

/-- The value last written under `key`. -/
def get (map : List (κ × ν)) (key : κ) : Option ν :=
  (map.find? (fun entry => entry.1 = key)).map Prod.snd

/-- Overwrite the entry of `key` in place, or append a new one. -/
def set : List (κ × ν) → κ → ν → List (κ × ν)
  | [], key, value => [(key, value)]
  | entry :: rest, key, value =>
      if entry.1 = key then (key, value) :: rest else entry :: set rest key value

/-- The map built by writing the entries from left to right. -/
def ofEntries (entries : List (κ × ν)) : List (κ × ν) :=
  entries.foldl (fun map entry => set map entry.1 entry.2) []

/-- Add an element to an insertion-ordered set. -/
def add (elements : List κ) (element : κ) : List κ :=
  if element ∈ elements then elements else elements ++ [element]

@[simp] theorem get_nil (key : κ) : get ([] : List (κ × ν)) key = none := rfl

theorem get_cons (entry : κ × ν) (map : List (κ × ν)) (key : κ) :
    get (entry :: map) key = if entry.1 = key then some entry.2 else get map key := by
  unfold get
  rw [List.find?_cons]
  by_cases h : entry.1 = key <;> simp [h]

theorem mem_of_get {map : List (κ × ν)} {key : κ} {value : ν} (h : get map key = some value) :
    (key, value) ∈ map := by
  obtain ⟨entry, hfind, rfl⟩ := Option.map_eq_some_iff.mp h
  have hkey : entry.1 = key := by simpa using List.find?_some hfind
  exact hkey ▸ List.mem_of_find?_eq_some hfind

@[simp] theorem get_set_self (map : List (κ × ν)) (key : κ) (value : ν) :
    get (set map key value) key = some value := by
  induction map with
  | nil => simp [set, get_cons]
  | cons entry map ih =>
      by_cases h : entry.1 = key
      · simp [set, h, get_cons]
      · simp [set, h, get_cons, ih]

theorem get_set_of_ne (map : List (κ × ν)) {key other : κ} (value : ν) (h : key ≠ other) :
    get (set map key value) other = get map other := by
  induction map with
  | nil => simp [set, get_cons, h]
  | cons entry map ih =>
      by_cases he : entry.1 = key
      · simp [set, he, get_cons, h]
      · simp [set, he, get_cons, ih]

theorem get_set (map : List (κ × ν)) (key other : κ) (value : ν) :
    get (set map key value) other = if key = other then some value else get map other := by
  by_cases h : key = other
  · subst h
    simp
  · simp [get_set_of_ne map value h, h]

@[simp] theorem mem_add (elements : List κ) (element other : κ) :
    other ∈ add elements element ↔ other ∈ elements ∨ other = element := by
  unfold add
  split
  · constructor
    · exact Or.inl
    · rintro (h | rfl)
      · exact h
      · assumption
  · simp

theorem filter_add (p : κ → Bool) (elements : List κ) (element : κ) :
    (add elements element).filter p =
      if p element then add (elements.filter p) element else elements.filter p := by
  by_cases hmem : element ∈ elements <;> by_cases hp : p element = true <;>
    simp [add, hmem, hp]

/-- Each key of the map occurs in one entry. -/
def KeysNodup (map : List (κ × ν)) : Prop := (map.map Prod.fst).Nodup

theorem keys_set (map : List (κ × ν)) (key : κ) (value : ν) :
    (set map key value).map Prod.fst = add (map.map Prod.fst) key := by
  induction map with
  | nil => simp [set, add]
  | cons entry map ih =>
      by_cases h : entry.1 = key
      · simp [set, h, add]
      · simp only [set, h, ↓reduceIte, List.map_cons, ih]
        have hk : key ≠ entry.1 := fun he => h he.symm
        by_cases hm : key ∈ map.map Prod.fst
        · simp [add, hm]
        · simp [add, hm, hk]

theorem keysNodup_set {map : List (κ × ν)} (h : KeysNodup map) (key : κ) (value : ν) :
    KeysNodup (set map key value) := by
  unfold KeysNodup at *
  rw [keys_set, add]
  split
  · exact h
  · rename_i hk
    rw [List.nodup_append]
    refine ⟨h, by simp, ?_⟩
    rintro a ha b hb rfl
    rw [List.mem_singleton] at hb
    exact hk (hb ▸ ha)

/-- With one entry a key, membership is lookup. -/
theorem mem_iff_get {map : List (κ × ν)} (h : KeysNodup map) (key : κ) (value : ν) :
    (key, value) ∈ map ↔ get map key = some value := by
  induction map with
  | nil => simp
  | cons entry map ih =>
      obtain ⟨hnot, hrest⟩ := List.nodup_cons.mp h
      rw [get_cons, List.mem_cons]
      by_cases he : entry.1 = key
      · have habsent : (key, value) ∉ map := fun hm =>
          hnot (he ▸ List.mem_map.mpr ⟨_, hm, rfl⟩)
        simp only [habsent, or_false, he, ↓reduceIte, Option.some.injEq]
        constructor
        · rintro rfl
          rfl
        · rintro rfl
          exact Prod.ext he.symm rfl
      · rw [ih hrest, if_neg he]
        constructor
        · rintro (rfl | hm)
          · exact absurd rfl he
          · exact hm
        · exact Or.inr

/-- Looking a key up in a map read from entries finds its last entry. -/
theorem get_ofEntries (entries : List (κ × ν)) (key : κ) :
    get (ofEntries entries) key =
      (entries.reverse.find? (fun entry => entry.1 = key)).map Prod.snd := by
  unfold ofEntries
  induction entries using List.reverseRecOn with
  | nil => rfl
  | append_singleton entries entry ih =>
      rw [List.foldl_append, List.foldl_cons, List.foldl_nil, get_set, ih,
        List.reverse_append, List.reverse_singleton, List.singleton_append, List.find?_cons]
      by_cases h : entry.1 = key <;> simp [h]

/-- A map read from entries holds only those entries, and one for each of their keys. -/
theorem mem_of_get_ofEntries {entries : List (κ × ν)} {key : κ} {value : ν}
    (h : get (ofEntries entries) key = some value) : (key, value) ∈ entries := by
  rw [get_ofEntries] at h
  obtain ⟨entry, hfind, rfl⟩ := Option.map_eq_some_iff.mp h
  have hkey : entry.1 = key := by simpa using List.find?_some hfind
  rw [← hkey]
  exact List.mem_reverse.mp (List.mem_of_find?_eq_some hfind)

theorem get_ofEntries_isSome {entries : List (κ × ν)} {key : κ} {value : ν}
    (h : (key, value) ∈ entries) : ∃ found, get (ofEntries entries) key = some found := by
  rw [get_ofEntries]
  cases hfind : entries.reverse.find? (fun entry => entry.1 = key) with
  | none =>
      have := List.find?_eq_none.mp hfind _ (List.mem_reverse.mpr h)
      simp at this
  | some entry => exact ⟨entry.2, rfl⟩

/-- Where each key has one value, a map read from entries holds just those entries. -/
theorem get_ofEntries_eq_some {entries : List (κ × ν)}
    (h : ∀ a ∈ entries, ∀ b ∈ entries, a.1 = b.1 → a.2 = b.2) {key : κ} {value : ν} :
    get (ofEntries entries) key = some value ↔ (key, value) ∈ entries := by
  constructor
  · exact mem_of_get_ofEntries
  · intro hmem
    obtain ⟨found, hfound⟩ := get_ofEntries_isSome hmem
    rw [hfound]
    exact congrArg some (h _ (mem_of_get_ofEntries hfound) _ hmem rfl)

/-- Then the order of the entries does not matter. -/
theorem get_ofEntries_congr {entries others : List (κ × ν)}
    (h : ∀ a ∈ entries, ∀ b ∈ entries, a.1 = b.1 → a.2 = b.2)
    (hmem : ∀ entry, entry ∈ entries ↔ entry ∈ others) (key : κ) :
    get (ofEntries entries) key = get (ofEntries others) key := by
  have hothers : ∀ a ∈ others, ∀ b ∈ others, a.1 = b.1 → a.2 = b.2 := fun a ha b hb =>
    h a ((hmem a).mpr ha) b ((hmem b).mpr hb)
  ext value
  rw [get_ofEntries_eq_some h, get_ofEntries_eq_some hothers, hmem]

/-! ## Sets read from lists -/

theorem mem_foldl_add (added elements : List κ) (element : κ) :
    element ∈ added.foldl add elements ↔ element ∈ elements ∨ element ∈ added := by
  induction added generalizing elements with
  | nil => simp
  | cons a added ih => rw [List.foldl_cons, ih, mem_add, List.mem_cons, or_assoc]

theorem nodup_foldl_add (added : List κ) {elements : List κ} (h : elements.Nodup) :
    (added.foldl add elements).Nodup := by
  induction added generalizing elements with
  | nil => exact h
  | cons element added ih =>
      apply ih
      unfold add
      split
      · exact h
      · rename_i hfresh
        rw [List.nodup_append]
        refine ⟨h, List.nodup_singleton element, ?_⟩
        intro a ha b hb heq
        exact hfresh (List.mem_singleton.mp hb ▸ heq ▸ ha)

theorem foldl_add_eq_nil (added : List κ) : added.foldl add [] = [] ↔ added = [] := by
  constructor
  · intro h
    rw [List.eq_nil_iff_forall_not_mem]
    intro element hmem
    have := (mem_foldl_add added [] element).mpr (Or.inr hmem)
    rw [h] at this
    cases this
  · rintro rfl
    rfl

end OrderedMap
