import VoiceOrder.Ordering.RequiredModifiers

/-! # What the exactly-one check computes

The tables and counters of `checkExactlyOne` in terms of the item's options. -/

namespace VoiceOrder.Ordering

open VoiceOrder.Menu VoiceOrder.CartModule

/-! ## The options of an item -/

/-- The group a modifier key belongs to on the item. -/
def groupOfKey (item : MenuItem) (key : String) : Option String :=
  (item.optionOfKey key).bind CandidateModifier.groupKey

/-- The group a ptav belongs to on the item. -/
def groupOfPtav (item : MenuItem) (ptavId : PtavId) : Option String :=
  (item.optionOfPtav ptavId).bind CandidateModifier.groupKey

/-- The required groups of the item: those some option declares required. -/
def requiredGroups (item : MenuItem) : List String :=
  item.modifiers.filterMap fun mod => if mod.required = some true then mod.groupKey else none

/-- How many selections the line holds in a group of its item. -/
def selections (item : MenuItem) (line : CartLine) (group : String) : ℕ :=
  line.modifiers.countP fun m => groupOfPtav item m.ptavId = some group

/-- The modifier keys of the selections the item still lists. -/
def selectedKeys (item : MenuItem) (modifiers : List CartModifier) : List String :=
  modifiers.filterMap fun m => (item.optionOfPtav m.ptavId).map CandidateModifier.modifierKey

/-- The options of the item, as the checker reads them. -/
def itemOptions (item : MenuItem) : List ModOption := item.modifiers.map candidateOption

theorem viewOption_toModifierView (mod : CandidateModifier) :
    viewOption (toModifierView mod) = candidateOption mod := rfl

theorem mem_requiredGroups {item : MenuItem} {group : String} :
    group ∈ requiredGroups item ↔
      ∃ mod ∈ item.modifiers, mod.required = some true ∧ mod.groupKey = some group := by
  simp only [requiredGroups, List.mem_filterMap]
  refine exists_congr fun mod => and_congr_right fun _ => ?_
  by_cases h : mod.required = some true <;> simp [h]

/-- Under one-to-one options a selection and its key name one option. -/
theorem groupOfKey_of_ptav {item : MenuItem} (hitem : item.OneToOne) {ptavId : PtavId}
    {mod : CandidateModifier} (h : item.optionOfPtav ptavId = some mod) :
    groupOfKey item mod.modifierKey = mod.groupKey := by
  have hmem := ((MenuItem.optionOfPtav_eq_some hitem _ _).mp h).1
  rw [groupOfKey, (MenuItem.optionOfKey_eq_some hitem _ _).mpr ⟨hmem, rfl⟩, Option.bind_some]

/-- Counting the selected keys of a group counts the line's selections in it. -/
theorem countP_selectedKeys {item : MenuItem} (hitem : item.OneToOne)
    (modifiers : List CartModifier) (group : String) :
    (selectedKeys item modifiers).countP (fun key => groupOfKey item key = some group) =
      modifiers.countP (fun m => groupOfPtav item m.ptavId = some group) := by
  induction modifiers with
  | nil => rfl
  | cons m modifiers ih =>
      cases hoption : item.optionOfPtav m.ptavId with
      | none =>
          rw [List.countP_cons_of_neg (by simp [groupOfPtav, hoption]), ← ih, selectedKeys,
            List.filterMap_cons_none (by simp [hoption])]
          rfl
      | some mod =>
          rw [selectedKeys, List.filterMap_cons_some (by rw [hoption, Option.map_some])]
          have hgroup : groupOfPtav item m.ptavId = mod.groupKey := by simp [groupOfPtav, hoption]
          rw [List.countP_cons, List.countP_cons, groupOfKey_of_ptav hitem hoption, hgroup]
          exact congrArg (· + _) ih

/-! ## The tables -/

theorem groupTables_append (options : List ModOption) (option : ModOption) :
    groupTables (options ++ [option]) = (groupTables options).addOption option := by
  simp [groupTables]

theorem mem_groupTables_requiredGroups {options : List ModOption} {group : String} :
    group ∈ (groupTables options).requiredGroups ↔
      ∃ option ∈ options, option.required = some true ∧ option.groupKey = some group := by
  induction options using List.reverseRecOn with
  | nil => simp [groupTables]
  | append_singleton options option ih =>
      simp only [groupTables_append, List.mem_append, List.mem_singleton, or_and_right, exists_or,
        exists_eq_left, ← ih]
      unfold GroupTables.addOption
      cases hgroup : option.groupKey with
      | none => simp
      | some g =>
          by_cases hrequired : option.required = some true
          · simp [hrequired, eq_comm]
          · simp [hrequired]

/-- Each option overwrites the group of its key. -/
theorem get_groupOf_append (options : List ModOption) (option : ModOption) (key : String) :
    OrderedMap.get (groupTables (options ++ [option])).groupOf key =
      if option.modifierKey = key ∧ option.groupKey.isSome then option.groupKey
      else OrderedMap.get (groupTables options).groupOf key := by
  rw [groupTables_append]
  unfold GroupTables.addOption
  cases hgroup : option.groupKey with
  | none => simp
  | some group => simp [OrderedMap.get_set]

/-- When a key determines its option, the table holds the group of that option. -/
theorem get_groupOf {options : List ModOption}
    (h : ∀ a ∈ options, ∀ b ∈ options, a.modifierKey = b.modifierKey → a = b) (key group : String) :
    OrderedMap.get (groupTables options).groupOf key = some group ↔
      ∃ option ∈ options, option.modifierKey = key ∧ option.groupKey = some group := by
  induction options using List.reverseRecOn with
  | nil => simp [groupTables]
  | append_singleton options option ih =>
      have ih := ih fun a ha b hb => h a (by simp [ha]) b (by simp [hb])
      rw [get_groupOf_append]
      by_cases hkey : option.modifierKey = key ∧ option.groupKey.isSome
      · rw [if_pos hkey]
        constructor
        · intro hgroup
          exact ⟨option, by simp, hkey.1, hgroup⟩
        · rintro ⟨other, hother, hotherKey, hgroup⟩
          rw [h option (by simp) other hother (hkey.1.trans hotherKey.symm)]
          exact hgroup
      · rw [if_neg hkey, ih]
        constructor
        · rintro ⟨other, hother, hrest⟩
          exact ⟨other, by simp [hother], hrest⟩
        · rintro ⟨other, hother, hotherKey, hgroup⟩
          rcases List.mem_append.mp hother with hother | hother
          · exact ⟨other, hother, hotherKey, hgroup⟩
          · rw [List.mem_singleton.mp hother] at hotherKey hgroup
            exact absurd ⟨hotherKey, by simp [hgroup]⟩ hkey

theorem get_groupOf_itemOptions {item : MenuItem} (hitem : item.OneToOne) (key : String) :
    OrderedMap.get (groupTables (itemOptions item)).groupOf key = groupOfKey item key := by
  have hinj : ∀ a ∈ itemOptions item, ∀ b ∈ itemOptions item, a.modifierKey = b.modifierKey →
      a = b := by
    intro a ha b hb hkey
    obtain ⟨moda, hmoda, rfl⟩ := List.mem_map.mp ha
    obtain ⟨modb, hmodb, rfl⟩ := List.mem_map.mp hb
    rw [hitem.key_inj moda hmoda modb hmodb hkey]
  apply Option.ext
  intro group
  rw [get_groupOf hinj, groupOfKey, Option.bind_eq_some_iff]
  simp only [itemOptions, List.mem_map, exists_exists_and_eq_and,
    MenuItem.optionOfKey_eq_some hitem, and_assoc]
  rfl

/-- The counters count, group by group, the selected keys of the group. -/
theorem get_groupCounts (groupOf : List (String × String)) (keys : List String) (group : String) :
    (OrderedMap.get (groupCounts groupOf keys) group).getD 0 =
      keys.countP (fun key => OrderedMap.get groupOf key = some group) := by
  induction keys using List.reverseRecOn with
  | nil => rfl
  | append_singleton keys key ih =>
      rw [List.countP_append, ← ih, groupCounts, List.foldl_append, List.foldl_cons,
        List.foldl_nil]
      cases hkey : OrderedMap.get groupOf key with
      | none => simp [hkey, groupCounts]
      | some g =>
          by_cases hg : g = group
          · subst hg
            simp [hkey, groupCounts]
          · simp [hkey, groupCounts, OrderedMap.get_set, hg]

/-! ## The check -/

/-- On the options of an item, the check is silent exactly when every required group it
judges holds one of the selected keys. -/
theorem checkExactlyOne_eq_nil {item : MenuItem} (hitem : item.OneToOne) (keys : List String)
    (label : String) (onlyGroups : Option (List String)) :
    checkExactlyOne keys (itemOptions item) label onlyGroups = [] ↔
      ∀ group ∈ requiredGroups item, (∀ only, onlyGroups = some only → group ∈ only) →
        keys.countP (fun key => groupOfKey item key = some group) = 1 := by
  have hrequired : ∀ group, group ∈ (groupTables (itemOptions item)).requiredGroups ↔
      group ∈ requiredGroups item := by
    intro group
    rw [mem_groupTables_requiredGroups, mem_requiredGroups]
    simp only [itemOptions, List.mem_map, exists_exists_and_eq_and]
    rfl
  unfold checkExactlyOne
  simp only [List.filterMap_eq_nil_iff, List.mem_filter, hrequired, get_groupCounts,
    get_groupOf_itemOptions hitem]
  refine forall_congr' fun group => ?_
  rw [and_imp]
  refine imp_congr_right fun _ => ?_
  cases onlyGroups with
  | none => simp
  | some only => simp

end VoiceOrder.Ordering
