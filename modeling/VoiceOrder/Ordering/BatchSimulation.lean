import VoiceOrder.CartModule.Edits
import VoiceOrder.Ordering.GroupCheck

/-! # The checker's simulation follows the cart

The checker folds a batch over string keys of the cart view; the cart folds it over
ptav ids. `Follows` relates the two states of one line, and every accepted operation
preserves it. -/

namespace VoiceOrder.Ordering

open VoiceOrder.Menu VoiceOrder.CartModule

/-! ## The state of one line after a batch -/

/-- What the batch does to the state of one line: only the operations naming it count. -/
def applyNamed (lineId : LineId) (state : LineState) (op : CartOperation) : LineState :=
  if simulatedTarget op = some lineId then state.apply op else state

theorem stateOf_set (view : CartView) (lines : LineStates) (target lineId : LineId)
    (state : LineState) :
    stateOf view (OrderedMap.set lines target state) lineId =
      if target = lineId then some state else stateOf view lines lineId := by
  unfold stateOf
  rw [OrderedMap.get_set]
  by_cases h : target = lineId <;> simp [h]

theorem stateOf_simulateOp (view : CartView) (lines : LineStates) (op : CartOperation)
    (lineId : LineId) :
    stateOf view (simulateOp view lines op) lineId =
      (stateOf view lines lineId).map (fun state => applyNamed lineId state op) := by
  unfold simulateOp applyNamed
  cases simulatedTarget op with
  | none => simp
  | some target =>
      cases hstate : stateOf view lines target with
      | none =>
          by_cases h : target = lineId
          · subst h
            simp only [hstate, Option.map_none]
          · simp [hstate, h]
      | some state =>
          simp only [hstate, stateOf_set]
          by_cases h : target = lineId
          · subst h
            simp [hstate]
          · simp [h]

theorem stateOf_foldl (view : CartView) (ops : List CartOperation) (lines : LineStates)
    (lineId : LineId) :
    stateOf view (ops.foldl (simulateOp view) lines) lineId =
      (stateOf view lines lineId).map (fun state => ops.foldl (applyNamed lineId) state) := by
  induction ops generalizing lines with
  | nil => simp
  | cons op ops ih =>
      rw [List.foldl_cons, ih, stateOf_simulateOp, Option.map_map]
      rfl

theorem keysNodup_simulate (view : CartView) (ops : List CartOperation) (lines : LineStates)
    (h : OrderedMap.KeysNodup lines) :
    OrderedMap.KeysNodup (ops.foldl (simulateOp view) lines) := by
  induction ops generalizing lines with
  | nil => exact h
  | cons op ops ih =>
      apply ih
      unfold simulateOp
      split
      · exact h
      · split
        · exact h
        · exact OrderedMap.keysNodup_set h _ _

/-- A line the batch never names is judged on no group. -/
theorem judgeLine_initialState (line : CartLineView) : judgeLine (initialState line) = [] := by
  simp [judgeLine, initialState]

/-- The edits of a batch are silent exactly when the judgement of every line is. -/
theorem judged_eq_nil_iff (view : CartView) (ops : List CartOperation) :
    (ops.foldl (simulateOp view) []).flatMap (fun entry => judgeLine entry.2) = [] ↔
      ∀ lineId line, view.items.find? (fun line => line.lineId = lineId) = some line →
        judgeLine (ops.foldl (applyNamed lineId) (initialState line)) = [] := by
  have hkeys := keysNodup_simulate view ops [] List.nodup_nil
  rw [List.flatMap_eq_nil_iff]
  have hstate : ∀ lineId, stateOf view (ops.foldl (simulateOp view) []) lineId =
      (view.items.find? (fun line => line.lineId = lineId)).map
        (fun line => ops.foldl (applyNamed lineId) (initialState line)) := by
    intro lineId
    rw [stateOf_foldl]
    simp [stateOf, Function.comp_def]
  constructor
  · intro h lineId line hline
    have hs := hstate lineId
    rw [hline, Option.map_some, stateOf] at hs
    cases hget : OrderedMap.get (ops.foldl (simulateOp view) []) lineId with
    | none =>
        rw [hget, hline] at hs
        rw [← Option.some.inj hs]
        exact judgeLine_initialState line
    | some state =>
        rw [hget] at hs
        rw [← Option.some.inj hs]
        exact h (lineId, state) ((OrderedMap.mem_iff_get hkeys lineId state).mpr hget)
  · rintro h ⟨lineId, state⟩ hentry
    have hget := (OrderedMap.mem_iff_get hkeys lineId state).mp hentry
    have hs := hstate lineId
    rw [stateOf, hget] at hs
    obtain ⟨line, hline, hjudged⟩ := Option.map_eq_some_iff.mp hs.symm
    change judgeLine state = []
    rw [← hjudged]
    exact h lineId line hline

/-! ## The keys of an edited line -/

theorem mem_selectedKeys {item : MenuItem} (hitem : item.OneToOne) {mod : CandidateModifier}
    {key : String} (hmod : item.optionOfKey key = some mod) (modifiers : List CartModifier) :
    key ∈ selectedKeys item modifiers ↔ ∃ m ∈ modifiers, m.ptavId = mod.ptavId := by
  obtain ⟨hmem, hkey⟩ := (MenuItem.optionOfKey_eq_some hitem _ _).mp hmod
  simp only [selectedKeys, List.mem_filterMap, Option.map_eq_some_iff,
    MenuItem.optionOfPtav_eq_some hitem]
  refine exists_congr fun m => and_congr_right fun _ => ?_
  constructor
  · rintro ⟨option, ⟨hoption, hptav⟩, hkeyOption⟩
    rw [← hitem.key_inj _ hoption _ hmem (hkeyOption.trans hkey.symm), hptav]
  · intro hptav
    exact ⟨mod, ⟨hmem, hptav.symm⟩, hkey⟩

theorem selectedKeys_withModifier {item : MenuItem} (hitem : item.OneToOne)
    {mod : CandidateModifier} {key : String} (hmod : item.optionOfKey key = some mod)
    (modifiers : List CartModifier) :
    selectedKeys item (withModifier modifiers mod) =
      if key ∈ selectedKeys item modifiers then selectedKeys item modifiers
      else selectedKeys item modifiers ++ [key] := by
  obtain ⟨hmem, hkey⟩ := (MenuItem.optionOfKey_eq_some hitem _ _).mp hmod
  have hany : modifiers.any (fun selected => selected.ptavId = mod.ptavId) = true ↔
      key ∈ selectedKeys item modifiers := by
    rw [mem_selectedKeys hitem hmod, List.any_eq_true]
    simp
  unfold withModifier
  by_cases h : key ∈ selectedKeys item modifiers
  · rw [if_pos (hany.mpr h), if_pos h]
  · rw [if_neg (mt hany.mp h), if_neg h, selectedKeys, List.filterMap_append]
    congr 1
    have hptav : item.optionOfPtav (toCartModifier mod).ptavId = some mod :=
      (MenuItem.optionOfPtav_eq_some hitem _ _).mpr ⟨hmem, rfl⟩
    simp [hptav, hkey]

theorem selectedKeys_withoutModifier {item : MenuItem} (hitem : item.OneToOne)
    {mod : CandidateModifier} {key : String} (hmod : item.optionOfKey key = some mod)
    (modifiers : List CartModifier) :
    selectedKeys item (withoutModifier modifiers mod) =
      (selectedKeys item modifiers).filter (fun k => k ≠ key) := by
  obtain ⟨hmem, hkey⟩ := (MenuItem.optionOfKey_eq_some hitem _ _).mp hmod
  induction modifiers with
  | nil => rfl
  | cons m modifiers ih =>
      unfold selectedKeys withoutModifier at ih ⊢
      cases hoption : item.optionOfPtav m.ptavId with
      | none =>
          rw [List.filterMap_cons_none (by rw [hoption, Option.map_none]), ← ih]
          by_cases hptav : m.ptavId = mod.ptavId
          · rw [List.filter_cons_of_neg (by simp [hptav])]
          · rw [List.filter_cons_of_pos (by simp [hptav]),
              List.filterMap_cons_none (by rw [hoption, Option.map_none])]
      | some option =>
          rw [List.filterMap_cons_some (by rw [hoption, Option.map_some])]
          obtain ⟨hoptionMem, hoptionPtav⟩ :=
            (MenuItem.optionOfPtav_eq_some hitem _ _).mp hoption
          by_cases hptav : m.ptavId = mod.ptavId
          · have hsame : option = mod := hitem.ptav_inj _ hoptionMem _ hmem
              (hoptionPtav.trans hptav)
            rw [List.filter_cons_of_neg (by simp [hptav]),
              List.filter_cons_of_neg (by simp [hsame, hkey]), ih]
          · have hne : option.modifierKey ≠ key := by
              intro he
              apply hptav
              rw [← hoptionPtav, hitem.key_inj _ hoptionMem _ hmem (he.trans hkey.symm)]
            rw [List.filter_cons_of_pos (by simp [hptav]),
              List.filterMap_cons_some (by rw [hoption, Option.map_some]),
              List.filter_cons_of_pos (by simp [hne]), ih]

/-! ## The simulation of one line -/

/-- The options the checker reads for a line of the template. -/
def tmplOptions (menu : MenuLookup Id) (pos : PosConfigId) (tmpl : ProductTmplId) :
    List ModOption :=
  ((menu.findByTmplId pos tmpl).map itemOptions).getD []

/-- The simulated state of a line agrees with the line in the cart: same options, the
keys of its selections, and removed when the cart no longer holds it. -/
structure Follows (menu : MenuLookup Id) (pos : PosConfigId) (tmpl : ProductTmplId)
    (lineId : LineId) (cart : Cart) (state : LineState) : Prop where
  options : state.options = tmplOptions menu pos tmpl
  gone : state.removed = true → cart.findLine lineId = none
  alive : state.removed = false → ∃ line, cart.findLine lineId = some line ∧
    line.productTmplId = tmpl ∧
    ∀ item, menu.findByTmplId pos tmpl = some item → state.keys = selectedKeys item line.modifiers

section

variable (state : LineState) (key : String)

@[simp] theorem LineState.touch_options : (state.touch key).options = state.options := by
  unfold LineState.touch
  split <;> rfl

@[simp] theorem LineState.touch_keys : (state.touch key).keys = state.keys := by
  unfold LineState.touch
  split <;> rfl

@[simp] theorem LineState.touch_removed : (state.touch key).removed = state.removed := by
  unfold LineState.touch
  split <;> rfl

theorem LineState.addKey_keys :
    (state.addKey key).keys = if key ∈ state.keys then state.keys else state.keys ++ [key] := by
  unfold LineState.addKey
  split <;> rfl

@[simp] theorem LineState.addKey_options : (state.addKey key).options = state.options := by
  unfold LineState.addKey
  split <;> rfl

@[simp] theorem LineState.addKey_removed : (state.addKey key).removed = state.removed := by
  unfold LineState.addKey
  split <;> rfl

@[simp] theorem LineState.addKey_touchedGroups :
    (state.addKey key).touchedGroups = state.touchedGroups := by
  unfold LineState.addKey
  split <;> rfl

theorem LineState.apply_options (op : CartOperation) : (state.apply op).options = state.options := by
  cases op <;> simp [LineState.apply, LineState.removeKey]

end

section

variable {menu : MenuLookup Id} {pos : PosConfigId} {tmpl : ProductTmplId} {lineId : LineId}
  {cart : Cart} {state : LineState}

/-- An operation that leaves the line's choices alone keeps the agreement. -/
theorem Follows.of_sameChoice {result : Cart} (h : Follows menu pos tmpl lineId cart state)
    (hnone : cart.findLine lineId = none → result.findLine lineId = none)
    (hsome : ∀ line, cart.findLine lineId = some line →
      ∃ line', result.findLine lineId = some line' ∧ line'.SameChoice line) :
    Follows menu pos tmpl lineId result state := by
  refine ⟨h.options, fun hr => hnone (h.gone hr), fun hr => ?_⟩
  obtain ⟨line, hline, htmpl, hkeys⟩ := h.alive hr
  obtain ⟨line', hline', hsame⟩ := hsome line hline
  refine ⟨line', hline', hsame.tmpl.trans htmpl, fun item hitem => ?_⟩
  rw [hkeys item hitem, hsame.modifiers]

/-- Rewriting the modifiers of the line: the keys have to be rewritten alike. -/
theorem Follows.of_modifiers {result : Cart} {state' : LineState} {line : CartLine}
    {item : MenuItem} (modifiers : List CartModifier)
    (h : Follows menu pos tmpl lineId cart state) (hline : cart.findLine lineId = some line)
    (hitem : menu.findByTmplId pos line.productTmplId = some item)
    (hresult : ∃ line', result.findLine lineId = some line' ∧
      line'.SameChoice { line with modifiers := modifiers })
    (hoptions : state'.options = state.options) (hremoved : state'.removed = state.removed)
    (hkeys : state.keys = selectedKeys item line.modifiers →
      state'.keys = selectedKeys item modifiers) :
    Follows menu pos tmpl lineId result state' := by
  have halive : state.removed = false := by
    cases hr : state.removed with
    | false => rfl
    | true =>
        have := h.gone hr
        rw [hline] at this
        cases this
  obtain ⟨found, hfound, htmpl, hsel⟩ := h.alive halive
  cases hline.symm.trans hfound
  obtain ⟨line', hline', hsame⟩ := hresult
  refine ⟨hoptions.trans h.options, ?_, fun _ => ?_⟩
  · rw [hremoved, halive]
    intro hr
    cases hr
  · refine ⟨line', hline', hsame.tmpl.trans htmpl, fun item' hitem' => ?_⟩
    rw [← htmpl, hitem] at hitem'
    cases hitem'
    rw [hsame.modifiers]
    exact hkeys (hsel item (htmpl ▸ hitem))

theorem findLine_mapped {menuItems : List MenuItem} {now : String} {target : LineId}
    {f : CartLine → CartLine} (hf : ∀ line, (f line).lineId = line.lineId) :
    (repriced cart (mapLine cart.items target f) menuItems now).findLine lineId =
      (cart.findLine lineId).map
        (fun line => priceLine menuItems (if lineId = target then f line else line)) := by
  rw [findLine_repriced, find_mapLine _ _ _ _ hf, Option.map_map]
  rfl

/-- Rewriting one line keeps the agreement of a line whose choices it keeps. -/
theorem Follows.of_mapped {menuItems : List MenuItem} {now : String} {target : LineId}
    {f : CartLine → CartLine} (h : Follows menu pos tmpl lineId cart state)
    (hf : ∀ line, (f line).lineId = line.lineId)
    (hsame : lineId = target → ∀ line, (f line).SameChoice line) :
    Follows menu pos tmpl lineId (repriced cart (mapLine cart.items target f) menuItems now)
      state := by
  apply h.of_sameChoice
  · intro hnone
    rw [findLine_mapped hf, hnone, Option.map_none]
  · intro line hline
    refine ⟨_, by rw [findLine_mapped hf, hline, Option.map_some], ?_⟩
    split
    · exact (priceLine_sameChoice menuItems _).trans (hsame ‹_› line)
    · exact priceLine_sameChoice menuItems line

/-- Every accepted operation keeps the simulated state and the line in agreement. -/
theorem Follows.step {op : CartOperation} {fresh : LineId} {items : List CartLine}
    {menuItems : List MenuItem} {now : String} (hone : menu.OneToOne)
    (h : Follows menu pos tmpl lineId cart state) (hfresh : fresh ≠ lineId)
    (hedit : Edit cart fresh op (lookedUp menu pos cart op) items) :
    Follows menu pos tmpl lineId (repriced cart items menuItems now)
      (applyNamed lineId state op) := by
  generalize hanswer : lookedUp menu pos cart op = answer at hedit
  cases hedit with
  | addItem havailable hmods =>
      apply h.of_sameChoice
      · intro hnone
        rw [findLine_repriced, List.find?_append]
        unfold Cart.findLine at hnone
        simp [hnone, newLine, hfresh]
      · intro line hline
        refine ⟨_, ?_, priceLine_sameChoice menuItems line⟩
        rw [findLine_repriced, List.find?_append]
        unfold Cart.findLine at hline
        simp [hline]
  | @removeItem target hhas =>
      by_cases ht : target = lineId
      · subst ht
        have hnone : (repriced cart (cart.items.filter (fun line => line.lineId ≠ target))
            menuItems now).findLine target = none := by
          rw [findLine_repriced, find_filter_ne, if_pos rfl, Option.map_none]
        simp only [applyNamed, simulatedTarget, ↓reduceIte, LineState.apply]
        exact ⟨h.options, fun _ => hnone, fun hr => by simp at hr⟩
      · have hsame : (repriced cart (cart.items.filter (fun line => line.lineId ≠ target))
            menuItems now).findLine lineId = (cart.findLine lineId).map (priceLine menuItems) := by
          rw [findLine_repriced, find_filter_ne, if_neg (fun he => ht he.symm)]
          rfl
        simp only [applyNamed, simulatedTarget, Option.some.injEq, ht, ↓reduceIte]
        apply h.of_sameChoice
        · intro hnone
          rw [hsame, hnone, Option.map_none]
        · intro line hline
          exact ⟨_, by rw [hsame, hline, Option.map_some], priceLine_sameChoice menuItems line⟩
  | updateQuantity hhas hpos =>
      exact h.of_mapped (by intro; rfl) (fun _ _ => ⟨rfl, rfl, rfl⟩)
  | @addModifier target key line item mod hline hmod =>
      simp only [lookedUp, hline, Option.bind_some] at hanswer
      by_cases ht : target = lineId
      · subst ht
        simp only [applyNamed, simulatedTarget, ↓reduceIte, LineState.apply]
        refine h.of_modifiers (withModifier line.modifiers mod) hline hanswer
          ⟨_, ?_, priceLine_sameChoice menuItems _⟩ (by simp) (by simp) ?_
        · rw [findLine_mapped (by intro; rfl), hline, Option.map_some, if_pos rfl]
        · intro hkeys
          rw [LineState.addKey_keys, LineState.touch_keys, hkeys,
            selectedKeys_withModifier (hone.findByTmplId _ _ _ hanswer) hmod]
      · simp only [applyNamed, simulatedTarget, Option.some.injEq, ht, ↓reduceIte]
        exact h.of_mapped (by intro; rfl) (fun he => absurd he.symm ht)
  | @removeModifier target key line item mod hline hmod =>
      simp only [lookedUp, hline, Option.bind_some] at hanswer
      by_cases ht : target = lineId
      · subst ht
        simp only [applyNamed, simulatedTarget, ↓reduceIte, LineState.apply]
        refine h.of_modifiers (withoutModifier line.modifiers mod) hline hanswer
          ⟨_, ?_, priceLine_sameChoice menuItems _⟩
          (by simp [LineState.removeKey]) (by simp [LineState.removeKey]) ?_
        · rw [findLine_mapped (by intro; rfl), hline, Option.map_some, if_pos rfl]
        · intro hkeys
          rw [LineState.removeKey, LineState.touch_keys, hkeys,
            selectedKeys_withoutModifier (hone.findByTmplId _ _ _ hanswer) hmod]
      · simp only [applyNamed, simulatedTarget, Option.some.injEq, ht, ↓reduceIte]
        exact h.of_mapped (by intro; rfl) (fun he => absurd he.symm ht)

/-- Over a whole accepted batch the simulated line follows the line of the cart. -/
theorem Follows.run {ops : List CartOperation} {lineIds : List LineId} {result : Cart}
    (hone : menu.OneToOne) (h : Follows menu pos tmpl lineId cart state)
    (hfolds : Folds menu pos cart ops lineIds result) (hfresh : lineId ∉ lineIds) :
    Follows menu pos tmpl lineId result (ops.foldl (applyNamed lineId) state) := by
  induction hfolds generalizing state with
  | nil => exact h
  | cons happly _ ih =>
      simp only [List.mem_cons, not_or] at hfresh
      obtain ⟨hne, hrest⟩ := hfresh
      obtain ⟨items, hedit, rfl⟩ := applyOperation_eq_ok.mp happly
      exact ih (h.step hone (fun he => hne he.symm) hedit) hrest

end

/-! ## The groups the batch names -/

/-- The operation edits a modifier of the line that belongs to the group. -/
def NamesGroup (item : MenuItem) (lineId : LineId) (group : String) (op : CartOperation) : Prop :=
  ∃ key, (op = .addModifier lineId key ∨ op = .removeModifier lineId key) ∧
    groupOfKey item key = some group

theorem mem_touch {item : MenuItem} {state : LineState} (hoptions : state.options = itemOptions item)
    (key group : String) :
    group ∈ (state.touch key).touchedGroups ↔
      group ∈ state.touchedGroups ∨ groupOfKey item key = some group := by
  have hlookup : (state.options.find? (fun option => option.modifierKey = key)).bind
      ModOption.groupKey = groupOfKey item key := by
    rw [hoptions, itemOptions, List.find?_map, groupOfKey, MenuItem.optionOfKey, Option.bind_map]
    rfl
  unfold LineState.touch
  rw [hlookup]
  cases groupOfKey item key with
  | none => simp
  | some g => simp [eq_comm]

theorem mem_touchedGroups_step {item : MenuItem} {state : LineState}
    (hoptions : state.options = itemOptions item) (lineId : LineId) (op : CartOperation)
    (group : String) :
    group ∈ (applyNamed lineId state op).touchedGroups ↔
      group ∈ state.touchedGroups ∨ NamesGroup item lineId group op := by
  cases op with
  | addItem => simp [applyNamed, simulatedTarget, NamesGroup]
  | updateQuantity => simp [applyNamed, simulatedTarget, NamesGroup]
  | removeItem target =>
      by_cases h : target = lineId <;> simp [applyNamed, simulatedTarget, NamesGroup, LineState.apply, h]
  | addModifier target key =>
      by_cases h : target = lineId
      · simp [applyNamed, simulatedTarget, NamesGroup, LineState.apply, h, mem_touch hoptions]
      · simp [applyNamed, simulatedTarget, NamesGroup, h]
  | removeModifier target key =>
      by_cases h : target = lineId
      · simp [applyNamed, simulatedTarget, NamesGroup, LineState.apply, LineState.removeKey, h,
          mem_touch hoptions]
      · simp [applyNamed, simulatedTarget, NamesGroup, h]

theorem applyNamed_options (lineId : LineId) (state : LineState) (op : CartOperation) :
    (applyNamed lineId state op).options = state.options := by
  unfold applyNamed
  split
  · exact state.apply_options op
  · rfl

/-- The touched groups of a line are those some modifier edit of the batch named on it. -/
theorem mem_touchedGroups {item : MenuItem} {state : LineState}
    (hoptions : state.options = itemOptions item) (lineId : LineId) (ops : List CartOperation)
    (group : String) :
    group ∈ (ops.foldl (applyNamed lineId) state).touchedGroups ↔
      group ∈ state.touchedGroups ∨ ∃ op ∈ ops, NamesGroup item lineId group op := by
  induction ops generalizing state with
  | nil => simp
  | cons op ops ih =>
      rw [List.foldl_cons, ih ((applyNamed_options lineId state op).trans hoptions),
        mem_touchedGroups_step hoptions, or_assoc]
      simp

/-- Without options no edit touches a group. -/
theorem touchedGroups_eq_nil {state : LineState} (hoptions : state.options = [])
    (htouched : state.touchedGroups = []) (lineId : LineId) (ops : List CartOperation) :
    (ops.foldl (applyNamed lineId) state).touchedGroups = [] := by
  induction ops generalizing state with
  | nil => exact htouched
  | cons op ops ih =>
      apply ih ((applyNamed_options lineId state op).trans hoptions)
      unfold applyNamed
      split
      · cases op <;> simp [LineState.apply, LineState.removeKey, LineState.touch, hoptions, htouched]
      · exact htouched

end VoiceOrder.Ordering
