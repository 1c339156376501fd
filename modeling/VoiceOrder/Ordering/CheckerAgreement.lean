import VoiceOrder.CartModule.LineOrigin
import VoiceOrder.Ordering.BatchSimulation

/-! # The required-group checker agrees with the cart

On a batch the cart accepts, the checker is silent exactly when the cart the batch
produces holds one selection in every required group the batch is answerable for. -/

namespace VoiceOrder.Ordering

open VoiceOrder.Menu VoiceOrder.CartModule

/-! ## The specification -/

/-- What a batch must leave in the cart: exactly one selection in each required group of
a new line, and in each required group it named on a surviving line. -/
structure RequiredGroupsMet (menu : MenuLookup Id) (cart : Cart) (ops : List CartOperation)
    (result : Cart) : Prop where
  added : ∀ line ∈ result.items, line.lineId ∉ cart.lineIds →
    ∀ item, menu.findByTmplId cart.posConfigId line.productTmplId = some item →
      ∀ group ∈ requiredGroups item, selections item line group = 1
  edited : ∀ lineId ∈ cart.lineIds, ∀ line, result.findLine lineId = some line →
    ∀ item, menu.findByTmplId cart.posConfigId line.productTmplId = some item →
      ∀ group ∈ requiredGroups item, (∃ op ∈ ops, NamesGroup item lineId group op) →
        selections item line group = 1

/-- The ids drawn while the batch is folded are new: no line of the cart carries one and
no operation of the batch names one. -/
structure FreshIds (cart : Cart) (ops : List CartOperation) (lineIds : List LineId) : Prop where
  unused : ∀ lineId ∈ lineIds, lineId ∉ cart.lineIds
  unnamed : ∀ lineId ∈ lineIds, ∀ op ∈ ops, op.target ≠ some lineId

/-! ## The view of a line -/

section

variable {menu : MenuLookup Id} {cart result : Cart} {ops : List CartOperation}
  {lineIds : List LineId}

/-- The batched read serves each line the item found under its template. -/
theorem get_byTmpl (hlaw : menu.Lawful) {pos : PosConfigId} {tmpls : List ProductTmplId}
    {tmpl : ProductTmplId} (htmpl : tmpl ∈ tmpls) :
    OrderedMap.get (OrderedMap.ofEntries
      ((menu.getItems pos tmpls).run.map fun item => (item.productTmplId, item))) tmpl =
      menu.findByTmplId pos tmpl := by
  have hget : ∀ {item}, OrderedMap.get (OrderedMap.ofEntries
      ((menu.getItems pos tmpls).run.map fun item => (item.productTmplId, item))) tmpl =
      some item → menu.findByTmplId pos tmpl = some item := by
    intro item h
    obtain ⟨found, hfound, heq⟩ := List.mem_map.mp (OrderedMap.mem_of_get_ofEntries h)
    obtain ⟨rfl, rfl⟩ := Prod.mk.inj heq
    exact (hlaw.mem_getItems.mp hfound).2
  cases hfind : menu.findByTmplId pos tmpl with
  | none =>
      cases h : OrderedMap.get _ tmpl with
      | none => rfl
      | some item =>
          rw [hget h] at hfind
          cases hfind
  | some item =>
      have hid := hlaw.tmpl_eq hfind
      have hmem : item ∈ (menu.getItems pos tmpls).run :=
        hlaw.mem_getItems.mpr ⟨hid ▸ htmpl, hid ▸ hfind⟩
      have hentry : (tmpl, item) ∈
          (menu.getItems pos tmpls).run.map fun item => (item.productTmplId, item) :=
        List.mem_map.mpr ⟨item, hmem, by rw [hid]⟩
      obtain ⟨found, h⟩ := OrderedMap.get_ofEntries_isSome hentry
      rw [h, ← hget h, hfind]

/-- The view of a line is that of the line the cart holds, with the item of its template. -/
theorem find_buildCartView (hlaw : menu.Lawful) (cart : Cart) (lineId : LineId) :
    (buildCartView menu cart).items.find? (fun line => line.lineId = lineId) =
      (cart.findLine lineId).map
        (fun line => toLineView line (menu.findByTmplId cart.posConfigId line.productTmplId)) := by
  unfold buildCartView
  simp only [bind, pure, List.find?_map]
  change Option.map _ (cart.findLine lineId) = _
  cases hline : cart.findLine lineId with
  | none => rfl
  | some line =>
      have hmem : line.productTmplId ∈ lineTmpls cart.items :=
        (OrderedMap.mem_foldl_add _ _ _).mpr
          (Or.inr (List.mem_map_of_mem (List.mem_of_find?_eq_some hline)))
      exact congrArg (fun item => some (toLineView line item)) (get_byTmpl hlaw hmem)

/-- The checker starts from the line of the cart. -/
theorem follows_initial {lineId : LineId} {line : CartLine}
    (hline : cart.findLine lineId = some line) :
    Follows menu cart.posConfigId line.productTmplId lineId cart
      (initialState (toLineView line (menu.findByTmplId cart.posConfigId line.productTmplId))) := by
  refine ⟨?_, fun h => (nomatch h), fun _ => ⟨line, hline, rfl, fun item hitem => ?_⟩⟩
  · unfold initialState toLineView tmplOptions
    cases menu.findByTmplId cart.posConfigId line.productTmplId with
    | none => rfl
    | some item => simp [itemOptions, viewOption_toModifierView]
  · simp only [initialState, toLineView, hitem, Option.map_some, Option.getD_some, selectedKeys,
      List.map_map, MenuItem.optionOfPtav]
    rw [List.map_filterMap]
    rfl

/-! ## The two halves of the check -/

/-- The keys of an accepted addition are the keys of its line. -/
theorem selectedKeys_resolved {item : MenuItem} (hitem : item.OneToOne)
    {refs : List OpModifierRef} {modifiers : List CartModifier}
    (h : resolveModifiers item refs = .ok modifiers) :
    selectedKeys item modifiers = refs.map OpModifierRef.modifierKey := by
  have hresolved := resolveModifiers_eq_ok.mp h
  clear h
  induction hresolved with
  | nil => rfl
  | cons hhead _ ih =>
      obtain ⟨mod, hmod, rfl⟩ := hhead
      obtain ⟨hmem, hkey⟩ := (MenuItem.optionOfKey_eq_some hitem _ _).mp hmod
      have hptav : item.optionOfPtav (toCartModifier mod).ptavId = some mod :=
        (MenuItem.optionOfPtav_eq_some hitem _ _).mpr ⟨hmem, rfl⟩
      rw [selectedKeys, List.filterMap_cons_some (by rw [hptav, Option.map_some]), List.map_cons,
        hkey]
      exact congrArg (_ :: ·) ih

/-- An accepted addition passes the check exactly when its line meets the groups. -/
theorem judgeAddition_eq_nil {itemsByKey : String → Option MenuItem} {item : MenuItem}
    (hitem : item.OneToOne) {menuItemKey : String} {quantity : ℤ} {refs : List OpModifierRef}
    {modifiers : List CartModifier} (hkey : itemsByKey menuItemKey = some item)
    (havailable : item.available = true) (hmods : resolveModifiers item refs = .ok modifiers)
    {line : CartLine} (hline : line.modifiers = modifiers) :
    judgeAddition itemsByKey (.addItem menuItemKey quantity refs) = [] ↔
      ∀ group ∈ requiredGroups item, selections item line group = 1 := by
  simp only [judgeAddition, hkey, havailable, ↓reduceIte]
  rw [← itemOptions, checkExactlyOne_eq_nil hitem, ← selectedKeys_resolved hitem hmods]
  simp only [countP_selectedKeys hitem, selections, hline]
  simp

/-- The additions pass exactly when every new line meets its groups. -/
theorem additions_eq_nil (hone : menu.OneToOne) (hlaw : menu.Lawful)
    (hfolds : Folds menu cart.posConfigId cart ops lineIds result)
    (hfresh : FreshIds cart ops lineIds) {itemsByKey : String → Option MenuItem}
    (hitems : ∀ menuItemKey quantity refs, .addItem menuItemKey quantity refs ∈ ops →
      itemsByKey menuItemKey = menu.resolveItemKey cart.posConfigId menuItemKey) :
    ops.flatMap (judgeAddition itemsByKey) = [] ↔
      ∀ line ∈ result.items, line.lineId ∉ cart.lineIds →
        ∀ item, menu.findByTmplId cart.posConfigId line.productTmplId = some item →
          ∀ group ∈ requiredGroups item, selections item line group = 1 := by
  rw [List.flatMap_eq_nil_iff]
  constructor
  · intro h line hline hnew item hitem
    have hdrawn := (hfolds.lineId_mem hline).resolve_left hnew
    rcases hfolds.origin hline (hfresh.unnamed _ hdrawn) with ⟨source, hsource, hsame⟩ | hadded
    · exact absurd (List.mem_map.mpr ⟨source, hsource, hsame.lineId.symm⟩) hnew
    · obtain ⟨key, quantity, refs, id, found, modifiers, hop, hfound, havailable, hmods, hsame⟩ :=
        hadded
      have hmem := (List.of_mem_zip hop).1
      have htmpl := hlaw.resolve_find hfound
      rw [hsame.tmpl] at hitem
      cases htmpl.symm.trans hitem
      exact (judgeAddition_eq_nil (hone.resolveItemKey _ _ _ hfound)
        ((hitems _ _ _ hmem).trans hfound) havailable hmods hsame.modifiers).mp (h _ hmem)
  · intro h op hop
    cases op with
    | addItem key quantity refs =>
        obtain ⟨id, hid, item, modifiers, hfound, havailable, hmods, line, hline, hsame⟩ :=
          hfolds.addition hop hfresh.unnamed
        refine (judgeAddition_eq_nil (hone.resolveItemKey _ _ _ hfound)
          ((hitems _ _ _ hop).trans hfound) havailable hmods hsame.modifiers).mpr ?_
        refine h line hline ?_ item ?_
        · rw [hsame.lineId]
          exact hfresh.unused id hid
        · rw [hsame.tmpl]
          exact hlaw.resolve_find hfound
    | removeItem | updateQuantity | addModifier | removeModifier => rfl

/-- One surviving line passes the check exactly when it meets the groups named on it. -/
theorem judgeLine_eq_nil (hone : menu.OneToOne)
    (hfolds : Folds menu cart.posConfigId cart ops lineIds result) {lineId : LineId}
    (hfresh : lineId ∉ lineIds) {source : CartLine} (hsource : cart.findLine lineId = some source) :
    judgeLine (ops.foldl (applyNamed lineId) (initialState
        (toLineView source (menu.findByTmplId cart.posConfigId source.productTmplId)))) = [] ↔
      ∀ line, result.findLine lineId = some line →
        ∀ item, menu.findByTmplId cart.posConfigId line.productTmplId = some item →
          ∀ group ∈ requiredGroups item, (∃ op ∈ ops, NamesGroup item lineId group op) →
            selections item line group = 1 := by
  have hstart := @follows_initial menu _ _ _ hsource
  have hend := hstart.run hone hfolds hfresh
  generalize hinit : initialState (toLineView source
    (menu.findByTmplId cart.posConfigId source.productTmplId)) = init at hstart hend
  have htouched : init.touchedGroups = [] := by rw [← hinit]; rfl
  generalize hfinal : ops.foldl (applyNamed lineId) init = final at hend
  unfold judgeLine
  cases hremoved : final.removed with
  | true =>
      simp only [Bool.true_or, ↓reduceIte, true_iff]
      intro line hline
      rw [hend.gone hremoved] at hline
      cases hline
  | false =>
      obtain ⟨line, hline, htmpl, hkeys⟩ := hend.alive hremoved
      simp only [Bool.false_or, hline, Option.some.injEq, forall_eq', htmpl]
      cases hitem : menu.findByTmplId cart.posConfigId source.productTmplId with
      | none =>
          have hempty : final.touchedGroups = [] := by
            rw [← hfinal]
            exact touchedGroups_eq_nil (by simp [hstart.options, tmplOptions, hitem]) htouched _ _
          simp [hempty]
      | some item =>
          have hone := hone.findByTmplId _ _ _ hitem
          have hinitOptions : init.options = itemOptions item := by
            simp [hstart.options, tmplOptions, hitem]
          have hoptions : final.options = itemOptions item := by
            simp [hend.options, tmplOptions, hitem]
          have hnamed : ∀ group, group ∈ final.touchedGroups ↔
              ∃ op ∈ ops, NamesGroup item lineId group op := by
            intro group
            rw [← hfinal, mem_touchedGroups hinitOptions, htouched]
            simp
          have hcheck : checkExactlyOne final.keys final.options final.label
              (some final.touchedGroups) = [] ↔ ∀ group ∈ requiredGroups item,
                group ∈ final.touchedGroups → selections item line group = 1 := by
            rw [hoptions, checkExactlyOne_eq_nil hone, hkeys item hitem]
            simp only [countP_selectedKeys hone, selections, Option.some.injEq, forall_eq']
          have hrequired : (∀ other, some item = some other → ∀ group ∈ requiredGroups other,
              (∃ op ∈ ops, NamesGroup other lineId group op) → selections other line group = 1) ↔
              ∀ group ∈ requiredGroups item, group ∈ final.touchedGroups →
                selections item line group = 1 := by
            simp [hnamed]
          rw [hrequired]
          by_cases hempty : final.touchedGroups = []
          · simp [hempty]
          · rw [if_neg (by simpa using hempty), hcheck]

/-- The edits pass exactly when every surviving line meets the groups named on it. -/
theorem edits_eq_nil (hone : menu.OneToOne) (hlaw : menu.Lawful)
    (hfolds : Folds menu cart.posConfigId cart ops lineIds result)
    (hfresh : FreshIds cart ops lineIds) :
    (ops.foldl (simulateOp (buildCartView menu cart)) []).flatMap
        (fun entry => judgeLine entry.2) = [] ↔
      ∀ lineId ∈ cart.lineIds, ∀ line, result.findLine lineId = some line →
        ∀ item, menu.findByTmplId cart.posConfigId line.productTmplId = some item →
          ∀ group ∈ requiredGroups item, (∃ op ∈ ops, NamesGroup item lineId group op) →
            selections item line group = 1 := by
  rw [judged_eq_nil_iff]
  have hnot : ∀ {lineId}, lineId ∈ cart.lineIds → lineId ∉ lineIds := fun hold hdrawn =>
    hfresh.unused _ hdrawn hold
  constructor
  · intro h lineId hold
    cases hsource : cart.findLine lineId with
    | none =>
        obtain ⟨line, hline, hid⟩ := List.mem_map.mp hold
        have := List.find?_eq_none.mp hsource line hline
        simp [hid] at this
    | some source =>
        refine (judgeLine_eq_nil hone hfolds (hnot hold) hsource).mp (h lineId _ ?_)
        rw [find_buildCartView hlaw, hsource, Option.map_some]
  · intro h lineId line hline
    rw [find_buildCartView hlaw] at hline
    obtain ⟨source, hsource, rfl⟩ := Option.map_eq_some_iff.mp hline
    have hold : lineId ∈ cart.lineIds := by
      have hid : source.lineId = lineId := by simpa using List.find?_some hsource
      exact hid ▸ List.mem_map_of_mem (List.mem_of_find?_eq_some hsource)
    exact (judgeLine_eq_nil hone hfolds (hnot hold) hsource).mpr (h lineId hold)

/-! ## The agreement -/

/-- On a batch the cart accepts, the checker reports nothing exactly when the cart the
batch produces meets the required groups it is answerable for. -/
theorem violations_eq_nil_iff (hone : menu.OneToOne) (hlaw : menu.Lawful)
    (hfolds : Folds menu cart.posConfigId cart ops lineIds result)
    (hfresh : FreshIds cart ops lineIds) {itemsByKey : String → Option MenuItem}
    (hitems : ∀ menuItemKey quantity refs, .addItem menuItemKey quantity refs ∈ ops →
      itemsByKey menuItemKey = menu.resolveItemKey cart.posConfigId menuItemKey) :
    findRequiredModifierViolations ops (some (buildCartView menu cart)) itemsByKey = [] ↔
      RequiredGroupsMet menu cart ops result := by
  unfold findRequiredModifierViolations
  rw [OrderedMap.foldl_add_eq_nil, List.append_eq_nil_iff,
    additions_eq_nil hone hlaw hfolds hfresh hitems, edits_eq_nil hone hlaw hfolds hfresh]
  exact ⟨fun h => ⟨h.1, h.2⟩, fun h => ⟨h.added, h.edited⟩⟩

end

/-- A cart with one burger in a sesame bun. -/
def sesameCart : Cart :=
  let line := newLine "ln_1" chickenBurger 1 [toCartModifier (bun "sesame" 910)]
  repriced (emptyCart "cart_1" 1 none "t0") [line] [chickenBurger] "t0"

/-- Swap the bun of the burger and order a second one. -/
def swapBatch : List CartOperation :=
  [.addModifier "ln_1" "brioche", .removeModifier "ln_1" "sesame",
    .addItem "chicken_burger" 1 [⟨"sesame"⟩]]

theorem violations_eq_nil_iff_swap : ∃ result,
    Folds burgerStore.toLookup 1 sesameCart swapBatch ["ln_2", "ln_3", "ln_4"] result ∧
      (findRequiredModifierViolations swapBatch
          (some (buildCartView burgerStore.toLookup sesameCart))
          (burgerStore.toLookup.resolveItemKey 1) = [] ↔
        RequiredGroupsMet burgerStore.toLookup sesameCart swapBatch result) := by
  have hfolds : ∃ result,
      Folds burgerStore.toLookup 1 sesameCart swapBatch ["ln_2", "ln_3", "ln_4"] result :=
    ⟨_, @Folds.cons _ _ ⟨"ln_2", "t1"⟩ _ _ _ _ _ _ rfl
      (@Folds.cons _ _ ⟨"ln_3", "t1"⟩ _ _ _ _ _ _ rfl
        (@Folds.cons _ _ ⟨"ln_4", "t1"⟩ _ _ _ _ _ _ rfl (.nil _)))⟩
  obtain ⟨result, hfolds⟩ := hfolds
  have hfresh : FreshIds sesameCart swapBatch ["ln_2", "ln_3", "ln_4"] :=
    ⟨by decide, by decide⟩
  exact ⟨result, hfolds, violations_eq_nil_iff burgerStore_oneToOne burgerStore_lawful hfolds
    hfresh fun _ _ _ _ => rfl⟩

end VoiceOrder.Ordering
