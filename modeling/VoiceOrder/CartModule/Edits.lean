import VoiceOrder.CartModule.Applier

/-! # What an accepted operation does to the lines

`Edit` lists, operation by operation, the guards an accepted operation has passed
and the lines it leaves before they are priced again. -/

namespace VoiceOrder.CartModule

open VoiceOrder.Menu

/-- `Edit cart lineId op answer items`: on `cart`, with the fresh id `lineId` and the
menu item `answer` found for it, the operation leaves the lines `items`. -/
inductive Edit (cart : Cart) (lineId : LineId) :
    CartOperation → Option MenuItem → List CartLine → Prop where
  | addItem {menuItemKey quantity refs item modifiers} : item.available = true →
      resolveModifiers item refs = .ok modifiers →
      Edit cart lineId (.addItem menuItemKey quantity refs) (some item)
        (cart.items ++ [newLine lineId item quantity modifiers])
  | removeItem {target} : cart.hasLine target = true →
      Edit cart lineId (.removeItem target) none
        (cart.items.filter (fun line => line.lineId ≠ target))
  | updateQuantity {target quantity} : cart.hasLine target = true → 0 < quantity →
      Edit cart lineId (.updateQuantity target quantity) none
        (mapLine cart.items target (fun line => { line with quantity := quantity }))
  | addModifier {target modifierKey line item mod} : cart.findLine target = some line →
      item.optionOfKey modifierKey = some mod →
      Edit cart lineId (.addModifier target modifierKey) (some item)
        (mapLine cart.items target
          (fun l => { l with modifiers := withModifier line.modifiers mod }))
  | removeModifier {target modifierKey line item mod} : cart.findLine target = some line →
      item.optionOfKey modifierKey = some mod →
      Edit cart lineId (.removeModifier target modifierKey) (some item)
        (mapLine cart.items target
          (fun l => { l with modifiers := withoutModifier line.modifiers mod }))

/-- The inline modifiers of an accepted addition are the options its keys name, one for
each key, in order. -/
theorem resolveModifiers_eq_ok {item : MenuItem} {refs : List OpModifierRef}
    {modifiers : List CartModifier} :
    resolveModifiers item refs = .ok modifiers ↔
      List.Forall₂ (fun ref modifier => ∃ mod, item.optionOfKey ref.modifierKey = some mod ∧
        modifier = toCartModifier mod) refs modifiers := by
  induction refs generalizing modifiers with
  | nil => simp [resolveModifiers, eq_comm]
  | cons ref refs ih =>
      rw [resolveModifiers, List.forall₂_cons_left_iff]
      cases hmod : item.optionOfKey ref.modifierKey with
      | none => simp
      | some mod =>
          cases hrest : resolveModifiers item refs with
          | error error =>
              simp only [Except.map, reduceCtorEq, false_iff]
              rintro ⟨modifier, rest, -, hrest', -⟩
              rw [ih.mpr hrest'] at hrest
              cases hrest
          | ok rest =>
              simp only [Except.map, Except.ok.injEq]
              constructor
              · rintro rfl
                exact ⟨_, _, ⟨mod, rfl, rfl⟩, ih.mp hrest, rfl⟩
              · rintro ⟨modifier, rest', ⟨_, ⟨⟩, rfl⟩, hrest', rfl⟩
                rw [ih.mpr hrest'] at hrest
                cases hrest
                rfl

theorem mem_withModifier {modifiers : List CartModifier} {mod : CandidateModifier}
    {selected : CartModifier} (h : selected ∈ withModifier modifiers mod) :
    selected ∈ modifiers ∨ selected = toCartModifier mod := by
  unfold withModifier at h
  split at h
  · exact .inl h
  · exact (List.mem_append.mp h).imp_right List.mem_singleton.mp

theorem mem_withoutModifier {modifiers : List CartModifier} {mod : CandidateModifier}
    {selected : CartModifier} (h : selected ∈ withoutModifier modifiers mod) :
    selected ∈ modifiers ∨ selected = toCartModifier mod :=
  .inl (List.mem_filter.mp h).1

theorem mem_resolveModifiers {item : MenuItem} {refs : List OpModifierRef}
    {modifiers : List CartModifier} (h : resolveModifiers item refs = .ok modifiers)
    {selected : CartModifier} (hselected : selected ∈ modifiers) :
    ∃ option ∈ item.modifiers, selected = toCartModifier option := by
  have hforall := resolveModifiers_eq_ok.mp h
  clear h
  induction hforall with
  | nil => cases hselected
  | cons hhead _ ih =>
      rcases List.mem_cons.mp hselected with rfl | hrest
      · obtain ⟨option, hoption, hsame⟩ := hhead
        exact ⟨option, List.mem_of_find?_eq_some hoption, hsame⟩
      · exact ih hrest

/-- The menu item an operation looks up before it edits. -/
def lookedUp (menu : MenuLookup Id) (pos : PosConfigId) (cart : Cart) :
    CartOperation → Option MenuItem
  | .addItem menuItemKey _ _ => menu.resolveItemKey pos menuItemKey
  | .removeItem _ => none
  | .updateQuantity _ _ => none
  | .addModifier lineId _ =>
      (cart.findLine lineId).bind fun line => menu.findByTmplId pos line.productTmplId
  | .removeModifier lineId _ =>
      (cart.findLine lineId).bind fun line => menu.findByTmplId pos line.productTmplId

section

variable {runtime : Runtime Id} {menu : MenuLookup Id} {cart result : Cart} {pos : PosConfigId}

/-- A modifier edit finds the line, the item of the line and the option of the key, and
rewrites the modifiers of that line. -/
theorem editModifiers_eq_ok {lineId : LineId} {modifierKey : String}
    {edit : List CartModifier → CandidateModifier → List CartModifier} :
    editModifiers runtime menu cart pos lineId modifierKey edit = .ok result ↔
      ∃ line item mod, cart.findLine lineId = some line ∧
        menu.findByTmplId pos line.productTmplId = some item ∧
        item.optionOfKey modifierKey = some mod ∧
        priced runtime menu cart
          (mapLine cart.items lineId (fun l => { l with modifiers := edit line.modifiers mod })) pos
          = result := by
  unfold editModifiers
  cases hline : cart.findLine lineId with
  | none => simp [lineGone, reject, pure]
  | some line =>
      cases hitem : menu.findByTmplId pos line.productTmplId with
      | none => simp [hitem, reject, bind, pure]
      | some item =>
          cases hmod : item.optionOfKey modifierKey with
          | none =>
              simp only [hitem, hmod, reject, bind, pure, Option.bind_some, reduceCtorEq, false_iff]
              rintro ⟨line', item', mod', hl, hi, hm, -⟩
              cases hl
              cases hitem.symm.trans hi
              simp [hmod] at hm
          | some mod =>
              simp only [bind, pure, hitem, hmod, Option.bind_some]
              constructor
              · intro h
                exact ⟨line, item, mod, rfl, hitem, hmod, Except.ok.inj h⟩
              · rintro ⟨line', item', mod', hl, hi, hm, h⟩
                cases hl
                cases hitem.symm.trans hi
                cases hmod.symm.trans hm
                exact congrArg Except.ok h

/-- An operation is accepted exactly when it is an edit of the cart, and the result is
that edit priced again. -/
theorem applyOperation_eq_ok {op : CartOperation} :
    applyOperation runtime menu cart op pos = .ok result ↔
      ∃ items, Edit cart runtime.newLineId op (lookedUp menu pos cart op) items ∧
        priced runtime menu cart items pos = result := by
  cases op with
  | addItem menuItemKey quantity refs =>
      simp only [applyOperation, bind, pure, lookedUp]
      cases hfound : menu.resolveItemKey pos menuItemKey with
      | none => 
          simp only [Option.filter_none, reject, reduceCtorEq, false_iff]
          rintro ⟨items, hedit, -⟩
          cases hedit
      | some item =>
          cases havailable : item.available with
          | false => 
              simp only [Option.filter_some, havailable, reject, Bool.false_eq_true,
                ↓reduceIte, reduceCtorEq, false_iff]
              rintro ⟨items, hedit, -⟩
              cases hedit with
              | addItem h => simp [havailable] at h
          | true =>
              cases hmods : resolveModifiers item refs with
              | error e => 
                  simp only [Option.filter_some, havailable, hmods, ↓reduceIte, reduceCtorEq, false_iff]
                  rintro ⟨items, hedit, -⟩
                  cases hedit with
                  | addItem h hm => simp [hmods] at hm
              | ok modifiers => 
                  simp only [Option.filter_some, havailable, hmods, ↓reduceIte]
                  constructor
                  · intro h
                    exact ⟨_, .addItem havailable hmods, Except.ok.inj h⟩
                  · rintro ⟨items, hedit, h⟩
                    cases hedit with
                    | addItem _ hm =>
                        cases hmods.symm.trans hm
                        exact congrArg Except.ok h
  | removeItem lineId =>
      simp only [applyOperation, bind, pure, lookedUp]
      by_cases hline : cart.hasLine lineId = true
      · rw [if_pos hline]
        constructor
        · intro h
          exact ⟨_, .removeItem hline, Except.ok.inj h⟩
        · rintro ⟨items, hedit, h⟩
          cases hedit
          exact congrArg Except.ok h
      · rw [if_neg hline]
        simp only [lineGone, reject, reduceCtorEq, false_iff]
        rintro ⟨items, hedit, -⟩
        cases hedit
        contradiction
  | updateQuantity lineId quantity =>
      simp only [applyOperation, bind, pure, lookedUp]
      by_cases hline : cart.hasLine lineId = true
      · rw [if_pos hline]
        by_cases hq : quantity ≤ 0
        · rw [if_pos hq]
          simp only [reject, reduceCtorEq, false_iff]
          rintro ⟨items, hedit, -⟩
          cases hedit
          omega
        · rw [if_neg hq]
          constructor
          · intro h
            exact ⟨_, .updateQuantity hline (by omega), Except.ok.inj h⟩
          · rintro ⟨items, hedit, h⟩
            cases hedit
            exact congrArg Except.ok h
      · rw [if_neg hline]
        simp only [lineGone, reject, reduceCtorEq, false_iff]
        rintro ⟨items, hedit, -⟩
        cases hedit
        contradiction
  | addModifier lineId modifierKey =>
      refine editModifiers_eq_ok.trans ⟨?_, ?_⟩
      · rintro ⟨line, item, mod, hline, hitem, hmod, h⟩
        refine ⟨_, ?_, h⟩
        simp only [lookedUp, hline, Option.bind_some, hitem]
        exact .addModifier hline hmod
      · rintro ⟨items, hedit, h⟩
        generalize hanswer : lookedUp menu pos cart (.addModifier lineId modifierKey) = answer at hedit
        cases hedit with
        | addModifier hline hmod =>
            simp only [lookedUp, hline, Option.bind_some] at hanswer
            exact ⟨_, _, _, hline, hanswer, hmod, h⟩
  | removeModifier lineId modifierKey =>
      refine editModifiers_eq_ok.trans ⟨?_, ?_⟩
      · rintro ⟨line, item, mod, hline, hitem, hmod, h⟩
        refine ⟨_, ?_, h⟩
        simp only [lookedUp, hline, Option.bind_some, hitem]
        exact .removeModifier hline hmod
      · rintro ⟨items, hedit, h⟩
        generalize hanswer : lookedUp menu pos cart (.removeModifier lineId modifierKey) = answer
          at hedit
        cases hedit with
        | removeModifier hline hmod =>
            simp only [lookedUp, hline, Option.bind_some] at hanswer
            exact ⟨_, _, _, hline, hanswer, hmod, h⟩

end

/-! ## A batch of accepted operations -/

/-- `Folds menu pos cart ops lineIds result`: every operation is accepted when the batch is
folded over the cart against one menu, and `lineIds` are the fresh ids at hand, one an
operation. -/
inductive Folds (menu : MenuLookup Id) (pos : PosConfigId) :
    Cart → List CartOperation → List LineId → Cart → Prop where
  | nil (cart) : Folds menu pos cart [] [] cart
  | cons {runtime : Runtime Id} {cart next result op ops lineIds} :
      applyOperation runtime menu cart op pos = .ok next →
      Folds menu pos next ops lineIds result →
      Folds menu pos cart (op :: ops) (runtime.newLineId :: lineIds) result

/-- The choices of a line that pricing leaves alone. -/
structure CartLine.SameChoice (line source : CartLine) : Prop where
  lineId : line.lineId = source.lineId
  tmpl : line.productTmplId = source.productTmplId
  modifiers : line.modifiers = source.modifiers

theorem CartLine.SameChoice.refl (line : CartLine) : line.SameChoice line := ⟨rfl, rfl, rfl⟩

theorem CartLine.SameChoice.trans {a b c : CartLine} (hab : a.SameChoice b) (hbc : b.SameChoice c) :
    a.SameChoice c :=
  ⟨hab.lineId.trans hbc.lineId, hab.tmpl.trans hbc.tmpl, hab.modifiers.trans hbc.modifiers⟩

theorem priceLine_sameChoice (menuItems : List MenuItem) (line : CartLine) :
    (priceLine menuItems line).SameChoice line := ⟨rfl, rfl, rfl⟩

/-! ## Finding a line after an edit -/

theorem findLine_repriced (cart : Cart) (items : List CartLine) (menuItems : List MenuItem)
    (now : String) (lineId : LineId) :
    (repriced cart items menuItems now).findLine lineId =
      (items.find? (fun line => line.lineId = lineId)).map (priceLine menuItems) := by
  simp only [repriced, Cart.findLine, List.find?_map]
  rfl

theorem find_mapLine (items : List CartLine) (target lineId : LineId) (f : CartLine → CartLine)
    (hf : ∀ line, (f line).lineId = line.lineId) :
    (mapLine items target f).find? (fun line => line.lineId = lineId) =
      (items.find? (fun line => line.lineId = lineId)).map
        (fun line => if lineId = target then f line else line) := by
  have hid : ∀ line : CartLine, (if line.lineId = target then f line else line).lineId =
      line.lineId := by
    intro line
    split
    · exact hf line
    · rfl
  rw [mapLine, List.find?_map]
  simp only [Function.comp_def, hid]
  cases hfind : items.find? (fun line => line.lineId = lineId) with
  | none => rfl
  | some line =>
      have hline : line.lineId = lineId := by simpa using List.find?_some hfind
      simp [hline]

theorem find_filter_ne (items : List CartLine) (target lineId : LineId) :
    (items.filter (fun line => line.lineId ≠ target)).find? (fun line => line.lineId = lineId) =
      if lineId = target then none else items.find? (fun line => line.lineId = lineId) := by
  rw [List.find?_filter]
  by_cases h : lineId = target
  · rw [if_pos h, List.find?_eq_none]
    intro line _
    simp only [h, ne_eq, decide_not, Bool.not_eq_eq_eq_not, Bool.not_true,
      decide_eq_false_iff_not, decide_eq_true_eq, not_and]
    exact fun hne heq => hne heq
  · rw [if_neg h]
    congr 1
    funext line
    by_cases hline : line.lineId = lineId
    · simp [hline, h]
    · simp [hline]

end VoiceOrder.CartModule
