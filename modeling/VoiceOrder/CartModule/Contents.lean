import VoiceOrder.CartModule.Edits
import VoiceOrder.Shared.KeyedEdits

/-! # The contents of a cart

Without its prices a cart is a list of choices under line ids. An operation is an edit of that
list, and the prices are a function of what the edit leaves. -/

namespace VoiceOrder.CartModule

open KeyedEdit VoiceOrder.Menu

/-- A line without its id and its price. -/
structure Choice where
  productTmplId : ProductTmplId
  name : String
  names : LangMap
  quantity : ℤ
  modifiers : List CartModifier
  deriving DecidableEq, Repr

def CartLine.choice (line : CartLine) : Choice where
  productTmplId := line.productTmplId
  name := line.name
  names := line.names
  quantity := line.quantity
  modifiers := line.modifiers

def CartLine.entry (line : CartLine) : LineId × Choice := (line.lineId, line.choice)

def Cart.contents (cart : Cart) : List (LineId × Choice) := cart.items.map CartLine.entry

/-- The line of an entry, before it is priced. -/
def unpricedLine (entry : LineId × Choice) : CartLine where
  lineId := entry.1
  productTmplId := entry.2.productTmplId
  name := entry.2.name
  names := entry.2.names
  quantity := entry.2.quantity
  modifiers := entry.2.modifiers
  priceCents := 0

/-- The cart with these contents, at the prices of the menu. -/
def Cart.settled (cart : Cart) (menu : MenuLookup Id) (pos : PosConfigId)
    (contents : List (LineId × Choice)) (now : String) : Cart :=
  let items := contents.map unpricedLine
  repriced cart items (menu.getItems pos (lineTmpls items)) now

/-! ## Operations as edits -/

/-- The choice an addition makes. -/
def addition (menu : MenuLookup Id) (pos : PosConfigId) (menuItemKey : String) (quantity : ℤ)
    (refs : List OpModifierRef) : Except CartRejectedError Choice :=
  match Option.filter MenuItem.available (menu.resolveItemKey pos menuItemKey) with
  | none => .error ⟨"unavailable_item", "That item is not available."⟩
  | some item =>
      (resolveModifiers item refs).map fun modifiers => (newLine "" item quantity modifiers).choice

/-- An edit of a line that may be gone. -/
def onLine (change : Choice → Except CartRejectedError (Choice → Option Choice)) :
    Option Choice → Except CartRejectedError (Choice → Option Choice)
  | none => .error ⟨"line_gone", "That item is no longer in your cart."⟩
  | some choice => change choice

/-- The change of modifiers the option of a key makes on a line. -/
def modifierChange (menu : MenuLookup Id) (pos : PosConfigId) (modifierKey : String)
    (edit : List CartModifier → CandidateModifier → List CartModifier) (choice : Choice) :
    Except CartRejectedError (Choice → Option Choice) :=
  match Option.bind (menu.findByTmplId pos choice.productTmplId)
      fun item => item.optionOfKey modifierKey with
  | none => .error ⟨"invalid_modifier", "That option is not valid for this item."⟩
  | some mod => .ok fun line => some { line with modifiers := edit choice.modifiers mod }

def CartOperation.edit (menu : MenuLookup Id) (pos : PosConfigId) :
    CartOperation → KeyedEdit LineId Choice CartRejectedError
  | .addItem menuItemKey quantity refs => .append (addition menu pos menuItemKey quantity refs)
  | .removeItem lineId => .amend lineId (onLine fun _ => .ok fun _ => none)
  | .updateQuantity lineId quantity =>
      .amend lineId (onLine fun _ =>
        if quantity ≤ 0 then .error ⟨"invalid_quantity", "Quantity must be at least 1."⟩
        else .ok fun line => some { line with quantity := quantity })
  | .addModifier lineId modifierKey =>
      .amend lineId (onLine (modifierChange menu pos modifierKey withModifier))
  | .removeModifier lineId modifierKey =>
      .amend lineId (onLine (modifierChange menu pos modifierKey withoutModifier))

@[simp] theorem target_edit (menu : MenuLookup Id) (pos : PosConfigId) (op : CartOperation) :
    (op.edit menu pos).target = op.target := by
  cases op <;> rfl

/-! ## What an accepted edit is -/

section

variable {menu : MenuLookup Id} {pos : PosConfigId} {read : Option Choice}
  {change : Choice → Option Choice}

theorem addition_eq_ok {menuItemKey : String} {quantity : ℤ} {refs : List OpModifierRef}
    {choice : Choice} (h : addition menu pos menuItemKey quantity refs = .ok choice) :
    ∃ item modifiers, menu.resolveItemKey pos menuItemKey = some item ∧
      resolveModifiers item refs = .ok modifiers ∧
      choice = (newLine "" item quantity modifiers).choice := by
  unfold addition at h
  cases hfound : Option.filter MenuItem.available (menu.resolveItemKey pos menuItemKey) with
  | none => simp [hfound] at h
  | some item =>
      cases hmodifiers : resolveModifiers item refs with
      | error error => simp [hfound, hmodifiers, Except.map] at h
      | ok modifiers =>
          simp only [hfound, hmodifiers, Except.map, Except.ok.injEq] at h
          exact ⟨item, modifiers, (Option.filter_eq_some_iff.mp hfound).1, hmodifiers, h.symm⟩

theorem onLine_eq_ok {edit : Choice → Except CartRejectedError (Choice → Option Choice)}
    (h : onLine edit read = .ok change) : ∃ choice, read = some choice ∧ edit choice = .ok change := by
  cases read with
  | none => cases h
  | some choice => exact ⟨choice, rfl, h⟩

theorem removal_eq_ok (h : onLine (fun _ => .ok fun _ => none) read = .ok change) :
    change = fun _ => none := by
  obtain ⟨choice, -, h⟩ := onLine_eq_ok h
  cases h
  rfl

theorem quantityChange_eq_ok {quantity : ℤ} (h : onLine (fun _ =>
      if quantity ≤ 0 then .error ⟨"invalid_quantity", "Quantity must be at least 1."⟩
      else .ok fun line => some { line with quantity := quantity }) read = .ok change) :
    change = fun line => some { line with quantity := quantity } := by
  obtain ⟨choice, -, h⟩ := onLine_eq_ok h
  split at h
  · cases h
  · cases h
    rfl

theorem modifierChange_eq_ok {modifierKey : String}
    {edit : List CartModifier → CandidateModifier → List CartModifier}
    (h : onLine (modifierChange menu pos modifierKey edit) read = .ok change) :
    ∃ choice item mod, read = some choice ∧
      menu.findByTmplId pos choice.productTmplId = some item ∧ mod ∈ item.modifiers ∧
      change = fun line => some { line with modifiers := edit choice.modifiers mod } := by
  obtain ⟨choice, hread, h⟩ := onLine_eq_ok h
  unfold modifierChange at h
  cases hmod : Option.bind (menu.findByTmplId pos choice.productTmplId)
      fun item => item.optionOfKey modifierKey with
  | none => simp [hmod] at h
  | some mod =>
      simp only [hmod, Except.ok.injEq] at h
      obtain ⟨item, hitem, hoption⟩ := Option.bind_eq_some_iff.mp hmod
      exact ⟨choice, item, mod, hread, hitem, List.mem_of_find?_eq_some hoption, h.symm⟩

end

/-! ## Settling a cart -/

/-- Pricing reads nothing of the prices that are there. -/
theorem settled_entries (cart : Cart) (menu : MenuLookup Id) (pos : PosConfigId)
    (items : List CartLine) (now : String) :
    cart.settled menu pos (items.map CartLine.entry) now =
      repriced cart items (menu.getItems pos (lineTmpls items)) now := by
  have htmpls : lineTmpls ((items.map CartLine.entry).map unpricedLine) = lineTmpls items := by
    unfold lineTmpls
    rw [List.map_map, List.map_map]
    rfl
  have hprice : ∀ menuItems, ((items.map CartLine.entry).map unpricedLine).map (priceLine menuItems) =
      items.map (priceLine menuItems) := by
    intro menuItems
    rw [List.map_map, List.map_map]
    rfl
  unfold Cart.settled repriced
  dsimp only
  rw [htmpls, hprice]

theorem contents_keys (cart : Cart) : cart.contents.map Prod.fst = cart.lineIds := by
  rw [Cart.contents, List.map_map]
  rfl

@[simp] theorem contents_settled (cart : Cart) (menu : MenuLookup Id) (pos : PosConfigId)
    (contents : List (LineId × Choice)) (now : String) :
    (cart.settled menu pos contents now).contents = contents := by
  simp only [Cart.settled, repriced, Cart.contents, List.map_map]
  exact List.map_id contents

theorem get_entries (items : List CartLine) (lineId : LineId) :
    OrderedMap.get (items.map CartLine.entry) lineId =
      (items.find? (fun line => line.lineId = lineId)).map CartLine.choice := by
  rw [OrderedMap.get, List.find?_map, Option.map_map]
  rfl

theorem get_contents (cart : Cart) (lineId : LineId) :
    OrderedMap.get cart.contents lineId = (cart.findLine lineId).map CartLine.choice :=
  get_entries cart.items lineId

theorem entry_filter (items : List CartLine) (lineId : LineId) :
    (items.filter (fun line => line.lineId ≠ lineId)).map CartLine.entry =
      amendAt (items.map CartLine.entry) lineId fun _ => none := by
  rw [amendAt, List.filterMap_map, ← List.filterMap_eq_map, List.filterMap_filter]
  refine List.filterMap_congr fun line _ => ?_
  by_cases hline : line.lineId = lineId <;> simp [CartLine.entry, hline]

theorem entry_mapLine (items : List CartLine) (lineId : LineId) {f : CartLine → CartLine}
    {g : Choice → Choice} (h : ∀ line, (f line).entry = (line.lineId, g line.choice)) :
    (mapLine items lineId f).map CartLine.entry =
      amendAt (items.map CartLine.entry) lineId fun choice => some (g choice) := by
  rw [amendAt, List.filterMap_map, mapLine, List.map_map, ← List.filterMap_eq_map]
  refine List.filterMap_congr fun line _ => ?_
  by_cases hline : line.lineId = lineId
  · have hid : line.entry.1 = lineId := hline
    simp only [Function.comp_apply, hline, hid, ↓reduceIte, h]
    rfl
  · have hid : line.entry.1 ≠ lineId := hline
    simp only [Function.comp_apply, hline, hid, ↓reduceIte]

theorem priced_entries (runtime : Runtime Id) (menu : MenuLookup Id) (cart : Cart)
    (items : List CartLine) (pos : PosConfigId) :
    priced runtime menu cart items pos =
      cart.settled menu pos (items.map CartLine.entry) runtime.nowIso :=
  (settled_entries cart menu pos items runtime.nowIso).symm

theorem hasLine_eq (cart : Cart) (lineId : LineId) :
    cart.hasLine lineId = (cart.findLine lineId).isSome := by
  rw [Cart.hasLine, Cart.findLine, Bool.eq_iff_iff, List.find?_isSome, List.any_eq_true]

theorem editModifiers_eq (runtime : Runtime Id) (menu : MenuLookup Id) (cart : Cart)
    (pos : PosConfigId) (lineId : LineId) (modifierKey : String)
    (edit : List CartModifier → CandidateModifier → List CartModifier) :
    editModifiers runtime menu cart pos lineId modifierKey edit =
      ((KeyedEdit.amend lineId (onLine (modifierChange menu pos modifierKey edit))).run
        (Id.run runtime.newLineId) cart.contents).map
          fun contents => cart.settled menu pos contents runtime.nowIso := by
  unfold editModifiers
  rw [KeyedEdit.run, get_contents]
  cases hline : cart.findLine lineId with
  | none => rfl
  | some line =>
      simp only [Option.map_some, onLine, modifierChange, bind, pure]
      cases hmod : Option.bind (menu.findByTmplId pos line.productTmplId)
          fun item => item.optionOfKey modifierKey with
      | none =>
          have hmod' : Option.bind (menu.findByTmplId pos line.choice.productTmplId)
            (fun item => item.optionOfKey modifierKey) = none := hmod
          rw [hmod']
          rfl
      | some mod =>
          have hmod' : Option.bind (menu.findByTmplId pos line.choice.productTmplId)
            (fun item => item.optionOfKey modifierKey) = some mod := hmod
          rw [hmod']
          dsimp only
          rw [priced_entries]
          have hedit : (mapLine cart.items lineId
              fun l => { l with modifiers := edit line.modifiers mod }).map CartLine.entry =
                amendAt cart.contents lineId
                  fun choice => some { choice with modifiers := edit line.choice.modifiers mod } :=
            entry_mapLine cart.items lineId fun _ => rfl
          rw [hedit]
          rfl

/-- An operation is its edit of the contents, settled at the prices of the menu. -/
theorem applyOperation_eq (runtime : Runtime Id) (menu : MenuLookup Id) (cart : Cart)
    (op : CartOperation) (pos : PosConfigId) :
    applyOperation runtime menu cart op pos =
      ((op.edit menu pos).run (Id.run runtime.newLineId) cart.contents).map
        fun contents => cart.settled menu pos contents runtime.nowIso := by
  cases op with
  | addItem menuItemKey quantity refs =>
      simp only [applyOperation, CartOperation.edit, KeyedEdit.run, addition, bind, pure]
      cases Option.filter MenuItem.available (menu.resolveItemKey pos menuItemKey) with
      | none => rfl
      | some item =>
          dsimp only
          cases resolveModifiers item refs with
          | error error => rfl
          | ok modifiers =>
              dsimp only
              rw [priced_entries, List.map_append]
              rfl
  | removeItem lineId =>
      simp only [applyOperation, CartOperation.edit, KeyedEdit.run, get_contents, hasLine_eq, bind, pure]
      cases cart.findLine lineId with
      | none => rfl
      | some line =>
          rw [if_pos Option.isSome_some, priced_entries, entry_filter]
          rfl
  | updateQuantity lineId quantity =>
      simp only [applyOperation, CartOperation.edit, KeyedEdit.run, get_contents, hasLine_eq, bind, pure]
      cases cart.findLine lineId with
      | none => rfl
      | some line =>
          rw [if_pos Option.isSome_some]
          by_cases hquantity : quantity ≤ 0
          · rw [if_pos hquantity]
            simp only [Option.map_some, onLine, hquantity, ↓reduceIte]
            rfl
          · rw [if_neg hquantity, priced_entries, entry_mapLine (g := fun choice =>
              { choice with quantity := quantity }) _ _ fun _ => rfl]
            simp only [Option.map_some, onLine, hquantity, ↓reduceIte]
            rfl
  | addModifier lineId modifierKey => exact editModifiers_eq runtime menu cart pos lineId _ _
  | removeModifier lineId modifierKey => exact editModifiers_eq runtime menu cart pos lineId _ _

end VoiceOrder.CartModule
