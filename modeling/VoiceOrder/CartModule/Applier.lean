import Mathlib.Algebra.Ring.Int.Defs
import VoiceOrder.CartModule.Types
import VoiceOrder.Menu.Items
import VoiceOrder.Shared.OrderedMap

/-! # Applying one operation to a cart -/

namespace VoiceOrder.CartModule

open VoiceOrder.Menu

/-- What the runtime supplies: fresh line ids and the time. -/
structure Runtime (m : Type → Type) where
  newLineId : m LineId
  nowIso : m String

def reject (reason message : String) : Except CartRejectedError Cart :=
  .error ⟨reason, message⟩

/-- Snapshot a resolved menu modifier onto a cart line. -/
def toCartModifier (mod : CandidateModifier) : CartModifier where
  ptavId := mod.ptavId
  name := mod.name
  names := mod.names

/-- Price a line from the menu items read for the cart: base price plus the per-unit
surcharges, times the quantity. Surcharges come from the menu, not from the line. -/
def priceLine (menuItems : List MenuItem) (line : CartLine) : CartLine :=
  let priceOf := OrderedMap.ofEntries
    (menuItems.map fun item => (item.productTmplId, item.basePriceCents))
  let extraOf := OrderedMap.ofEntries
    (menuItems.flatMap fun item => item.modifiers.map fun mod => (mod.ptavId, mod.priceExtraCents))
  let unit := (OrderedMap.get priceOf line.productTmplId).getD 0 +
    (line.modifiers.map fun mod => (OrderedMap.get extraOf mod.ptavId).getD 0).sum
  { line with priceCents := unit * line.quantity }

/-- The distinct template ids of the lines, in order of first use. -/
def lineTmpls (items : List CartLine) : List ProductTmplId :=
  (items.map CartLine.productTmplId).foldl OrderedMap.add []

/-- The cart with new lines priced from the menu items and its totals recomputed. -/
def repriced (cart : Cart) (items : List CartLine) (menuItems : List MenuItem) (now : String) :
    Cart :=
  let pricedItems := items.map (priceLine menuItems)
  let subtotal := (pricedItems.map CartLine.priceCents).sum
  { cart with
    items := pricedItems
    subtotalCents := subtotal
    taxCents := 0
    totalCents := subtotal
    lastUpdated := now }

/-- Recompute totals from menu prices, with one batched read for every distinct line
item. This is the local, untaxed estimate. -/
def priced {m : Type → Type} [Monad m] (runtime : Runtime m) (menu : MenuLookup m) (cart : Cart)
    (items : List CartLine) (pos : PosConfigId) : m Cart := do
  let menuItems ← menu.getItems pos (lineTmpls items)
  let now ← runtime.nowIso
  pure (repriced cart items menuItems now)

/-- Resolve the inline modifiers of an addition, in order; the first unknown key
rejects the operation. -/
def resolveModifiers (item : MenuItem) :
    List OpModifierRef → Except CartRejectedError (List CartModifier)
  | [] => .ok []
  | ref :: refs =>
      match item.optionOfKey ref.modifierKey with
      | none => .error ⟨"invalid_modifier",
          displayName (some item.names) item.menuItemKey ++ " does not support that option."⟩
      | some mod => (resolveModifiers item refs).map (toCartModifier mod :: ·)

/-- The line an addition appends; its price is set when the cart is priced. -/
def newLine (lineId : LineId) (item : MenuItem) (quantity : ℤ) (modifiers : List CartModifier) :
    CartLine where
  lineId := lineId
  productTmplId := item.productTmplId
  name := displayName (some item.names) item.menuItemKey
  names := item.names
  quantity := quantity
  modifiers := modifiers
  priceCents := 0

def lineGone : Except CartRejectedError Cart :=
  reject "line_gone" "That item is no longer in your cart."

def Cart.hasLine (cart : Cart) (lineId : LineId) : Bool :=
  cart.items.any (fun line => line.lineId = lineId)

def Cart.findLine (cart : Cart) (lineId : LineId) : Option CartLine :=
  cart.items.find? (fun line => line.lineId = lineId)

/-- Rewrite the lines carrying the given id. -/
def mapLine (items : List CartLine) (lineId : LineId) (f : CartLine → CartLine) : List CartLine :=
  items.map (fun line => if line.lineId = lineId then f line else line)

/-- The modifiers of a line after adding one, unless its ptav is already selected. -/
def withModifier (modifiers : List CartModifier) (mod : CandidateModifier) : List CartModifier :=
  if modifiers.any (fun selected => selected.ptavId = mod.ptavId) then modifiers
  else modifiers ++ [toCartModifier mod]

/-- The modifiers of a line after removing every selection of a ptav. -/
def withoutModifier (modifiers : List CartModifier) (mod : CandidateModifier) :
    List CartModifier :=
  modifiers.filter (fun selected => selected.ptavId ≠ mod.ptavId)

/-- The two modifier edits share the lookup of the line and of the option, which is
read from the menu by the line's template id. -/
def editModifiers {m : Type → Type} [Monad m] (runtime : Runtime m) (menu : MenuLookup m)
    (cart : Cart) (pos : PosConfigId) (lineId : LineId) (modifierKey : String)
    (edit : List CartModifier → CandidateModifier → List CartModifier) :
    m (Except CartRejectedError Cart) :=
  match cart.findLine lineId with
  | none => pure lineGone
  | some line => do
      let menuItem ← menu.findByTmplId pos line.productTmplId
      match menuItem.bind (fun item => item.optionOfKey modifierKey) with
      | none => pure (reject "invalid_modifier" "That option is not valid for this item.")
      | some mod => do
          let modifiers := edit line.modifiers mod
          let items := mapLine cart.items lineId (fun l => { l with modifiers := modifiers })
          let cart ← priced runtime menu cart items pos
          pure (.ok cart)

/-- Apply one validated operation to a cart, returning a new cart. -/
def applyOperation {m : Type → Type} [Monad m] (runtime : Runtime m) (menu : MenuLookup m)
    (cart : Cart) (op : CartOperation) (pos : PosConfigId) : m (Except CartRejectedError Cart) :=
  match op with
  | .addItem menuItemKey quantity refs => do
      let found ← menu.resolveItemKey pos menuItemKey
      match found.filter MenuItem.available with
      | none => pure (reject "unavailable_item" "That item is not available.")
      | some item =>
          match resolveModifiers item refs with
          | .error error => pure (.error error)
          | .ok modifiers => do
              let lineId ← runtime.newLineId
              let line := newLine lineId item quantity modifiers
              let cart ← priced runtime menu cart (cart.items ++ [line]) pos
              pure (.ok cart)
  | .removeItem lineId =>
      if cart.hasLine lineId then do
        let items := cart.items.filter (fun line => line.lineId ≠ lineId)
        let cart ← priced runtime menu cart items pos
        pure (.ok cart)
      else pure lineGone
  | .updateQuantity lineId quantity =>
      if cart.hasLine lineId then
        if quantity ≤ 0 then pure (reject "invalid_quantity" "Quantity must be at least 1.")
        else do
          let items := mapLine cart.items lineId (fun line => { line with quantity := quantity })
          let cart ← priced runtime menu cart items pos
          pure (.ok cart)
      else pure lineGone
  | .addModifier lineId modifierKey =>
      editModifiers runtime menu cart pos lineId modifierKey withModifier
  | .removeModifier lineId modifierKey =>
      editModifiers runtime menu cart pos lineId modifierKey withoutModifier

end VoiceOrder.CartModule
