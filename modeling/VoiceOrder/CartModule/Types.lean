import VoiceOrder.Shared.Types

/-! # The cart and the operations proposed on it -/

namespace VoiceOrder.CartModule

/-- A selected modifier on a cart line, with the names captured at add time. -/
structure CartModifier where
  ptavId : PtavId
  name : String
  names : Option LangMap
  deriving DecidableEq, Repr

/-- One line of the cart. `priceCents` is the line's ex-tax subtotal. -/
structure CartLine where
  lineId : LineId
  productTmplId : ProductTmplId
  name : String
  names : LangMap
  quantity : ℤ
  modifiers : List CartModifier
  priceCents : Cents
  deriving DecidableEq, Repr

/-- The full cart snapshot, as persisted. -/
structure Cart where
  cartId : CartId
  posConfigId : PosConfigId
  deviceId : Option DeviceId
  tableId : Option RestaurantTableId
  version : ℕ
  items : List CartLine
  subtotalCents : Cents
  taxCents : Cents
  totalCents : Cents
  lastUpdated : String
  /-- The confirmation lock. An ISO instant is never the empty string, so the
  source's truthiness test is presence. -/
  confirmedAt : Option String
  posOrderId : Option PosOrderId
  deriving DecidableEq, Repr

/-- The identity a cart is created with. -/
structure Identity where
  deviceId : Option DeviceId
  tableId : Option RestaurantTableId
  deriving DecidableEq, Repr

def emptyCart (cartId : CartId) (posConfigId : PosConfigId) (identity : Option Identity)
    (now : String) : Cart where
  cartId := cartId
  posConfigId := posConfigId
  deviceId := identity.bind Identity.deviceId
  tableId := identity.bind Identity.tableId
  version := 0
  items := []
  subtotalCents := 0
  taxCents := 0
  totalCents := 0
  lastUpdated := now
  confirmedAt := none
  posOrderId := none

/-- The ids of the cart's lines, in order. -/
def Cart.lineIds (cart : Cart) : List LineId := cart.items.map CartLine.lineId

/-! ## Proposed operations -/

structure OpModifierRef where
  modifierKey : String
  deriving DecidableEq, Repr

/-- The output contract of the model: catalog keys on an addition, a stable line id
on every edit. -/
inductive CartOperation where
  | addItem (menuItemKey : String) (quantity : ℤ) (modifiers : List OpModifierRef)
  | removeItem (lineId : LineId)
  | updateQuantity (lineId : LineId) (quantity : ℤ)
  | addModifier (lineId : LineId) (modifierKey : String)
  | removeModifier (lineId : LineId) (modifierKey : String)
  deriving DecidableEq, Repr

/-- What the cart-operation schema accepts: nonempty keys and ids, positive integer
quantities. It puts no condition on repeated inline modifiers. -/
def CartOperation.schemaOk : CartOperation → Bool
  | .addItem menuItemKey quantity modifiers =>
      menuItemKey ≠ "" && decide (0 < quantity) && modifiers.all (fun ref => ref.modifierKey ≠ "")
  | .removeItem lineId => lineId ≠ ""
  | .updateQuantity lineId quantity => lineId ≠ "" && decide (0 < quantity)
  | .addModifier lineId modifierKey => lineId ≠ "" && modifierKey ≠ ""
  | .removeModifier lineId modifierKey => lineId ≠ "" && modifierKey ≠ ""

/-- The line an operation edits; an addition edits none. -/
def CartOperation.target : CartOperation → Option LineId
  | .addItem .. => none
  | .removeItem lineId => some lineId
  | .updateQuantity lineId _ => some lineId
  | .addModifier lineId _ => some lineId
  | .removeModifier lineId _ => some lineId

/-- A batch of operations with the version they were computed against. -/
structure OrderProposal where
  requestId : RequestId
  cartId : CartId
  posConfigId : PosConfigId
  baseVersion : ℕ
  operations : List CartOperation
  deriving DecidableEq, Repr

end VoiceOrder.CartModule
