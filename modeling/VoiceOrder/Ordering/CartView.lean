import VoiceOrder.CartModule.Types
import VoiceOrder.Menu.Items
import VoiceOrder.CartModule.Applier

/-! # The prompt-facing projection of a cart -/

namespace VoiceOrder.Ordering

open VoiceOrder.Menu VoiceOrder.CartModule

/-- A modifier of a view line: keys, names, price and group, no numeric ids. -/
structure CartModifierView where
  modifierKey : String
  name : String
  priceExtraCents : Cents
  groupKey : Option String
  groupName : Option String
  required : Option Bool
  deriving DecidableEq, Repr

structure CartLineView where
  lineId : LineId
  menuItemKey : String
  name : String
  quantity : ℤ
  basePriceCents : Cents
  modifiers : List CartModifierView
  availableModifiers : List CartModifierView
  deriving DecidableEq, Repr

structure CartView where
  cartId : CartId
  posConfigId : PosConfigId
  version : ℕ
  items : List CartLineView
  deriving DecidableEq, Repr

def toModifierView (mod : CandidateModifier) : CartModifierView where
  modifierKey := mod.modifierKey
  name := mod.name
  priceExtraCents := mod.priceExtraCents
  groupKey := mod.groupKey
  groupName := mod.groupName
  required := mod.required

/-- A line as the prompt shows it: attached ptavs become options of the item, and one
the item no longer lists is dropped. A line whose item is missing keeps its numeric id
as a name. -/
def toLineView (line : CartLine) (item : Option MenuItem) : CartLineView :=
  let avail := (item.map MenuItem.modifiers).getD []
  let key := (item.map MenuItem.menuItemKey).getD (toString line.productTmplId)
  { lineId := line.lineId
    menuItemKey := key
    name := displayName (item.map MenuItem.names) key
    quantity := line.quantity
    basePriceCents := (item.map MenuItem.basePriceCents).getD 0
    modifiers := (line.modifiers.filterMap fun m => avail.find? (fun a => a.ptavId = m.ptavId)).map
      toModifierView
    availableModifiers := avail.map toModifierView }

/-- Project the stored cart, with one batched menu read. -/
def buildCartView {m : Type → Type} [Monad m] (menu : MenuLookup m) (cart : Cart) :
    m CartView := do
  let items ← menu.getItems cart.posConfigId (lineTmpls cart.items)
  let byTmpl := OrderedMap.ofEntries (items.map fun item => (item.productTmplId, item))
  pure {
    cartId := cart.cartId
    posConfigId := cart.posConfigId
    version := cart.version
    items := cart.items.map fun line => toLineView line (OrderedMap.get byTmpl line.productTmplId) }

end VoiceOrder.Ordering
