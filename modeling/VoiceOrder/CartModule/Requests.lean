import VoiceOrder.CartModule.Types
import VoiceOrder.Shared.Double
import VoiceOrder.Shared.OrderedMap

/-! # The cart as it is sent to Odoo, and the quote that comes back -/

namespace VoiceOrder.CartModule

/-- One line of an insert or quote request. `ptavIds` is sent only when a modifier is
selected. -/
structure RequestLine where
  lineId : LineId
  productTmplId : ProductTmplId
  quantity : ℤ
  ptavIds : Option (List PtavId)
  deriving DecidableEq, Repr

structure QuoteRequest where
  posConfigId : PosConfigId
  items : List RequestLine
  deriving DecidableEq, Repr

structure InsertCartRequest where
  cartId : CartId
  posConfigId : PosConfigId
  items : List RequestLine
  tableId : Option RestaurantTableId
  deriving DecidableEq, Repr

/-- The item shape the two requests share. -/
def toRequestLine (line : CartLine) : RequestLine where
  lineId := line.lineId
  productTmplId := line.productTmplId
  quantity := line.quantity
  ptavIds := if line.modifiers.isEmpty then none else some (line.modifiers.map CartModifier.ptavId)

def toQuoteRequest (cart : Cart) : QuoteRequest where
  posConfigId := cart.posConfigId
  items := cart.items.map toRequestLine

def toInsertCartRequest (cart : Cart) : InsertCartRequest where
  cartId := cart.cartId
  posConfigId := cart.posConfigId
  items := cart.items.map toRequestLine
  tableId := cart.tableId

@[simp] theorem toRequestLine_ptavIds (line : CartLine) :
    (toRequestLine line).ptavIds.getD [] = line.modifiers.map CartModifier.ptavId := by
  cases h : line.modifiers <;> simp [toRequestLine, h]

/-! ## The quote -/

/-- A priced line of the quote; `none` where the subtotal is not a number. -/
structure QuoteLine where
  lineId : LineId
  priceSubtotal : Option ℚ
  deriving DecidableEq, Repr

/-- The quote response; `lines` is `none` where it is not an array. The numbers are doubles. -/
structure QuoteResponse where
  decimalPlaces : ℚ
  lines : Option (List QuoteLine)
  amountSubtotal : ℚ
  amountTax : ℚ
  amountTotal : ℚ
  deriving DecidableEq, Repr

/-- A product of doubles, to the nearest integer: half up, as `Math.round` does. -/
def toCents (amount : ℚ) : Cents := round (Double.nearest (amount * 100))

def quoteError (quote : QuoteResponse) : String :=
  "quote currency has decimal_places=" ++ toString quote.decimalPlaces ++ "; cart cents assume 2"

/-- Overwrite the cart's totals, and the prices of the lines the quote returned, with
the quote's amounts. It throws on a currency without cents. -/
def applyQuoteToCart (cart : Cart) (quote : QuoteResponse) : Except String Cart :=
  if quote.decimalPlaces ≠ 2 then .error (quoteError quote)
  else
    let quoteLines := quote.lines.getD []
    let subtotalByLine := OrderedMap.ofEntries
      (quoteLines.filterMap fun line => line.priceSubtotal.map fun s => (line.lineId, s))
    .ok { cart with
      items := cart.items.map fun line =>
        match OrderedMap.get subtotalByLine line.lineId with
        | none => line
        | some s => { line with priceCents := toCents s }
      subtotalCents := toCents quote.amountSubtotal
      taxCents := toCents quote.amountTax
      totalCents := toCents quote.amountTotal }

end VoiceOrder.CartModule
