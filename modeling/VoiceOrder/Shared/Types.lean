import Mathlib.Data.List.Basic
import Mathlib.Data.Int.Init

/-! # Cross-cutting identifier and value types -/

namespace VoiceOrder

/-! Our own identities are opaque text keys. -/

abbrev CartId := String
abbrev SessionId := String
abbrev RequestId := String
abbrev LineId := String
abbrev DeviceId := String

/-! Odoo identities are integer primary keys. -/

abbrev PosConfigId := ℤ
abbrev ProductTmplId := ℤ
abbrev PtavId := ℤ
abbrev RestaurantTableId := ℤ
abbrev PosOrderId := ℤ

abbrev LangCode := String
abbrev Cents := ℤ

/-- A translatable map by Odoo language code, in the order of its keys. -/
abbrev LangMap := List (LangCode × String)

/-- White space and line terminators, as `trim` strips them and `\s` matches them. -/
def isWhiteSpace (c : Char) : Bool :=
  ('\t' ≤ c && c ≤ '\r') || c = ' ' || c = Char.ofNat 0xA0 || c = Char.ofNat 0x1680 ||
    (Char.ofNat 0x2000 ≤ c && c ≤ Char.ofNat 0x200A) || c = Char.ofNat 0x2028 ||
    c = Char.ofNat 0x2029 || c = Char.ofNat 0x202F || c = Char.ofNat 0x205F ||
    c = Char.ofNat 0x3000 || c = Char.ofNat 0xFEFF

/-- `en_US` first, then any locale, then the fallback. -/
def displayName (names : Option LangMap) (fallback : String) : String :=
  match names with
  | none => fallback
  | some names =>
      match names.lookup "en_US" with
      | some name => name
      | none => (names.head?.map Prod.snd).getD fallback

/-- A business-rule rejection surfaced to the customer. -/
structure CartRejectedError where
  reason : String
  message : String
  deriving DecidableEq, Repr

end VoiceOrder
