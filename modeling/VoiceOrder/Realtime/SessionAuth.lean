import VoiceOrder.Shared.Double
import VoiceOrder.Shared.Types

/-! # Who connects

The auth parameters ride on the query string of the upgrade request. They identify a cart; they
do not authorise access to it. -/

namespace VoiceOrder.Realtime

/-- The integer that a text begins with, after white space, as a double. One beyond the range of
doubles is kept, not infinite. -/
def parseInt (text : String) : Option ℤ :=
  let trimmed := text.toList.dropWhile isWhiteSpace
  let unsigned := match trimmed with
    | '+' :: rest => rest
    | '-' :: rest => rest
    | rest => rest
  let digits := unsigned.takeWhile Char.isDigit
  let magnitude : ℕ := digits.foldl (fun n c => n * 10 + (c.toNat - '0'.toNat)) 0
  if digits.isEmpty then none
  else
    -- The nearest double to an integer is one.
    let value : ℤ := ⌊Double.nearest magnitude⌋
    some (if trimmed.head? = some '-' then -value else value)

example : [" 42", "-7x", "9007199254740993", "x1", ""].map parseInt =
    [some 42, some (-7), some 9007199254740992, none, none] := by
  decide +kernel

structure AuthParams where
  token : Option String
  session_id : Option SessionId
  cart_id : Option CartId
  pos_config_id : Option PosConfigId
  device_id : Option DeviceId
  table_id : Option RestaurantTableId
  deriving DecidableEq, Repr

/-- The parameters among those of the query. Of those with one name the first counts. -/
def paramsFromUrl (query : List (String × String)) : AuthParams where
  token := query.lookup "token"
  session_id := query.lookup "session_id"
  cart_id := query.lookup "cart_id"
  pos_config_id := (query.lookup "pos_config_id").bind parseInt
  device_id := query.lookup "device_id"
  -- Absent or unparseable: takeout, which is a valid order.
  table_id := (query.lookup "table_id").bind parseInt

/-- Identity resolved when a socket connects. -/
structure AuthContext where
  session_id : SessionId
  cart_id : CartId
  pos_config_id : PosConfigId
  device_id : DeviceId
  table_id : Option RestaurantTableId
  deriving DecidableEq, Repr

structure Unauthenticated where
  code : String
  message : String
  deriving DecidableEq, Repr

def unauthenticated : Unauthenticated where
  code := "unauthenticated"
  message := "missing session_id / cart_id / pos_config_id / device_id"

/-- A parameter that is there and not empty. -/
def present (param : Option String) : Option String := param.filter fun text => text ≠ ""

/-- The restaurant `0` is one; an empty id is none. The token is not read. -/
def authenticate (params : AuthParams) : Except Unauthenticated AuthContext :=
  match present params.session_id, present params.cart_id, params.pos_config_id,
      present params.device_id with
  | some session_id, some cart_id, some pos_config_id, some device_id =>
      .ok ⟨session_id, cart_id, pos_config_id, device_id, params.table_id⟩
  | _, _, _, _ => .error unauthenticated

end VoiceOrder.Realtime
