import VoiceOrder.Redis.CartStores
import VoiceOrder.Shared.JsonRoundTrip

/-! # The texts in the store

A cart is written as one JSON text, and read back without any check. What stands under the key of
a request is no JSON. No key expires: the times to live are left out. -/

namespace VoiceOrder.Redis

open CartModule Json
open Backend (LedgerOutcome)

/-! ## Writing -/

def integerJson (n : ℤ) : Json := .num n

def namesJson (names : LangMap) : Json := .obj (names.map fun (lang, name) => (lang, .str name))

def modifierJson (modifier : CartModifier) : Json :=
  .obj (entry "ptav_id" (some (integerJson modifier.ptavId)) ++ entry "name" (some (.str modifier.name)) ++
    entry "names" (modifier.names.map namesJson))

def lineJson (line : CartLine) : Json :=
  .obj (entry "line_id" (some (.str line.lineId)) ++
    entry "product_tmpl_id" (some (integerJson line.productTmplId)) ++ entry "name" (some (.str line.name)) ++
    entry "names" (some (namesJson line.names)) ++ entry "quantity" (some (integerJson line.quantity)) ++
    entry "modifiers" (some (.arr (line.modifiers.map modifierJson))) ++
    entry "price_cents" (some (integerJson line.priceCents)))

def cartJson (cart : Cart) : Json :=
  .obj (entry "cart_id" (some (.str cart.cartId)) ++
    entry "pos_config_id" (some (integerJson cart.posConfigId)) ++ entry "device_id" (cart.deviceId.map .str) ++
    entry "table_id" (cart.tableId.map integerJson) ++
    entry "version" (some (integerJson cart.version)) ++
    entry "items" (some (.arr (cart.items.map lineJson))) ++
    entry "subtotal_cents" (some (integerJson cart.subtotalCents)) ++
    entry "tax_cents" (some (integerJson cart.taxCents)) ++ entry "total_cents" (some (integerJson cart.totalCents)) ++
    entry "last_updated" (some (.str cart.lastUpdated)) ++
    entry "confirmed_at" (cart.confirmedAt.map .str) ++
    entry "pos_order_id" (cart.posOrderId.map integerJson))

/-- A mark is the name of its outcome. -/
def outcomeName : LedgerOutcome → String
  | .applied => "applied"
  | .rejected => "rejected"
  | .duplicate => "duplicate"
  | .superseded => "superseded"

def Text.write (numberText : ℚ → List Char) : Text → String
  | .json cart => stringify numberText (cartJson cart)
  | .outcome mark => outcomeName mark

/-! ## Reading

The cast of the parsed value says which fields are read as what. -/

def asText : Schema String
  | some (.str text) => some text
  | _ => none

def asInteger : Schema ℤ
  | some (.num value) => if value.den = 1 then some value.num else none
  | _ => none

def asNatural : Schema ℕ := fun value => (asInteger value).bind fun n => if 0 ≤ n then some n.toNat else none

def asNames : Schema LangMap
  | some (.obj fields) => fields.mapM fun (lang, name) => (asText (some name)).map fun name => (lang, name)
  | _ => none

def asModifier : Schema CartModifier := fun value => do
  let json ← value
  pure
    { ptavId := ← asInteger (json.field "ptav_id")
      name := ← asText (json.field "name")
      names := ← Schema.optional asNames (json.field "names") }

def asLine : Schema CartLine := fun value => do
  let json ← value
  pure
    { lineId := ← asText (json.field "line_id")
      productTmplId := ← asInteger (json.field "product_tmpl_id")
      name := ← asText (json.field "name")
      names := ← asNames (json.field "names")
      quantity := ← asInteger (json.field "quantity")
      modifiers := ← Schema.array asModifier (json.field "modifiers")
      priceCents := ← asInteger (json.field "price_cents") }

def asCart : Schema Cart := fun value => do
  let json ← value
  pure
    { cartId := ← asText (json.field "cart_id")
      posConfigId := ← asInteger (json.field "pos_config_id")
      deviceId := ← Schema.optional asText (json.field "device_id")
      tableId := ← Schema.optional asInteger (json.field "table_id")
      version := ← asNatural (json.field "version")
      items := ← Schema.array asLine (json.field "items")
      subtotalCents := ← asInteger (json.field "subtotal_cents")
      taxCents := ← asInteger (json.field "tax_cents")
      totalCents := ← asInteger (json.field "total_cents")
      lastUpdated := ← asText (json.field "last_updated")
      confirmedAt := ← Schema.optional asText (json.field "confirmed_at")
      posOrderId := ← Schema.optional asInteger (json.field "pos_order_id") }

/-- What the cache returns for a text that it finds. -/
def readCart (numberOf : List Char → ℚ) (raw : String) : Option Cart :=
  (Json.parse numberOf raw).bind fun json => asCart (some json)

/-! ## What is written is read back -/

section

variable {numberOf : List Char → ℚ} {numberText : ℚ → List Char}

@[simp] theorem asText_str (text : String) : asText (some (.str text)) = some text := rfl

@[simp] theorem asInteger_integerJson (n : ℤ) : asInteger (some (integerJson n)) = some n := by
  simp [asInteger, integerJson]

@[simp] theorem asNatural_integerJson (n : ℕ) : asNatural (some (integerJson n)) = some n := by
  simp [asNatural]

/-- What reads each value back reads the list of them back. -/
theorem mapM_map {α β : Type} {write : α → β} {read : β → Option α} {values : List α}
    (h : ∀ value ∈ values, read (write value) = some value) :
    (values.map write).mapM read = some values := by
  induction values with
  | nil => rfl
  | cons value values ih =>
      obtain ⟨hvalue, hvalues⟩ := List.forall_mem_cons.mp h
      rw [List.map_cons, List.mapM_cons, hvalue, ih hvalues]
      rfl

theorem asNames_namesJson (names : LangMap) : asNames (some (namesJson names)) = some names :=
  mapM_map fun _ _ => rfl

theorem optional_map {α : Type} {write : α → Json} {schema : Schema α}
    (h : ∀ value, schema (some (write value)) = some value) (value : Option α) :
    Schema.optional schema (value.map write) = some value := by
  cases value with
  | none => rfl
  | some value => simp [Schema.optional, h]

theorem array_map {α : Type} {write : α → Json} {schema : Schema α}
    (h : ∀ value, schema (some (write value)) = some value) (values : List α) :
    Schema.array schema (some (.arr (values.map write))) = some values :=
  mapM_map fun value _ => h value

theorem asModifier_modifierJson (modifier : CartModifier) :
    asModifier (some (modifierJson modifier)) = some modifier := by
  simp [asModifier, modifierJson, field_append, field_entry, optional_map asNames_namesJson]

theorem asLine_lineJson (line : CartLine) : asLine (some (lineJson line)) = some line := by
  simp [asLine, lineJson, field_append, field_entry, asNames_namesJson, array_map asModifier_modifierJson]

theorem asCart_cartJson (cart : Cart) : asCart (some (cartJson cart)) = some cart := by
  have hidentity : (cartJson cart).field "cart_id" = some (.str cart.cartId) ∧
      (cartJson cart).field "pos_config_id" = some (integerJson cart.posConfigId) ∧
      (cartJson cart).field "device_id" = cart.deviceId.map .str ∧
      (cartJson cart).field "table_id" = cart.tableId.map integerJson := by
    simp [cartJson, field_append, field_entry]
  have hcontents : (cartJson cart).field "version" = some (integerJson cart.version) ∧
      (cartJson cart).field "items" = some (.arr (cart.items.map lineJson)) ∧
      (cartJson cart).field "subtotal_cents" = some (integerJson cart.subtotalCents) ∧
      (cartJson cart).field "tax_cents" = some (integerJson cart.taxCents) ∧
      (cartJson cart).field "total_cents" = some (integerJson cart.totalCents) := by
    simp [cartJson, field_append, field_entry]
  have hhistory : (cartJson cart).field "last_updated" = some (.str cart.lastUpdated) ∧
      (cartJson cart).field "confirmed_at" = cart.confirmedAt.map .str ∧
      (cartJson cart).field "pos_order_id" = cart.posOrderId.map integerJson := by
    simp [cartJson, field_append, field_entry]
  obtain ⟨hcartId, hposConfigId, hdeviceId, htableId⟩ := hidentity
  obtain ⟨hversion, hitems, hsubtotal, htax, htotal⟩ := hcontents
  obtain ⟨hupdated, hconfirmed, horder⟩ := hhistory
  simp only [asCart, Option.bind_eq_bind, Option.bind_some, hcartId, hposConfigId, hdeviceId, htableId,
    hversion, hitems, hsubtotal, htax, htotal, hupdated, hconfirmed, horder, asText_str, asInteger_integerJson,
    asNatural_integerJson, optional_map asText_str, optional_map asInteger_integerJson, array_map asLine_lineJson]
  rfl

/-- The name of an outcome is no JSON. -/
theorem parse_outcomeName (outcome : LedgerOutcome) : Json.parse numberOf (outcomeName outcome) = none := by
  cases outcome with
  | applied | rejected | duplicate | superseded => rfl

/-- The numbers in a text. -/
def Text.numbers : Text → List ℚ
  | .json cart => Json.numbers (cartJson cart)
  | .outcome _ => []

/-- A cart reads back as it was written, and a mark is no cart. -/
theorem readCart_write (text : Text) (h : ∀ number ∈ text.numbers, Written numberOf numberText number) :
    readCart numberOf (text.write numberText) = text.parse := by
  cases text with
  | json cart =>
      rw [Text.write, readCart, parse_stringify _ h]
      exact asCart_cartJson cart
  | outcome mark =>
      rw [Text.write, readCart, parse_outcomeName]
      rfl

end

/-! ## The store as the server has it -/

namespace Raw

inductive Value where
  | string (text : String)
  | set (members : List String)
  deriving DecidableEq, Repr

abbrev Keyspace : Type := String → Option Value

/-! The commands, on texts. -/

def set (key text : String) (redis : Keyspace) : Keyspace :=
  Function.update redis key (some (.string text))

def get (key : String) (redis : Keyspace) : Option (Option String) :=
  match redis key with
  | none => some none
  | some (.string text) => some (some text)
  | some (.set _) => none

def existsKey (key : String) (redis : Keyspace) : Bool := (redis key).isSome

def del (key : String) (redis : Keyspace) : Keyspace := Function.update redis key none

def sadd (key member : String) (redis : Keyspace) : Option Keyspace :=
  match redis key with
  | none => some (Function.update redis key (some (.set [member])))
  | some (.set members) => some (Function.update redis key (some (.set (OrderedMap.add members member))))
  | some (.string _) => none

def smembers (enumeration : Enumeration) (key : String) (redis : Keyspace) : Option (List String) :=
  match redis key with
  | none => some []
  | some (.set members) => some (enumeration.order members)
  | some (.string _) => none

def mget (keys : List String) (redis : Keyspace) : List (Option String) :=
  keys.map fun key =>
    match redis key with
    | some (.string text) => some text
    | _ => none

def indexCart (key : String) (cartId : CartId) (redis : Keyspace) : Option Keyspace :=
  if key ≠ "" then sadd key cartId redis else some redis

/-- The script of both commits; the create path has nothing to mark, and says so. -/
def commitCartLua (blobKey markKey devicesKey tablesKey blob mark : String) (cartId : CartId)
    (redis : Keyspace) : Option Keyspace := do
  let redis := set blobKey blob redis
  let redis := if mark ≠ "skip" then set markKey mark redis else redis
  let redis ← indexCart devicesKey cartId redis
  indexCart tablesKey cartId redis

section

variable (numberOf : List Char → ℚ) (numberText : ℚ → List Char)

def commit (cart : Cart) (requestId : Option RequestId) (redis : Keyspace) : Option Keyspace :=
  commitCartLua (cartKey cart.cartId) ((requestId.map reqKey).getD "")
    ((cart.deviceId.map deviceKey).getD "") ((cart.tableId.map tableKey).getD "")
    (stringify numberText (cartJson cart)) (if requestId.isSome then "applied" else "skip") cart.cartId redis

/-- Read the index, load each text, drop those that are gone or do not parse, and keep the
confirmed carts. -/
def getOrdersByDevice (enumeration : Enumeration) (deviceId : DeviceId) (redis : Keyspace) :
    Option (List Cart) :=
  (smembers enumeration (deviceKey deviceId) redis).map fun cartIds =>
    if cartIds = [] then []
    else
      ((mget (cartIds.map cartKey) redis).filterMap fun raw => raw.bind (readCart numberOf)).filter
        isConfirmed

/-- A call of the Redis pair, on texts. -/
def step (enumeration : Enumeration) (redis : Keyspace) : Op → Option (Result × Keyspace)
  | .get cartId =>
      (get (cartKey cartId) redis).map fun raw => (.cart (raw.bind (readCart numberOf)), redis)
  | .set cart => some (.done, set (cartKey cart.cartId) (stringify numberText (cartJson cart)) redis)
  | .delete cartId => some (.done, del (cartKey cartId) redis)
  | .wasProcessed requestId => some (.processed (existsKey (reqKey requestId) redis), redis)
  | .markProcessed requestId outcome =>
      some (.done, set (reqKey requestId) (outcomeName outcome) redis)
  | .commitApplied cart requestId =>
      (commit numberText cart (some requestId) redis).map fun redis => (.done, redis)
  | .commitCreated cart => (commit numberText cart none redis).map fun redis => (.done, redis)
  | .getOrdersByDevice deviceId =>
      (getOrdersByDevice numberOf enumeration deviceId redis).map fun carts => (.orders carts, redis)

/-- The results of a sequence of calls, unless one of them fails. -/
def results (enumeration : Enumeration) : Keyspace → List Op → Option (List Result)
  | _, [] => some []
  | redis, op :: ops =>
      (step numberOf numberText enumeration redis op).bind fun (result, redis) =>
        (results enumeration redis ops).map (result :: ·)

end

end Raw

/-! ## The texts refine the values -/

section

variable {numberOf : List Char → ℚ} {numberText : ℚ → List Char} {redis : Keyspace}
  {enumeration : Enumeration}

def Value.raw (numberText : ℚ → List Char) : Value → Raw.Value
  | .string text => .string (text.write numberText)
  | .set members => .set members

/-- The store with its values as texts. -/
def Keyspace.raw (numberText : ℚ → List Char) (redis : Keyspace) : Raw.Keyspace := fun key =>
  (redis key).map (Value.raw numberText)

theorem raw_update (key : String) (value : Option Value) :
    Function.update (redis.raw numberText) key (value.map (Value.raw numberText)) =
      Keyspace.raw numberText (Function.update redis key value) := by
  funext other
  by_cases h : other = key
  · subst h
    simp [Keyspace.raw]
  · simp [Keyspace.raw, Function.update_of_ne h]

theorem raw_set (key : String) (text : Text) :
    Raw.set key (text.write numberText) (redis.raw numberText) =
      (Command.set key text redis).raw numberText := raw_update key (some (.string text))

theorem raw_del (key : String) :
    Raw.del key (redis.raw numberText) = (Command.del key redis).raw numberText := raw_update key none

theorem raw_existsKey (key : String) :
    Raw.existsKey key (redis.raw numberText) = Command.existsKey key redis := by
  simp [Raw.existsKey, Command.existsKey, Keyspace.raw]

theorem raw_get (key : String) : Raw.get key (redis.raw numberText) =
    (Command.get key redis).map fun raw => raw.map (Text.write numberText) := by
  unfold Raw.get Command.get Keyspace.raw
  cases redis key with
  | none => rfl
  | some value =>
      cases value with
      | string text => rfl
      | set members => rfl

theorem raw_sadd (key member : String) : Raw.sadd key member (redis.raw numberText) =
    (Command.sadd key member redis).map (Keyspace.raw numberText) := by
  unfold Raw.sadd Command.sadd
  rw [Keyspace.raw]
  cases hvalue : redis key with
  | none => exact congrArg some (raw_update key (some (.set [member])))
  | some value =>
      cases value with
      | string text => rfl
      | set members => exact congrArg some (raw_update key (some (.set (OrderedMap.add members member))))

theorem raw_smembers (key : String) : Raw.smembers enumeration key (redis.raw numberText) =
    Command.smembers enumeration key redis := by
  unfold Raw.smembers Command.smembers Keyspace.raw
  cases redis key with
  | none => rfl
  | some value =>
      cases value with
      | string text => rfl
      | set members => rfl

theorem raw_mget (keys : List String) : Raw.mget keys (redis.raw numberText) =
    (Command.mget keys redis).map fun raw => raw.map (Text.write numberText) := by
  unfold Raw.mget Command.mget Keyspace.raw
  rw [List.map_map]
  refine List.map_congr_left fun key _ => ?_
  dsimp only [Function.comp]
  cases redis key with
  | none => rfl
  | some value =>
      cases value with
      | string text => rfl
      | set members => rfl

theorem raw_indexCart (key : String) (cartId : CartId) :
    Raw.indexCart key cartId (redis.raw numberText) =
      (indexCart key cartId redis).map (Keyspace.raw numberText) := by
  unfold Raw.indexCart indexCart
  split
  · exact raw_sadd key cartId
  · rfl

theorem raw_commit (cart : Cart) (requestId : Option RequestId) :
    Raw.commit numberText cart requestId (redis.raw numberText) =
      (commit cart requestId redis).map (Keyspace.raw numberText) := by
  have hindexed : ∀ redis : Keyspace, ∀ devicesKey tablesKey,
      ((Raw.indexCart devicesKey cart.cartId (redis.raw numberText)).bind
          (Raw.indexCart tablesKey cart.cartId)) =
        ((indexCart devicesKey cart.cartId redis).bind (indexCart tablesKey cart.cartId)).map
          (Keyspace.raw numberText) := by
    intro redis devicesKey tablesKey
    rw [raw_indexCart, Option.bind_map, Option.map_bind]
    exact congrArg _ (funext fun redis => raw_indexCart tablesKey cart.cartId)
  have hset : ∀ (redis : Keyspace) key text, Raw.set key (Text.write numberText text) (redis.raw numberText) =
      (Command.set key text redis).raw numberText := fun _ _ _ => raw_set _ _
  have hblob := hset redis (cartKey cart.cartId) (.json cart)
  unfold Raw.commit commit Raw.commitCartLua commitCartLua
  cases requestId with
  | none =>
      change (Raw.indexCart _ _ (Raw.set _ (Text.write numberText (.json cart)) _)).bind _ = _
      rw [hblob]
      exact hindexed _ _ _
  | some requestId =>
      have hmark := hset (Command.set (cartKey cart.cartId) (.json cart) redis) (reqKey requestId)
        (.outcome .applied)
      change (Raw.indexCart _ _ (Raw.set (reqKey requestId) (Text.write numberText (.outcome .applied))
        (Raw.set _ (Text.write numberText (.json cart)) _))).bind _ = _
      rw [hblob, hmark]
      exact hindexed _ _ _

/-- What a text in the store reads as is what it was written for. -/
def Readable (numberOf : List Char → ℚ) (numberText : ℚ → List Char) (redis : Keyspace) : Prop :=
  ∀ key text, redis key = some (.string text) → readCart numberOf (text.write numberText) = text.parse

theorem raw_read {raws : List (Option Text)}
    (h : ∀ text, some text ∈ raws → readCart numberOf (text.write numberText) = text.parse) :
    ((raws.map fun raw => raw.map (Text.write numberText)).filterMap fun raw =>
      raw.bind (readCart numberOf)) = raws.filterMap fun raw => raw.bind Text.parse := by
  rw [List.filterMap_map]
  refine List.filterMap_congr fun raw hraw => ?_
  cases raw with
  | none => rfl
  | some text => exact h text hraw

theorem Readable.get (h : Readable numberOf numberText redis) {key : String} {raw : Option Text}
    (hraw : Command.get key redis = some raw) :
    (raw.map (Text.write numberText)).bind (readCart numberOf) = raw.bind Text.parse := by
  unfold Command.get at hraw
  split at hraw
  · cases hraw
    rfl
  · rename_i text hvalue
    cases hraw
    exact h key text hvalue
  · cases hraw

theorem Readable.mget (h : Readable numberOf numberText redis) {keys : List String} {text : Text}
    (htext : some text ∈ Command.mget keys redis) :
    readCart numberOf (text.write numberText) = text.parse := by
  obtain ⟨key, -, hkey⟩ := List.mem_map.mp htext
  split at hkey
  · rename_i found hvalue
    cases hkey
    exact h key text hvalue
  · cases hkey

/-- A call on the texts does what it does on the values. -/
theorem raw_step (h : Readable numberOf numberText redis) (op : Op) :
    Raw.step numberOf numberText enumeration (redis.raw numberText) op =
      (redisStep enumeration redis op).map fun (result, redis) => (result, redis.raw numberText) := by
  cases op with
  | get cartId =>
      rw [Raw.step, redisStep, raw_get]
      cases hraw : Command.get (cartKey cartId) redis with
      | none => rfl
      | some raw => exact congrArg (fun found => some (Result.cart found, redis.raw numberText)) (h.get hraw)
  | set cart => exact congrArg (fun redis => some (Result.done, redis)) (raw_set _ (.json cart))
  | delete cartId => exact congrArg (fun redis => some (Result.done, redis)) (raw_del _)
  | wasProcessed requestId =>
      exact congrArg (fun found => some (Result.processed found, redis.raw numberText)) (raw_existsKey _)
  | markProcessed requestId outcome =>
      exact congrArg (fun redis => some (Result.done, redis)) (raw_set _ (.outcome outcome))
  | commitApplied cart requestId =>
      rw [Raw.step, redisStep, raw_commit, Option.map_map, Option.map_map]
      rfl
  | commitCreated cart =>
      rw [Raw.step, redisStep, raw_commit, Option.map_map, Option.map_map]
      rfl
  | getOrdersByDevice deviceId =>
      rw [Raw.step, redisStep, Raw.getOrdersByDevice, getOrdersByDevice, raw_smembers, Option.map_map,
        Option.map_map, Option.map_map]
      refine congrArg (Option.map · _) (funext fun cartIds => ?_)
      dsimp only [Function.comp]
      rw [raw_mget, raw_read fun text htext => h.mget htext]

/-! ## Runs -/

theorem Readable.update (h : Readable numberOf numberText redis) {key : String} {value : Option Value}
    (hvalue : ∀ text, value = some (.string text) →
      readCart numberOf (text.write numberText) = text.parse) :
    Readable numberOf numberText (Function.update redis key value) := by
  intro other text htext
  by_cases heq : other = key
  · rw [heq, Function.update_self] at htext
    exact hvalue text htext
  · rw [Function.update_of_ne heq] at htext
    exact h other text htext

theorem Readable.indexCart (h : Readable numberOf numberText redis) {key : String} {cartId : CartId}
    {after : Keyspace} (hindex : indexCart key cartId redis = some after) :
    Readable numberOf numberText after := by
  unfold VoiceOrder.Redis.indexCart Command.sadd at hindex
  split at hindex
  · split at hindex
    · cases hindex
      exact h.update fun text htext => by cases htext
    · cases hindex
      exact h.update fun text htext => by cases htext
    · cases hindex
  · cases hindex
    exact h

/-- The numbers in the cart that a call writes. -/
def Op.numbers : Op → List ℚ
  | .set cart | .commitApplied cart _ | .commitCreated cart => Json.numbers (cartJson cart)
  | .get _ | .delete _ | .wasProcessed _ | .markProcessed .. | .getOrdersByDevice _ => []

theorem Readable.step (h : Readable numberOf numberText redis) {op : Op} {result : Result}
    {after : Keyspace} (hop : ∀ number ∈ op.numbers, Written numberOf numberText number)
    (hstep : redisStep enumeration redis op = some (result, after)) :
    Readable numberOf numberText after := by
  have hmark : ∀ {redis : Keyspace}, Readable numberOf numberText redis → ∀ key outcome,
      Readable numberOf numberText (Command.set key (.outcome outcome) redis) := by
    intro redis hredis key outcome
    refine hredis.update fun text htext => ?_
    cases htext
    exact readCart_write (.outcome outcome) (by simp [Text.numbers])
  have hblob : ∀ {cart : Cart} key, (∀ number ∈ Json.numbers (cartJson cart),
      Written numberOf numberText number) →
        Readable numberOf numberText (Command.set key (.json cart) redis) := by
    intro cart key hwritten
    refine h.update fun text htext => ?_
    cases htext
    exact readCart_write (.json cart) hwritten
  have hindexed : ∀ {redis : Keyspace} {cart : Cart} {devicesKey tablesKey},
      Readable numberOf numberText redis →
        ((VoiceOrder.Redis.indexCart devicesKey cart.cartId redis).bind
          (VoiceOrder.Redis.indexCart tablesKey cart.cartId)) = some after →
            Readable numberOf numberText after := by
    intro redis cart devicesKey tablesKey hredis hafter
    obtain ⟨middle, hmiddle, hlast⟩ := Option.bind_eq_some_iff.mp hafter
    exact (hredis.indexCart hmiddle).indexCart hlast
  cases op with
  | get cartId =>
      obtain ⟨raw, -, heq⟩ := Option.map_eq_some_iff.mp hstep
      cases heq
      exact h
  | set cart =>
      cases hstep
      exact hblob _ hop
  | delete cartId =>
      cases hstep
      exact h.update fun text htext => by cases htext
  | wasProcessed requestId =>
      cases hstep
      exact h
  | markProcessed requestId outcome =>
      cases hstep
      exact hmark h _ _
  | commitApplied cart requestId =>
      obtain ⟨redis, hcommit, heq⟩ := Option.map_eq_some_iff.mp hstep
      cases heq
      exact hindexed (hmark (hblob _ hop) _ _) hcommit
  | commitCreated cart =>
      obtain ⟨redis, hcommit, heq⟩ := Option.map_eq_some_iff.mp hstep
      cases heq
      exact hindexed (hblob _ hop) hcommit
  | getOrdersByDevice deviceId =>
      obtain ⟨carts, -, heq⟩ := Option.map_eq_some_iff.mp hstep
      cases heq
      exact h

theorem raw_results (h : Readable numberOf numberText redis) {ops : List Op}
    (hops : ∀ op ∈ ops, ∀ number ∈ op.numbers, Written numberOf numberText number) :
    Raw.results numberOf numberText enumeration (redis.raw numberText) ops =
      redisResults enumeration redis ops := by
  induction ops generalizing redis with
  | nil => rfl
  | cons op ops ih =>
      obtain ⟨hop, hops⟩ := List.forall_mem_cons.mp hops
      rw [Raw.results, redisResults, raw_step h]
      cases hstep : redisStep enumeration redis op with
      | none => rfl
      | some found =>
          obtain ⟨result, after⟩ := found
          rw [Option.map_some, Option.bind_some, Option.bind_some]
          exact congrArg (Option.map (result :: ·)) (ih (h.step hop hstep) hops)

end

/-- Whatever the calls, the texts in the store are read as what they were written for: the pair
that keeps JSON and the names of outcomes answers like one that keeps carts and outcomes, and fails
where that one does. -/
theorem texts_refine (numberOf : List Char → ℚ) (numberText : ℚ → List Char)
    (enumeration : Enumeration) (ops : List Op)
    (h : ∀ op ∈ ops, ∀ number ∈ op.numbers, Written numberOf numberText number) :
    Raw.results numberOf numberText enumeration (fun _ => none) ops =
      redisResults enumeration (fun _ => none) ops := by
  have hempty : Readable numberOf numberText fun _ => none := fun _ _ htext => by cases htext
  exact raw_results hempty h

/-! ## A cart that is read back -/

def naturalText (number : ℚ) : List Char := Nat.toDigits 10 number.num.toNat

def naturalOf (word : List Char) : ℚ :=
  (word.foldl (fun value digit => 10 * value + (digit.toNat - '0'.toNat)) 0 : ℕ)

def quotedCart : Cart :=
  { emptyCart "cart \"7\"" 1 (some ⟨some "phone\n", none⟩) "2026-01-01T00:00:00.000Z" with
    version := 1
    items := [⟨"line-1", 12, "Cola", [("en_US", "Cola"), ("zh_CN", "可乐")], 2, [], 500⟩]
    subtotalCents := 500 }

theorem texts_refine_quoted :
    Raw.results naturalOf naturalText ⟨id, fun members => .refl members⟩ (fun _ => none)
        [.commitApplied quotedCart "request-1", .get quotedCart.cartId] =
      some [.done, .cart (some quotedCart)] := by
  rw [texts_refine naturalOf naturalText _ _ (by decide +kernel)]
  decide +kernel

end VoiceOrder.Redis
