import VoiceOrder.Backend.Services

/-! # The two pairs of stores

`RedisCartCache` and `RedisCartRepository` share one flat keyspace; the in-memory pair that the
tests run on has a map for each kind of thing. Keys do not expire, and a command fails only on a
key of the wrong type. -/

namespace VoiceOrder.Redis

open CartModule
open Backend (LedgerOutcome)

/-- A call of the cache or of the repository that reads or writes the stores. -/
inductive Op where
  | get (cartId : CartId)
  | set (cart : Cart)
  | delete (cartId : CartId)
  | wasProcessed (requestId : RequestId)
  | markProcessed (requestId : RequestId) (outcome : LedgerOutcome)
  | commitApplied (cart : Cart) (requestId : RequestId)
  | commitCreated (cart : Cart)
  | getOrdersByDevice (deviceId : DeviceId)
  deriving DecidableEq, Repr

inductive Result where
  | done
  | cart (found : Option Cart)
  | processed (value : Bool)
  | orders (carts : List Cart)
  deriving DecidableEq, Repr

/-- Two results are the same up to the order of the carts. -/
def Result.Same : Result → Result → Prop
  | .orders carts, .orders others => carts.Perm others
  | result, other => result = other

/-- The source's truthiness test on the confirmation. -/
def isConfirmed (cart : Cart) : Bool := cart.confirmedAt.any fun confirmedAt => confirmedAt ≠ ""

/-! ## Redis -/

/-- What is written under a key: a cart as JSON, or the name of an outcome. -/
inductive Text where
  | json (cart : Cart)
  | outcome (outcome : LedgerOutcome)
  deriving DecidableEq, Repr

/-- A cart parses back to itself; the name of an outcome is no JSON, and parsing it throws. -/
def Text.parse : Text → Option Cart
  | .json cart => some cart
  | .outcome _ => none

inductive Value where
  | string (text : Text)
  | set (members : List String)
  deriving DecidableEq, Repr

abbrev Keyspace : Type := String → Option Value

/-- The order in which the server enumerates the members of a set. -/
structure Enumeration where
  order : List String → List String
  perm : ∀ members, (order members).Perm members

namespace Command

/-! The commands; `none` is the error of a command on a key of the wrong type. -/

def set (key : String) (text : Text) (redis : Keyspace) : Keyspace :=
  Function.update redis key (some (.string text))

def get (key : String) (redis : Keyspace) : Option (Option Text) :=
  match redis key with
  | none => some none
  | some (.string text) => some (some text)
  | some (.set _) => none

def existsKey (key : String) (redis : Keyspace) : Bool := (redis key).isSome

def del (key : String) (redis : Keyspace) : Keyspace := Function.update redis key none

def sadd (key member : String) (redis : Keyspace) : Option Keyspace :=
  match redis key with
  | none => some (Function.update redis key (some (.set [member])))
  | some (.set members) => some (Function.update redis key (some (.set (OrderedMap.add members member))))
  | some (.string _) => none

def smembers (enumeration : Enumeration) (key : String) (redis : Keyspace) : Option (List String) :=
  match redis key with
  | none => some []
  | some (.set members) => some (enumeration.order members)
  | some (.string _) => none

/-- A key that holds no string is answered like an absent one. -/
def mget (keys : List String) (redis : Keyspace) : List (Option Text) :=
  keys.map fun key =>
    match redis key with
    | some (.string text) => some text
    | _ => none

end Command

def cartKey (cartId : CartId) : String := "cart:" ++ cartId

def reqKey (requestId : RequestId) : String := "cart:req:" ++ requestId

def deviceKey (deviceId : DeviceId) : String := "device:" ++ deviceId

def tableKey (tableId : RestaurantTableId) : String := "table:" ++ toString tableId

/-- Add the cart to an index; an empty key stands for an index that it is not in. -/
def indexCart (key : String) (cartId : CartId) (redis : Keyspace) : Option Keyspace :=
  if key ≠ "" then Command.sadd key cartId redis else some redis

/-- The script of both commits; `outcome` is absent on the create path. -/
def commitCartLua (blobKey markKey devicesKey tablesKey : String) (blob : Text)
    (outcome : Option LedgerOutcome) (cartId : CartId) (redis : Keyspace) : Option Keyspace := do
  let redis := Command.set blobKey blob redis
  let redis := outcome.elim redis fun outcome => Command.set markKey (.outcome outcome) redis
  let redis ← indexCart devicesKey cartId redis
  indexCart tablesKey cartId redis

def commit (cart : Cart) (requestId : Option RequestId) (redis : Keyspace) : Option Keyspace :=
  commitCartLua (cartKey cart.cartId) ((requestId.map reqKey).getD "")
    ((cart.deviceId.map deviceKey).getD "") ((cart.tableId.map tableKey).getD "") (.json cart)
    (requestId.map fun _ => .applied) cart.cartId redis

/-- Read the index, load each cart, drop those that are gone or do not parse, and keep the
confirmed ones. -/
def getOrdersByDevice (enumeration : Enumeration) (deviceId : DeviceId) (redis : Keyspace) :
    Option (List Cart) :=
  (Command.smembers enumeration (deviceKey deviceId) redis).map fun cartIds =>
    if cartIds = [] then []
    else
      ((Command.mget (cartIds.map cartKey) redis).filterMap fun raw => raw.bind Text.parse).filter
        isConfirmed

/-- A call of the Redis pair. -/
def redisStep (enumeration : Enumeration) (redis : Keyspace) : Op → Option (Result × Keyspace)
  | .get cartId =>
      (Command.get (cartKey cartId) redis).map fun raw => (.cart (raw.bind Text.parse), redis)
  | .set cart => some (.done, Command.set (cartKey cart.cartId) (.json cart) redis)
  | .delete cartId => some (.done, Command.del (cartKey cartId) redis)
  | .wasProcessed requestId =>
      some (.processed (Command.existsKey (reqKey requestId) redis), redis)
  | .markProcessed requestId outcome =>
      some (.done, Command.set (reqKey requestId) (.outcome outcome) redis)
  | .commitApplied cart requestId =>
      (commit cart (some requestId) redis).map fun redis => (.done, redis)
  | .commitCreated cart => (commit cart none redis).map fun redis => (.done, redis)
  | .getOrdersByDevice deviceId =>
      (getOrdersByDevice enumeration deviceId redis).map fun carts => (.orders carts, redis)

/-- The results of a sequence of calls, unless one of them fails. -/
def redisResults (enumeration : Enumeration) : Keyspace → List Op → Option (List Result)
  | _, [] => some []
  | redis, op :: ops =>
      (redisStep enumeration redis op).bind fun (result, redis) =>
        (redisResults enumeration redis ops).map (result :: ·)

/-! ## The in-memory pair -/

structure InMemory where
  store : CartId → Option Cart
  processed : RequestId → Option LedgerOutcome
  byDevice : DeviceId → Option (List CartId)

namespace InMemory

def create : InMemory where
  store := fun _ => none
  processed := fun _ => none
  byDevice := fun _ => none

def set (cart : Cart) (memory : InMemory) : InMemory :=
  { memory with store := Function.update memory.store cart.cartId (some cart) }

def mark (requestId : RequestId) (outcome : LedgerOutcome) (memory : InMemory) : InMemory :=
  { memory with processed := Function.update memory.processed requestId (some outcome) }

def index (cart : Cart) (memory : InMemory) : InMemory :=
  match cart.deviceId with
  | none => memory
  | some deviceId =>
      let cartIds := OrderedMap.add ((memory.byDevice deviceId).getD []) cart.cartId
      { memory with byDevice := Function.update memory.byDevice deviceId (some cartIds) }

def getOrdersByDevice (deviceId : DeviceId) (memory : InMemory) : List Cart :=
  match memory.byDevice deviceId with
  | none => []
  | some cartIds => (cartIds.filterMap memory.store).filter isConfirmed

/-- A call of the in-memory pair. -/
def step (memory : InMemory) : Op → Result × InMemory
  | .get cartId => (.cart (memory.store cartId), memory)
  | .set cart => (.done, memory.set cart)
  | .delete cartId => (.done, { memory with store := Function.update memory.store cartId none })
  | .wasProcessed requestId => (.processed (memory.processed requestId).isSome, memory)
  | .markProcessed requestId outcome => (.done, memory.mark requestId outcome)
  | .commitApplied cart requestId => (.done, ((memory.set cart).index cart).mark requestId .applied)
  | .commitCreated cart => (.done, (memory.set cart).index cart)
  | .getOrdersByDevice deviceId => (.orders (memory.getOrdersByDevice deviceId), memory)

def after (memory : InMemory) : List Op → InMemory
  | [] => memory
  | op :: ops => (memory.step op).2.after ops

def results (memory : InMemory) : List Op → List Result
  | [] => []
  | op :: ops => (memory.step op).1 :: (memory.step op).2.results ops

end InMemory

/-- The Redis pair answers like the in-memory pair. -/
def Agree (enumeration : Enumeration) (redis : Keyspace) (memory : InMemory) (ops : List Op) : Prop :=
  ∃ results, redisResults enumeration redis ops = some results ∧
    List.Forall₂ Result.Same results (memory.results ops)

end VoiceOrder.Redis
