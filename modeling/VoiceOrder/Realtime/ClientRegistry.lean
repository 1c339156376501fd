import VoiceOrder.Shared.OrderedMap
import VoiceOrder.Voice.VoiceSession

/-! # The registry of connected clients

Sockets on one cart can overlap: on a reconnect the new socket is added before the close of the
old one fires. -/

namespace VoiceOrder.Realtime

/-- One live client socket. Two of them are the same connection only if they are equal. -/
structure ClientConnection extends Voice.ClientConnection where
  device_id : DeviceId
  table_id : Option RestaurantTableId
  deriving DecidableEq, Repr

structure ClientRegistry where
  bySession : SessionId → Option ClientConnection
  /-- The set of each cart, in the order of insertion. -/
  byCart : CartId → Option (List ClientConnection)

namespace ClientRegistry

def create : ClientRegistry where
  bySession := fun _ => none
  byCart := fun _ => none

def add (conn : ClientConnection) (registry : ClientRegistry) : ClientRegistry where
  bySession := Function.update registry.bySession conn.session_id (some conn)
  byCart := Function.update registry.byCart conn.cart_id
    (some (OrderedMap.add ((registry.byCart conn.cart_id).getD []) conn))

def remove (conn : ClientConnection) (registry : ClientRegistry) : ClientRegistry where
  bySession := Function.update registry.bySession conn.session_id none
  byCart :=
    match registry.byCart conn.cart_id with
    | none => registry.byCart
    | some set =>
        let left := set.filter fun other => other ≠ conn
        Function.update registry.byCart conn.cart_id (if left.isEmpty then none else some left)

def getBySession (registry : ClientRegistry) (session_id : SessionId) : Option ClientConnection :=
  registry.bySession session_id

def getByCart (registry : ClientRegistry) (cart_id : CartId) : List ClientConnection :=
  (registry.byCart cart_id).getD []

variable {registry : ClientRegistry} {conn other : ClientConnection}

theorem getBySession_add (conn : ClientConnection) (session_id : SessionId) :
    (registry.add conn).getBySession session_id =
      if session_id = conn.session_id then some conn else registry.getBySession session_id :=
  Function.update_apply ..

theorem getBySession_remove (conn : ClientConnection) (session_id : SessionId) :
    (registry.remove conn).getBySession session_id =
      if session_id = conn.session_id then none else registry.getBySession session_id :=
  Function.update_apply ..

theorem mem_getByCart_add (cart_id : CartId) :
    other ∈ (registry.add conn).getByCart cart_id ↔
      other ∈ registry.getByCart cart_id ∨ other = conn ∧ cart_id = conn.cart_id := by
  unfold getByCart add
  dsimp only
  rw [Function.update_apply]
  by_cases hcart : cart_id = conn.cart_id
  · simp [hcart]
  · simp [hcart]

/-- Removing is by identity: it takes one connection off its cart, and no other. -/
theorem mem_getByCart_remove (cart_id : CartId) :
    other ∈ (registry.remove conn).getByCart cart_id ↔
      other ∈ registry.getByCart cart_id ∧ ¬(other = conn ∧ cart_id = conn.cart_id) := by
  unfold getByCart remove
  dsimp only
  cases hset : registry.byCart conn.cart_id with
  | none =>
      dsimp only
      by_cases hcart : cart_id = conn.cart_id
      · simp [hcart, hset]
      · simp [hcart]
  | some set =>
      dsimp only
      rw [Function.update_apply]
      have hleft : ∀ left : List ClientConnection,
          (if left.isEmpty then none else some left).getD [] = left := by
        intro left
        cases left <;> rfl
      by_cases hcart : cart_id = conn.cart_id
      · rw [if_pos hcart, hleft, hcart, hset]
        simp
      · simp [hcart]

end ClientRegistry

end VoiceOrder.Realtime
