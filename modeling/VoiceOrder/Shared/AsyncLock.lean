import VoiceOrder.Shared.Runs
import Mathlib.Logic.Function.Basic
import Mathlib.Order.Basic

/-! # The per-key in-process async lock

A call chains its function on the tail of its key, hangs a tail that never rejects on its
result, and a deferred cleanup on that tail. Each `then` runs as a microtask of its own; the
model lets the microtasks run in any order. -/

namespace VoiceOrder

open Runs

/-- How a promise settled. -/
inductive Outcome where
  | fulfilled
  | rejected
  deriving DecidableEq, Repr

/-- A call of `run`, by its place in the order of calls. -/
abbrev CallId := ℕ

/-- The promise that a call is chained on. -/
inductive PreviousTail where
  | resolved
  | settled (call : CallId)
  deriving DecidableEq, Repr

/-- The promise that `run` returns. -/
inductive ResultPromise where
  /-- The previous tail has not called the function yet. -/
  | waiting
  /-- The function was called and has not ended. -/
  | active
  /-- The promise of the function settled; this one has yet to follow it. -/
  | following (outcome : Outcome)
  | settled (outcome : Outcome)
  deriving DecidableEq, Repr

structure LockCall (κ : Type*) where
  key : κ
  prev : PreviousTail
  result : ResultPromise
  /-- How the function of the call ended. -/
  fnEnded : Option Outcome
  /-- The tail `settled` of the call is resolved. -/
  tailSettled : Bool
  /-- The cleanup chained on the tail has run. -/
  cleaned : Bool

structure KeyedAsyncLock (κ : Type*) where
  /-- The call whose tail is the last of its key. -/
  tails : κ → Option CallId
  calls : CallId → Option (LockCall κ)
  /-- The number of calls made so far. -/
  nextCall : CallId
  /-- The calls in the order in which their functions started. -/
  starts : List CallId

namespace KeyedAsyncLock

variable {κ : Type*} [DecidableEq κ]

def create : KeyedAsyncLock κ where
  tails := fun _ => none
  calls := fun _ => none
  nextCall := 0
  starts := []

def put (id : CallId) (call : LockCall κ) (lock : KeyedAsyncLock κ) : KeyedAsyncLock κ :=
  { lock with calls := Function.update lock.calls id (some call) }

/-- The last tail of the key, or a promise already resolved. -/
def previousTail (lock : KeyedAsyncLock κ) (key : κ) : PreviousTail :=
  match lock.tails key with
  | none => .resolved
  | some id => .settled id

/-- Chain a function on the tail of its key and become that tail. -/
def run (key : κ) (lock : KeyedAsyncLock κ) : KeyedAsyncLock κ :=
  { lock.put lock.nextCall ⟨key, lock.previousTail key, .waiting, none, false, false⟩ with
    tails := Function.update lock.tails key (some lock.nextCall)
    nextCall := lock.nextCall + 1 }

def prevSettled (lock : KeyedAsyncLock κ) : PreviousTail → Bool
  | .resolved => true
  | .settled id => (lock.calls id).any LockCall.tailSettled

/-- The previous tail is settled and calls the function. -/
def start (id : CallId) (lock : KeyedAsyncLock κ) : Option (KeyedAsyncLock κ) :=
  (lock.calls id).bind fun call =>
    if call.result = .waiting ∧ lock.prevSettled call.prev then
      some { lock.put id { call with result := .active } with starts := lock.starts ++ [id] }
    else none

/-- The function throws before it returns a promise. -/
def throws (id : CallId) (lock : KeyedAsyncLock κ) : Option (KeyedAsyncLock κ) :=
  (lock.calls id).bind fun call =>
    if call.result = .active then
      some (lock.put id { call with result := .settled .rejected, fnEnded := some .rejected })
    else none

/-- The promise that the function returned settles. -/
def ends (id : CallId) (outcome : Outcome) (lock : KeyedAsyncLock κ) : Option (KeyedAsyncLock κ) :=
  (lock.calls id).bind fun call =>
    if call.result = .active then
      some (lock.put id { call with result := .following outcome, fnEnded := some outcome })
    else none

/-- The result follows the promise of its function. -/
def follow (id : CallId) (lock : KeyedAsyncLock κ) : Option (KeyedAsyncLock κ) :=
  (lock.calls id).bind fun call =>
    match call.result with
    | .following outcome => some (lock.put id { call with result := .settled outcome })
    | _ => none

/-- The result is settled, in either way, and resolves the tail. -/
def settleTail (id : CallId) (lock : KeyedAsyncLock κ) : Option (KeyedAsyncLock κ) :=
  (lock.calls id).bind fun call =>
    match call.result, call.tailSettled with
    | .settled _, false => some (lock.put id { call with tailSettled := true })
    | _, _ => none

/-- The tail is resolved; drop the entry of its key if it is still the last one. -/
def cleanUp (id : CallId) (lock : KeyedAsyncLock κ) : Option (KeyedAsyncLock κ) :=
  (lock.calls id).bind fun call =>
    if call.tailSettled ∧ ¬ call.cleaned then
      some { lock.put id { call with cleaned := true } with
        tails :=
          if lock.tails call.key = some id then Function.update lock.tails call.key none
          else lock.tails }
    else none

inductive LockAction (κ : Type*) where
  /-- Someone calls `run`, from inside a running function or not. -/
  | run (key : κ)
  | start (id : CallId)
  | throws (id : CallId)
  | ends (id : CallId) (outcome : Outcome)
  | follow (id : CallId)
  | settleTail (id : CallId)
  | cleanUp (id : CallId)

def step (lock : KeyedAsyncLock κ) : LockAction κ → Option (KeyedAsyncLock κ)
  | .run key => some (lock.run key)
  | .start id => lock.start id
  | .throws id => lock.throws id
  | .ends id outcome => lock.ends id outcome
  | .follow id => lock.follow id
  | .settleTail id => lock.settleTail id
  | .cleanUp id => lock.cleanUp id

/-- No microtask of the lock is left to run. -/
def Drained (lock : KeyedAsyncLock κ) : Prop :=
  ∀ id, lock.start id = none ∧ lock.follow id = none ∧ lock.settleTail id = none ∧
    lock.cleanUp id = none

/-! ## What a step can do -/

/-- A call goes on without a look at the others. -/
inductive Advance (call : LockCall κ) : LockCall κ → Prop where
  | throws : call.result = .active →
      Advance call { call with result := .settled .rejected, fnEnded := some .rejected }
  | ends (outcome) : call.result = .active →
      Advance call { call with result := .following outcome, fnEnded := some outcome }
  | follow (outcome) : call.result = .following outcome →
      Advance call { call with result := .settled outcome }
  | settleTail (outcome) : call.result = .settled outcome → call.tailSettled = false →
      Advance call { call with tailSettled := true }

inductive Moves (lock : KeyedAsyncLock κ) : KeyedAsyncLock κ → Prop where
  | run (key) : Moves lock (lock.run key)
  | start (id call) : lock.calls id = some call → call.result = .waiting →
      lock.prevSettled call.prev = true →
      Moves lock
        { lock.put id { call with result := .active } with starts := lock.starts ++ [id] }
  | advance (id call next) : lock.calls id = some call → Advance call next →
      Moves lock (lock.put id next)
  | cleanUp (id call) : lock.calls id = some call → call.tailSettled = true →
      call.cleaned = false →
      Moves lock { lock.put id { call with cleaned := true } with
        tails :=
          if lock.tails call.key = some id then Function.update lock.tails call.key none
          else lock.tails }

section

variable {lock after : KeyedAsyncLock κ} {action : LockAction κ}

theorem step_moves (h : lock.step action = some after) : Moves lock after := by
  cases action with
  | run key =>
      cases h
      exact .run key
  | start id =>
      obtain ⟨call, hcall, h⟩ := Option.bind_eq_some_iff.mp h
      split at h
      · rename_i hready
        cases h
        exact .start id call hcall hready.1 hready.2
      · cases h
  | throws id =>
      obtain ⟨call, hcall, h⟩ := Option.bind_eq_some_iff.mp h
      split at h
      · rename_i hactive
        cases h
        exact .advance id call _ hcall (.throws hactive)
      · cases h
  | ends id outcome =>
      obtain ⟨call, hcall, h⟩ := Option.bind_eq_some_iff.mp h
      split at h
      · rename_i hactive
        cases h
        exact .advance id call _ hcall (.ends outcome hactive)
      · cases h
  | follow id =>
      obtain ⟨call, hcall, h⟩ := Option.bind_eq_some_iff.mp h
      split at h
      · rename_i outcome hfollowing
        cases h
        exact .advance id call _ hcall (.follow outcome hfollowing)
      · cases h
  | settleTail id =>
      obtain ⟨call, hcall, h⟩ := Option.bind_eq_some_iff.mp h
      split at h
      · rename_i outcome hsettled hpending
        cases h
        exact .advance id call _ hcall (.settleTail outcome hsettled hpending)
      · cases h
  | cleanUp id =>
      obtain ⟨call, hcall, h⟩ := Option.bind_eq_some_iff.mp h
      split at h
      · rename_i hready
        cases h
        exact .cleanUp id call hcall hready.1 (by simpa using hready.2)
      · cases h

end

end KeyedAsyncLock

end VoiceOrder
