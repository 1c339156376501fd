import VoiceOrder.Async.Bus
import VoiceOrder.Shared.LockChain

/-! # Lanes made of a keyed lock

A job is a function that is handed to `run` under the key of its lane. It runs from the moment
the lock calls it until it ends; how many functions of a key run at a time, and in which order,
is up to the lock. -/

namespace VoiceOrder

open Async Runs

structure LockedMachine {Call : Type} (Answer : Call → Type) (Event Error κ Job σ : Type) where
  state : σ
  lock : KeyedAsyncLock κ
  /-- The key and the job of every call of the lock, in the order of the calls. -/
  arrivals : List (κ × Job)
  /-- The functions that are running. -/
  running : CallId → Option (κ × Running Answer Event Error Job σ)
  /-- The functions that have ended, in the order in which they ended. -/
  ended : List (κ × Finished Answer Event Error Job σ)
  /-- The events in the order in which they were emitted. -/
  emitted : List (κ × Event)

inductive LockedAction {Call : Type} (Answer : Call → Type) (Error κ Job : Type) where
  | submit (lane : κ) (job : Job)
  | start (id : CallId)
  | emit (id : CallId)
  | reply (id : CallId) (call : Call) (reply : Except Error (Answer call))
  | finish (id : CallId)
  /-- The microtasks that the lock hangs on a function that has ended. -/
  | follow (id : CallId)
  | settleTail (id : CallId)
  | cleanUp (id : CallId)

namespace LockedMachine

variable {Call : Type} {Answer : Call → Type} {Event Error κ Job σ V : Type} [DecidableEq κ]

def create (state : σ) : LockedMachine Answer Event Error κ Job σ where
  state := state
  lock := .create
  arrivals := []
  running := fun _ => none
  ended := []
  emitted := []

/-- Hand a job to the lock. -/
def submit (machine : LockedMachine Answer Event Error κ Job σ) (target : κ × Job) :
    LockedMachine Answer Event Error κ Job σ :=
  { machine with
    lock := machine.lock.run target.1
    arrivals := machine.arrivals ++ [target] }

/-- The lock calls the function of a call. -/
def start (design : Design Answer Event Error κ Job σ) (id : CallId)
    (machine : LockedMachine Answer Event Error κ Job σ) :
    Option (LockedMachine Answer Event Error κ Job σ) :=
  (machine.lock.start id).bind fun lock =>
    machine.arrivals[id]?.map fun target =>
      { machine with
        lock := lock
        running := Function.update machine.running id
          (some (target.1, ⟨id, target.2, machine.state, [], [], design.program target.2⟩)) }

def emit (design : Design Answer Event Error κ Job σ) (id : CallId)
    (machine : LockedMachine Answer Event Error κ Job σ) :
    Option (LockedMachine Answer Event Error κ Job σ) :=
  (machine.running id).bind fun entry =>
    match entry.2.rest with
    | .emit event rest =>
        let jobs := design.react event
        some (jobs.foldl submit { machine with
          running := Function.update machine.running id (some (entry.1, { entry.2 with
            entries := entry.2.entries ++ [.emitted event]
            submitted := entry.2.submitted ++ List.range' machine.arrivals.length jobs.length
            rest := rest }))
          emitted := machine.emitted ++ [(entry.1, event)] })
    | _ => none

def reply [DecidableEq Call] (design : Design Answer Event Error κ Job σ) (id : CallId) (call : Call)
    (reply : Except Error (Answer call)) (machine : LockedMachine Answer Event Error κ Job σ) :
    Option (LockedMachine Answer Event Error κ Job σ) :=
  (machine.running id).bind fun entry =>
    match entry.2.rest with
    | .await awaited resume =>
        if h : call = awaited then
          (design.handle machine.state call reply).map fun state =>
            { machine with
              state := state
              running := Function.update machine.running id (some (entry.1, { entry.2 with
                entries := entry.2.entries ++ [.called call reply]
                rest := resume (h ▸ reply) })) }
        else none
    | _ => none

/-- How the promise of a function settles. -/
def outcomeOf (result : Except Error Unit) : Outcome :=
  match result with
  | .ok _ => .fulfilled
  | .error _ => .rejected

def finish (id : CallId) (machine : LockedMachine Answer Event Error κ Job σ) :
    Option (LockedMachine Answer Event Error κ Job σ) :=
  (machine.running id).bind fun entry =>
    entry.2.rest.result?.bind fun result =>
      (machine.lock.ends id (outcomeOf result)).map fun lock =>
        { machine with
          lock := lock
          running := Function.update machine.running id none
          ended := machine.ended ++ [(entry.1, ⟨entry.2.id, entry.2.job, entry.2.before,
            entry.2.entries, entry.2.submitted, result, machine.state⟩)] }

def step [DecidableEq Call] (design : Design Answer Event Error κ Job σ)
    (machine : LockedMachine Answer Event Error κ Job σ) :
    LockedAction Answer Error κ Job → Option (LockedMachine Answer Event Error κ Job σ)
  | .submit lane job => some (machine.submit (lane, job))
  | .start id => machine.start design id
  | .emit id => machine.emit design id
  | .reply id call reply => machine.reply design id call reply
  | .finish id => machine.finish id
  | .follow id => (machine.lock.follow id).map fun lock => { machine with lock := lock }
  | .settleTail id => (machine.lock.settleTail id).map fun lock => { machine with lock := lock }
  | .cleanUp id => (machine.lock.cleanUp id).map fun lock => { machine with lock := lock }

/-- The calls of a lane, in order. -/
def callsOn (lane : κ) (machine : LockedMachine Answer Event Error κ Job σ) : List (ℕ × Job) :=
  Machine.arrivals lane 0 machine.arrivals

/-- The calls of a lane in the order in which their functions were called. -/
def startsOn (lane : κ) (machine : LockedMachine Answer Event Error κ Job σ) : List (ℕ × Job) :=
  machine.lock.starts.filterMap fun id =>
    (machine.arrivals[id]?.filter fun target => target.1 = lane).map fun target => (id, target.2)

def endedOn (lane : κ) (machine : LockedMachine Answer Event Error κ Job σ) :
    List (Finished Answer Event Error Job σ) :=
  (machine.ended.filter fun entry => entry.1 = lane).map Prod.snd

/-- The function of the call has not been called. -/
def waits (machine : LockedMachine Answer Event Error κ Job σ) (id : CallId) : Bool :=
  (machine.lock.calls id).any fun call => call.result = .waiting

/-- Only some jobs are submitted from outside, each to some lanes. -/
def submitsOnly (allowed : κ → Job → Prop) (_ : LockedMachine Answer Event Error κ Job σ) :
    LockedAction Answer Error κ Job → Prop
  | .submit lane job => allowed lane job
  | _ => True

instance {allowed : κ → Job → Prop} [∀ lane job, Decidable (allowed lane job)]
    (machine : LockedMachine Answer Event Error κ Job σ) (action : LockedAction Answer Error κ Job) :
    Decidable (submitsOnly allowed machine action) :=
  match action with
  | .submit lane job => inferInstanceAs (Decidable (allowed lane job))
  | .start _ | .emit _ | .reply _ _ _ | .finish _ | .follow _ | .settleTail _ | .cleanUp _ =>
      .isTrue trivial

end LockedMachine

end VoiceOrder
