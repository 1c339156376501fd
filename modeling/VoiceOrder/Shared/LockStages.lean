import VoiceOrder.Shared.LockedLanes

/-! # The stages of a locked call

The function of a call waits, runs and is over. The machine and its lock agree on which calls
there are and on which of their functions run; the microtasks of the lock change neither. -/

namespace VoiceOrder

open Async Runs

/-! ## Calls and their numbers -/

section

variable {κ Job : Type} [DecidableEq κ]

theorem arrivals_append (lane : κ) (next : ℕ) (targets later : List (κ × Job)) :
    Machine.arrivals lane next (targets ++ later) =
      Machine.arrivals lane next targets ++ Machine.arrivals lane (next + targets.length) later := by
  induction targets generalizing next with
  | nil => rfl
  | cons target targets ih =>
      have hnext : next + (target :: targets).length = next + 1 + targets.length := by
        simp only [List.length_cons]
        omega
      rw [hnext, List.cons_append, Machine.arrivals, Machine.arrivals, ih]
      split <;> rfl

theorem mem_arrivals_iff {lane : κ} {next id : ℕ} {job : Job} {targets : List (κ × Job)} :
    (id, job) ∈ Machine.arrivals lane next targets ↔
      ∃ index, id = next + index ∧ targets[index]? = some (lane, job) := by
  induction targets generalizing next with
  | nil => simp [Machine.arrivals]
  | cons target targets ih =>
      constructor
      · intro h
        unfold Machine.arrivals at h
        split at h
        · rename_i hlane
          rcases List.mem_cons.mp h with heq | hrest
          · cases heq
            exact ⟨0, rfl, by rw [List.getElem?_cons_zero, ← hlane]⟩
          · obtain ⟨index, hid, hjob⟩ := ih.mp hrest
            exact ⟨index + 1, by omega, by rwa [List.getElem?_cons_succ]⟩
        · obtain ⟨index, hid, hjob⟩ := ih.mp h
          exact ⟨index + 1, by omega, by rwa [List.getElem?_cons_succ]⟩
      · intro h
        obtain ⟨index, hid, hjob⟩ := h
        unfold Machine.arrivals
        cases index with
        | zero =>
            rw [List.getElem?_cons_zero] at hjob
            cases hjob
            rw [if_pos rfl, hid]
            exact List.mem_cons_self
        | succ index =>
            rw [List.getElem?_cons_succ] at hjob
            have hmem := ih.mpr ⟨index, (by omega : id = next + 1 + index), hjob⟩
            split
            · exact List.mem_cons_of_mem _ hmem
            · exact hmem

end

/-! ## The stages of a call -/

/-- How far the function of a call has come. -/
inductive Stage where
  | waiting
  | active
  | over
  deriving DecidableEq, Repr

namespace KeyedAsyncLock

variable {κ : Type*}

def stageOf (call : LockCall κ) : Stage :=
  match call.result with
  | .waiting => .waiting
  | .active => .active
  | .following _ | .settled _ => .over

/-- The key and the stage of a call. -/
def stage (lock : KeyedAsyncLock κ) (id : CallId) : Option (κ × Stage) :=
  (lock.calls id).map fun call => (call.key, stageOf call)

variable {lock after : KeyedAsyncLock κ} {id : CallId}

theorem stage_put (other : CallId) (call : LockCall κ) :
    (lock.put id call).stage other =
      if other = id then some (call.key, stageOf call) else lock.stage other := by
  by_cases h : other = id
  · subst h
    simp [stage, put]
  · simp [stage, put, h]

theorem start_some (h : lock.start id = some after) :
    ∃ call, lock.calls id = some call ∧ call.result = .waiting ∧
      lock.prevSettled call.prev = true ∧
      after = { lock.put id { call with result := .active } with starts := lock.starts ++ [id] } := by
  obtain ⟨call, hcall, h⟩ := Option.bind_eq_some_iff.mp h
  split at h
  · rename_i hready
    cases h
    exact ⟨call, hcall, hready.1, hready.2, rfl⟩
  · cases h

theorem ends_some {outcome : Outcome} (h : lock.ends id outcome = some after) :
    ∃ call, lock.calls id = some call ∧ call.result = .active ∧
      after = lock.put id { call with result := .following outcome, fnEnded := some outcome } := by
  obtain ⟨call, hcall, h⟩ := Option.bind_eq_some_iff.mp h
  split at h
  · rename_i hactive
    cases h
    exact ⟨call, hcall, hactive, rfl⟩
  · cases h

/-- A microtask takes no call from one stage to another. -/
structure Microtask (lock after : KeyedAsyncLock κ) : Prop where
  stage : after.stage = lock.stage
  starts : after.starts = lock.starts
  nextCall : after.nextCall = lock.nextCall

theorem microtask_put {call next : LockCall κ} (hcall : lock.calls id = some call)
    (hkey : next.key = call.key) (hstage : stageOf next = stageOf call) :
    (lock.put id next).stage = lock.stage := by
  funext other
  rw [stage_put]
  split
  · rename_i heq
    subst heq
    simp [stage, hcall, hkey, hstage]
  · rfl

theorem follow_microtask (h : lock.follow id = some after) : Microtask lock after := by
  obtain ⟨call, hcall, h⟩ := Option.bind_eq_some_iff.mp h
  split at h
  · rename_i outcome hresult
    cases h
    exact ⟨microtask_put hcall rfl (by simp [stageOf, hresult]), rfl, rfl⟩
  · cases h

theorem settleTail_microtask (h : lock.settleTail id = some after) : Microtask lock after := by
  obtain ⟨call, hcall, h⟩ := Option.bind_eq_some_iff.mp h
  split at h
  · cases h
    exact ⟨microtask_put hcall rfl rfl, rfl, rfl⟩
  · cases h

theorem cleanUp_microtask [DecidableEq κ] (h : lock.cleanUp id = some after) : Microtask lock after := by
  obtain ⟨call, hcall, h⟩ := Option.bind_eq_some_iff.mp h
  split at h
  · cases h
    exact ⟨microtask_put hcall rfl rfl, rfl, rfl⟩
  · cases h

theorem stage_run [DecidableEq κ] (key : κ) (other : CallId) :
    (lock.run key).stage other =
      if other = lock.nextCall then some (key, .waiting) else lock.stage other := by
  by_cases h : other = lock.nextCall
  · subst h
    simp [stage, run, put, stageOf]
  · simp [stage, run, put, h]

/-- The call at the head of its key: every earlier call of the key is over. -/
theorem Chained.over_before (h : Chained lock) {call : LockCall κ} (hcall : lock.calls id = some call)
    (hprev : lock.prevSettled call.prev = true) {earlier : CallId} (hlt : earlier < id)
    {stage : Stage} (hearlier : lock.stage earlier = some (call.key, stage)) : stage = .over := by
  obtain ⟨other, hother, heq⟩ := Option.map_eq_some_iff.mp hearlier
  obtain ⟨hkey, rfl⟩ := Prod.mk.inj heq
  have hsettled := h.settled_before hcall hprev hlt hother hkey
  obtain ⟨outcome, hresult⟩ := (h.calls earlier other hother).tail hsettled
  simp [stageOf, hresult]

/-- Before a call that has started, every call of its key is over. -/
theorem Chained.over_started (h : Chained lock) {key : κ} {first second : CallId}
    {before after : Stage} (hlt : first < second) (hfirst : lock.stage first = some (key, before))
    (hsecond : lock.stage second = some (key, after)) (hstarted : after ≠ .waiting) :
    before = .over := by
  obtain ⟨a, ha, hfirst⟩ := Option.map_eq_some_iff.mp hfirst
  obtain ⟨b, hb, hsecond⟩ := Option.map_eq_some_iff.mp hsecond
  obtain ⟨hkey, rfl⟩ := Prod.mk.inj hfirst
  obtain ⟨hkey', rfl⟩ := Prod.mk.inj hsecond
  have hresult : b.result ≠ .waiting := by
    intro hwaiting
    exact hstarted (by simp [stageOf, hwaiting])
  have hsettled := (h.calls second b hb).started hresult first a hlt ha (hkey.trans hkey'.symm)
  obtain ⟨outcome, hresult⟩ := (h.calls first a ha).tail hsettled
  simp [stageOf, hresult]

end KeyedAsyncLock

/-! ## What a step of the locked machine does -/

namespace LockedMachine

variable {Call : Type} {Answer : Call → Type} {Event Error κ Job σ : Type}

section

variable [DecidableEq κ] {design : Design Answer Event Error κ Job σ}
  {machine after : LockedMachine Answer Event Error κ Job σ} {id : CallId}

omit [DecidableEq κ] in
theorem start_some (h : machine.start design id = some after) :
    ∃ lock target, machine.lock.start id = some lock ∧ machine.arrivals[id]? = some target ∧
      after = { machine with
        lock := lock
        running := Function.update machine.running id
          (some (target.1, ⟨id, target.2, machine.state, [], [], design.program target.2⟩)) } := by
  obtain ⟨lock, hlock, h⟩ := Option.bind_eq_some_iff.mp h
  obtain ⟨target, htarget, rfl⟩ := Option.map_eq_some_iff.mp h
  exact ⟨lock, target, hlock, htarget, rfl⟩

theorem emit_some (h : machine.emit design id = some after) :
    ∃ lane running event rest, machine.running id = some (lane, running) ∧
      running.rest = .emit event rest ∧
      after = (design.react event).foldl submit { machine with
        running := Function.update machine.running id (some (lane, { running with
          entries := running.entries ++ [.emitted event]
          submitted := running.submitted ++
            List.range' machine.arrivals.length (design.react event).length
          rest := rest }))
        emitted := machine.emitted ++ [(lane, event)] } := by
  obtain ⟨⟨lane, running⟩, hrunning, h⟩ := Option.bind_eq_some_iff.mp h
  dsimp only at h
  split at h
  · rename_i event rest hemit
    exact ⟨lane, running, event, rest, hrunning, hemit, (Option.some.inj h).symm⟩
  · cases h

omit [DecidableEq κ] in
theorem reply_some [DecidableEq Call] {call : Call} {reply : Except Error (Answer call)}
    (h : machine.reply design id call reply = some after) :
    ∃ lane running resume state, machine.running id = some (lane, running) ∧
      running.rest = .await call resume ∧ design.handle machine.state call reply = some state ∧
      after = { machine with
        state := state
        running := Function.update machine.running id (some (lane, { running with
          entries := running.entries ++ [.called call reply]
          rest := resume reply })) } := by
  obtain ⟨⟨lane, running⟩, hrunning, h⟩ := Option.bind_eq_some_iff.mp h
  dsimp only at h
  split at h
  · rename_i awaited resume hawait
    split at h
    · rename_i heq
      subst heq
      obtain ⟨state, hstate, rfl⟩ := Option.map_eq_some_iff.mp h
      exact ⟨lane, running, resume, state, hrunning, hawait, hstate, rfl⟩
    · cases h
  · cases h

omit [DecidableEq κ] in
theorem finish_some (h : machine.finish id = some after) :
    ∃ lane running result lock, machine.running id = some (lane, running) ∧
      running.rest.result? = some result ∧
      machine.lock.ends id (outcomeOf result) = some lock ∧
      after = { machine with
        lock := lock
        running := Function.update machine.running id none
        ended := machine.ended ++ [(lane, ⟨running.id, running.job, running.before,
          running.entries, running.submitted, result, machine.state⟩)] } := by
  obtain ⟨⟨lane, running⟩, hrunning, h⟩ := Option.bind_eq_some_iff.mp h
  obtain ⟨result, hresult, h⟩ := Option.bind_eq_some_iff.mp h
  obtain ⟨lock, hlock, rfl⟩ := Option.map_eq_some_iff.mp h
  exact ⟨lane, running, result, lock, hrunning, hresult, hlock, rfl⟩

/-! ## The calls of the lock and the functions that run -/

/-- The machine and its lock agree on the calls and on which of their functions run. -/
structure Sound (machine : LockedMachine Answer Event Error κ Job σ) : Prop where
  chained : machine.lock.Chained
  nextCall : machine.lock.nextCall = machine.arrivals.length
  keys : ∀ id, (machine.lock.stage id).map Prod.fst = machine.arrivals[id]?.map Prod.fst
  running : ∀ id lane running, machine.running id = some (lane, running) →
    running.id = id ∧ machine.lock.stage id = some (lane, .active)

omit [DecidableEq κ] in
theorem Sound.stage_bound (h : Sound machine) {call : κ × Stage}
    (hstage : machine.lock.stage id = some call) : id < machine.arrivals.length := by
  obtain ⟨found, hfound, -⟩ := Option.map_eq_some_iff.mp hstage
  exact h.nextCall ▸ h.chained.lt_nextCall hfound

omit [DecidableEq κ] in
/-- A call that comes to another stage, and its function with it. -/
theorem Sound.update (h : Sound machine) {key : κ} {before stage : Stage}
    {function : Option (κ × Running Answer Event Error Job σ)}
    (hbefore : machine.lock.stage id = some (key, before)) (hchained : after.lock.Chained)
    (hnext : after.lock.nextCall = machine.lock.nextCall) (harrivals : after.arrivals = machine.arrivals)
    (hstage : ∀ other, after.lock.stage other =
      if other = id then some (key, stage) else machine.lock.stage other)
    (hrunning : after.running = Function.update machine.running id function)
    (hfunction : ∀ lane running, function = some (lane, running) →
      running.id = id ∧ key = lane ∧ stage = .active) : Sound after := by
  refine ⟨hchained, by rw [hnext, harrivals, h.nextCall], fun other => ?_, fun other lane running hother => ?_⟩
  · rw [hstage, harrivals, ← h.keys]
    split
    · rename_i heq
      rw [heq, hbefore]
      rfl
    · rfl
  · rw [hrunning] at hother
    rw [hstage]
    by_cases heq : other = id
    · subst heq
      rw [Function.update_self] at hother
      obtain ⟨hid, rfl, rfl⟩ := hfunction lane running hother
      exact ⟨hid, if_pos rfl⟩
    · rw [Function.update_of_ne heq] at hother
      rw [if_neg heq]
      exact h.running other lane running hother

theorem Sound.submit (h : Sound machine) (target : κ × Job) : Sound (machine.submit target) := by
  refine ⟨h.chained.run target.1, ?_, fun other => ?_, fun other lane running hother => ?_⟩
  · simp [LockedMachine.submit, KeyedAsyncLock.run, h.nextCall]
  · rw [LockedMachine.submit, KeyedAsyncLock.stage_run, h.nextCall]
    split
    · rename_i heq
      simp [heq]
    · rename_i hne
      rw [h.keys]
      rcases Nat.lt_or_gt_of_ne hne with hlt | hgt
      · rw [List.getElem?_append_left hlt]
      · rw [List.getElem?_eq_none (Nat.le_of_lt hgt), List.getElem?_eq_none]
        simp only [List.length_append, List.length_singleton]
        omega
  · obtain ⟨hid, hstage⟩ := h.running other lane running hother
    refine ⟨hid, ?_⟩
    have hbound := h.stage_bound hstage
    rw [LockedMachine.submit, KeyedAsyncLock.stage_run, h.nextCall, if_neg (Nat.ne_of_lt hbound)]
    exact hstage

theorem Sound.submits (h : Sound machine) (targets : List (κ × Job)) :
    Sound (targets.foldl LockedMachine.submit machine) := by
  induction targets generalizing machine with
  | nil => exact h
  | cons target targets ih => exact ih (h.submit target)

omit [DecidableEq κ] in
/-- A running function goes on. -/
theorem Sound.proceed (h : Sound machine) {lane : κ} {running next : Running Answer Event Error Job σ}
    (hrunning : machine.running id = some (lane, running)) (hlock : after.lock = machine.lock)
    (harrivals : after.arrivals = machine.arrivals)
    (hnext : after.running = Function.update machine.running id (some (lane, next)))
    (hid : next.id = running.id) : Sound after := by
  obtain ⟨hsame, hstage⟩ := h.running id lane running hrunning
  have hstages : ∀ other, after.lock.stage other =
      if other = id then some (lane, Stage.active) else machine.lock.stage other := by
    intro other
    rw [hlock]
    split
    · rename_i heq
      rw [heq, hstage]
    · rfl
  refine h.update hstage (hlock ▸ h.chained) (by rw [hlock]) harrivals hstages hnext
    fun target function heq => ?_
  cases heq
  exact ⟨hid.trans hsame, rfl, rfl⟩

omit [DecidableEq κ] in
theorem Sound.microtask (h : Sound machine) {lock : KeyedAsyncLock κ} (hchained : lock.Chained)
    (hmicrotask : KeyedAsyncLock.Microtask machine.lock lock) : Sound { machine with lock := lock } := by
  refine ⟨hchained, hmicrotask.nextCall.trans h.nextCall, fun other => ?_, fun other lane running hother => ?_⟩
  · rw [hmicrotask.stage]
    exact h.keys other
  · rw [hmicrotask.stage]
    exact h.running other lane running hother

theorem Sound.step [DecidableEq Call] {action : LockedAction Answer Error κ Job} (h : Sound machine)
    (hstep : machine.step design action = some after) : Sound after := by
  cases action with
  | submit lane job =>
      cases hstep
      exact h.submit (lane, job)
  | start id =>
      obtain ⟨lock, target, hlock, htarget, rfl⟩ := start_some hstep
      have hstarted : machine.lock.step (.start id) = some lock := hlock
      have hchained := h.chained.step hstarted
      obtain ⟨call, hcall, hwaiting, -, rfl⟩ := KeyedAsyncLock.start_some hlock
      have hstage : machine.lock.stage id = some (call.key, .waiting) := by
        simp [KeyedAsyncLock.stage, hcall, KeyedAsyncLock.stageOf, hwaiting]
      have hkey : call.key = target.1 := by
        have hkeys := h.keys id
        rw [hstage, htarget] at hkeys
        exact Option.some.inj hkeys
      refine h.update hstage hchained rfl rfl (fun other => KeyedAsyncLock.stage_put other _) rfl
        fun lane running heq => ?_
      cases heq
      exact ⟨rfl, hkey, rfl⟩
  | emit id =>
      obtain ⟨lane, running, event, rest, hrunning, -, rfl⟩ := emit_some hstep
      exact (h.proceed hrunning (by rfl) (by rfl) (by rfl) (by rfl)).submits _
  | reply id call reply =>
      obtain ⟨lane, running, resume, state, hrunning, -, -, rfl⟩ := reply_some hstep
      exact h.proceed hrunning (by rfl) (by rfl) (by rfl) (by rfl)
  | finish id =>
      obtain ⟨lane, running, result, lock, hrunning, -, hlock, rfl⟩ := finish_some hstep
      have hended : machine.lock.step (.ends id (outcomeOf result)) = some lock := hlock
      have hchained := h.chained.step hended
      obtain ⟨call, hcall, -, rfl⟩ := KeyedAsyncLock.ends_some hlock
      have hstage : machine.lock.stage id = some (call.key, KeyedAsyncLock.stageOf call) := by
        simp [KeyedAsyncLock.stage, hcall]
      exact h.update hstage hchained rfl rfl (fun other => KeyedAsyncLock.stage_put other _) rfl
        fun _ _ heq => (nomatch heq)
  | follow id =>
      obtain ⟨lock, hlock, rfl⟩ := Option.map_eq_some_iff.mp hstep
      have hlocked : machine.lock.step (.follow id) = some lock := hlock
      exact h.microtask (h.chained.step hlocked) (KeyedAsyncLock.follow_microtask hlock)
  | settleTail id =>
      obtain ⟨lock, hlock, rfl⟩ := Option.map_eq_some_iff.mp hstep
      have hlocked : machine.lock.step (.settleTail id) = some lock := hlock
      exact h.microtask (h.chained.step hlocked) (KeyedAsyncLock.settleTail_microtask hlock)
  | cleanUp id =>
      obtain ⟨lock, hlock, rfl⟩ := Option.map_eq_some_iff.mp hstep
      have hlocked : machine.lock.step (.cleanUp id) = some lock := hlock
      exact h.microtask (h.chained.step hlocked) (KeyedAsyncLock.cleanUp_microtask hlock)

omit [DecidableEq κ] in
theorem create_sound (state : σ) : Sound (create state : LockedMachine Answer Event Error κ Job σ) :=
  ⟨KeyedAsyncLock.create_chained, rfl, fun _ => rfl, fun _ _ _ h => (nomatch h)⟩

end

end LockedMachine

end VoiceOrder
