import VoiceOrder.Async.Delivery
import VoiceOrder.Async.Serial

/-! # The events of a run, in the order in which they are emitted -/

namespace Async

open Runs

variable {Call : Type} {Answer : Call → Type} {Event Error κ Job σ V : Type}

/-- What a lane has published. -/
def Lane.published (content : Lane Answer Event Error Job σ) : List Event :=
  content.entries.filterMap Entry.event?

/-- The jobs that a lane has begun, each with what it has done. -/
def Lane.attempts (content : Lane Answer Event Error Job σ) :
    List (Job × List (Entry Answer Event Error)) :=
  content.history.map (fun job => (job.job, job.entries)) ++
    (content.running.map fun running => (running.job, running.entries)).toList

theorem Lane.begun_attempts (content : Lane Answer Event Error Job σ) :
    content.begun.map Prod.snd = content.attempts.map Prod.fst := by
  cases h : content.running with
  | none => simp [begun, attempts, h]
  | some running => simp [begun, attempts, h]

theorem Lane.published_attempts (content : Lane Answer Event Error Job σ) :
    content.published = content.attempts.flatMap fun attempt => attempt.2.filterMap Entry.event? := by
  cases h : content.running with
  | none => simp [published, entries, attempts, h, List.filterMap_flatMap, List.flatMap_map]
  | some running => simp [published, entries, attempts, h, List.filterMap_flatMap, List.flatMap_map]

/-- What a lane has begun fits it, and has done what its program does. -/
theorem Serial.attempts {design : Design Answer Event Error κ Job σ}
    {iso : Isolation Answer Event Error κ Job σ V} {lane : κ} {start : V} {state : σ}
    {content : Lane Answer Event Error Job σ} (h : Serial design iso lane start state content) :
    ∀ attempt ∈ content.attempts, iso.fits lane attempt.1 ∧ ∃ before last after,
      Executes (iso.handle lane) (design.program attempt.1) before attempt.2 last after := by
  intro attempt hmem
  rcases List.mem_append.mp hmem with hended | hrunning
  · obtain ⟨job, hjob, rfl⟩ := List.mem_map.mp hended
    obtain ⟨view, hchain⟩ := h.chain
    obtain ⟨earlier, later, heq⟩ := List.append_of_mem hjob
    obtain ⟨-, hfits, -, last, -, hexec⟩ := hchain.at heq
    exact ⟨hfits, _, last, _, hexec⟩
  · obtain ⟨running, hfound, rfl⟩ := Option.map_eq_some_iff.mp (Option.mem_toList.mp hrunning)
    obtain ⟨hfits, -, -, hexec⟩ := h.busy running hfound
    exact ⟨hfits, _, _, _, hexec⟩

namespace Machine

/-- The event that an action emits, and the lane it comes from. -/
def emitted? (machine : Machine Answer Event Error κ Job σ) :
    LaneAction Answer Error κ Job → Option (κ × Event)
  | .emit lane => (machine.lanes lane).running.bind fun running =>
      match running.rest with
      | .emit event _ => some (lane, event)
      | _ => none
  | _ => none

theorem emitted?_emit {machine : Machine Answer Event Error κ Job σ} {lane : κ}
    {running : Running Answer Event Error Job σ} {event : Event}
    {rest : Program Answer Event Error Unit} (hrunning : (machine.lanes lane).running = some running)
    (hemit : running.rest = .emit event rest) : machine.emitted? (.emit lane) = some (lane, event) := by
  simp [emitted?, hrunning, hemit]

theorem emitted?_some {machine : Machine Answer Event Error κ Job σ}
    {action : LaneAction Answer Error κ Job} {lane : κ} {event : Event}
    (h : machine.emitted? action = some (lane, event)) :
    ∃ running rest, (machine.lanes lane).running = some running ∧ running.rest = .emit event rest := by
  cases action with
  | emit target =>
      obtain ⟨running, hrunning, hnext⟩ := Option.bind_eq_some_iff.mp h
      cases hrest : running.rest with
      | emit other rest =>
          rw [hrest] at hnext
          cases hnext
          exact ⟨running, rest, hrunning, hrest⟩
      | done | throw | await =>
          rw [hrest] at hnext
          cases hnext
  | submit | begin | reply | finish => cases h

/-- The job that emits an event, and its execution with the event. -/
theorem emitting {design : Design Answer Event Error κ Job σ}
    {iso : Isolation Answer Event Error κ Job σ V} {machine : Machine Answer Event Error κ Job σ}
    {lane : κ} {start : V} (h : Serial design iso lane start machine.state (machine.lanes lane))
    {action : LaneAction Answer Error κ Job} {event : Event}
    (hemitted : machine.emitted? action = some (lane, event)) :
    ∃ running rest, (machine.lanes lane).running = some running ∧ iso.fits lane running.job ∧
      iso.rest lane (iso.view lane running.before) ∧
      Executes (iso.handle lane) (design.program running.job) (iso.view lane running.before)
        (running.entries ++ [.emitted event]) rest (iso.view lane machine.state) := by
  obtain ⟨running, rest, hrunning, hemit⟩ := emitted?_some hemitted
  obtain ⟨hfits, -, hrest, hexec⟩ := h.busy running hrunning
  rw [hemit] at hexec
  exact ⟨running, rest, hrunning, hfits, hrest, hexec.trans (.emit (.here _ _))⟩

variable [DecidableEq κ] [DecidableEq Call]

/-- The events that a list of actions emits, in order. -/
def emissions (design : Design Answer Event Error κ Job σ) :
    Machine Answer Event Error κ Job σ → List (LaneAction Answer Error κ Job) → List (κ × Event)
  | _, [] => []
  | machine, action :: actions =>
      match machine.step design action with
      | none => []
      | some next => (machine.emitted? action).toList ++ emissions design next actions

/-- Those of a list of events that come from a lane. -/
def fromLane (lane : κ) (events : List (κ × Event)) : List Event :=
  (events.filter fun entry => entry.1 = lane).map Prod.snd

omit [DecidableEq Call] in
@[simp] theorem fromLane_append (lane : κ) (events later : List (κ × Event)) :
    fromLane lane (events ++ later) = fromLane lane events ++ fromLane lane later := by
  simp [fromLane]

variable {design : Design Answer Event Error κ Job σ}
  {machine after last : Machine Answer Event Error κ Job σ} {action : LaneAction Answer Error κ Job}

/-- An event that is emitted is added to what its lane has published. -/
theorem step_published (h : machine.step design action = some after) (lane : κ) :
    (after.lanes lane).published =
      (machine.lanes lane).published ++ fromLane lane (machine.emitted? action).toList := by
  have hqueue : ∀ (content : Lane Answer Event Error Job σ) jobs,
      (content.enqueue jobs).published = content.published := fun _ _ => rfl
  cases action with
  | submit target job =>
      cases h
      rw [submit_lanes, hqueue]
      exact (List.append_nil _).symm
  | begin target =>
      obtain ⟨id, job, queue, hidle, -, rfl⟩ := begin_some h
      refine (put_keeps Lane.published ?_ lane).trans (List.append_nil _).symm
      simp [Lane.published, Lane.entries, hidle]
  | emit target =>
      obtain ⟨running, event, rest, hrunning, hemit, rfl⟩ := emit_some h
      rw [foldl_submit_lanes, hqueue, emitted?_emit hrunning hemit]
      by_cases heq : lane = target
      · subst heq
        simp [put, Lane.published, Lane.entries, hrunning, fromLane, Entry.event?]
      · simp [put, heq, fromLane, Ne.symm heq]
  | reply target call reply =>
      obtain ⟨running, resume, hrunning, -, -, hafter⟩ := reply_some h
      rw [hafter]
      refine (put_keeps Lane.published ?_ lane).trans (List.append_nil _).symm
      simp [Lane.published, Lane.entries, hrunning, Entry.event?]
  | finish target =>
      obtain ⟨running, result, hrunning, -, rfl⟩ := finish_some h
      refine (put_keeps Lane.published ?_ lane).trans (List.append_nil _).symm
      simp [Lane.published, Lane.entries, hrunning]

/-- Without a submission from outside, what is queued comes from the listeners. -/
theorem step_reacts (h : machine.step design action = some after)
    (hinside : ∀ lane job, action ≠ .submit lane job) (lane : κ) :
    (after.lanes lane).jobs = (machine.lanes lane).jobs ++ arrivals lane machine.nextJob
      ((machine.emitted? action).elim [] fun entry => design.react entry.2) := by
  cases action with
  | submit target job => exact absurd rfl (hinside target job)
  | begin target =>
      obtain ⟨id, job, queue, hidle, hqueue, rfl⟩ := begin_some h
      refine (put_keeps Lane.jobs ?_ lane).trans (List.append_nil _).symm
      simp [Lane.jobs, Lane.pending, hidle, hqueue]
  | emit target =>
      obtain ⟨running, event, rest, hrunning, hemit, rfl⟩ := emit_some h
      rw [foldl_submit_lanes, Lane.jobs_enqueue, emitted?_emit hrunning hemit]
      refine congrArg (· ++ _) (put_keeps Lane.jobs ?_ lane)
      simp [Lane.jobs, Lane.pending, hrunning]
  | reply target call reply =>
      obtain ⟨running, resume, hrunning, -, -, hafter⟩ := reply_some h
      rw [hafter]
      refine (put_keeps Lane.jobs ?_ lane).trans (List.append_nil _).symm
      simp [Lane.jobs, Lane.pending, hrunning]
  | finish target =>
      obtain ⟨running, result, hrunning, -, rfl⟩ := finish_some h
      refine (put_keeps Lane.jobs ?_ lane).trans (List.append_nil _).symm
      simp [Lane.jobs, Lane.pending, hrunning]

variable {meets : Machine Answer Event Error κ Job σ → LaneAction Answer Error κ Job → Prop}
  {actions : List (LaneAction Answer Error κ Job)}

/-- What a lane publishes in a run are the events of the run that come from it. -/
theorem run_published (h : Run (Machine.step design) meets machine actions last) (lane : κ) :
    (last.lanes lane).published =
      (machine.lanes lane).published ++ fromLane lane (emissions design machine actions) := by
  induction h with
  | nil => exact (List.append_nil _).symm
  | cons _ hstep _ ih =>
      rw [ih, step_published hstep, emissions, hstep, fromLane_append, List.append_assoc]

/-- The events of a run that goes on. -/
theorem emissions_append (h : Run (Machine.step design) meets machine actions last)
    (later : List (LaneAction Answer Error κ Job)) :
    emissions design machine (actions ++ later) =
      emissions design machine actions ++ emissions design last later := by
  induction h with
  | nil => rfl
  | cons _ hstep _ ih =>
      simp only [List.cons_append, emissions, hstep, ih, List.append_assoc]

/-- What holds of every event when it is emitted holds of the events of a run. -/
theorem run_emissions {Inv : Machine Answer Event Error κ Job σ → Prop} {holds : κ × Event → Prop}
    (h : Run (Machine.step design) meets machine actions last) (hinit : Inv machine)
    (hkeep : ∀ machine action next, Inv machine → meets machine action →
      machine.step design action = some next → Inv next ∧ ∀ entry ∈ machine.emitted? action, holds entry) :
    ∀ entry ∈ emissions design machine actions, holds entry := by
  induction h with
  | nil => exact fun _ hmem => (nomatch hmem)
  | cons hmeets hstep _ ih =>
      obtain ⟨hnext, hholds⟩ := hkeep _ _ _ hinit hmeets hstep
      intro entry hmem
      rw [emissions, hstep] at hmem
      rcases List.mem_append.mp hmem with hnow | hlater
      · exact hholds entry (Option.mem_toList.mp hnow)
      · exact ih hnext entry hlater

end Machine

end Async
