import VoiceOrder.Async.Program
import VoiceOrder.Shared.Runs
import Mathlib.Logic.Function.Basic

/-! # Lanes of programs on a shared state

Jobs are submitted to lanes. A lane runs its jobs one after the other, in the order in which
they were submitted; between two steps of one lane any step of another can happen. An event
has listeners, which submit further jobs. -/

namespace Async

open Runs

/-- The jobs of a machine and what they run on. -/
structure Design {Call : Type} (Answer : Call → Type) (Event Error κ Job σ : Type) where
  program : Job → Program Answer Event Error Unit
  handle : Handler Answer Error σ
  /-- The jobs that the listeners of an event submit. -/
  react : Event → List (κ × Job)

/-- How a program ended, if it did. -/
def Program.result? {Call : Type} {Answer : Call → Type} {Event Error α : Type} :
    Program Answer Event Error α → Option (Except Error α)
  | .done value => some (.ok value)
  | .throw error => some (.error error)
  | _ => none

section

variable {Call : Type} {Answer : Call → Type} {Event Error κ Job σ : Type}

/-- A job that a lane is running. -/
structure Running (Answer : Call → Type) (Event Error Job σ : Type) where
  id : ℕ
  job : Job
  /-- The state when the job began. -/
  before : σ
  entries : List (Entry Answer Event Error)
  /-- The jobs submitted by the listeners of its events so far. -/
  submitted : List ℕ
  rest : Program Answer Event Error Unit

/-- A job that has run to its end. -/
structure Finished (Answer : Call → Type) (Event Error Job σ : Type) where
  id : ℕ
  job : Job
  before : σ
  entries : List (Entry Answer Event Error)
  submitted : List ℕ
  result : Except Error Unit
  after : σ

structure Lane (Answer : Call → Type) (Event Error Job σ : Type) where
  queue : List (ℕ × Job)
  running : Option (Running Answer Event Error Job σ)
  history : List (Finished Answer Event Error Job σ)

/-- A lane with further jobs at the end of its queue. -/
def Lane.enqueue (jobs : List (ℕ × Job)) (content : Lane Answer Event Error Job σ) :
    Lane Answer Event Error Job σ :=
  { content with queue := content.queue ++ jobs }

/-- All that the jobs of a lane have done, in order. -/
def Lane.entries (content : Lane Answer Event Error Job σ) : List (Entry Answer Event Error) :=
  content.history.flatMap Finished.entries ++
    (content.running.map Running.entries).getD []

structure Machine (Answer : Call → Type) (Event Error κ Job σ : Type) where
  state : σ
  lanes : κ → Lane Answer Event Error Job σ
  /-- The number of jobs submitted so far. -/
  nextJob : ℕ

inductive LaneAction (Answer : Call → Type) (Error κ Job : Type) where
  | submit (lane : κ) (job : Job)
  | begin (lane : κ)
  | emit (lane : κ)
  /-- The call that the lane awaits gets its reply. -/
  | reply (lane : κ) (call : Call) (reply : Except Error (Answer call))
  | finish (lane : κ)

namespace Machine

variable [DecidableEq κ]

def create (state : σ) : Machine Answer Event Error κ Job σ where
  state := state
  lanes := fun _ => ⟨[], none, []⟩
  nextJob := 0

def put (lane : κ) (content : Lane Answer Event Error Job σ)
    (machine : Machine Answer Event Error κ Job σ) : Machine Answer Event Error κ Job σ :=
  { machine with lanes := Function.update machine.lanes lane content }

def submit (machine : Machine Answer Event Error κ Job σ) (target : κ × Job) :
    Machine Answer Event Error κ Job σ :=
  { machine.put target.1 ((machine.lanes target.1).enqueue [(machine.nextJob, target.2)]) with
    nextJob := machine.nextJob + 1 }

/-- Take the next job of a lane that runs none. -/
def begin (design : Design Answer Event Error κ Job σ) (lane : κ)
    (machine : Machine Answer Event Error κ Job σ) : Option (Machine Answer Event Error κ Job σ) :=
  let content := machine.lanes lane
  match content.running, content.queue with
  | none, (id, job) :: queue =>
      some (machine.put lane
        { content with
          queue := queue
          running := some ⟨id, job, machine.state, [], [], design.program job⟩ })
  | _, _ => none

/-- Emit the next event; its listeners run at once. -/
def emit (design : Design Answer Event Error κ Job σ) (lane : κ)
    (machine : Machine Answer Event Error κ Job σ) : Option (Machine Answer Event Error κ Job σ) :=
  let content := machine.lanes lane
  content.running.bind fun running =>
    match running.rest with
    | .emit event rest =>
        let jobs := design.react event
        some (jobs.foldl submit (machine.put lane
          { content with
            running := some { running with
              entries := running.entries ++ [.emitted event]
              submitted := running.submitted ++ List.range' machine.nextJob jobs.length
              rest := rest } }))
    | _ => none

def reply [DecidableEq Call] (design : Design Answer Event Error κ Job σ) (lane : κ) (call : Call)
    (reply : Except Error (Answer call)) (machine : Machine Answer Event Error κ Job σ) :
    Option (Machine Answer Event Error κ Job σ) :=
  let content := machine.lanes lane
  content.running.bind fun running =>
    match running.rest with
    | .await awaited resume =>
        if h : call = awaited then
          (design.handle machine.state call reply).map fun state =>
            { machine.put lane
              { content with
                running := some { running with
                  entries := running.entries ++ [.called call reply]
                  rest := resume (h ▸ reply) } } with
              state := state }
        else none
    | _ => none

/-- The job has ended, with a value or by throwing; the lane is free again either way. -/
def finish (lane : κ) (machine : Machine Answer Event Error κ Job σ) :
    Option (Machine Answer Event Error κ Job σ) :=
  let content := machine.lanes lane
  content.running.bind fun running =>
    running.rest.result?.map fun result =>
      machine.put lane
        { content with
          running := none
          history := content.history ++ [⟨running.id, running.job, running.before,
            running.entries, running.submitted, result, machine.state⟩] }

def step [DecidableEq Call] (design : Design Answer Event Error κ Job σ)
    (machine : Machine Answer Event Error κ Job σ) :
    LaneAction Answer Error κ Job → Option (Machine Answer Event Error κ Job σ)
  | .submit lane job => some (machine.submit (lane, job))
  | .begin lane => machine.begin design lane
  | .emit lane => machine.emit design lane
  | .reply lane call reply => machine.reply design lane call reply
  | .finish lane => machine.finish lane

/-! ## Submissions -/

/-- Those of a list of submissions that go to a lane, under the ids they get. -/
def arrivals (lane : κ) : ℕ → List (κ × Job) → List (ℕ × Job)
  | _, [] => []
  | next, target :: targets =>
      if target.1 = lane then (next, target.2) :: arrivals lane (next + 1) targets
      else arrivals lane (next + 1) targets

theorem mem_arrivals {lane : κ} {next : ℕ} {targets : List (κ × Job)} {entry : ℕ × Job}
    (h : entry ∈ arrivals lane next targets) : (lane, entry.2) ∈ targets := by
  induction targets generalizing next with
  | nil => cases h
  | cons target targets ih =>
      unfold arrivals at h
      split at h
      · rename_i hlane
        rcases List.mem_cons.mp h with rfl | hrest
        · exact hlane ▸ List.mem_cons_self
        · exact List.mem_cons_of_mem _ (ih hrest)
      · exact List.mem_cons_of_mem _ (ih h)

section

variable (targets : List (κ × Job)) (machine : Machine Answer Event Error κ Job σ) (lane : κ)

theorem submit_lanes (target : κ × Job) :
    (machine.submit target).lanes lane =
      (machine.lanes lane).enqueue (arrivals lane machine.nextJob [target]) := by
  by_cases h : target.1 = lane
  · subst h
    simp [submit, put, arrivals]
  · simp [submit, put, arrivals, h, Ne.symm h, Lane.enqueue]

theorem foldl_submit_state : (targets.foldl submit machine).state = machine.state := by
  induction targets generalizing machine with
  | nil => rfl
  | cons target targets ih => exact ih (machine.submit target)

theorem foldl_submit_lanes :
    (targets.foldl submit machine).lanes lane =
      (machine.lanes lane).enqueue (arrivals lane machine.nextJob targets) := by
  induction targets generalizing machine with
  | nil => simp [arrivals, Lane.enqueue]
  | cons target targets ih =>
      rw [List.foldl_cons, ih, submit_lanes]
      simp only [Lane.enqueue, arrivals, List.append_assoc]
      by_cases h : target.1 = lane <;> simp [h, submit, put]

end

/-! ## What a step does -/

variable {design : Design Answer Event Error κ Job σ} {machine after : Machine Answer Event Error κ Job σ}
  {lane : κ}

/-- What new content has in common with the old holds of every lane. -/
theorem put_keeps {β : Type} (f : Lane Answer Event Error Job σ → β)
    {content : Lane Answer Event Error Job σ} (h : f content = f (machine.lanes lane)) (other : κ) :
    f ((machine.put lane content).lanes other) = f (machine.lanes other) := by
  by_cases heq : other = lane
  · subst heq
    simpa [put] using h
  · simp [put, heq]

theorem begin_some (h : machine.begin design lane = some after) :
    ∃ id job queue, (machine.lanes lane).running = none ∧
      (machine.lanes lane).queue = (id, job) :: queue ∧
      after = machine.put lane { machine.lanes lane with
        queue := queue
        running := some ⟨id, job, machine.state, [], [], design.program job⟩ } := by
  unfold begin at h
  dsimp only at h
  split at h
  · rename_i id job queue hidle hqueue
    exact ⟨id, job, queue, hidle, hqueue, (Option.some.inj h).symm⟩
  · cases h

theorem emit_some (h : machine.emit design lane = some after) :
    ∃ running event rest, (machine.lanes lane).running = some running ∧
      running.rest = .emit event rest ∧
      after = (design.react event).foldl submit (machine.put lane { machine.lanes lane with
        running := some { running with
          entries := running.entries ++ [.emitted event]
          submitted := running.submitted ++
            List.range' machine.nextJob (design.react event).length
          rest := rest } }) := by
  obtain ⟨running, hrunning, h⟩ := Option.bind_eq_some_iff.mp h
  split at h
  · rename_i event rest hemit
    exact ⟨running, event, rest, hrunning, hemit, (Option.some.inj h).symm⟩
  · cases h

theorem reply_some [DecidableEq Call] {call : Call} {reply : Except Error (Answer call)}
    (h : machine.reply design lane call reply = some after) :
    ∃ running resume, (machine.lanes lane).running = some running ∧
      running.rest = .await call resume ∧
      design.handle machine.state call reply = some after.state ∧
      after = { machine.put lane { machine.lanes lane with
        running := some { running with
          entries := running.entries ++ [.called call reply]
          rest := resume reply } } with state := after.state } := by
  obtain ⟨running, hrunning, h⟩ := Option.bind_eq_some_iff.mp h
  split at h
  · rename_i awaited resume hawait
    split at h
    · rename_i heq
      subst heq
      obtain ⟨next, hnext, rfl⟩ := Option.map_eq_some_iff.mp h
      exact ⟨running, resume, hrunning, hawait, hnext, rfl⟩
    · cases h
  · cases h

/-- What a reply to a lane's job does to the lane. -/
theorem reply_lane [DecidableEq Call] {call : Call} {reply : Except Error (Answer call)}
    (h : machine.reply design lane call reply = some after) :
    ∃ running resume, (machine.lanes lane).running = some running ∧
      running.rest = .await call resume ∧ after.lanes lane = { machine.lanes lane with
        running := some { running with
          entries := running.entries ++ [.called call reply]
          rest := resume reply } } := by
  obtain ⟨running, resume, hrunning, hawait, -, hafter⟩ := reply_some h
  refine ⟨running, resume, hrunning, hawait, ?_⟩
  rw [hafter]
  exact Function.update_self ..

theorem finish_some (h : machine.finish lane = some after) :
    ∃ running result, (machine.lanes lane).running = some running ∧
      running.rest.result? = some result ∧
      after = machine.put lane { machine.lanes lane with
        running := none
        history := (machine.lanes lane).history ++ [⟨running.id, running.job, running.before,
          running.entries, running.submitted, result, machine.state⟩] } := by
  obtain ⟨running, hrunning, h⟩ := Option.bind_eq_some_iff.mp h
  obtain ⟨result, hresult, rfl⟩ := Option.map_eq_some_iff.mp h
  exact ⟨running, result, hrunning, hresult, rfl⟩

/-- The entries that an action adds to a lane. -/
inductive Adds (lane : κ) : LaneAction Answer Error κ Job → List (Entry Answer Event Error) → Prop where
  | called (call : Call) (reply : Except Error (Answer call)) :
      Adds lane (.reply lane call reply) [.called call reply]
  | emitted (event : Event) : Adds lane (.emit lane) [.emitted event]
  | nothing {action : LaneAction Answer Error κ Job}
      (h : ∀ call reply, action ≠ .reply lane call reply) : Adds lane action []

theorem step_adds [DecidableEq Call] {action : LaneAction Answer Error κ Job}
    (h : machine.step design action = some after) (lane : κ) :
    ∃ later, Adds lane action later ∧
      (after.lanes lane).entries = (machine.lanes lane).entries ++ later := by
  have hqueue : ∀ (content : Lane Answer Event Error Job σ) jobs,
      (content.enqueue jobs).entries = content.entries := fun _ _ => rfl
  cases action with
  | submit target job =>
      cases h
      exact ⟨[], .nothing fun _ _ heq => (nomatch heq), by
        rw [submit_lanes, hqueue, List.append_nil]⟩
  | begin target =>
      obtain ⟨id, job, queue, hidle, -, rfl⟩ := begin_some h
      refine ⟨[], .nothing fun _ _ heq => (nomatch heq), ?_⟩
      by_cases heq : lane = target
      · subst heq
        simp [put, Lane.entries, hidle]
      · simp [put, heq]
  | emit target =>
      obtain ⟨running, event, rest, hrunning, -, rfl⟩ := emit_some h
      rw [foldl_submit_lanes, hqueue]
      by_cases heq : lane = target
      · subst heq
        exact ⟨_, .emitted event, by simp [put, Lane.entries, hrunning]⟩
      · exact ⟨[], .nothing fun _ _ heq => (nomatch heq), by simp [put, heq]⟩
  | reply target call reply =>
      obtain ⟨running, resume, hrunning, -, -, hafter⟩ := reply_some h
      rw [hafter]
      by_cases heq : lane = target
      · subst heq
        exact ⟨_, .called call reply, by simp [put, Lane.entries, hrunning]⟩
      · refine ⟨[], .nothing fun _ _ hreply => heq ?_, by simp [put, heq]⟩
        cases hreply
        rfl
  | finish target =>
      obtain ⟨running, result, hrunning, -, rfl⟩ := finish_some h
      refine ⟨[], .nothing fun _ _ heq => (nomatch heq), ?_⟩
      by_cases heq : lane = target
      · subst heq
        simp [put, Lane.entries, hrunning]
      · simp [put, heq]

/-- A lane's history grows by the jobs that end, each with the state at its end. -/
theorem step_history [DecidableEq Call] {action : LaneAction Answer Error κ Job}
    (h : machine.step design action = some after) (lane : κ) :
    ∃ ended : List (Finished Answer Event Error Job σ),
      (after.lanes lane).history = (machine.lanes lane).history ++ ended ∧
        ∀ job ∈ ended, job.after = machine.state ∧ after.state = machine.state := by
  have hnone : ∀ {other : Lane Answer Event Error Job σ},
      other.history = (machine.lanes lane).history →
      ∃ ended : List (Finished Answer Event Error Job σ),
        other.history = (machine.lanes lane).history ++ ended ∧
          ∀ job ∈ ended, job.after = machine.state ∧ after.state = machine.state :=
    fun hsame => ⟨[], by rw [hsame, List.append_nil], fun _ hmem => (nomatch hmem)⟩
  cases action with
  | submit target job =>
      cases h
      exact hnone (by rw [submit_lanes]; rfl)
  | begin target =>
      obtain ⟨id, job, queue, -, -, rfl⟩ := begin_some h
      exact hnone (put_keeps Lane.history (by rfl) lane)
  | emit target =>
      obtain ⟨running, event, rest, -, -, rfl⟩ := emit_some h
      refine hnone ?_
      rw [foldl_submit_lanes]
      exact put_keeps Lane.history (by rfl) lane
  | reply target call reply =>
      obtain ⟨running, resume, -, -, -, hafter⟩ := reply_some h
      refine hnone ?_
      rw [hafter]
      exact put_keeps Lane.history (by rfl) lane
  | finish target =>
      obtain ⟨running, result, -, -, rfl⟩ := finish_some h
      by_cases heq : lane = target
      · subst heq
        refine ⟨_, by simp only [put, Function.update_self]; rfl, fun job hmem => ?_⟩
        cases List.mem_singleton.mp hmem
        exact ⟨rfl, rfl⟩
      · exact hnone (by simp [put, heq])

/-- Only replies change the state. -/
theorem step_state [DecidableEq Call] {action : LaneAction Answer Error κ Job}
    (h : machine.step design action = some after)
    (haction : ∀ lane call reply, action ≠ .reply lane call reply) : after.state = machine.state := by
  cases action with
  | submit target job =>
      cases h
      rfl
  | begin target =>
      obtain ⟨id, job, queue, -, -, rfl⟩ := begin_some h
      rfl
  | emit target =>
      obtain ⟨running, event, rest, -, -, rfl⟩ := emit_some h
      exact foldl_submit_state _ _
  | reply target call reply => exact (haction _ _ _ rfl).elim
  | finish target =>
      obtain ⟨running, result, -, -, rfl⟩ := finish_some h
      rfl

end Machine

end

end Async
