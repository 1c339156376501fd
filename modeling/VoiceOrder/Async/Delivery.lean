import VoiceOrder.Async.Lanes
import Mathlib.Data.List.Forall2
import Mathlib.Data.List.Pairwise

/-! # Jobs are neither lost nor duplicated

A job that was submitted to a lane is waiting in its queue, is running, or has run, and never
two of these. The jobs of a lane are taken in the order of their ids. -/

namespace Async

open Runs Machine

variable {Call : Type} {Answer : Call → Type} {Event Error κ Job σ : Type}

/-- The jobs of a lane that have not run to their end. -/
def Lane.pending (content : Lane Answer Event Error Job σ) : List (ℕ × Job) :=
  (content.running.map fun running => (running.id, running.job)).toList ++ content.queue

/-- All jobs of a lane, under the ids they were submitted with. -/
def Lane.jobs (content : Lane Answer Event Error Job σ) : List (ℕ × Job) :=
  content.history.map (fun job => (job.id, job.job)) ++ content.pending

/-- The jobs that a lane has begun, in order. -/
def Lane.begun (content : Lane Answer Event Error Job σ) : List (ℕ × Job) :=
  content.history.map (fun job => (job.id, job.job)) ++
    (content.running.map fun running => (running.id, running.job)).toList

theorem Lane.jobs_begun (content : Lane Answer Event Error Job σ) :
    content.jobs = content.begun ++ content.queue := by
  simp [jobs, pending, begun]

@[simp] theorem Lane.jobs_enqueue (content : Lane Answer Event Error Job σ) (jobs : List (ℕ × Job)) :
    (content.enqueue jobs).jobs = content.jobs ++ jobs := by
  simp [Lane.jobs, pending, enqueue]

/-! ## Ids -/

section

variable [DecidableEq κ] {lane : κ} {next : ℕ} {targets : List (κ × Job)}

theorem arrivals_bounds {entry : ℕ × Job} (h : entry ∈ arrivals lane next targets) :
    next ≤ entry.1 ∧ entry.1 < next + targets.length := by
  induction targets generalizing next with
  | nil => cases h
  | cons target targets ih =>
      have hrest : entry ∈ arrivals lane (next + 1) targets →
          next ≤ entry.1 ∧ entry.1 < next + (target :: targets).length := fun hmem => by
        have := ih hmem
        simp only [List.length_cons]
        omega
      unfold arrivals at h
      split at h
      · rcases List.mem_cons.mp h with rfl | hmem
        · exact ⟨Nat.le_refl _, by simp⟩
        · exact hrest hmem
      · exact hrest h

theorem arrivals_sorted : ((arrivals lane next targets).map Prod.fst).Pairwise (· < ·) := by
  induction targets generalizing next with
  | nil => exact .nil
  | cons target targets ih =>
      unfold arrivals
      split
      · refine List.pairwise_cons.mpr ⟨fun id hmem => ?_, ih⟩
        obtain ⟨entry, hentry, rfl⟩ := List.mem_map.mp hmem
        have := arrivals_bounds hentry
        omega
      · exact ih

/-- Each submission arrives in its lane under its own id. -/
theorem arrivals_all :
    List.Forall₂ (fun id target => (id, target.2) ∈ arrivals target.1 next targets)
      (List.range' next targets.length) targets := by
  induction targets generalizing next with
  | nil => exact .nil
  | cons target targets ih =>
      refine .cons (by simp [arrivals]) (ih.imp fun id other hmem => ?_)
      unfold arrivals
      split
      · exact List.mem_cons_of_mem _ hmem
      · exact hmem

/-- The ids of a lane grow, and are below those that are still to come. -/
structure Numbered (next : ℕ) (content : Lane Answer Event Error Job σ) : Prop where
  sorted : (content.jobs.map Prod.fst).Pairwise (· < ·)
  below : ∀ entry ∈ content.jobs, entry.1 < next

theorem Numbered.step {content after : Lane Answer Event Error Job σ} (h : Numbered next content)
    (hjobs : after.jobs = content.jobs ++ arrivals lane next targets) :
    Numbered (next + targets.length) after := by
  refine ⟨?_, fun entry hmem => ?_⟩
  · rw [hjobs, List.map_append]
    refine List.pairwise_append.mpr ⟨h.sorted, arrivals_sorted, fun old hold new hnew => ?_⟩
    obtain ⟨first, hfirst, rfl⟩ := List.mem_map.mp hold
    obtain ⟨second, hsecond, rfl⟩ := List.mem_map.mp hnew
    exact Nat.lt_of_lt_of_le (h.below first hfirst) (arrivals_bounds hsecond).1
  · rw [hjobs] at hmem
    rcases List.mem_append.mp hmem with hold | hnew
    · exact Nat.lt_of_lt_of_le (h.below entry hold) (Nat.le_add_right _ _)
    · exact (arrivals_bounds hnew).2

/-- A job that has run is pending no more. -/
theorem Numbered.ended {content : Lane Answer Event Error Job σ} (h : Numbered next content)
    {job : Finished Answer Event Error Job σ} (hjob : job ∈ content.history) {entry : ℕ × Job}
    (hentry : entry ∈ content.pending) : entry.1 ≠ job.id := by
  have hsorted := h.sorted
  rw [Lane.jobs, List.map_append] at hsorted
  have hbefore := (List.pairwise_append.mp hsorted).2.2 job.id
    (by simpa using ⟨job, hjob, rfl⟩) entry.1 (List.mem_map_of_mem hentry)
  omega

end

/-! ## What listeners submit -/

/-- The jobs that the listeners of the events of a job submit. -/
def Design.reactions (design : Design Answer Event Error κ Job σ)
    (entries : List (Entry Answer Event Error)) : List (κ × Job) :=
  (entries.filterMap Entry.event?).flatMap design.react

@[simp] theorem Design.reactions_called (design : Design Answer Event Error κ Job σ)
    (entries : List (Entry Answer Event Error)) (call : Call) (reply : Except Error (Answer call)) :
    design.reactions (entries ++ [.called call reply]) = design.reactions entries := by
  simp only [reactions, List.filterMap_append, List.flatMap_append]
  exact List.append_nil _

@[simp] theorem Design.reactions_emitted (design : Design Answer Event Error κ Job σ)
    (entries : List (Entry Answer Event Error)) (event : Event) :
    design.reactions (entries ++ [.emitted event]) =
      design.reactions entries ++ design.react event := by
  simp only [reactions, List.filterMap_append, List.flatMap_append]
  exact congrArg (_ ++ ·) (List.append_nil _)

/-- The submissions of a job are in their lanes, each under the id that it got. -/
def Placed (design : Design Answer Event Error κ Job σ)
    (machine : Machine Answer Event Error κ Job σ) (entries : List (Entry Answer Event Error))
    (submitted : List ℕ) : Prop :=
  List.Forall₂ (fun id target => (id, target.2) ∈ (machine.lanes target.1).jobs) submitted
    (design.reactions entries)

/-- Every submission of a lane's jobs is placed. -/
structure Delivers (design : Design Answer Event Error κ Job σ)
    (machine : Machine Answer Event Error κ Job σ) (content : Lane Answer Event Error Job σ) : Prop where
  running : ∀ running, content.running = some running →
    Placed design machine running.entries running.submitted
  finished : ∀ job ∈ content.history, Placed design machine job.entries job.submitted

section

variable {design : Design Answer Event Error κ Job σ}
  {machine after : Machine Answer Event Error κ Job σ} {content : Lane Answer Event Error Job σ}
  {running : Running Answer Event Error Job σ} {entries : List (Entry Answer Event Error)}
  {submitted : List ℕ}

theorem Placed.mono (h : Placed design machine entries submitted)
    (hjobs : ∀ lane, (machine.lanes lane).jobs ⊆ (after.lanes lane).jobs) :
    Placed design after entries submitted :=
  List.Forall₂.imp (fun _ target hmem => hjobs target.1 hmem) h

theorem Delivers.mono (h : Delivers design machine content)
    (hjobs : ∀ lane, (machine.lanes lane).jobs ⊆ (after.lanes lane).jobs) :
    Delivers design after content :=
  ⟨fun running hrunning => (h.running running hrunning).mono hjobs,
    fun job hjob => (h.finished job hjob).mono hjobs⟩

theorem Delivers.enqueue (h : Delivers design machine content) (jobs : List (ℕ × Job)) :
    Delivers design machine (content.enqueue jobs) :=
  ⟨h.running, h.finished⟩

theorem Delivers.begin (h : Delivers design machine content) (queue : List (ℕ × Job)) (id : ℕ)
    (job : Job) (state : σ) (rest : Program Answer Event Error Unit) :
    Delivers design machine
      { content with queue := queue, running := some ⟨id, job, state, [], [], rest⟩ } := by
  refine ⟨fun running hrunning => ?_, h.finished⟩
  cases hrunning
  exact .nil

theorem Delivers.reply (h : Delivers design machine content) (hrunning : content.running = some running)
    (call : Call) (reply : Except Error (Answer call)) (rest : Program Answer Event Error Unit) :
    Delivers design machine { content with
      running := some { running with
        entries := running.entries ++ [.called call reply]
        rest := rest } } := by
  refine ⟨fun later hlater => ?_, h.finished⟩
  cases hlater
  simpa [Placed] using h.running running hrunning

theorem Delivers.emit (h : Delivers design machine content) (hrunning : content.running = some running)
    {event : Event} {ids : List ℕ} (rest : Program Answer Event Error Unit)
    (hids : List.Forall₂ (fun id target => (id, target.2) ∈ (machine.lanes target.1).jobs) ids
      (design.react event)) :
    Delivers design machine { content with
      running := some { running with
        entries := running.entries ++ [.emitted event]
        submitted := running.submitted ++ ids
        rest := rest } } := by
  refine ⟨fun later hlater => ?_, h.finished⟩
  cases hlater
  simpa [Placed] using List.rel_append (h.running running hrunning) hids

theorem Delivers.finish (h : Delivers design machine content) (hrunning : content.running = some running)
    (result : Except Error Unit) (state : σ) :
    Delivers design machine { content with
      running := none
      history := content.history ++ [⟨running.id, running.job, running.before, running.entries,
        running.submitted, result, state⟩] } := by
  refine ⟨fun later hlater => (nomatch hlater), fun job hjob => ?_⟩
  rcases List.mem_append.mp hjob with hold | hnew
  · exact h.finished job hold
  · cases List.mem_singleton.mp hnew
    exact h.running running hrunning

end

/-! ## Runs -/

section

variable [DecidableEq κ] {design : Design Answer Event Error κ Job σ}
  {machine after : Machine Answer Event Error κ Job σ} {lane : κ}

theorem foldl_submit_nextJob (targets : List (κ × Job)) (machine : Machine Answer Event Error κ Job σ) :
    (targets.foldl submit machine).nextJob = machine.nextJob + targets.length := by
  induction targets generalizing machine with
  | nil => rfl
  | cons target targets ih =>
      rw [List.foldl_cons, ih, List.length_cons, submit]
      exact Nat.add_right_comm _ _ _

/-- A step submits some jobs, which are added at the ends of their lanes; otherwise every lane
keeps its jobs. -/
theorem step_jobs [DecidableEq Call] {action : LaneAction Answer Error κ Job}
    (h : machine.step design action = some after) :
    ∃ targets : List (κ × Job), after.nextJob = machine.nextJob + targets.length ∧
      ∀ lane, (after.lanes lane).jobs =
        (machine.lanes lane).jobs ++ arrivals lane machine.nextJob targets := by
  cases action with
  | submit target job =>
      cases h
      exact ⟨[(target, job)], rfl, fun lane => by rw [submit_lanes, Lane.jobs_enqueue]⟩
  | begin target =>
      obtain ⟨id, job, queue, hidle, hqueue, rfl⟩ := begin_some h
      refine ⟨[], rfl, fun lane => (put_keeps Lane.jobs ?_ lane).trans (List.append_nil _).symm⟩
      simp [Lane.jobs, Lane.pending, hidle, hqueue]
  | emit target =>
      obtain ⟨running, event, rest, hrunning, -, rfl⟩ := emit_some h
      refine ⟨design.react event, foldl_submit_nextJob _ _, fun lane => ?_⟩
      rw [foldl_submit_lanes, Lane.jobs_enqueue]
      refine congrArg (· ++ _) (put_keeps Lane.jobs ?_ lane)
      simp [Lane.jobs, Lane.pending, hrunning]
  | reply target call reply =>
      obtain ⟨running, resume, hrunning, -, -, hafter⟩ := reply_some h
      rw [hafter]
      refine ⟨[], rfl, fun lane => (put_keeps Lane.jobs ?_ lane).trans (List.append_nil _).symm⟩
      simp [Lane.jobs, Lane.pending, hrunning]
  | finish target =>
      obtain ⟨running, result, hrunning, -, rfl⟩ := finish_some h
      refine ⟨[], rfl, fun lane => (put_keeps Lane.jobs ?_ lane).trans (List.append_nil _).symm⟩
      simp [Lane.jobs, Lane.pending, hrunning]

/-- No job is lost or duplicated. -/
structure Delivered (design : Design Answer Event Error κ Job σ)
    (machine : Machine Answer Event Error κ Job σ) : Prop where
  numbered : ∀ lane, Numbered machine.nextJob (machine.lanes lane)
  delivers : ∀ lane, Delivers design machine (machine.lanes lane)

theorem Delivered.put (h : Delivered design machine) {content : Lane Answer Event Error Job σ}
    (hcontent : Delivers design after content)
    (hgrow : ∀ lane, (machine.lanes lane).jobs ⊆ (after.lanes lane).jobs) (other : κ) :
    Delivers design after ((machine.put lane content).lanes other) := by
  by_cases heq : other = lane
  · subst heq
    simpa [Machine.put] using hcontent
  · simpa [Machine.put, heq] using (h.delivers other).mono hgrow

theorem Delivered.step [DecidableEq Call] {action : LaneAction Answer Error κ Job}
    (h : Delivered design machine) (hstep : machine.step design action = some after) :
    Delivered design after := by
  obtain ⟨targets, hnext, hjobs⟩ := step_jobs hstep
  have hgrow : ∀ lane, (machine.lanes lane).jobs ⊆ (after.lanes lane).jobs := fun lane =>
    hjobs lane ▸ List.subset_append_left _ _
  have hkept : ∀ lane, Delivers design after (machine.lanes lane) := fun lane =>
    (h.delivers lane).mono hgrow
  refine ⟨fun lane => hnext ▸ (h.numbered lane).step (hjobs lane), fun other => ?_⟩
  cases action with
  | submit target job =>
      cases hstep
      rw [submit_lanes]
      exact (hkept other).enqueue _
  | begin target =>
      obtain ⟨id, job, queue, -, -, rfl⟩ := begin_some hstep
      exact h.put ((hkept target).begin queue id job _ _) hgrow other
  | emit target =>
      obtain ⟨running, event, rest, hrunning, -, heq⟩ := emit_some hstep
      have harrived : List.Forall₂ (fun id target => (id, target.2) ∈ (after.lanes target.1).jobs)
          (List.range' machine.nextJob (design.react event).length) (design.react event) := by
        refine arrivals_all.imp fun id sent hmem => ?_
        rw [heq, foldl_submit_lanes, Lane.jobs_enqueue]
        exact List.mem_append_right _ hmem
      have hlane : after.lanes other = Lane.enqueue _ _ := heq ▸ foldl_submit_lanes _ _ other
      rw [hlane]
      exact (h.put ((hkept target).emit hrunning rest harrived) hgrow other).enqueue _
  | reply target call reply =>
      obtain ⟨running, resume, hrunning, -, -, hafter⟩ := reply_some hstep
      have hlane : after.lanes other = (machine.put target _).lanes other :=
        congrFun (congrArg Machine.lanes hafter) other
      rw [hlane]
      exact h.put ((hkept target).reply hrunning call reply (resume reply)) hgrow other
  | finish target =>
      obtain ⟨running, result, hrunning, -, rfl⟩ := finish_some hstep
      exact h.put ((hkept target).finish hrunning result _) hgrow other

omit [DecidableEq κ] in
theorem create_delivered (state : σ) : Delivered design (.create state) :=
  ⟨fun _ => ⟨.nil, fun _ hmem => (nomatch hmem)⟩,
    fun _ => ⟨fun _ hrunning => (nomatch hrunning), fun _ hmem => (nomatch hmem)⟩⟩

/-- In every run each submitted job is in its lane, once. -/
theorem delivered_of_run [DecidableEq Call] {initial : σ}
    {meets : Machine Answer Event Error κ Job σ → LaneAction Answer Error κ Job → Prop}
    {actions : List (LaneAction Answer Error κ Job)}
    (h : Run (Machine.step design) meets (.create initial) actions machine) :
    Delivered design machine :=
  h.invariant (Delivered design) (create_delivered initial)
    fun _ _ _ hdelivered _ hstep => hdelivered.step hstep

end

end Async
