import VoiceOrder.App.Composition
import VoiceOrder.CartModule.VersionDiscipline
import VoiceOrder.Realtime.GatewaySends

/-! # What a step of the app does

Whatever the transport does, the lanes of the backend run in isolation, and the broadcasts that
go over the bus are those that the lanes have published. -/

namespace VoiceOrder.App

open Async Runs CartModule Backend Realtime
open WebSocketServer (Stands Addressed Registered Connected)

variable {platform : Platform} {initial : Store} {app next : App} {action : Action}
  {cartId : CartId} {ttsLanguage : LangCode}

/-! ## The backend within the app -/

/-- The broadcasts of a cart among the events of the bus. -/
def updatesOf (cartId : CartId) (events : List Event) : List Cart :=
  (updatedCarts events).filter fun cart => cart.cartId = cartId

@[simp] theorem updatesOf_append (events later : List Event) :
    updatesOf cartId (events ++ later) = updatesOf cartId events ++ updatesOf cartId later := by
  simp [updatesOf]

theorem submitAll_lanes (jobs : List Job) (process : Process) (lane : LaneKey) :
    (submitAll jobs process).lanes lane = (process.lanes lane).enqueue
      (Machine.arrivals lane process.nextJob (jobs.map fun job => (job.lane, job))) :=
  Machine.foldl_submit_lanes _ process lane

theorem submitAll_state (jobs : List Job) (process : Process) :
    (submitAll jobs process).state = process.state :=
  Machine.foldl_submit_state _ process

/-- What the listeners queue is submitted, job by job, and nothing is emitted. -/
theorem submitAll_run (jobs : List Job) (process : Process) :
    Run (Machine.step (backend ttsLanguage)) (submitsFit (lanes anyOwner)) process
      (jobs.map fun job => .submit job.lane job) (submitAll jobs process) ∧
    Machine.emissions (backend ttsLanguage) process (jobs.map fun job => .submit job.lane job) = [] := by
  induction jobs generalizing process with
  | nil => exact ⟨.nil process, rfl⟩
  | cons job jobs ih =>
      obtain ⟨hrun, hnothing⟩ := ih (process.submit (job.lane, job))
      exact ⟨.cons ⟨rfl, fun _ _ => trivial⟩ rfl hrun, hnothing⟩

/-- A run of the backend leads to the process, and these are the events that it emits. -/
def Ran (platform : Platform) (initial : Store) (process : Process) (events : List Event) : Prop :=
  ∃ asked, Run (Machine.step (backend platform.ttsLanguage)) (submitsFit (lanes anyOwner))
      (.create initial) asked process ∧
    (Machine.emissions (backend platform.ttsLanguage) (.create initial) asked).map Prod.snd = events

/-- What holds of the app at any time: its backend and its transport are what runs of them have
led to, and what went over the bus is what the backend has emitted. -/
structure Coherent (platform : Platform) (initial : Store) (app : App) : Prop where
  process : Ran platform initial app.process app.published
  server : ∃ taken, exec (WebSocketServer.step platform.toTransport) .create taken = some app.server

theorem create_coherent : Coherent platform initial (create initial) where
  process := ⟨[], .nil _, rfl⟩
  server := ⟨[], rfl⟩

theorem server_step {taken : List WebSocketServer.Action} {server after : WebSocketServer}
    {asked : WebSocketServer.Action}
    (h : exec (WebSocketServer.step platform.toTransport) .create taken = some server)
    (hstep : server.step platform.toTransport asked = some after) :
    exec (WebSocketServer.step platform.toTransport) .create (taken ++ [asked]) = some after := by
  rw [exec_append, h, Option.bind_some, exec, hstep]
  rfl

/-- What a step of the app does: the transport moves, or the backend does, with or without an
event, or a confirmation is queued. -/
inductive Moves (platform : Platform) (app : App) : Action → App → Prop where
  | transport (asked : WebSocketServer.Action) (server : WebSocketServer) :
      fromTransport app asked = true →
      app.server.step platform.toTransport asked = some server →
      Moves platform app (.transport asked) (onTransport server app)
  | silent (asked : Backend.Action) (process : Process) :
      fromBackend asked = true →
      app.process.step (backend platform.ttsLanguage) asked = some process →
      app.process.emitted? asked = none →
      Moves platform app (.backend asked) { app with process := process }
  | emits (asked : Backend.Action) (process : Process) (lane : LaneKey) (event : Event)
      (server : WebSocketServer) :
      fromBackend asked = true →
      app.process.step (backend platform.ttsLanguage) asked = some process →
      app.process.emitted? asked = some (lane, event) →
      app.server.step platform.toTransport (.behind (.publish event)) = some server →
      Moves platform app (.backend asked) { app with
        process := process
        server := server
        published := app.published ++ [event] }
  | confirms (cartId : CartId) :
      Moves platform app (.confirm cartId) { app with process := submitAll [.confirm cartId] app.process }

theorem step_moves (h : step platform app action = some next) : Moves platform app action next := by
  cases action with
  | transport asked =>
      obtain ⟨hfrom, h⟩ := Option.ite_none_right_eq_some.mp h
      obtain ⟨server, hserver, rfl⟩ := Option.map_eq_some_iff.mp h
      exact .transport asked server hfrom hserver
  | backend asked =>
      obtain ⟨hfrom, h⟩ := Option.ite_none_right_eq_some.mp h
      obtain ⟨process, hprocess, h⟩ := Option.bind_eq_some_iff.mp h
      unfold onBackend at h
      split at h
      · rename_i hemitted
        obtain rfl := Option.some.inj h
        exact .silent asked process hfrom hprocess hemitted
      · rename_i lane event hemitted
        obtain ⟨server, hserver, rfl⟩ := Option.map_eq_some_iff.mp h
        exact .emits asked process lane event server hfrom hprocess hemitted hserver
  | confirm cartId =>
      obtain rfl := Option.some.inj h
      exact .confirms cartId

/-- The transport hears of no event but from the bus. -/
theorem event?_fromTransport {asked : WebSocketServer.Action} (h : fromTransport app asked = true) :
    asked.event? = none := by
  cases asked with
  | behind asked =>
      cases asked with
      | publish => cases h
      | connect | disconnect | voice | settles => rfl
  | _ => rfl

/-- A step of the backend that queues nothing from outside. -/
theorem fromBackend_fits {process : Process} {asked : Backend.Action} (h : fromBackend asked = true) :
    submitsFit (lanes anyOwner) process asked := by
  cases asked with
  | submit => cases h
  | begin | emit | reply | finish => trivial

theorem Ran.append {process after : Process} {events : List Event} {asked : List Backend.Action}
    (h : Ran platform initial process events)
    (hrun : Run (Machine.step (backend platform.ttsLanguage)) (submitsFit (lanes anyOwner)) process asked
      after) : Ran platform initial after
        (events ++ (Machine.emissions (backend platform.ttsLanguage) process asked).map Prod.snd) := by
  obtain ⟨before, hbefore, rfl⟩ := h
  refine ⟨before ++ asked, hbefore.append hrun, ?_⟩
  rw [Machine.emissions_append hbefore, List.map_append]

theorem Ran.submitAll {process : Process} {events : List Event} (h : Ran platform initial process events)
    (jobs : List Job) : Ran platform initial (submitAll jobs process) events := by
  obtain ⟨hrun, hnothing⟩ := @submitAll_run platform.ttsLanguage jobs process
  have hran := h.append hrun
  rwa [hnothing, List.map_nil, List.append_nil] at hran

theorem Ran.step {process after : Process} {events : List Event} {asked : Backend.Action}
    (h : Ran platform initial process events) (hfrom : fromBackend asked = true)
    (hstep : process.step (backend platform.ttsLanguage) asked = some after) :
    Ran platform initial after (events ++ ((process.emitted? asked).toList).map Prod.snd) := by
  have hran := h.append (.cons (fromBackend_fits hfrom) hstep (.nil after))
  simpa only [Machine.emissions, hstep, List.append_nil] using hran

theorem Coherent.step (h : Coherent platform initial app) (hstep : step platform app action = some next) :
    Coherent platform initial next := by
  obtain ⟨taken, htaken⟩ := h.server
  cases step_moves hstep with
  | transport asked server hfrom hserver => exact ⟨h.process.submitAll _, _, server_step htaken hserver⟩
  | silent asked process hfrom hprocess hemitted =>
      have hran := h.process.step hfrom hprocess
      rw [hemitted, Option.toList_none, List.map_nil, List.append_nil] at hran
      exact ⟨hran, taken, htaken⟩
  | emits asked process lane event server hfrom hprocess hemitted hserver =>
      have hran := h.process.step hfrom hprocess
      rw [hemitted] at hran
      exact ⟨hran, _, server_step htaken hserver⟩
  | confirms cartId => exact ⟨h.process.submitAll _, taken, htaken⟩

theorem coherent_run {actions : List Action}
    (h : exec (step platform) (create initial) actions = some app) : Coherent platform initial app :=
  exec_invariant (fun _ app => Coherent platform initial app) h create_coherent
    fun _ _ _ _ hcoherent hstep => hcoherent.step hstep

/-! ## What the backend has published -/

theorem Coherent.serial (h : Coherent platform initial app) (hkeyed : ∀ cartId, initial.Keyed cartId) :
    AllSerial (backend platform.ttsLanguage) (lanes anyOwner) initial app.process := by
  obtain ⟨asked, hrun, -⟩ := h.process
  exact backend_serial hkeyed hrun

/-- A kind of event that one lane only publishes goes over the bus as the lane publishes it. -/
theorem Coherent.fromLane {β : Type} (h : Coherent platform initial app) {f : Event → Option β}
    (lane : LaneKey)
    (hown : ∀ other ≠ lane, ∀ event ∈ (app.process.lanes other).published, f event = none) :
    app.published.filterMap f = (app.process.lanes lane).published.filterMap f := by
  obtain ⟨asked, hrun, hpublished⟩ := h.process
  have hlanes : ∀ other, (app.process.lanes other).published = Machine.fromLane other
      (Machine.emissions (backend platform.ttsLanguage) (.create initial) asked) := by
    intro other
    rw [Machine.run_published hrun other]
    rfl
  rw [← hpublished, hlanes lane, Machine.fromLane, List.filterMap_map, List.filterMap_map,
    List.filterMap_filter]
  refine List.filterMap_congr fun entry hentry => ?_
  by_cases hlane : entry.1 = lane
  · simp [hlane]
  · have hnone : f entry.2 = none := by
      refine hown entry.1 hlane entry.2 ?_
      rw [hlanes entry.1]
      exact List.mem_map.mpr ⟨entry, List.mem_filter.mpr ⟨hentry, by simp⟩, rfl⟩
    simp [hlane, hnone]

/-- The broadcasts of a cart on the bus are those of its lane. -/
theorem Coherent.updates (h : Coherent platform initial app) (hkeyed : ∀ cartId, initial.Keyed cartId)
    (cartId : CartId) : updatesOf cartId app.published =
      updatedCarts (app.process.lanes (.apply cartId)).published := by
  obtain ⟨asked, hrun, hpublished⟩ := h.process
  rw [← hpublished, Machine.run_published hrun (.apply cartId)]
  exact broadcasts_eq (emissions_own hkeyed hrun)

end VoiceOrder.App
