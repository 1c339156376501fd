import VoiceOrder.CartModule.DueWrites

/-! # What becomes of a stored cart

What every due write keeps holds of the view of a cart's lane in every state, in the middle of
a job too. A step leaves the stored cart as it is or is a due write of its own lane. -/

namespace VoiceOrder.CartModule

open Async Runs VoiceOrder.Backend

/-! ## What the due writes keep -/

/-- A due write that takes effect keeps the invariant of its cart. -/
def DueKeeps (Inv : CartId → Store → Prop) : Prop :=
  ∀ cartId view entries call answer after, call.writes = true →
    (cartDues cartId).calls view entries call → AtRest anyOwner cartId view → Inv cartId view →
    handle view call (.ok answer) = some after → Inv cartId (after.restrict anyOwner cartId)

/-- Any view of a lane. -/
def anyView (_ : CartId) (_ : Store) : Prop := True

theorem anyView_kept : DueKeeps anyView := fun _ _ _ _ _ _ _ _ _ _ _ => trivial

/-- The lanes of the backend on stores whose replies may be lost; a cart has the invariant
whenever its lane is free. -/
def lanesKeeping (lost : AppError → Bool) (Inv : CartId → Store → Prop) :
    Isolation Answer Event AppError LaneKey Job Store Store :=
  { lanes anyOwner with
    handle := fun lane => lossy lost (laneHandle anyOwner lane)
    rest := fun
      | .apply cartId, view => AtRest anyOwner cartId view ∧ Inv cartId view
      | .turns _, _ => True }

section

variable {lost : AppError → Bool} {ttsLanguage : LangCode} {Inv : CartId → Store → Prop}
  {cartId : CartId} {view next : Store} {entries : Trace} {call : Call}
  {reply : Except AppError (Answer call)} {job : Job}

/-- A call of the lane has no effect on its view or is a write that took effect. -/
theorem lossy_cases (hlocal : view.Local anyOwner cartId)
    (h : lossy lost (laneHandle anyOwner (.apply cartId)) view call reply = some next) :
    next = view ∨ call.writes = true ∧ ∃ answer after, atStore lost call reply = .ok answer ∧
      handle view call (.ok answer) = some after ∧ next = after.restrict anyOwner cartId := by
  cases hwrites : call.writes with
  | false => exact .inl (lossy_reads hlocal hwrites h)
  | true =>
      rw [lossy] at h
      rcases atStore_cases lost reply with ⟨answer, heffective⟩ | ⟨error, -, hthrown⟩
      · rw [heffective,
          laneHandle_eq view fun requestId heq => by simp [heq, Call.writes] at hwrites] at h
        obtain ⟨after, hafter, rfl⟩ := Option.map_eq_some_iff.mp h
        exact .inr ⟨rfl, answer, after, heffective, hafter, rfl⟩
      · rw [hthrown] at h
        exact .inl (laneHandle_error hlocal h)

/-- The cart that a write writes carries the id of its lane. -/
theorem due_atRest {answer : Answer call} {after : Store} (hwrites : call.writes = true)
    (hdue : (cartDues cartId).calls view entries call) (h : AtRest anyOwner cartId view)
    (hafter : handle view call (.ok answer) = some after) :
    AtRest anyOwner cartId (after.restrict anyOwner cartId) := by
  cases call with
  | setCart cart =>
      cases hafter
      exact atRest_setCart hdue.1
  | commitApplied cart requestId =>
      cases hafter
      exact atRest_commit hdue.1.1
  | commitCreated cart =>
      cases hafter
      exact atRest_commit hdue.1
  | markProcessed requestId outcome =>
      cases hafter
      exact ⟨keyed_restrict h.1, restrict_local⟩
  | confirmOrder cart =>
      simp only [handle] at hafter
      split at hafter
      · cases hafter
        exact ⟨keyed_restrict h.1, restrict_local⟩
      · cases hafter
  | _ => cases hwrites

theorem DueKeeps.keeps (hkeeps : DueKeeps Inv) (hdue : (cartDues cartId).calls view entries call)
    (h : AtRest anyOwner cartId view ∧ Inv cartId view)
    (hnext : lossy lost (laneHandle anyOwner (.apply cartId)) view call reply = some next) :
    AtRest anyOwner cartId next ∧ Inv cartId next := by
  rcases lossy_cases h.1.2 hnext with rfl | ⟨hwrites, answer, after, -, hafter, rfl⟩
  · exact h
  · exact ⟨due_atRest hwrites hdue h.1 hafter, hkeeps _ _ _ _ _ _ hwrites hdue h.1 h.2 hafter⟩

theorem DueKeeps.job_holds (hkeeps : DueKeeps Inv) (hfits : fits anyOwner (.apply cartId) job)
    (h : AtRest anyOwner cartId view ∧ Inv cartId view) :
    OnLossyLane lost cartId (fun view => AtRest anyOwner cartId view ∧ Inv cartId view)
      (fun _ view => AtRest anyOwner cartId view ∧ Inv cartId view) (job.program ttsLanguage)
      view [] :=
  (job_due hfits h.1).holds h (fun _ _ _ hcall => hcall.1) (fun _ hevent => hevent)
    fun _ _ _ _ _ hdue hinv hnext => hkeeps.keeps hdue hinv hnext

theorem DueKeeps.isolated (hkeeps : DueKeeps Inv) :
    Isolated (lossyBackend lost ttsLanguage) (lanesKeeping lost Inv) where
  own := fun lane state call reply next hcall hnext => laneHandle_own hcall hnext
  frame := fun lane other state call reply next hne hcall hnext =>
    (@backend_isolated anyOwner ttsLanguage).frame lane other state call
      (atStore lost call reply) next hne hcall hnext
  listeners := (@backend_isolated anyOwner ttsLanguage).listeners
  jobs := fun lane job view hfits hrest => by
    cases lane with
    | apply cartId =>
        exact (hkeeps.job_holds hfits hrest).mono (fun _ _ _ => trivial) fun _ _ _ _ hafter => hafter
    | turns cartId =>
        have hblind : lossy lost (laneHandle anyOwner (.turns cartId)) =
            laneHandle anyOwner (.turns cartId) := rfl
        simp only [lanesKeeping, hblind]
        exact (Backend.job_holds hfits trivial).mono (fun _ _ _ => trivial) fun _ _ _ _ _ => trivial

variable {initial : Store} {process after : Process} {action : Action}

/-- At every moment of a run, in the middle of a job too. -/
theorem DueKeeps.now (hkeeps : DueKeeps Inv)
    (h : AllSerial (lossyBackend lost ttsLanguage) (lanesKeeping lost Inv) initial process)
    (cartId : CartId) :
    AtRest anyOwner cartId (process.state.restrict anyOwner cartId) ∧
      Inv cartId (process.state.restrict anyOwner cartId) := by
  cases hrunning : (process.lanes (.apply cartId)).running with
  | none => exact ((h (.apply cartId)).idle hrunning).2
  | some running =>
      obtain ⟨hfits, -, hbefore, hexec⟩ := (h (.apply cartId)).busy running hrunning
      exact ((hkeeps.job_holds hfits hbefore).executes hexec).now

/-- A call that a cart's lane waits for is due. -/
theorem asked_due {running : Running Answer Event AppError Job Store}
    {resume : Except AppError (Answer call) → Promise Unit}
    (h : AllSerial (lossyBackend lost ttsLanguage) (lanesKeeping lost Inv) initial process)
    (hrunning : (process.lanes (.apply cartId)).running = some running)
    (hawait : running.rest = .await call resume) :
    (cartDues cartId).calls (process.state.restrict anyOwner cartId) running.entries call := by
  obtain ⟨hfits, -, hbefore, hexec⟩ := (h (.apply cartId)).busy running hrunning
  have hjob : DueOnLane lost cartId (running.job.program ttsLanguage)
      (running.before.restrict anyOwner cartId) [] := job_due hfits hbefore.1
  have hdue := hjob.executes hexec
  rw [hawait] at hdue
  exact hdue.1

/-- A call of a cart's lane is due where it is made. -/
theorem reply_due (h : AllSerial (lossyBackend lost ttsLanguage) (lanesKeeping lost Inv) initial process)
    (hstep : process.step (lossyBackend lost ttsLanguage) (.reply (.apply cartId) call reply) =
      some after) :
    ∃ running, (process.lanes (.apply cartId)).running = some running ∧
      (cartDues cartId).calls (process.state.restrict anyOwner cartId) running.entries call := by
  obtain ⟨running, resume, hrunning, hawait, -, -⟩ := Machine.reply_some hstep
  exact ⟨running, hrunning, asked_due h hrunning hawait⟩

/-- A step writes the stored cart: a due write of its lane takes effect. -/
structure Rewrites (lost : AppError → Bool) (cartId : CartId) (process : Process) (action : Action)
    (entries : Trace) (call : Call) (cart : Cart) : Prop where
  action : ∃ reply answer, action = .reply (.apply cartId) call reply ∧
    atStore lost call reply = .ok answer
  written : written? call = some cart
  running : ∃ running, (process.lanes (.apply cartId)).running = some running ∧
    running.entries = entries
  due : (cartDues cartId).calls (process.state.restrict anyOwner cartId) entries call

theorem written_carts {answer : Answer call} {store : Store} (hwrites : call.writes = true)
    (hcall : (footprint anyOwner (.apply cartId)).calls call)
    (h : handle store call (.ok answer) = some next) :
    next.carts cartId = (written? call).or (store.carts cartId) := by
  cases call with
  | setCart cart =>
      cases h
      exact setCart_stored hcall
  | commitApplied cart requestId =>
      cases h
      exact commit_stored hcall.1 _
  | commitCreated cart =>
      cases h
      exact commit_stored hcall _
  | markProcessed requestId outcome =>
      cases h
      rfl
  | confirmOrder cart =>
      simp only [handle] at h
      split at h
      · cases h
        rfl
      · cases h
  | _ => cases hwrites

theorem cart_step (hkeeps : DueKeeps Inv)
    (h : AllSerial (lossyBackend lost ttsLanguage) (lanesKeeping lost Inv) initial process)
    (hstep : process.step (lossyBackend lost ttsLanguage) action = some after) (cartId : CartId) :
    after.state.carts cartId = process.state.carts cartId ∨
      ∃ entries call cart, Rewrites lost cartId process action entries call cart ∧
        after.state.carts cartId = some cart := by
  have hview : ∀ {state : Store},
      state.restrict anyOwner cartId = process.state.restrict anyOwner cartId →
      state.carts cartId = process.state.carts cartId := fun hsame => by
    rw [← @restrict_carts anyOwner, hsame, restrict_carts]
  cases action with
  | reply lane call reply =>
      obtain ⟨running, resume, hrunning, hawait, hnext, -⟩ := Machine.reply_some hstep
      have hholds := (h lane).holds hkeeps.isolated hrunning
      rw [hawait] at hholds
      by_cases hlane : LaneKey.apply cartId = lane
      · subst hlane
        obtain ⟨found, hfound, hdue⟩ := reply_due h hstep
        change handle process.state call (atStore lost call reply) = some after.state at hnext
        rcases atStore_cases lost reply with ⟨answer, heffective⟩ | ⟨error, -, hthrown⟩
        · rw [heffective] at hnext
          cases hwrites : call.writes with
          | false => exact .inl (hview (Store.restrict_eq_iff.mpr (handle_reads hwrites hnext)))
          | true =>
              have hcarts := written_carts hwrites hdue.1 hnext
              cases hwritten : written? call with
              | none => exact .inl (by simpa [hwritten] using hcarts)
              | some cart =>
                  exact .inr ⟨found.entries, call, cart, ⟨⟨reply, answer, rfl, heffective⟩, hwritten,
                    ⟨found, hfound, rfl⟩, hdue⟩, by simpa [hwritten] using hcarts⟩
        · rw [hthrown] at hnext
          exact .inl (by rw [handle_error hnext])
      · exact .inl (hview (hkeeps.isolated.frame _ _ _ _ _ _ hlane hholds.2.1 hnext))
  | submit | begin | emit | finish =>
      exact .inl (by rw [Machine.step_state hstep fun _ _ _ heq => (nomatch heq)])

end

/-! ## Through restarts -/

/-- A process leads to another one by its steps and by restarts, which forget the jobs and keep
the store. -/
inductive LeadsTo (lost : AppError → Bool) (ttsLanguage : LangCode)
    (meets : Process → Action → Prop) : Process → Process → Prop where
  | here (process : Process) : LeadsTo lost ttsLanguage meets process process
  | step {first process next action} (hearlier : LeadsTo lost ttsLanguage meets first process)
      (hfits : submitsFit (lanes anyOwner) process action) (hmeets : meets process action)
      (hstep : process.step (lossyBackend lost ttsLanguage) action = some next) :
      LeadsTo lost ttsLanguage meets first next
  | restart {first process} (hearlier : LeadsTo lost ttsLanguage meets first process) :
      LeadsTo lost ttsLanguage meets first (.create process.state)

/-- Any step. -/
abbrev anyStep (_ : Process) (_ : Action) : Prop := True

section

variable {lost : AppError → Bool} {ttsLanguage : LangCode} {Inv : CartId → Store → Prop}
  {meets : Process → Action → Prop} {process last : Process} {action : Action} {cartId : CartId}

theorem LeadsTo.run {first : Process} {actions : List Action}
    (h : LeadsTo lost ttsLanguage meets first process)
    (hrun : Run (Machine.step (lossyBackend lost ttsLanguage))
      (fun process action => submitsFit (lanes anyOwner) process action ∧ meets process action)
      process actions last) :
    LeadsTo lost ttsLanguage meets first last := by
  induction hrun with
  | nil => exact h
  | cons hmeets hstep _ ih => exact ih (h.step hmeets.1 hmeets.2 hstep)

/-- Every cart of the process has the invariant, in this lifetime of the backend. -/
def Keeping (lost : AppError → Bool) (ttsLanguage : LangCode) (Inv : CartId → Store → Prop)
    (process : Process) : Prop :=
  ∃ initial, AllSerial (lossyBackend lost ttsLanguage) (lanesKeeping lost Inv) initial process

theorem keeping_create {store : Store} (h : ∀ cartId,
    AtRest anyOwner cartId (store.restrict anyOwner cartId) ∧
      Inv cartId (store.restrict anyOwner cartId)) :
    Keeping lost ttsLanguage Inv (.create store) :=
  ⟨store, create_serial fun lane => by
    cases lane with
    | apply cartId => exact h cartId
    | turns cartId => trivial⟩

theorem Keeping.leadsTo (h : Keeping lost ttsLanguage Inv process) (hkeeps : DueKeeps Inv)
    (hlater : LeadsTo lost ttsLanguage meets process last) : Keeping lost ttsLanguage Inv last := by
  induction hlater with
  | here => exact h
  | @step process next action _ hfits _ hstep ih =>
      obtain ⟨initial, hserial⟩ := ih
      refine ⟨initial, hserial.step hkeeps.isolated ?_ hstep⟩
      cases action with
      | submit lane job => exact hfits
      | begin | emit | reply | finish => trivial
  | restart _ ih =>
      obtain ⟨initial, hserial⟩ := ih
      exact keeping_create fun cartId => hkeeps.now hserial cartId

/-- The backend from its first start on. -/
theorem keeping_empty (hempty : ∀ cartId, Inv cartId (Store.empty.restrict anyOwner cartId)) :
    Keeping lost ttsLanguage Inv (.create Store.empty) :=
  keeping_create fun cartId =>
    ⟨⟨keyed_restrict (Store.keyed_empty cartId), restrict_local⟩, hempty cartId⟩

end

end VoiceOrder.CartModule
