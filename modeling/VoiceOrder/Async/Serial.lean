import VoiceOrder.Async.Lanes

/-! # Lanes run in isolation

Each lane has a view of the state that only its own calls change. Whatever the other lanes do
in between, a lane's jobs run on its view one after the other, each from where the one before
it ended. -/

namespace Async

open Runs Machine

variable {Call : Type} {Answer : Call → Type} {Event Error κ Job σ V : Type}

/-- What holds at the end of a program holds where it has ended. -/
theorem Holds.result {σ : Type} {handle : Handler Answer Error σ} {footprint : Footprint Call Event}
    {always : σ → List (Entry Answer Event Error) → Prop}
    {post : Except Error Unit → σ → List (Entry Answer Event Error) → Prop}
    {program : Program Answer Event Error Unit} {state : σ}
    {entries : List (Entry Answer Event Error)} {result : Except Error Unit}
    (h : Holds handle footprint always post program state entries)
    (hresult : program.result? = some result) : post result state entries := by
  cases program with
  | done value =>
      cases hresult
      exact h.2
  | throw error =>
      cases hresult
      exact h.2
  | emit event rest => cases hresult
  | await call resume => cases hresult

/-- The views of the lanes, what the calls do to them, and what the jobs of a lane keep to. -/
structure Isolation (Answer : Call → Type) (Event Error κ Job σ V : Type) where
  view : κ → σ → V
  handle : κ → Handler Answer Error V
  footprint : κ → Footprint Call Event
  fits : κ → Job → Prop
  /-- What holds of a view whenever its lane is free. -/
  rest : κ → V → Prop

structure Isolated (design : Design Answer Event Error κ Job σ)
    (iso : Isolation Answer Event Error κ Job σ V) : Prop where
  own : ∀ lane state call reply next, (iso.footprint lane).calls call →
    design.handle state call reply = some next →
    iso.handle lane (iso.view lane state) call reply = some (iso.view lane next)
  frame : ∀ lane other state call reply next, lane ≠ other → (iso.footprint other).calls call →
    design.handle state call reply = some next → iso.view lane next = iso.view lane state
  listeners : ∀ lane event, (iso.footprint lane).events event →
    ∀ target ∈ design.react event, iso.fits target.1 target.2
  jobs : ∀ lane job view, iso.fits lane job → iso.rest lane view →
    Holds (iso.handle lane) (iso.footprint lane) (fun _ _ => True)
      (fun _ view _ => iso.rest lane view) (design.program job) view []

/-- The finished jobs of a lane, each run from where the one before it ended. -/
inductive Chain (design : Design Answer Event Error κ Job σ)
    (iso : Isolation Answer Event Error κ Job σ V) (lane : κ) (start : V) :
    List (Finished Answer Event Error Job σ) → V → Prop where
  | nil : Chain design iso lane start [] start
  | snoc {history view job last next} : Chain design iso lane start history view →
      iso.fits lane job.job → iso.view lane job.before = view → iso.rest lane view →
      Executes (iso.handle lane) (design.program job.job) view job.entries last next →
      last.result? = some job.result → iso.view lane job.after = next →
      Chain design iso lane start (history ++ [job]) next

/-- Every finished job ran from where those before it ended. -/
theorem Chain.at {design : Design Answer Event Error κ Job σ}
    {iso : Isolation Answer Event Error κ Job σ V} {lane : κ} {start view : V}
    {history earlier later : List (Finished Answer Event Error Job σ)}
    {job : Finished Answer Event Error Job σ} (h : Chain design iso lane start history view)
    (heq : history = earlier ++ job :: later) :
    Chain design iso lane start earlier (iso.view lane job.before) ∧ iso.fits lane job.job ∧
      iso.rest lane (iso.view lane job.before) ∧
      ∃ last, last.result? = some job.result ∧ Executes (iso.handle lane) (design.program job.job)
        (iso.view lane job.before) job.entries last (iso.view lane job.after) := by
  induction h generalizing later with
  | nil => simp at heq
  | @snoc history view last rest next hchain hfits hbefore hrest hexec hresult hafter ih =>
      rcases List.eq_nil_or_concat later with rfl | ⟨later, final, rfl⟩
      · obtain ⟨rfl, hlast⟩ := List.append_inj' heq rfl
        cases hlast
        subst hbefore hafter
        exact ⟨hchain, hfits, hrest, rest, hresult, hexec⟩
      · rw [List.concat_eq_append, ← List.cons_append, ← List.append_assoc] at heq
        exact ih (List.append_inj' heq rfl).1

/-- The lane has run its finished jobs, and is now within the next one. -/
structure Serial (design : Design Answer Event Error κ Job σ)
    (iso : Isolation Answer Event Error κ Job σ V) (lane : κ) (start : V) (state : σ)
    (content : Lane Answer Event Error Job σ) : Prop where
  queue : ∀ entry ∈ content.queue, iso.fits lane entry.2
  idle : content.running = none →
    Chain design iso lane start content.history (iso.view lane state) ∧
      iso.rest lane (iso.view lane state)
  busy : ∀ running, content.running = some running →
    iso.fits lane running.job ∧
      Chain design iso lane start content.history (iso.view lane running.before) ∧
      iso.rest lane (iso.view lane running.before) ∧
      Executes (iso.handle lane) (design.program running.job) (iso.view lane running.before)
        running.entries running.rest (iso.view lane state)

/-- Jobs are submitted from outside to the lanes they fit. -/
def submitsFit (iso : Isolation Answer Event Error κ Job σ V)
    (_ : Machine Answer Event Error κ Job σ) : LaneAction Answer Error κ Job → Prop
  | .submit lane job => iso.fits lane job
  | _ => True

instance {iso : Isolation Answer Event Error κ Job σ V} [∀ lane job, Decidable (iso.fits lane job)]
    (machine : Machine Answer Event Error κ Job σ) (action : LaneAction Answer Error κ Job) :
    Decidable (submitsFit iso machine action) :=
  match action with
  | .submit lane job => inferInstanceAs (Decidable (iso.fits lane job))
  | .begin _ | .emit _ | .reply _ _ _ | .finish _ => .isTrue trivial

section

variable {design : Design Answer Event Error κ Job σ}
  {iso : Isolation Answer Event Error κ Job σ V} {lane : κ} {start : V} {state next : σ}
  {content : Lane Answer Event Error Job σ} {running : Running Answer Event Error Job σ}

theorem Serial.chain (h : Serial design iso lane start state content) :
    ∃ view, Chain design iso lane start content.history view := by
  cases hrunning : content.running with
  | none => exact ⟨_, (h.idle hrunning).1⟩
  | some running => exact ⟨_, (h.busy running hrunning).2.1⟩

theorem Serial.enqueue (h : Serial design iso lane start state content) {jobs : List (ℕ × Job)}
    (hfit : ∀ entry ∈ jobs, iso.fits lane entry.2) :
    Serial design iso lane start state (content.enqueue jobs) := by
  refine ⟨fun entry hmem => ?_, h.idle, h.busy⟩
  rcases List.mem_append.mp hmem with hold | hnew
  · exact h.queue entry hold
  · exact hfit entry hnew

/-- The lane does not see what leaves its view as it is. -/
theorem Serial.frame (h : Serial design iso lane start state content)
    (hview : iso.view lane next = iso.view lane state) :
    Serial design iso lane start next content := by
  refine ⟨h.queue, ?_, ?_⟩
  · rw [hview]
    exact h.idle
  · rw [hview]
    exact h.busy

/-- What is left of a running job keeps to the footprint of its lane. -/
theorem Serial.holds (h : Serial design iso lane start state content)
    (hdesign : Isolated design iso) (hrunning : content.running = some running) :
    Holds (iso.handle lane) (iso.footprint lane) (fun _ _ => True)
      (fun _ view _ => iso.rest lane view) running.rest (iso.view lane state) running.entries := by
  obtain ⟨hfit, -, hrest, hexec⟩ := h.busy running hrunning
  simpa using (hdesign.jobs lane running.job _ hfit hrest).executes hexec

theorem Serial.begin (h : Serial design iso lane start state content)
    (hidle : content.running = none) {id : ℕ} {job : Job} {queue : List (ℕ × Job)}
    (hqueue : content.queue = (id, job) :: queue) :
    Serial design iso lane start state
      { content with
        queue := queue
        running := some ⟨id, job, state, [], [], design.program job⟩ } := by
  obtain ⟨hchain, hrest⟩ := h.idle hidle
  refine ⟨fun entry hmem => h.queue entry (hqueue ▸ List.mem_cons_of_mem _ hmem),
    fun hnone => (nomatch hnone), fun running hrunning => ?_⟩
  cases hrunning
  exact ⟨h.queue (id, job) (hqueue ▸ List.mem_cons_self), hchain, hrest, .here _ _⟩

theorem Serial.emit (h : Serial design iso lane start state content)
    (hrunning : content.running = some running) {event : Event}
    {rest : Program Answer Event Error Unit} (hemit : running.rest = .emit event rest)
    (submitted : List ℕ) :
    Serial design iso lane start state
      { content with
        running := some { running with
          entries := running.entries ++ [.emitted event]
          submitted := submitted
          rest := rest } } := by
  obtain ⟨hfit, hchain, hrest, hexec⟩ := h.busy running hrunning
  refine ⟨h.queue, fun hnone => (nomatch hnone), fun later hlater => ?_⟩
  cases hlater
  exact ⟨hfit, hchain, hrest, hexec.trans (hemit ▸ .emit (.here _ _))⟩

/-- A call of the lane does to its view what it does to the state. -/
theorem Serial.reply (h : Serial design iso lane start state content)
    (hdesign : Isolated design iso) (hrunning : content.running = some running) {call : Call}
    {resume : Except Error (Answer call) → Program Answer Event Error Unit}
    (hawait : running.rest = .await call resume) {reply : Except Error (Answer call)}
    (hstate : design.handle state call reply = some next) :
    Serial design iso lane start next
      { content with
        running := some { running with
          entries := running.entries ++ [.called call reply]
          rest := resume reply } } := by
  obtain ⟨hfit, hchain, hrest, hexec⟩ := h.busy running hrunning
  have hholds := h.holds hdesign hrunning
  rw [hawait] at hholds
  refine ⟨h.queue, fun hnone => (nomatch hnone), fun later hlater => ?_⟩
  cases hlater
  exact ⟨hfit, hchain, hrest, hexec.trans
    (hawait ▸ .await (hdesign.own _ _ _ _ _ hholds.2.1 hstate) (.here _ _))⟩

theorem Serial.finish (h : Serial design iso lane start state content)
    (hdesign : Isolated design iso) (hrunning : content.running = some running)
    {result : Except Error Unit} (hresult : running.rest.result? = some result) :
    Serial design iso lane start state
      { content with
        running := none
        history := content.history ++ [⟨running.id, running.job, running.before, running.entries,
          running.submitted, result, state⟩] } := by
  obtain ⟨hfit, hchain, hrest, hexec⟩ := h.busy running hrunning
  have hholds := h.holds hdesign hrunning
  refine ⟨h.queue, fun _ => ⟨.snoc hchain hfit rfl hrest hexec hresult rfl, ?_⟩,
    fun later hlater => (nomatch hlater)⟩
  exact hholds.result hresult

/-! ## Runs -/

variable [DecidableEq κ] [DecidableEq Call] {machine after : Machine Answer Event Error κ Job σ}
  {action : LaneAction Answer Error κ Job} {initial : σ}

/-- Every lane of the machine is serial. -/
def AllSerial (design : Design Answer Event Error κ Job σ)
    (iso : Isolation Answer Event Error κ Job σ V) (initial : σ)
    (machine : Machine Answer Event Error κ Job σ) : Prop :=
  ∀ lane, Serial design iso lane (iso.view lane initial) machine.state (machine.lanes lane)

omit [DecidableEq Call] in
theorem AllSerial.put (h : AllSerial design iso initial machine)
    (hcontent : Serial design iso lane (iso.view lane initial) next content)
    (hframe : ∀ other, other ≠ lane → iso.view other next = iso.view other machine.state) :
    AllSerial design iso initial { machine.put lane content with state := next } := by
  intro other
  by_cases heq : other = lane
  · subst heq
    simpa [Machine.put] using hcontent
  · simpa [Machine.put, heq] using (h other).frame (hframe other heq)

theorem AllSerial.step (h : AllSerial design iso initial machine) (hdesign : Isolated design iso)
    (hmeets : submitsFit iso machine action) (hstep : machine.step design action = some after) :
    AllSerial design iso initial after := by
  cases action with
  | submit lane job =>
      cases hstep
      intro other
      rw [submit_lanes]
      refine (h other).enqueue fun entry hmem => ?_
      have := mem_arrivals hmem
      simp only [List.mem_singleton, Prod.mk.injEq] at this
      exact this.1 ▸ this.2 ▸ hmeets
  | begin lane =>
      obtain ⟨id, job, queue, hidle, hqueue, rfl⟩ := begin_some hstep
      exact h.put ((h lane).begin hidle hqueue) fun _ _ => rfl
  | emit lane =>
      obtain ⟨running, event, rest, hrunning, hemit, rfl⟩ := emit_some hstep
      have hput := h.put ((h lane).emit hrunning hemit
        (running.submitted ++ List.range' machine.nextJob (design.react event).length))
        fun _ _ => rfl
      have hholds := (h lane).holds hdesign hrunning
      rw [hemit] at hholds
      intro other
      rw [foldl_submit_state, foldl_submit_lanes]
      exact (hput other).enqueue fun entry hmem =>
        hdesign.listeners lane event hholds.2.1 _ (mem_arrivals hmem)
  | reply lane call reply =>
      obtain ⟨running, resume, hrunning, hawait, hnext, hafter⟩ := reply_some hstep
      have hholds := (h lane).holds hdesign hrunning
      rw [hawait] at hholds
      rw [hafter]
      exact h.put ((h lane).reply hdesign hrunning hawait hnext) fun other hne =>
        hdesign.frame other lane _ _ _ _ hne hholds.2.1 hnext
  | finish lane =>
      obtain ⟨running, result, hrunning, hresult, rfl⟩ := finish_some hstep
      exact h.put ((h lane).finish hdesign hrunning hresult) fun _ _ => rfl

omit [DecidableEq κ] [DecidableEq Call] in
theorem create_serial (hrest : ∀ lane, iso.rest lane (iso.view lane initial)) :
    AllSerial design iso initial (.create initial) :=
  fun lane => ⟨fun _ hmem => (nomatch hmem), fun _ => ⟨.nil, hrest lane⟩,
    fun _ hrunning => (nomatch hrunning)⟩

/-- In every run each lane runs its jobs in isolation. -/
theorem serial_of_run {actions : List (LaneAction Answer Error κ Job)} (hdesign : Isolated design iso)
    (hrest : ∀ lane, iso.rest lane (iso.view lane initial))
    (h : Run (Machine.step design) (submitsFit iso) (.create initial) actions machine) :
    AllSerial design iso initial machine :=
  h.invariant (AllSerial design iso initial) (create_serial hrest)
    fun _ _ _ hserial hmeets hstep => hserial.step hdesign hmeets hstep

/-! ## Whatever the replies -/

/-- A view that shows nothing of the state. -/
def Isolation.blind (fits : κ → Job → Prop) : Isolation Answer Event Error κ Job σ Unit where
  view := fun _ _ => ()
  handle := fun _ _ _ _ => some ()
  footprint := fun _ => ⟨fun _ => True, fun _ => True⟩
  fits := fits
  rest := fun _ _ => True

omit [DecidableEq κ] [DecidableEq Call] in
theorem holds_blind {fits : κ → Job → Prop} (program : Program Answer Event Error Unit)
    (entries : List (Entry Answer Event Error)) :
    Holds (((Isolation.blind fits : Isolation Answer Event Error κ Job σ Unit)).handle lane)
      ((Isolation.blind fits : Isolation Answer Event Error κ Job σ Unit).footprint lane)
      (fun _ _ => True) (fun _ _ _ => True) program () entries := by
  induction program generalizing entries with
  | done value => exact ⟨trivial, trivial⟩
  | throw error => exact ⟨trivial, trivial⟩
  | emit event rest ih => exact ⟨trivial, trivial, ih _⟩
  | await call resume ih => exact ⟨trivial, trivial, fun reply _ _ => ih reply _⟩

omit [DecidableEq κ] [DecidableEq Call] in
theorem blind_isolated {fits : κ → Job → Prop}
    (hlisteners : ∀ event, ∀ target ∈ design.react event, fits target.1 target.2) :
    Isolated design (.blind fits) where
  own := fun _ _ _ _ _ _ _ => rfl
  frame := fun _ _ _ _ _ _ _ _ _ => rfl
  listeners := fun _ event _ => hlisteners event
  jobs := fun _ job _ _ _ => holds_blind (design.program job) []

end

end Async
