import VoiceOrder.RateLimit.Semaphore
import VoiceOrder.Shared.Runs

/-! # Conservation of the permits

Over any sequence of acquires, releases, expiries and aborts the permits in use are those of
the live holders, and a released permit goes to the caller that has waited longest. -/

namespace VoiceOrder.RateLimit

open Runs

/-- What happens to a semaphore. -/
inductive PermitCall where
  | acquire (deadlineAt : ℚ) (signal : AbortSignal)
  /-- A holder, or one that has held, calls its release closure. -/
  | release (caller : CallerId)
  /-- A deadline timer fires. -/
  | deadline (caller : CallerId)
  /-- An abort listener fires. -/
  | abort (caller : CallerId)

/-- A semaphore and the number of callers that have asked for a permit, in order. -/
structure Usage where
  semaphore : Semaphore
  callers : ℕ

namespace Usage

def create (permits : ℕ) (name : String) : Usage := ⟨.create permits name, 0⟩

/-- Only a granted caller has a closure to call; it may call it again. -/
def step (usage : Usage) : Clock × PermitCall → Option Usage
  | (clock, .acquire deadlineAt signal) =>
      some ⟨usage.semaphore.acquire clock usage.callers deadlineAt signal, usage.callers + 1⟩
  | (_, .release caller) =>
      if usage.semaphore.outcomes caller = some .granted then
        some { usage with semaphore := usage.semaphore.release caller }
      else none
  | (_, .deadline caller) => some { usage with semaphore := usage.semaphore.deadline caller }
  | (_, .abort caller) => some { usage with semaphore := usage.semaphore.abort caller }

/-- Every call may be made. -/
def anyCall (_ : Usage) (_ : Clock × PermitCall) : Prop := True

/-- The caller has asked for a permit and its promise is pending. -/
def Waits (usage : Usage) (caller : CallerId) : Prop :=
  caller < usage.callers ∧ usage.semaphore.outcomes caller = none

/-- The caller that has waited longest. -/
def Longest (usage : Usage) (caller : CallerId) : Prop :=
  usage.Waits caller ∧ ∀ other, usage.Waits other → caller ≤ other

/-- The permits in use are those of the holders, and callers wait only when all are in use. -/
structure Conserved (permits : ℕ) (usage : Usage) : Prop where
  pool : usage.semaphore.permits = permits
  inUse : usage.semaphore.used = (usage.semaphore.holders usage.callers).card
  bounded : usage.semaphore.used ≤ permits
  full : ∀ caller, usage.Waits caller → usage.semaphore.used = permits

/-- What releasing the permit of a caller does. -/
structure Hands (usage : Usage) (caller : CallerId) (after : Usage) : Prop where
  released : after.semaphore.released caller = true
  /-- A second release has no effect. -/
  again : usage.semaphore.released caller = true → after = usage
  /-- The permit goes to the caller that has waited longest, and to no other. -/
  handed : usage.semaphore.released caller = false → ∀ next, usage.Longest next →
    after.semaphore.outcomes = Function.update usage.semaphore.outcomes next (some .granted) ∧
      after.semaphore.used = usage.semaphore.used
  /-- A permit nobody waits for returns to the pool. -/
  freed : usage.semaphore.released caller = false → (∀ other, ¬usage.Waits other) →
    after.semaphore.outcomes = usage.semaphore.outcomes ∧
      after.semaphore.used = usage.semaphore.used - 1

/-- The caller waits and listens for the abort of its signal. -/
def Listens (usage : Usage) (caller : CallerId) : Prop :=
  ∃ waiter ∈ usage.semaphore.queue, waiter.caller = caller ∧ waiter.abortable = true

/-- What ends the wait of a caller: it is rejected, and no permit moves. -/
structure Rejects (usage : Usage) (caller : CallerId) (reason : RateLimitRejectReason)
    (after : Usage) : Prop where
  rejected : ∃ message, after.semaphore.outcomes =
    Function.update usage.semaphore.outcomes caller (some (.rejected ⟨reason, message⟩))
  used : after.semaphore.used = usage.semaphore.used

/-- A promise that has settled stays as it is, and a closure that was called stays called. -/
structure Settled (usage after : Usage) : Prop where
  promises : ∀ caller outcome, usage.semaphore.outcomes caller = some outcome →
    after.semaphore.outcomes caller = some outcome
  closures : ∀ caller, usage.semaphore.released caller = true →
    after.semaphore.released caller = true

/-- What keeps the account: the callers that wait are parked, in the order in which they
asked. -/
structure Fair (usage : Usage) : Prop where
  ok : usage.semaphore.Ok usage.callers
  bounded : usage.semaphore.used ≤ usage.semaphore.permits
  full : usage.semaphore.queue ≠ [] → usage.semaphore.used = usage.semaphore.permits
  parked : ∀ caller, usage.Waits caller → ∃ waiter ∈ usage.semaphore.queue, waiter.caller = caller
  sorted : (usage.semaphore.queue.map PermitWaiter.caller).Pairwise (· < ·)

theorem create_fair (permits : ℕ) (name : String) : (create permits name).Fair where
  ok := Semaphore.create_ok permits name
  bounded := Int.natCast_nonneg permits
  full := fun h => (h rfl).elim
  parked := fun _ h => (Nat.not_lt_zero _ h.1).elim
  sorted := .nil

section

variable {usage after : Usage} {caller : CallerId}

theorem Fair.waits (h : usage.Fair) {waiter : PermitWaiter} (hw : waiter ∈ usage.semaphore.queue) :
    usage.Waits waiter.caller :=
  ⟨(Semaphore.pending_of_mem h.ok hw).1, h.ok.pending waiter hw⟩

theorem Fair.conserved {permits : ℕ} (h : usage.Fair) (hpermits : usage.semaphore.permits = permits) :
    usage.Conserved permits where
  pool := hpermits
  inUse := h.ok.used
  bounded := hpermits ▸ h.bounded
  full := fun caller hwaits => by
    obtain ⟨waiter, hw, -⟩ := h.parked caller hwaits
    exact hpermits ▸ h.full (List.ne_nil_of_mem hw)

/-- The head of the queue has waited longest. -/
theorem Fair.longest (h : usage.Fair) {head : PermitWaiter} {rest : List PermitWaiter}
    (hqueue : usage.semaphore.queue = head :: rest) {next : CallerId} :
    usage.Longest next ↔ next = head.caller := by
  have hmem : head ∈ usage.semaphore.queue := hqueue ▸ List.mem_cons_self
  have hsorted := h.sorted
  rw [hqueue, List.map_cons, List.pairwise_cons] at hsorted
  have hfirst : ∀ other, usage.Waits other → head.caller ≤ other := by
    intro other hwaits
    obtain ⟨waiter, hw, rfl⟩ := h.parked other hwaits
    rw [hqueue] at hw
    cases hw with
    | head => exact le_rfl
    | tail _ hw => exact (hsorted.1 _ (List.mem_map_of_mem hw)).le
  constructor
  · intro hnext
    exact le_antisymm (hnext.2 _ (h.waits hmem)) (hfirst _ hnext.1)
  · intro hnext
    subst hnext
    exact ⟨h.waits hmem, hfirst⟩

theorem Fair.queue_eq_nil (h : usage.Fair) (hnone : ∀ other, ¬usage.Waits other) :
    usage.semaphore.queue = [] := by
  cases hqueue : usage.semaphore.queue with
  | nil => rfl
  | cons head rest => exact (hnone _ (h.waits (hqueue ▸ List.mem_cons_self))).elim

/-! ## The steps -/

/-- What an acquire comes to: a rejection, a grant, or a place at the end of the queue. -/
theorem acquire_cases {semaphore after : Semaphore} {clock : Clock} {deadlineAt : ℚ}
    {signal : AbortSignal} (h : semaphore.acquire clock caller deadlineAt signal = after) :
    (∃ error, after = semaphore.settlePromise caller (.rejected error)) ∨
      (semaphore.used < semaphore.permits ∧
        after = { semaphore with used := semaphore.used + 1 }.settlePromise caller .granted) ∨
      (semaphore.permits ≤ semaphore.used ∧ ∃ waiter : PermitWaiter, waiter.caller = caller ∧
        after = { semaphore with queue := semaphore.queue ++ [waiter] }) := by
  unfold Semaphore.acquire at h
  split at h
  · exact .inl ⟨_, h.symm⟩
  · split at h
    · exact .inr (.inl ⟨‹_›, h.symm⟩)
    · split at h
      · exact .inl ⟨_, h.symm⟩
      · exact .inr (.inr ⟨not_lt.mp ‹_›, _, rfl, h.symm⟩)

/-- A caller that waits after another has been settled waited before. -/
theorem Waits.of_settled (usage : Usage) {settled : CallerId} {outcome : PermitOutcome}
    (houtcomes : after.semaphore.outcomes =
      Function.update usage.semaphore.outcomes settled (some outcome))
    (h : after.Waits caller) :
    caller ≠ settled ∧ usage.semaphore.outcomes caller = none := by
  have hpending := h.2
  have hne : caller ≠ settled := by
    intro he
    simp [houtcomes, he] at hpending
  simp only [houtcomes, Function.update_of_ne hne] at hpending
  exact ⟨hne, hpending⟩

theorem acquire_fair (h : usage.Fair) (clock : Clock) (deadlineAt : ℚ) (signal : AbortSignal) :
    Fair ⟨usage.semaphore.acquire clock usage.callers deadlineAt signal, usage.callers + 1⟩ := by
  have hok := (Semaphore.acquire_spec h.ok.succ (Nat.lt_succ_self _)
    (h.ok.untouched _ le_rfl) clock deadlineAt signal).1
  have hbefore : ∀ {caller}, caller < usage.callers + 1 → caller ≠ usage.callers →
      usage.semaphore.outcomes caller = none →
      ∃ waiter ∈ usage.semaphore.queue, waiter.caller = caller := fun hlt hne hpending =>
    h.parked _ ⟨lt_of_le_of_ne (Nat.le_of_lt_succ hlt) hne, hpending⟩
  generalize hafter : usage.semaphore.acquire clock usage.callers deadlineAt signal = after at hok ⊢
  obtain ⟨error, rfl⟩ | ⟨hfree, rfl⟩ | ⟨hused, waiter, hwaiter, rfl⟩ := acquire_cases hafter
  · refine ⟨hok, h.bounded, h.full, fun caller hwaits => ?_, h.sorted⟩
    obtain ⟨hne, hpending⟩ := hwaits.of_settled usage rfl
    exact hbefore hwaits.1 hne hpending
  · refine ⟨hok, hfree, fun hqueue => absurd (h.full hqueue) hfree.ne, fun caller hwaits => ?_,
      h.sorted⟩
    obtain ⟨hne, hpending⟩ := hwaits.of_settled usage rfl
    exact hbefore hwaits.1 hne hpending
  · refine ⟨hok, h.bounded, fun _ => le_antisymm h.bounded hused, fun caller hwaits => ?_, ?_⟩
    · by_cases hne : caller = usage.callers
      · exact ⟨waiter, List.mem_append_right _ (List.mem_singleton_self _), hwaiter.trans hne.symm⟩
      · obtain ⟨other, hw, he⟩ := hbefore hwaits.1 hne hwaits.2
        exact ⟨other, List.mem_append_left _ hw, he⟩
    · simp only [List.map_append, List.map_singleton, hwaiter]
      rw [List.pairwise_append]
      refine ⟨h.sorted, List.pairwise_singleton _ _, fun a ha b hb => ?_⟩
      obtain ⟨other, hw, rfl⟩ := List.mem_map.mp ha
      exact List.mem_singleton.mp hb ▸ (h.waits hw).1

/-- What a release comes to. -/
theorem release_cases {semaphore after : Semaphore} (h : semaphore.release caller = after)
    (hreleased : semaphore.released caller = false) :
    (semaphore.queue = [] ∧ after =
        { semaphore with
          released := Function.update semaphore.released caller true
          used := semaphore.used - 1 }) ∨
      (∃ head rest, semaphore.queue = head :: rest ∧ after =
        { semaphore with
          released := Function.update semaphore.released caller true
          queue := rest }.settlePromise head.caller .granted) := by
  unfold Semaphore.release at h
  rw [if_neg (by simp [hreleased])] at h
  cases hqueue : semaphore.queue with
  | nil =>
      rw [hqueue] at h
      exact .inl ⟨rfl, h.symm⟩
  | cons head rest =>
      rw [hqueue] at h
      exact .inr ⟨head, rest, rfl, h.symm⟩

/-- A granted caller has asked. -/
theorem Fair.lt_callers (h : usage.Fair) (hgranted : usage.semaphore.outcomes caller = some .granted) :
    caller < usage.callers := by
  by_contra hle
  have hnone := (h.ok.untouched caller (not_lt.mp hle)).outcome
  simp [hgranted] at hnone

theorem release_fair (h : usage.Fair) (hgranted : usage.semaphore.outcomes caller = some .granted) :
    Fair { usage with semaphore := usage.semaphore.release caller } := by
  cases hreleased : usage.semaphore.released caller with
  | true =>
      have hsame : usage.semaphore.release caller = usage.semaphore := if_pos hreleased
      rwa [hsame]
  | false =>
      have hok := (Semaphore.release_spec h.ok (h.lt_callers hgranted) ⟨hgranted, hreleased⟩).1
      generalize hafter : usage.semaphore.release caller = after at hok ⊢
      obtain ⟨hqueue, rfl⟩ | ⟨head, rest, hqueue, rfl⟩ := release_cases hafter hreleased
      · refine ⟨hok, ?_, fun hne => absurd hqueue hne, h.parked, h.sorted⟩
        exact (Int.sub_le_self _ zero_le_one).trans h.bounded
      · have hsorted := h.sorted
        rw [hqueue, List.map_cons, List.pairwise_cons] at hsorted
        refine ⟨hok, h.bounded, fun _ => ?_, fun other hwaits => ?_, hsorted.2⟩
        · exact h.full (hqueue ▸ List.cons_ne_nil _ _)
        · obtain ⟨hne, hpending⟩ := hwaits.of_settled usage rfl
          obtain ⟨waiter, hw, rfl⟩ := h.parked other ⟨hwaits.1, hpending⟩
          rw [hqueue] at hw
          cases hw with
          | head => exact absurd rfl hne
          | tail _ hw => exact ⟨waiter, hw, rfl⟩

theorem fail_fair (h : usage.Fair) (caller : CallerId) (error : RateLimitTimeoutError) :
    Fair { usage with semaphore := usage.semaphore.fail caller error } := by
  have hok := (Semaphore.fail_spec h.ok caller error).1
  unfold Semaphore.fail at hok ⊢
  by_cases hany : (usage.semaphore.queue.any fun waiter => waiter.caller = caller) = true
  · rw [if_pos hany] at hok ⊢
    refine ⟨hok, h.bounded, fun hne => ?_, fun other hwaits => ?_, ?_⟩
    · exact h.full fun hnil => hne (by simp [Semaphore.settlePromise, hnil])
    · obtain ⟨hne, hpending⟩ := hwaits.of_settled usage rfl
      obtain ⟨waiter, hw, rfl⟩ := h.parked other ⟨hwaits.1, hpending⟩
      exact ⟨waiter, (List.mem_eraseP_of_neg (by simpa using hne)).mpr hw, rfl⟩
    · exact h.sorted.sublist (List.eraseP_sublist.map _)
  · rwa [if_neg hany]

theorem Fair.step {call : Clock × PermitCall} (h : usage.Fair)
    (hstep : usage.step call = some after) : after.Fair := by
  obtain ⟨clock, call⟩ := call
  cases call with
  | acquire deadlineAt signal =>
      cases hstep
      exact acquire_fair h clock deadlineAt signal
  | release caller =>
      simp only [Usage.step] at hstep
      split at hstep
      · cases hstep
        exact release_fair h ‹_›
      · cases hstep
  | deadline caller =>
      cases hstep
      exact fail_fair h caller _
  | abort caller =>
      cases hstep
      simp only [Semaphore.abort]
      split
      · exact fail_fair h caller _
      · exact h

theorem fair_run {calls : List (Clock × PermitCall)} (hrun : Run step anyCall usage calls after)
    (h : usage.Fair) : after.Fair :=
  hrun.invariant Fair h fun _ _ _ hfair _ hstep => hfair.step hstep

/-! ## What each call does -/

theorem Fair.hands {clock : Clock} (h : usage.Fair)
    (hstep : usage.step (clock, .release caller) = some after) : usage.Hands caller after := by
  simp only [Usage.step] at hstep
  split at hstep
  · rename_i hgranted
    cases hstep
    cases hreleased : usage.semaphore.released caller with
    | true =>
        have hsame : usage.semaphore.release caller = usage.semaphore := if_pos hreleased
        rw [hsame]
        refine ⟨hreleased, fun _ => rfl, fun hnot => ?_, fun hnot => ?_⟩ <;>
          exact absurd (hreleased.symm.trans hnot) (by decide)
    | false =>
        generalize hafter : usage.semaphore.release caller = after
        obtain ⟨hqueue, rfl⟩ | ⟨head, rest, hqueue, rfl⟩ := release_cases hafter hreleased
        · refine ⟨Function.update_self _ _ _, fun hyes => ?_, fun _ next hnext => ?_, fun _ _ =>
            ⟨rfl, rfl⟩⟩
          · exact absurd (hreleased.symm.trans hyes) (by decide)
          · obtain ⟨waiter, hw, -⟩ := h.parked next hnext.1
            rw [hqueue] at hw
            cases hw
        · refine ⟨Function.update_self _ _ _, fun hyes => ?_, fun _ next hnext => ?_, fun _ hnone =>
            ?_⟩
          · exact absurd (hreleased.symm.trans hyes) (by decide)
          · rw [(h.longest hqueue).mp hnext]
            exact ⟨rfl, rfl⟩
          · rw [h.queue_eq_nil hnone] at hqueue
            cases hqueue
  · cases hstep

theorem fail_rejects (reason : RateLimitRejectReason) (message : String)
    (hw : ∃ waiter ∈ usage.semaphore.queue, waiter.caller = caller) :
    usage.Rejects caller reason
      { usage with semaphore := usage.semaphore.fail caller ⟨reason, message⟩ } := by
  have hany : (usage.semaphore.queue.any fun waiter => waiter.caller = caller) = true := by
    simpa using hw
  unfold Semaphore.fail
  rw [if_pos hany]
  exact ⟨⟨message, rfl⟩, rfl⟩

theorem Fair.deadline_rejects {clock : Clock} (h : usage.Fair) (hwaits : usage.Waits caller)
    (hstep : usage.step (clock, .deadline caller) = some after) :
    usage.Rejects caller .deadline after := by
  cases hstep
  exact fail_rejects .deadline _ (h.parked caller hwaits)

theorem abort_rejects {clock : Clock} (hlistens : usage.Listens caller)
    (hstep : usage.step (clock, .abort caller) = some after) :
    usage.Rejects caller .aborted after := by
  cases hstep
  obtain ⟨waiter, hw, hcaller, habortable⟩ := hlistens
  have hany : (usage.semaphore.queue.any fun waiter =>
      waiter.caller = caller && waiter.abortable) = true :=
    List.any_eq_true.mpr ⟨waiter, hw, by simp [hcaller, habortable]⟩
  simp only [Semaphore.abort]
  rw [if_pos hany]
  exact fail_rejects .aborted _ ⟨waiter, hw, hcaller⟩

/-- A caller that asks while a permit is free gets it. -/
theorem acquire_grants {clock : Clock} {deadlineAt : ℚ} {signal : AbortSignal}
    (hfree : usage.semaphore.used < usage.semaphore.permits) (hsignal : signal ≠ some true)
    (hstep : usage.step (clock, .acquire deadlineAt signal) = some after) :
    after.semaphore.outcomes usage.callers = some .granted := by
  cases hstep
  simp only [Semaphore.acquire]
  rw [if_neg hsignal, if_pos hfree]
  exact Function.update_self _ _ _

theorem Settled.refl (usage : Usage) : usage.Settled usage := ⟨fun _ _ h => h, fun _ h => h⟩

theorem Settled.trans {middle last : Usage} (h : usage.Settled middle) (hlater : middle.Settled last) :
    usage.Settled last :=
  ⟨fun caller outcome hsettled => hlater.promises caller outcome (h.promises caller outcome hsettled),
    fun caller hcalled => hlater.closures caller (h.closures caller hcalled)⟩

theorem acquire_settled (h : usage.Fair) (clock : Clock) (deadlineAt : ℚ) (signal : AbortSignal) :
    usage.Settled ⟨usage.semaphore.acquire clock usage.callers deadlineAt signal,
      usage.callers + 1⟩ ∧
      (usage.semaphore.acquire clock usage.callers deadlineAt signal).permits =
        usage.semaphore.permits := by
  have hkeeps := (Semaphore.acquire_spec h.ok.succ (Nat.lt_succ_self _)
    (h.ok.untouched _ le_rfl) clock deadlineAt signal).2.1
  generalize hafter : usage.semaphore.acquire clock usage.callers deadlineAt signal = after at hkeeps ⊢
  refine ⟨⟨hkeeps.settled, fun other hcalled => ?_⟩, ?_⟩ <;>
    obtain ⟨error, rfl⟩ | ⟨-, rfl⟩ | ⟨-, waiter, -, rfl⟩ := acquire_cases hafter
  · exact hcalled
  · exact hcalled
  · exact hcalled
  · rfl
  · rfl
  · rfl

theorem release_settled (h : usage.Fair)
    (hgranted : usage.semaphore.outcomes caller = some .granted) :
    usage.Settled { usage with semaphore := usage.semaphore.release caller } ∧
      (usage.semaphore.release caller).permits = usage.semaphore.permits := by
  cases hreleased : usage.semaphore.released caller with
  | true =>
      have hsame : usage.semaphore.release caller = usage.semaphore := if_pos hreleased
      rw [hsame]
      exact ⟨.refl usage, rfl⟩
  | false =>
      obtain ⟨-, hkeeps, hflag⟩ :=
        Semaphore.release_spec h.ok (h.lt_callers hgranted) ⟨hgranted, hreleased⟩
      refine ⟨⟨hkeeps.settled, fun other hcalled => ?_⟩, ?_⟩
      · by_cases hne : other = caller
        · exact hne ▸ hflag
        · exact (hkeeps.released other fun he => hne (Option.some.inj he).symm).trans hcalled
      · generalize hafter : usage.semaphore.release caller = after
        obtain ⟨-, rfl⟩ | ⟨head, rest, -, rfl⟩ := release_cases hafter hreleased <;> rfl

theorem fail_settled (h : usage.Fair) (caller : CallerId) (error : RateLimitTimeoutError) :
    usage.Settled { usage with semaphore := usage.semaphore.fail caller error } ∧
      (usage.semaphore.fail caller error).permits = usage.semaphore.permits := by
  have hkeeps := (Semaphore.fail_spec h.ok caller error).2
  refine ⟨⟨hkeeps.settled, fun other hcalled => ?_⟩, ?_⟩
  · exact (hkeeps.released other nofun).trans hcalled
  · unfold Semaphore.fail
    split <;> rfl

/-- No call changes a settled promise, or the number of permits. -/
theorem Fair.settled {call : Clock × PermitCall} (h : usage.Fair)
    (hstep : usage.step call = some after) :
    usage.Settled after ∧ after.semaphore.permits = usage.semaphore.permits := by
  obtain ⟨clock, call⟩ := call
  cases call with
  | acquire deadlineAt signal =>
      cases hstep
      exact acquire_settled h clock deadlineAt signal
  | release caller =>
      simp only [Usage.step] at hstep
      split at hstep
      · cases hstep
        exact release_settled h ‹_›
      · cases hstep
  | deadline caller =>
      cases hstep
      exact fail_settled h caller _
  | abort caller =>
      cases hstep
      simp only [Semaphore.abort]
      split
      · exact fail_settled h caller _
      · exact ⟨.refl usage, rfl⟩

theorem settled_run {calls : List (Clock × PermitCall)} (hrun : Run step anyCall usage calls after)
    (h : usage.Fair) :
    usage.Settled after ∧ after.semaphore.permits = usage.semaphore.permits := by
  apply hrun.relates Fair (fun usage after => usage.Settled after ∧
    after.semaphore.permits = usage.semaphore.permits) h
  · intro state call next hfair _ hstep
    exact ⟨hfair.step hstep, hfair.settled hstep⟩
  · exact fun state => ⟨.refl state, rfl⟩
  · intro first second third hfirst hsecond
    exact ⟨hfirst.1.trans hsecond.1, hsecond.2.trans hfirst.2⟩

/-! ## Whole runs -/

/-- Over every run: the permits in use are those of the holders and never exceed the pool;
callers wait only while all are in use, and one that asks while a permit is free gets it; a
release serves the caller that has waited longest, and a second one has no effect; a caller that
timed out or was aborted is rejected for good. -/
theorem permits_conserved {permits : ℕ} {name : String} {calls : List (Clock × PermitCall)}
    (h : Run step anyCall (create permits name) calls usage) :
    usage.Conserved permits ∧
      (∀ clock caller after, usage.step (clock, .release caller) = some after →
        usage.Hands caller after) ∧
      (∀ clock deadlineAt signal after, usage.step (clock, .acquire deadlineAt signal) = some after →
        usage.semaphore.used < permits → signal ≠ some true →
        after.semaphore.outcomes usage.callers = some .granted) ∧
      (∀ clock caller after, usage.step (clock, .deadline caller) = some after →
        usage.Waits caller → usage.Rejects caller .deadline after) ∧
      (∀ clock caller after, usage.step (clock, .abort caller) = some after →
        usage.Listens caller → usage.Rejects caller .aborted after) ∧
      (∀ later after, Run step anyCall usage later after → usage.Settled after) := by
  have hfair := fair_run h (create_fair permits name)
  have hpermits : usage.semaphore.permits = permits := (settled_run h (create_fair permits name)).2
  refine ⟨hfair.conserved hpermits, fun clock caller after hstep => hfair.hands hstep, ?_, ?_, ?_,
    ?_⟩
  · intro clock deadlineAt signal after hstep hfree hsignal
    exact acquire_grants (hpermits ▸ hfree) hsignal hstep
  · intro clock caller after hstep hwaits
    exact hfair.deadline_rejects hwaits hstep
  · intro clock caller after hstep hlistens
    exact abort_rejects hlistens hstep
  · intro later after hrun
    exact (settled_run hrun hfair).1

end

instance (usage : Usage) (call : Clock × PermitCall) : Decidable (usage.anyCall call) :=
  inferInstanceAs (Decidable True)

/-- One permit and three callers: the second times out, so the first hands its permit to the
third, and its second release has no effect. -/
def handoverCalls : List (Clock × PermitCall) :=
  [.acquire 100 none, .acquire 100 none, .acquire 100 (some false), .deadline 1, .release 0,
    .release 0].map fun call => (fun _ => 0, call)

theorem permits_conserved_handover :
    ∃ usage : Usage, usage.semaphore.outcomes 2 = some .granted ∧ usage.Conserved 1 := by
  have hexec : ∃ usage, Run step anyCall (create 1 "stt") handoverCalls usage ∧
      decide (usage.semaphore.outcomes 2 = some .granted) = true :=
    exists_run (by decide +kernel)
  obtain ⟨usage, hrun, hgranted⟩ := hexec
  exact ⟨usage, of_decide_eq_true hgranted, (permits_conserved hrun).1⟩

end Usage

end VoiceOrder.RateLimit
