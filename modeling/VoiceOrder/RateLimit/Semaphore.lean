import VoiceOrder.RateLimit.Types
import Mathlib.Data.Finset.Card
import Mathlib.Data.Finset.Range
import Mathlib.Logic.Function.Basic

/-! # The counting semaphore

A released permit is handed straight to the head of the queue. A caller acquires at most
once, so it also names its promise and the release closure it may get. -/

namespace VoiceOrder.RateLimit

/-- A caller of the semaphore. -/
abbrev CallerId := ℕ

structure PermitWaiter where
  caller : CallerId
  /-- The delay its deadline timer was armed with. -/
  deadlineDelay : ℚ
  /-- It listens for the abort of its signal. -/
  abortable : Bool
  deriving DecidableEq, Repr

/-- How an acquire of a permit ended. A granted one resolves with a release closure. -/
inductive PermitOutcome where
  | granted
  | rejected (error : RateLimitTimeoutError)
  deriving DecidableEq, Repr

structure Semaphore where
  permits : ℕ
  name : String
  /-- Permits held by live callers. -/
  used : ℤ
  queue : List PermitWaiter
  /-- The settled promises, by caller. -/
  outcomes : CallerId → Option PermitOutcome
  /-- The flag of each release closure. -/
  released : CallerId → Bool

namespace Semaphore

def create (permits : ℕ) (name : String) : Semaphore where
  permits := permits
  name := name
  used := 0
  queue := []
  outcomes := fun _ => none
  released := fun _ => false

def settlePromise (caller : CallerId) (outcome : PermitOutcome) (semaphore : Semaphore) :
    Semaphore :=
  { semaphore with outcomes := Function.update semaphore.outcomes caller (some outcome) }

/-- Take a permit, waiting up to the absolute `deadlineAt`. -/
def acquire (clock : Clock) (caller : CallerId) (deadlineAt : ℚ) (signal : AbortSignal)
    (semaphore : Semaphore) : Semaphore :=
  if signal = some true then
    semaphore.settlePromise caller
      (.rejected ⟨.aborted, semaphore.name ++ ": aborted before a permit was granted"⟩)
  else if semaphore.used < semaphore.permits then
    { semaphore with used := semaphore.used + 1 }.settlePromise caller .granted
  else if maxQueuedWaiters ≤ semaphore.queue.length then
    semaphore.settlePromise caller
      (.rejected ⟨.queueFull, semaphore.name ++ ": concurrency queue is full"⟩)
  else
    let waiter : PermitWaiter := ⟨caller, max 0 (deadlineAt - clock 0), signal.isSome⟩
    { semaphore with queue := semaphore.queue ++ [waiter] }

/-- Hand the permit back. Releasing twice must not inflate the permit pool. -/
def release (caller : CallerId) (semaphore : Semaphore) : Semaphore :=
  if semaphore.released caller then semaphore
  else
    let flagged := { semaphore with released := Function.update semaphore.released caller true }
    match semaphore.queue with
    | [] => { flagged with used := flagged.used - 1 }
    -- Direct handoff: the permit never returns to the pool.
    | next :: rest => { flagged with queue := rest }.settlePromise next.caller .granted

/-- A dead waiter does not stay in line; one already granted is left alone. -/
def fail (caller : CallerId) (error : RateLimitTimeoutError) (semaphore : Semaphore) : Semaphore :=
  if semaphore.queue.any (fun waiter => waiter.caller = caller) then
    { semaphore with
      queue := semaphore.queue.eraseP (fun waiter => waiter.caller = caller) }.settlePromise caller
        (.rejected error)
  else semaphore

/-- The deadline timer of a parked caller fires. -/
def deadline (caller : CallerId) (semaphore : Semaphore) : Semaphore :=
  semaphore.fail caller ⟨.deadline, semaphore.name ++ ": timed out waiting for a permit"⟩

/-- The abort listener of a parked caller fires. -/
def abort (caller : CallerId) (semaphore : Semaphore) : Semaphore :=
  if semaphore.queue.any (fun waiter => waiter.caller = caller && waiter.abortable) then
    semaphore.fail caller
      ⟨.aborted, semaphore.name ++ ": aborted while waiting for a permit"⟩
  else semaphore

/-! ## The permits in use -/

/-- The caller was granted a permit and has not released it. -/
def Holds (semaphore : Semaphore) (caller : CallerId) : Prop :=
  semaphore.outcomes caller = some .granted ∧ semaphore.released caller = false

instance (semaphore : Semaphore) (caller : CallerId) : Decidable (semaphore.Holds caller) :=
  inferInstanceAs (Decidable (_ ∧ _))

/-- Among the first `n` callers, the ones that hold a permit. -/
def holders (n : ℕ) (semaphore : Semaphore) : Finset CallerId :=
  (Finset.range n).filter semaphore.Holds

@[simp] theorem mem_holders {n : ℕ} {semaphore : Semaphore} {caller : CallerId} :
    caller ∈ semaphore.holders n ↔ caller < n ∧ semaphore.Holds caller := by
  simp [holders]

/-- A caller that has not asked for a permit yet. -/
structure Untouched (semaphore : Semaphore) (caller : CallerId) : Prop where
  outcome : semaphore.outcomes caller = none
  released : semaphore.released caller = false
  queue : ∀ waiter ∈ semaphore.queue, waiter.caller ≠ caller

/-- The permits in use are those held by the first `n` callers; no other has asked. A parked
caller is pending and parked once, and only a granted one has a closure to call. -/
structure Ok (n : ℕ) (semaphore : Semaphore) : Prop where
  used : semaphore.used = (semaphore.holders n).card
  untouched : ∀ caller, n ≤ caller → semaphore.Untouched caller
  pending : ∀ waiter ∈ semaphore.queue, semaphore.outcomes waiter.caller = none
  nodup : (semaphore.queue.map PermitWaiter.caller).Nodup
  granted : ∀ caller, semaphore.released caller = true → semaphore.outcomes caller = some .granted

theorem create_ok (permits : ℕ) (name : String) : (create permits name).Ok 0 := by
  refine ⟨rfl, fun _ _ => ⟨rfl, rfl, by simp [create]⟩, by simp [create], List.nodup_nil, ?_⟩
  intro caller h
  cases h

/-- One more caller, who has not asked yet. -/
theorem Ok.succ {n : ℕ} {semaphore : Semaphore} (h : semaphore.Ok n) : semaphore.Ok (n + 1) := by
  have hsame : semaphore.holders (n + 1) = semaphore.holders n := by
    ext caller
    simp only [mem_holders]
    constructor
    · rintro ⟨hlt, hholds⟩
      refine ⟨?_, hholds⟩
      by_contra hle
      have := (h.untouched caller (not_lt.mp hle)).outcome
      rw [hholds.1] at this
      cases this
    · rintro ⟨hlt, hholds⟩
      exact ⟨hlt.trans (Nat.lt_succ_self n), hholds⟩
  exact ⟨hsame ▸ h.used, fun caller hle => h.untouched caller (Nat.le_of_succ_le hle), h.pending,
    h.nodup, h.granted⟩

/-- What a step leaves alone: settled promises, and the closures and the silence of every
caller but `mover`. -/
structure Keeps (mover : Option CallerId) (semaphore after : Semaphore) : Prop where
  settled : ∀ caller outcome, semaphore.outcomes caller = some outcome →
    after.outcomes caller = some outcome
  released : ∀ caller, mover ≠ some caller → after.released caller = semaphore.released caller
  untouched : ∀ caller, mover ≠ some caller → semaphore.Untouched caller → after.Untouched caller

theorem Keeps.refl (mover : Option CallerId) (semaphore : Semaphore) :
    Keeps mover semaphore semaphore :=
  ⟨fun _ _ h => h, fun _ _ => rfl, fun _ _ h => h⟩

section

variable {n : ℕ} {semaphore : Semaphore} {caller : CallerId}

/-- Settling a pending promise touches no other. -/
theorem settlePromise_keeps (outcome : PermitOutcome) (h : semaphore.outcomes caller = none) :
    Keeps (some caller) semaphore (semaphore.settlePromise caller outcome) := by
  refine ⟨fun other settled hsettled => ?_, fun _ _ => rfl, fun other hne hother =>
    ⟨?_, hother.released, hother.queue⟩⟩
  · have hne : other ≠ caller := by
      rintro rfl
      rw [h] at hsettled
      cases hsettled
    simpa [settlePromise, hne] using hsettled
  · have hne : other ≠ caller := fun he => hne (congrArg some he.symm)
    simpa [settlePromise, hne] using hother.outcome

/-- A caller beyond the first `n` is not the one that moved. -/
theorem ne_of_le {other : CallerId} (hcaller : caller < n) (hother : n ≤ other) :
    some caller ≠ some other :=
  fun he => absurd (Option.some.inj he) (lt_of_lt_of_le hcaller hother).ne

/-- Granting a permit to a pending caller adds it to the holders. -/
theorem holders_grant (hcaller : caller < n) (hpending : semaphore.outcomes caller = none)
    (hreleased : semaphore.released caller = false) :
    (semaphore.settlePromise caller .granted).holders n = insert caller (semaphore.holders n) ∧
      caller ∉ semaphore.holders n := by
  refine ⟨?_, by simp [Holds, hpending]⟩
  ext other
  by_cases hother : other = caller
  · subst hother
    simp [Holds, settlePromise, hcaller, hreleased]
  · simp [Holds, settlePromise, hother]

theorem holders_reject (error : RateLimitTimeoutError) (hpending : semaphore.outcomes caller = none) :
    (semaphore.settlePromise caller (.rejected error)).holders n = semaphore.holders n := by
  ext other
  by_cases hother : other = caller
  · subst hother
    simp [Holds, settlePromise, hpending]
  · simp [Holds, settlePromise, hother]

/-- Rejecting a pending promise that is not parked keeps the account of the permits. -/
theorem Ok.reject (h : semaphore.Ok n) (hcaller : caller < n)
    (hpending : semaphore.outcomes caller = none)
    (hqueue : ∀ waiter ∈ semaphore.queue, waiter.caller ≠ caller) (error : RateLimitTimeoutError) :
    (semaphore.settlePromise caller (.rejected error)).Ok n := by
  have hkeeps := settlePromise_keeps (.rejected error) hpending
  refine ⟨?_, ?_, ?_, h.nodup, ?_⟩
  · rw [holders_reject error hpending]
    exact h.used
  · exact fun other hother => hkeeps.untouched other (ne_of_le hcaller hother) (h.untouched other hother)
  · intro waiter hw
    simpa [settlePromise, hqueue waiter hw] using h.pending waiter hw
  · exact fun other hother => hkeeps.settled other _ (h.granted other hother)

theorem acquire_spec (h : semaphore.Ok n) (hcaller : caller < n)
    (huntouched : semaphore.Untouched caller) (clock : Clock) (deadlineAt : ℚ)
    (signal : AbortSignal) :
    (semaphore.acquire clock caller deadlineAt signal).Ok n ∧
      Keeps (some caller) semaphore (semaphore.acquire clock caller deadlineAt signal) ∧
      (semaphore.acquire clock caller deadlineAt signal).released caller = false := by
  have hpending := huntouched.outcome
  unfold acquire
  split
  · exact ⟨h.reject hcaller hpending huntouched.queue _, settlePromise_keeps _ hpending,
      huntouched.released⟩
  · split
    · have hkeeps := settlePromise_keeps .granted hpending
      obtain ⟨hholders, hnot⟩ := holders_grant hcaller hpending huntouched.released
      refine ⟨⟨?_, ?_, ?_, h.nodup, ?_⟩, ⟨hkeeps.settled, hkeeps.released, ?_⟩,
        huntouched.released⟩
      · change semaphore.used + 1 = ((semaphore.settlePromise caller .granted).holders n).card
        rw [hholders, Finset.card_insert_of_notMem hnot, h.used]
        rfl
      · intro other hother
        have := hkeeps.untouched other (ne_of_le hcaller hother) (h.untouched other hother)
        exact ⟨this.outcome, this.released, this.queue⟩
      · intro waiter hw
        simpa [settlePromise, huntouched.queue waiter hw] using h.pending waiter hw
      · exact fun other hother => hkeeps.settled other _ (h.granted other hother)
      · intro other hne hother
        have := hkeeps.untouched other hne hother
        exact ⟨this.outcome, this.released, this.queue⟩
    · split
      · exact ⟨h.reject hcaller hpending huntouched.queue _, settlePromise_keeps _ hpending,
          huntouched.released⟩
      · refine ⟨⟨h.used, ?_, ?_, ?_, h.granted⟩, ⟨fun _ _ hs => hs, fun _ _ => rfl, ?_⟩,
          huntouched.released⟩
        · intro other hother
          have hu := h.untouched other hother
          refine ⟨hu.outcome, hu.released, fun waiter hw => ?_⟩
          rcases List.mem_append.mp hw with hw | hw
          · exact hu.queue waiter hw
          · rw [List.mem_singleton.mp hw]
            exact (lt_of_lt_of_le hcaller hother).ne
        · intro waiter hw
          rcases List.mem_append.mp hw with hw | hw
          · exact h.pending waiter hw
          · rw [List.mem_singleton.mp hw]
            exact hpending
        · rw [List.map_append, List.nodup_append]
          refine ⟨h.nodup, by simp, ?_⟩
          rintro a ha b hb rfl
          obtain ⟨waiter, hw, rfl⟩ := List.mem_map.mp ha
          exact huntouched.queue waiter hw (by simpa using hb)
        · intro other hne hu
          refine ⟨hu.outcome, hu.released, fun waiter hw => ?_⟩
          rcases List.mem_append.mp hw with hw | hw
          · exact hu.queue waiter hw
          · rw [List.mem_singleton.mp hw]
            exact fun he => hne (congrArg some he)

/-- Taking the promise of a parked caller out of the queue and settling it. -/
theorem pending_of_mem (h : semaphore.Ok n) {waiter : PermitWaiter}
    (hw : waiter ∈ semaphore.queue) :
    waiter.caller < n ∧ semaphore.outcomes waiter.caller = none ∧
      semaphore.released waiter.caller = false := by
  have hpending := h.pending waiter hw
  refine ⟨?_, hpending, ?_⟩
  · by_contra hn
    exact (h.untouched waiter.caller (not_lt.mp hn)).queue waiter hw rfl
  · cases hr : semaphore.released waiter.caller with
    | false => rfl
    | true =>
        rw [h.granted _ hr] at hpending
        cases hpending

/-- A failing waiter leaves the queue with its promise rejected; every other caller, and
one that is not parked, is left alone. -/
theorem fail_spec (h : semaphore.Ok n) (caller : CallerId) (error : RateLimitTimeoutError) :
    (semaphore.fail caller error).Ok n ∧ Keeps none semaphore (semaphore.fail caller error) := by
  unfold fail
  split
  · rename_i hany
    obtain ⟨waiter, hw, hcaller⟩ := List.any_eq_true.mp hany
    have hcaller : waiter.caller = caller := of_decide_eq_true hcaller
    obtain ⟨hlt, hpending, -⟩ := pending_of_mem h hw
    rw [hcaller] at hlt hpending
    have hmem : ∀ {other}, other ∈ semaphore.queue.eraseP (fun waiter => waiter.caller = caller) →
        other ∈ semaphore.queue := List.mem_of_mem_eraseP
    have hkeeps := settlePromise_keeps (.rejected error) hpending
    refine ⟨⟨?_, ?_, ?_, ?_, ?_⟩, ⟨hkeeps.settled, fun _ _ => rfl, ?_⟩⟩
    · exact (congrArg (fun held : Finset CallerId => (held.card : ℤ))
        (holders_reject error hpending)).symm ▸ h.used
    · intro other hother
      have := hkeeps.untouched other (ne_of_le hlt hother) (h.untouched other hother)
      exact ⟨this.outcome, this.released, fun w hw => this.queue w (hmem hw)⟩
    · intro other hother
      have hne : other.caller ≠ caller := ne_of_mem_eraseP h.nodup hother
      simpa [settlePromise, hne] using h.pending other (hmem hother)
    · exact h.nodup.sublist (List.eraseP_sublist.map _)
    · exact fun other hother => hkeeps.settled other _ (h.granted other hother)
    · intro other _ hother
      have hne : some caller ≠ some other := by
        rintro ⟨⟩
        exact hother.queue waiter hw hcaller
      have := hkeeps.untouched other hne hother
      exact ⟨this.outcome, this.released, fun w hw => this.queue w (hmem hw)⟩
  · exact ⟨h, .refl none semaphore⟩

/-- The semaphore with the flag of a closure set. -/
def flag (caller : CallerId) (semaphore : Semaphore) : Semaphore :=
  { semaphore with released := Function.update semaphore.released caller true }

/-- Setting the flag of a holder takes it out of the holders. -/
theorem holders_flag : (semaphore.flag caller).holders n = (semaphore.holders n).erase caller := by
  ext other
  by_cases hother : other = caller
  · subst hother
    simp [Holds, flag]
  · simp [Holds, flag, hother]

/-- Releasing a held permit: the caller stops holding it, and the head of the queue, if
any, starts. -/
theorem release_spec (h : semaphore.Ok n) (hcaller : caller < n) (hholds : semaphore.Holds caller) :
    (semaphore.release caller).Ok n ∧
      Keeps (some caller) semaphore (semaphore.release caller) ∧
      (semaphore.release caller).released caller = true := by
  have hmem : caller ∈ semaphore.holders n := mem_holders.mpr ⟨hcaller, hholds⟩
  have hcard := Finset.card_pos.mpr ⟨caller, hmem⟩
  have herase := Finset.card_erase_of_mem hmem
  have hflag : (semaphore.flag caller).released caller = true := by simp [flag]
  have hgranted : ∀ other, (semaphore.flag caller).released other = true →
      semaphore.outcomes other = some .granted := by
    intro other hother
    by_cases hne : other = caller
    · exact hne ▸ hholds.1
    · exact h.granted other (by simpa [flag, hne] using hother)
  have hflagKeeps : Keeps (some caller) semaphore (semaphore.flag caller) := by
    refine ⟨fun _ _ hs => hs, fun other hne => ?_, fun other hne hu => ⟨hu.outcome, ?_, hu.queue⟩⟩
    · exact Function.update_of_ne (fun he => hne (congrArg some he.symm)) _ _
    · exact (Function.update_of_ne (fun he => hne (congrArg some he.symm)) _ _).trans hu.released
  unfold release
  rw [if_neg (by simp [hholds.2])]
  cases hqueue : semaphore.queue with
  | nil =>
      simp only
      refine ⟨⟨?_, ?_, fun _ hw => (nomatch hw), List.nodup_nil, hgranted⟩,
        ⟨hflagKeeps.settled, hflagKeeps.released, ?_⟩,
        hflag⟩
      · change semaphore.used - 1 = (((semaphore.flag caller).holders n).card : ℤ)
        rw [holders_flag, herase, h.used]
        omega
      · intro other hother
        have := hflagKeeps.untouched other (ne_of_le hcaller hother) (h.untouched other hother)
        exact ⟨this.outcome, this.released, fun _ hw => nomatch hw⟩
      · intro other hne hu
        have := hflagKeeps.untouched other hne hu
        exact ⟨this.outcome, this.released, fun _ hw => nomatch hw⟩
  | cons next rest =>
      simp only
      obtain ⟨hlt, hpending, hreleased⟩ := pending_of_mem h (hqueue ▸ List.mem_cons_self)
      have hnodup := h.nodup
      rw [hqueue, List.map_cons, List.nodup_cons] at hnodup
      have hne : next.caller ≠ caller := by
        rintro he
        rw [he, hholds.1] at hpending
        cases hpending
      have hunflagged : (semaphore.flag caller).released next.caller = false :=
        (Function.update_of_ne hne _ _).trans hreleased
      have hpendingFlag : (semaphore.flag caller).outcomes next.caller = none := hpending
      have hkeeps := settlePromise_keeps .granted hpendingFlag
      have hsettled : ∀ other outcome, semaphore.outcomes other = some outcome →
          ((semaphore.flag caller).settlePromise next.caller .granted).outcomes other =
            some outcome := hkeeps.settled
      have hrest : ∀ {waiter}, waiter ∈ rest → waiter ∈ semaphore.queue := fun hw =>
        hqueue ▸ List.mem_cons_of_mem _ hw
      refine ⟨⟨?_, ?_, ?_, hnodup.2, fun other hother => hsettled _ _ (hgranted other hother)⟩,
        ⟨hsettled, hflagKeeps.released, ?_⟩, hflag⟩
      · change semaphore.used =
          ((((semaphore.flag caller).settlePromise next.caller .granted).holders n).card : ℤ)
        obtain ⟨hholders, hnot⟩ := holders_grant hlt hpendingFlag hunflagged
        rw [hholders, Finset.card_insert_of_notMem hnot, holders_flag, herase, h.used]
        omega
      · intro other hother
        have hflagged := hflagKeeps.untouched other (ne_of_le hcaller hother)
          (h.untouched other hother)
        have := hkeeps.untouched other (ne_of_le hlt hother) hflagged
        exact ⟨this.outcome, this.released, fun w hw => hflagged.queue w (hrest hw)⟩
      · intro waiter hw
        have hother : waiter.caller ≠ next.caller := fun he =>
          hnodup.1 (List.mem_map.mpr ⟨waiter, hw, he⟩)
        exact (Function.update_of_ne hother _ _).trans (h.pending waiter (hrest hw))
      · intro other hother hu
        have hflagged := hflagKeeps.untouched other hother hu
        have hnext : some next.caller ≠ some other := by
          rintro ⟨⟩
          exact hu.queue next (hqueue ▸ List.mem_cons_self) rfl
        have := hkeeps.untouched other hnext hflagged
        exact ⟨this.outcome, this.released, fun w hw => hflagged.queue w (hrest hw)⟩

end

end Semaphore

end VoiceOrder.RateLimit
