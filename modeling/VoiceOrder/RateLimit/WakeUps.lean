import VoiceOrder.RateLimit.Rescheduling
import VoiceOrder.Shared.Runs

/-! # The wake-up timer of a bucket

The bucket with the timers that it has left with the runtime. A step that reschedules clears the
timer it has the handle of and sets a new one. -/

namespace VoiceOrder.RateLimit

open Runs

structure WakingBucket where
  bucket : TokenBucket
  /-- The handle of the timer that the bucket believes armed. -/
  timer : Option ℕ
  /-- The timers that will fire. -/
  alarms : List Alarm
  nextHandle : ℕ

namespace WakingBucket

def create (plan : BucketPlan) (now : ℚ) : WakingBucket where
  bucket := .create plan now
  timer := none
  alarms := []
  nextHandle := 0

/-- Clear the timer of the handle and set the one that a `reschedule` on these readings arms. -/
def rearm (clock : Clock) (rescheduled : TokenBucket) (waking : WakingBucket) : WakingBucket :=
  let kept := waking.alarms.filter fun alarm => waking.timer ≠ some alarm.handle
  match rescheduled.timer with
  | none => { waking with bucket := rescheduled, timer := none, alarms := kept }
  | some delay =>
      { bucket := rescheduled
        timer := some waking.nextHandle
        alarms := kept ++ [⟨waking.nextHandle, clock 0, clock 1, clock 1 + delay⟩]
        nextHandle := waking.nextHandle + 1 }

inductive Action where
  /-- Any call but that of the wake-up timer. -/
  | call (clock : Clock) (call : TokenBucket.Call)
  /-- The runtime fires one of its timers. -/
  | fires (clock : Clock) (handle : ℕ)

def step (waking : WakingBucket) : Action → Option WakingBucket
  | .call clock call =>
      if call = .timer then none
      else
        match waking.bucket.rescheduling clock call with
        | none => some { waking with bucket := waking.bucket.step clock call }
        | some readings => some (waking.rearm readings (waking.bucket.step clock call))
  | .fires clock handle =>
      if waking.alarms.any (fun alarm => alarm.handle = handle) then
        let fired :=
          { waking with
            timer := none
            alarms := waking.alarms.filter fun alarm => alarm.handle ≠ handle }
        some (fired.rearm clock ({ waking.bucket with timer := none }.reschedule clock))
      else none

def Action.clock : Action → Clock
  | .call clock _ | .fires clock _ => clock

/-- The readings that the `reschedule` of a step takes, if it comes to one. -/
def readings (waking : WakingBucket) : Action → Option Clock
  | .call clock call => waking.bucket.rescheduling clock call
  | .fires clock _ => some clock

def Action.isFiring : Action → Bool
  | .call _ _ => false
  | .fires _ _ => true

/-- What a monotone clock gives: the readings of a call do not decrease, and they do not fall
behind the mark of the last refill. -/
def Forward (waking : WakingBucket) (action : Action) : Prop :=
  (∀ i j, i ≤ j → action.clock i ≤ action.clock j) ∧ waking.bucket.lastRefillAt ≤ action.clock 0

end WakingBucket

/-! ## Every run -/

namespace WakingBucket

/-- Nobody waits and no timer is armed, or one is armed in time for the head. -/
structure Watched (plan : BucketPlan) (waking : WakingBucket) : Prop where
  plan : waking.bucket.plan = plan
  ok : waking.bucket.Ok
  promised : waking.bucket.Promised
  idle : waking.bucket.queue = [] → waking.alarms = []
  awaited : ∀ head rest, waking.bucket.queue = head :: rest → ∃ alarm, waking.alarms = [alarm] ∧
    waking.timer = some alarm.handle ∧ waking.bucket.Timely head alarm

section

variable {plan : BucketPlan} {waking after : WakingBucket} {action : Action} {clock : Clock}
  {head : Waiter} {rest : List Waiter} {changed : TokenBucket}

theorem create_watched (plan : BucketPlan) (now : ℚ) : (create plan now).Watched plan :=
  ⟨rfl, TokenBucket.create_ok plan now, TokenBucket.create_promised plan now, fun _ => rfl,
    fun _ _ h => nomatch h⟩

/-- The one timer that may be armed is the one that is cleared. -/
theorem Watched.cleared (h : waking.Watched plan) :
    waking.alarms.filter (fun alarm => waking.timer ≠ some alarm.handle) = [] := by
  cases hqueue : waking.bucket.queue with
  | nil => rw [h.idle hqueue, List.filter_nil]
  | cons head rest =>
      obtain ⟨alarm, halarms, htimer, -⟩ := h.awaited head rest hqueue
      simp [halarms, htimer]

/-- Rescheduling from a state in which no other timer is armed. -/
theorem rearm_watched (hrate : 0 < plan.refillPerSec)
    (hcleared : waking.alarms.filter (fun alarm => waking.timer ≠ some alarm.handle) = [])
    (hok : changed.Ok) (hpromised : changed.Promised) (hplan : changed.plan = plan)
    (hmark : changed.lastRefillAt ≤ clock 0) (hclock : clock 0 ≤ clock 1) :
    (waking.rearm clock (changed.reschedule clock)).Watched plan := by
  have hchanges := TokenBucket.reschedule_changes clock changed
  have hok' := (TokenBucket.changes_metered hok hchanges).ok
  have hpromised' := (TokenBucket.changes_keep hpromised hchanges).promised
  have hplan' := hchanges.plan_eq.trans hplan
  cases hqueue : (changed.reschedule clock).queue with
  | nil =>
      simp only [rearm, TokenBucket.reschedule_idle hqueue, hcleared]
      refine ⟨hplan', hok', hpromised', fun _ => rfl, fun head rest hleft => ?_⟩
      rw [hqueue] at hleft
      cases hleft
  | cons head rest =>
      obtain ⟨-, delay, hdelay, htimely⟩ :=
        TokenBucket.reschedule_timely hok (hplan ▸ hrate) hmark hclock hqueue
      simp only [rearm, hdelay, hcleared, List.nil_append]
      refine ⟨hplan', hok', hpromised', fun hnone => ?_, fun first others hleft => ?_⟩
      · rw [hqueue] at hnone
        cases hnone
      · rw [hqueue] at hleft
        cases hleft
        exact ⟨_, rfl, rfl, htimely _⟩

/-- The timer that fires is the one that was armed. -/
theorem Watched.fired (h : waking.Watched plan) {handle : ℕ}
    (hfires : waking.alarms.any (fun alarm => alarm.handle = handle) = true) :
    waking.alarms.filter (fun alarm => alarm.handle ≠ handle) = [] := by
  cases hqueue : waking.bucket.queue with
  | nil => rw [h.idle hqueue, List.filter_nil]
  | cons head rest =>
      obtain ⟨alarm, halarms, -, -⟩ := h.awaited head rest hqueue
      rw [halarms] at hfires ⊢
      simpa using hfires

/-- What a step does: it reschedules from a changed bucket, or it leaves the timer alone. -/
theorem step_cases (hrate : 0 < plan.refillPerSec) (h : waking.Watched plan)
    (hforward : Forward waking action) (hstep : waking.step action = some after) :
    (action.isFiring = false ∧ after = { waking with bucket := after.bucket } ∧
      TokenBucket.Changes waking.bucket after.bucket ∧
      ((waking.bucket.queue = [] ∧ after.bucket.queue = []) ∨
        waking.bucket.Waited after.bucket)) ∨
    ∃ (clock : Clock) (changed : TokenBucket) (cleared : WakingBucket),
      waking.readings action = some clock ∧
      after = cleared.rearm clock (changed.reschedule clock) ∧
      cleared.alarms.filter (fun alarm => cleared.timer ≠ some alarm.handle) = [] ∧
      TokenBucket.Changes waking.bucket changed ∧ changed.lastRefillAt ≤ clock 0 ∧
      clock 0 ≤ clock 1 := by
  have hrate' : 0 < waking.bucket.plan.refillPerSec := h.plan ▸ hrate
  cases action with
  | call clock call =>
      obtain ⟨hclock, hmark⟩ : (∀ i j, i ≤ j → clock i ≤ clock j) ∧
          waking.bucket.lastRefillAt ≤ clock 0 := hforward
      by_cases hcall : call = .timer
      · simp only [step, hcall, if_true] at hstep
        cases hstep
      · simp only [step, hcall, if_false] at hstep
        rcases TokenBucket.step_kinds h.ok hrate' hclock hmark hcall with
          hquiet | ⟨readings, changed, hreschedules⟩
        · rw [hquiet.none] at hstep
          obtain rfl := Option.some.inj hstep
          exact .inl ⟨rfl, rfl, TokenBucket.step_changes clock waking.bucket call, hquiet.after⟩
        · rw [hreschedules.some, hreschedules.after] at hstep
          exact .inr ⟨readings, changed, waking, hreschedules.some, (Option.some.inj hstep).symm,
            h.cleared, hreschedules.changes, hreschedules.mark, hreschedules.order⟩
  | fires clock handle =>
      obtain ⟨hclock, hmark⟩ : (∀ i j, i ≤ j → clock i ≤ clock j) ∧
          waking.bucket.lastRefillAt ≤ clock 0 := hforward
      simp only [step] at hstep
      split at hstep
      · rename_i hfires
        refine .inr ⟨clock, { waking.bucket with timer := none }, _, rfl,
          (Option.some.inj hstep).symm, ?_, .single (.timer none), hmark, hclock 0 1 (by decide)⟩
        simp only [h.fired hfires, List.filter_nil]
      · cases hstep

theorem step_watched (hrate : 0 < plan.refillPerSec) (h : waking.Watched plan)
    (hforward : Forward waking action) (hstep : waking.step action = some after) :
    after.Watched plan := by
  rcases step_cases hrate h hforward hstep with ⟨-, hsame, hchanges, hquiet⟩ |
    ⟨clock, changed, cleared, -, rfl, hcleared, hchanges, hmark, horder⟩
  · have halarms : after.alarms = waking.alarms := by rw [hsame]
    have htimer : after.timer = waking.timer := by rw [hsame]
    refine ⟨hchanges.plan_eq.trans h.plan, (TokenBucket.changes_metered h.ok hchanges).ok,
      (TokenBucket.changes_keep h.promised hchanges).promised, fun hnobody => ?_,
      fun head rest hqueue => ?_⟩
    · rw [halarms]
      rcases hquiet with ⟨hbefore, -⟩ | hwaited
      · exact h.idle hbefore
      · exact h.idle (hwaited.passed.queue.symm.trans hnobody)
    · rw [halarms, htimer]
      rcases hquiet with ⟨-, hnobody⟩ | hwaited
      · rw [hnobody] at hqueue
        cases hqueue
      · obtain ⟨alarm, hone, hhandle, htimely⟩ :=
          h.awaited head rest (hwaited.passed.queue.symm.trans hqueue)
        exact ⟨alarm, hone, hhandle,
          htimely.passed hwaited.passed hwaited.mark (hwaited.onHand head)⟩
  · exact rearm_watched hrate hcleared (TokenBucket.changes_metered h.ok hchanges).ok
      (TokenBucket.changes_keep h.promised hchanges).promised (hchanges.plan_eq.trans h.plan) hmark
      horder

/-- What a step that reschedules leaves at the head cannot be paid on the readings it took. -/
theorem step_unpayable (hrate : 0 < plan.refillPerSec) (h : waking.Watched plan)
    (hforward : Forward waking action) (hstep : waking.step action = some after)
    (hmoves : action.isFiring = true ∨ ¬waking.bucket.Passed after.bucket)
    (hqueue : after.bucket.queue = head :: rest) :
    ∃ clock, waking.readings action = some clock ∧
      ¬(after.bucket.penaltyUntil ≤ clock 1 ∧ head.need ≤ after.bucket.balanceAt (clock 0)) := by
  rcases step_cases hrate h hforward hstep with ⟨hcall, -, -, hquiet⟩ |
    ⟨clock, changed, cleared, hreadings, rfl, -, hchanges, hmark, horder⟩
  · rcases hquiet with ⟨-, hnobody⟩ | hwaited
    · rw [hnobody] at hqueue
      cases hqueue
    · rcases hmoves with hfires | hmoved
      · cases hcall.symm.trans hfires
      · exact absurd hwaited.passed hmoved
  · have hbucket : (cleared.rearm clock (changed.reschedule clock)).bucket =
        changed.reschedule clock := by
      simp only [rearm]
      split <;> rfl
    rw [hbucket] at hqueue ⊢
    have hok := (TokenBucket.changes_metered h.ok hchanges).ok
    have hrate' : 0 < changed.plan.refillPerSec := by
      rw [hchanges.plan_eq, h.plan]
      exact hrate
    exact ⟨clock, hreadings, (TokenBucket.reschedule_timely hok hrate' hmark horder hqueue).1⟩

theorem fires_grants (h : waking.Watched plan) {handle : ℕ}
    (hqueue : waking.bucket.queue = head :: rest)
    (hdue : ∀ alarm ∈ waking.alarms, alarm.due ≤ clock 0)
    (hforward : Forward waking (.fires clock handle))
    (hstep : waking.step (.fires clock handle) = some after) :
    after.bucket.outcomes head.promise =
      some (.resolved (max 0 (clock 1 - head.startedAt)) head.need) := by
  obtain ⟨hclock, hmark⟩ : (∀ i j, i ≤ j → clock i ≤ clock j) ∧
      waking.bucket.lastRefillAt ≤ clock 0 := hforward
  obtain ⟨alarm, halarms, -, htimely⟩ := h.awaited head rest hqueue
  have hreached : alarm.due ≤ clock 0 := hdue alarm (halarms ▸ List.mem_singleton.mpr rfl)
  simp only [step] at hstep
  split at hstep
  · obtain rfl := Option.some.inj hstep
    have hgranted : ({ waking.bucket with timer := none }.reschedule clock).outcomes head.promise =
        some (.resolved (max 0 (clock 1 - head.startedAt)) head.need) := by
      refine TokenBucket.reschedule_grants (TokenBucket.change_keeps h.promised (.timer none)).promised
        hqueue (htimely.penalty.trans (hreached.trans (hclock 0 1 (by decide)))) ?_
      have hfunded := htimely.funded (clock 0) hreached hmark
      simp only [TokenBucket.balanceAt, TokenBucket.refill] at hfunded ⊢
      split at hfunded
      · rename_i hnothing
        rw [if_pos hnothing]
        exact hfunded
      · rename_i hcredited
        rw [if_neg hcredited]
        exact hfunded
    simp only [rearm]
    split <;> exact hgranted
  · cases hstep

end

/-- What keeps a waiter from being forgotten. -/
structure NoLostWakeUp (waking : WakingBucket) : Prop where
  /-- Exactly one timer is armed for the head, due no later than the penalty is over and the refill
  wait, rounded up to a millisecond, has gone by. -/
  armed : ∀ head rest, waking.bucket.queue = head :: rest →
    (∀ t, waking.bucket.lastRefillAt ≤ t →
      (waking.bucket.onHandAt head ≤ t ↔ head.need ≤ waking.bucket.balanceAt t)) ∧
    ∃ alarm, waking.alarms = [alarm] ∧ waking.timer = some alarm.handle ∧
      alarm.creditedAt ≤ alarm.armedAt ∧ alarm.due ≤ max waking.bucket.penaltyUntil
        (alarm.armedAt + ⌈waking.bucket.onHandAt head - alarm.creditedAt⌉)
  /-- A step that does more than let time go by leaves no head that it could have paid. -/
  unpayable : ∀ action after, Forward waking action → waking.step action = some after →
    (action.isFiring = true ∨ ¬waking.bucket.Passed after.bucket) →
    ∀ head rest, after.bucket.queue = head :: rest → ∃ clock, waking.readings action = some clock ∧
      ¬(after.bucket.penaltyUntil ≤ clock 1 ∧ head.need ≤ after.bucket.balanceAt (clock 0))
  /-- The timer grants the head when it fires as late as it is due. -/
  grants : ∀ clock handle after head rest, waking.bucket.queue = head :: rest →
    (∀ alarm ∈ waking.alarms, alarm.due ≤ clock 0) → Forward waking (.fires clock handle) →
    waking.step (.fires clock handle) = some after → after.bucket.outcomes head.promise =
      some (.resolved (max 0 (clock 1 - head.startedAt)) head.need)

theorem no_lost_wake_up {plan : BucketPlan} {now : ℚ} {actions : List Action}
    {waking : WakingBucket} (hrate : 0 < plan.refillPerSec)
    (hrun : Run step Forward (create plan now) actions waking) : waking.NoLostWakeUp := by
  have h : waking.Watched plan := hrun.invariant (Watched plan) (create_watched plan now)
    fun _ _ _ hwatched hforward hstep => step_watched hrate hwatched hforward hstep
  refine ⟨fun head rest hqueue => ?_, ?_, ?_⟩
  · obtain ⟨alarm, halarms, htimer, htimely⟩ := h.awaited head rest hqueue
    refine ⟨fun t hlater => ?_, alarm, halarms, htimer, htimely.order, htimely.soon⟩
    exact TokenBucket.onHandAt_le_iff h.ok (h.plan ▸ hrate)
      (h.ok.fits (hqueue ▸ List.mem_cons_self)) hlater
  · intro action after hforward hstep hmoves head rest hqueue
    exact step_unpayable hrate h hforward hstep hmoves hqueue
  · intro clock handle after head rest hqueue hdue hforward hstep
    exact fires_grants h hqueue hdue hforward hstep

/-- Ten tokens are taken at once; a take of five waits for five seconds of refill. -/
theorem no_lost_wake_up_ten : ∃ waking after head,
    Run step Forward (create TokenBucket.tenTokens 0)
      [.call (fun _ => 0) (.take 10 0 none), .call (fun _ => 0) (.take 5 9000 none)] waking ∧
    waking.bucket.queue = [head] ∧ waking.alarms = [⟨0, 0, 0, 5000⟩] ∧
    waking.step (.fires (fun _ => 5000) 0) = some after ∧
    after.bucket.outcomes head.promise = some (.resolved (max 0 (5000 - head.startedAt)) head.need) := by
  have hsteps : ((create TokenBucket.tenTokens 0).step (.call (fun _ => 0) (.take 10 0 none))).any
      (fun first => decide (first.bucket.lastRefillAt ≤ 0) &&
        (first.step (.call (fun _ => 0) (.take 5 9000 none))).any fun waking =>
          decide (waking.bucket.lastRefillAt ≤ 5000 ∧ waking.bucket.queue.length = 1 ∧
            waking.alarms = [⟨0, 0, 0, 5000⟩]) &&
          (waking.step (.fires (fun _ => 5000) 0)).any fun _ => true) = true := by
    decide +kernel
  obtain ⟨first, hfirst, hsteps⟩ := (Option.any_eq_true _ _).mp hsteps
  obtain ⟨hmark, hsteps⟩ := Bool.and_eq_true_iff.mp hsteps
  obtain ⟨waking, hsecond, hsteps⟩ := (Option.any_eq_true _ _).mp hsteps
  obtain ⟨hheld, hfires⟩ := Bool.and_eq_true_iff.mp hsteps
  obtain ⟨hlater, hone, halarms⟩ := of_decide_eq_true hheld
  obtain ⟨after, hafter, -⟩ := (Option.any_eq_true _ _).mp hfires
  obtain ⟨head, hqueue⟩ := List.length_eq_one_iff.mp hone
  have hrun : Run step Forward (create TokenBucket.tenTokens 0)
      [.call (fun _ => 0) (.take 10 0 none), .call (fun _ => 0) (.take 5 9000 none)] waking :=
    .cons ⟨fun _ _ _ => le_rfl, le_rfl⟩ hfirst
      (.cons ⟨fun _ _ _ => le_rfl, of_decide_eq_true hmark⟩ hsecond (.nil waking))
  refine ⟨waking, after, head, hrun, hqueue, halarms, hafter, ?_⟩
  refine (no_lost_wake_up (by decide +kernel) hrun).grants (fun _ => 5000) 0 after head [] hqueue ?_
    ⟨fun _ _ _ => le_rfl, hlater⟩ hafter
  intro alarm hmem
  rw [halarms, List.mem_singleton] at hmem
  rw [hmem]

end WakingBucket

end VoiceOrder.RateLimit
