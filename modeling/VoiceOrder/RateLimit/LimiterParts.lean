import VoiceOrder.RateLimit.LeaseClosing
import Mathlib.Logic.Relation

/-! # The parts of a limiter

Whatever happens to a limiter, its buckets and its semaphore go through steps of their own. So
what every such step keeps, every run of the limiter keeps. -/

namespace VoiceOrder.RateLimit

/-- Every reading is one of these instants. -/
def Clock.Within (instants : Set ℚ) (clock : Clock) : Prop := ∀ n, clock n ∈ instants

theorem Clock.Within.after {instants : Set ℚ} {clock : Clock} (h : clock.Within instants) (k : ℕ) :
    (clock.after k).Within instants := fun n => h (n + k)

theorem Clock.within_univ (clock : Clock) : clock.Within Set.univ := fun n => Set.mem_univ (clock n)

/-- The bucket was called, any number of times, with clock readings among these instants. -/
abbrev TokenBucket.Called (instants : Set ℚ) : TokenBucket → TokenBucket → Prop :=
  Relation.ReflTransGen fun bucket after =>
    ∃ clock call, clock.Within instants ∧ after = bucket.step clock call

namespace Semaphore

/-- What can happen to a semaphore. -/
inductive Call (semaphore : Semaphore) : Semaphore → Prop where
  | acquire (clock caller deadlineAt signal) :
      Call semaphore (semaphore.acquire clock caller deadlineAt signal)
  | release (caller) : Call semaphore (semaphore.release caller)
  | deadline (caller) : Call semaphore (semaphore.deadline caller)
  | abort (caller) : Call semaphore (semaphore.abort caller)

/-- The semaphore was called, any number of times. -/
abbrev Called : Semaphore → Semaphore → Prop := Relation.ReflTransGen Call

end Semaphore

namespace RateLimiter

/-- The parts of the one limiter have become those of the other by their own steps. -/
structure Parts (instants : Set ℚ) (limiter after : RateLimiter) : Prop where
  rpm : Option.Rel (TokenBucket.Called instants) limiter.rpm after.rpm
  tpm : Option.Rel (TokenBucket.Called instants) limiter.tpm after.tpm
  concurrency : Option.Rel Semaphore.Called limiter.concurrency after.concurrency

theorem rel_refl {α : Type} {R : α → α → Prop} (part : Option α) :
    Option.Rel (Relation.ReflTransGen R) part part := by
  cases part with
  | none => exact .none
  | some part => exact .some .refl

theorem rel_trans {α : Type} {R : α → α → Prop} {first middle last : Option α}
    (h : Option.Rel (Relation.ReflTransGen R) first middle)
    (hlast : Option.Rel (Relation.ReflTransGen R) middle last) :
    Option.Rel (Relation.ReflTransGen R) first last := by
  cases h with
  | none =>
      cases hlast
      exact .none
  | some h =>
      cases hlast with
      | some hlast => exact .some (h.trans hlast)

theorem rel_map {α : Type} {R : α → α → Prop} {f : α → α} (hf : ∀ part, R part (f part))
    (part : Option α) : Option.Rel (Relation.ReflTransGen R) part (part.map f) := by
  cases part with
  | none => exact .none
  | some part => exact .some (.single (hf part))

section

variable {instants : Set ℚ} {clock : Clock} {id : CallerId} {limiter middle after : RateLimiter} {acquire : Acquire}
  {bucket : TokenBucket} {semaphore : Semaphore}

theorem Parts.refl (limiter : RateLimiter) : Parts instants limiter limiter :=
  ⟨rel_refl _, rel_refl _, rel_refl _⟩

theorem Parts.trans (h : Parts instants limiter middle) (hlast : Parts instants middle after) : Parts instants limiter after :=
  ⟨rel_trans h.rpm hlast.rpm, rel_trans h.tpm hlast.tpm, rel_trans h.concurrency hlast.concurrency⟩

/-- What is recorded of the acquires is no part. -/
theorem Parts.put (h : Parts instants limiter after) (id : CallerId) (acquire : Acquire) :
    Parts instants limiter (after.put id acquire) := ⟨h.rpm, h.tpm, h.concurrency⟩

theorem Parts.rpmStep (hclock : clock.Within instants) (hbucket : limiter.rpm = some bucket)
    (call : TokenBucket.Call) :
    Parts instants limiter { limiter with rpm := some (bucket.step clock call) } where
  rpm := by
    rw [hbucket]
    exact .some (.single ⟨clock, call, hclock, rfl⟩)
  tpm := rel_refl _
  concurrency := rel_refl _

theorem Parts.tpmStep (hclock : clock.Within instants) (hbucket : limiter.tpm = some bucket)
    (call : TokenBucket.Call) :
    Parts instants limiter { limiter with tpm := some (bucket.step clock call) } where
  rpm := rel_refl _
  tpm := by
    rw [hbucket]
    exact .some (.single ⟨clock, call, hclock, rfl⟩)
  concurrency := rel_refl _

theorem Parts.semaphoreStep {f : Semaphore → Semaphore} (hf : ∀ part, Semaphore.Call part (f part)) :
    Parts instants limiter { limiter with concurrency := limiter.concurrency.map f } :=
  ⟨rel_refl _, rel_refl _, rel_map hf _⟩

/-! ## The steps of a limiter -/

theorem enterPermit_parts : Parts instants limiter (limiter.enterPermit clock id acquire) := by
  unfold enterPermit
  split
  · exact (Parts.refl limiter).put _ _
  · rename_i semaphore hsemaphore
    have hparts : Parts instants limiter { limiter with
        concurrency := some (semaphore.acquire clock id acquire.deadlineAt acquire.signal) } := by
      refine ⟨rel_refl _, rel_refl _, ?_⟩
      rw [hsemaphore]
      exact .some (.single (.acquire clock id acquire.deadlineAt acquire.signal))
    exact hparts.put _ _

theorem enterTpm_parts (hclock : clock.Within instants) :
    Parts instants limiter (limiter.enterTpm clock id acquire) := by
  unfold enterTpm
  split
  · exact enterPermit_parts
  · rename_i bucket hbucket
    split
    · exact (Parts.tpmStep hclock hbucket (.take acquire.cost acquire.deadlineAt acquire.signal)).put _ _
    · exact enterPermit_parts

theorem enterRpm_parts (hclock : clock.Within instants) :
    Parts instants limiter (limiter.enterRpm clock id acquire) := by
  unfold enterRpm
  split
  · exact enterTpm_parts hclock
  · rename_i bucket hbucket
    exact (Parts.rpmStep hclock hbucket (.take 1 acquire.deadlineAt acquire.signal)).put _ _

theorem acquire_parts (hclock : clock.Within instants) (options : AcquireOptions) :
    Parts instants limiter (limiter.acquire clock options) := by
  have hnumbered : Parts instants limiter { limiter with nextAcquire := limiter.nextAcquire + 1 } :=
    ⟨rel_refl _, rel_refl _, rel_refl _⟩
  unfold RateLimiter.acquire
  dsimp only
  split
  · exact hnumbered.put _ _
  · exact hnumbered.trans (enterRpm_parts (hclock.after 1))

theorem refundTpm_parts (hclock : clock.Within instants) :
    Parts instants limiter (limiter.refundTpm clock acquire).2 := by
  unfold refundTpm
  split
  · exact .refl limiter
  · rename_i bucket hbucket
    split
    · exact .tpmStep hclock hbucket (.refund acquire.tpmTaken)
    · exact .refl limiter

theorem refundRpm_parts (hclock : clock.Within instants) :
    Parts instants limiter (limiter.refundRpm clock acquire).2 := by
  unfold refundRpm
  split
  · exact .refl limiter
  · rename_i bucket hbucket
    split
    · exact .rpmStep hclock hbucket (.refund 1)
    · exact .refl limiter

theorem giveBack_parts (hclock : clock.Within instants) :
    Parts instants limiter (limiter.giveBack clock acquire).2 :=
  (refundTpm_parts hclock).trans (refundRpm_parts (hclock.after 3))

theorem reconcile_parts (hclock : clock.Within instants) (actualCost : Option ℚ) :
    Parts instants limiter (limiter.reconcile clock actualCost acquire).2 := by
  unfold reconcile
  split
  · rename_i actualCost bucket hbucket
    dsimp only
    split
    · exact .tpmStep hclock hbucket (.forceTake (actualCost - acquire.reserved))
    · exact .refl limiter
  · exact .refl limiter

theorem handBack_parts : Parts instants limiter (limiter.handBack id acquire) := by
  unfold handBack
  split
  · exact .semaphoreStep fun _ => .release id
  · exact .refl limiter

theorem resume_parts (hclock : clock.Within instants) :
    Parts instants limiter (limiter.resume clock id) := by
  unfold resume
  split
  · exact .refl limiter
  · split
    · split
      · exact .refl limiter
      · exact enterTpm_parts hclock
      · exact (giveBack_parts hclock).put _ _
    · split
      · exact .refl limiter
      · exact enterPermit_parts
      · exact (giveBack_parts hclock).put _ _
    · split
      · exact .refl limiter
      · exact (Parts.refl limiter).put _ _
      · exact (giveBack_parts hclock).put _ _
    · exact .refl limiter
    · exact .refl limiter
    · exact .refl limiter

theorem settle_parts (hclock : clock.Within instants) (actualCost : Option ℚ) :
    Parts instants limiter (limiter.settle clock id actualCost) := by
  unfold settle
  split
  · exact .refl limiter
  · split
    · exact ((reconcile_parts hclock actualCost).trans handBack_parts).put _ _
    · exact .refl limiter

theorem abandon_parts (hclock : clock.Within instants) :
    Parts instants limiter (limiter.abandon clock id) := by
  unfold abandon
  split
  · exact .refl limiter
  · split
    · exact ((giveBack_parts hclock).trans handBack_parts).put _ _
    · exact .refl limiter

theorem penalize_parts (hclock : clock.Within instants) (untilMs : ℚ) :
    Parts instants limiter (limiter.penalize clock untilMs) :=
  ⟨rel_map (fun _ => ⟨clock, .penalize untilMs, hclock, rfl⟩) _,
    rel_map (fun _ => ⟨clock.after 2, .penalize untilMs, hclock.after 2, rfl⟩) _, rel_refl _⟩

theorem abort_parts (hclock : clock.Within instants) :
    Parts instants limiter (limiter.abort clock id) := by
  unfold abort
  split
  · exact .refl limiter
  · split
    · dsimp only
      split
      · rename_i promise _
        exact ⟨rel_map (fun _ => ⟨clock, .abort promise, hclock, rfl⟩) _, rel_refl _, rel_refl _⟩
      · rename_i promise _
        exact ⟨rel_refl _, rel_map (fun _ => ⟨clock, .abort promise, hclock, rfl⟩) _, rel_refl _⟩
      · exact ⟨rel_refl _, rel_refl _, rel_map (fun _ => .abort id) _⟩
      · exact (Parts.refl limiter).put _ _
      · exact (Parts.refl limiter).put _ _
      · exact (Parts.refl limiter).put _ _
    · exact .refl limiter

theorem step_parts (hclock : clock.Within instants) (action : Action) :
    Parts instants limiter (limiter.step clock action) := by
  cases action with
  | acquire options => exact acquire_parts hclock options
  | resume id => exact resume_parts hclock
  | settle id actualCost => exact settle_parts hclock actualCost
  | abandon id => exact abandon_parts hclock
  | penalize untilMs => exact penalize_parts hclock untilMs
  | abort id => exact abort_parts hclock
  | rpmTimer timer => exact ⟨rel_map (fun _ => ⟨clock, timer.call, hclock, rfl⟩) _, rel_refl _, rel_refl _⟩
  | tpmTimer timer => exact ⟨rel_refl _, rel_map (fun _ => ⟨clock, timer.call, hclock, rfl⟩) _, rel_refl _⟩
  | permitDeadline id => exact .semaphoreStep fun _ => .deadline id

end

end RateLimiter

/-! ## What a bucket keeps -/

namespace TokenBucket

variable {clock : Clock} {bucket after : TokenBucket}

theorem clamp_penaltyUntil (cost : ℚ) : (bucket.clamp cost).2.penaltyUntil = bucket.penaltyUntil := by
  unfold clamp
  dsimp only
  split
  · rfl
  · rfl

theorem tryPay_penaltyUntil (cost n : ℚ) :
    (bucket.tryPay clock cost n).2.penaltyUntil = bucket.penaltyUntil := by
  unfold tryPay
  split
  · rfl
  · dsimp only
    split_ifs
    · exact refill_penaltyUntil
    · exact refill_penaltyUntil
    · exact refill_penaltyUntil
    · exact refill_penaltyUntil

theorem take_penaltyUntil (cost deadlineAt : ℚ) (signal : AbortSignal) :
    (bucket.take clock cost deadlineAt signal).2.penaltyUntil = bucket.penaltyUntil := by
  have hpaid : ∀ clock n, ((bucket.clamp cost).2.tryPay clock cost n).2.penaltyUntil =
      bucket.penaltyUntil := fun clock n => (tryPay_penaltyUntil cost n).trans (clamp_penaltyUntil cost)
  unfold take
  dsimp only
  split
  · exact clamp_penaltyUntil cost
  · split
    · rename_i paid heq
      exact (congrArg (fun found => found.2.penaltyUntil) heq).symm.trans (hpaid _ _)
    · rename_i parked heq
      have hsame : parked.penaltyUntil = bucket.penaltyUntil :=
        (congrArg (fun found => found.2.penaltyUntil) heq).symm.trans (hpaid _ _)
      split
      · exact hsame
      · exact reschedule_penaltyUntil.trans hsame

theorem fail_penaltyUntil (promise : PromiseId) (error : RateLimitTimeoutError) :
    (bucket.fail clock promise error).penaltyUntil = bucket.penaltyUntil := by
  unfold fail
  split
  · exact reschedule_penaltyUntil
  · rfl

/-- A penalty stands until it is over. -/
theorem step_penaltyUntil (call : Call) : bucket.penaltyUntil ≤ (bucket.step clock call).penaltyUntil := by
  cases call with
  | available => exact refill_penaltyUntil.ge
  | tryTake n => exact (tryPay_penaltyUntil n n).ge
  | take cost deadlineAt signal => exact (take_penaltyUntil cost deadlineAt signal).ge
  | forceTake n =>
      change bucket.penaltyUntil ≤ (bucket.forceTake clock n).penaltyUntil
      unfold forceTake
      split
      · exact le_refl _
      · rw [reschedule_penaltyUntil]
        exact refill_penaltyUntil.ge
  | refund n =>
      change bucket.penaltyUntil ≤ (bucket.refund clock n).penaltyUntil
      unfold refund
      split
      · exact le_refl _
      · rw [reschedule_penaltyUntil]
        exact refill_penaltyUntil.ge
  | penalize untilMs =>
      change bucket.penaltyUntil ≤ (bucket.penalize clock untilMs).penaltyUntil
      unfold penalize
      split
      · exact le_refl _
      · rename_i hlater
        rw [reschedule_penaltyUntil]
        exact (not_le.mp hlater).le
  | deadline promise => exact (fail_penaltyUntil promise _).ge
  | abort promise =>
      unfold step
      dsimp only
      split
      · exact (fail_penaltyUntil promise _).ge
      · exact le_refl _
  | timer =>
      unfold step
      dsimp only
      split
      · exact le_refl _
      · exact reschedule_penaltyUntil.ge

theorem Called.penaltyUntil {instants : Set ℚ} (h : bucket.Called instants after) : bucket.penaltyUntil ≤ after.penaltyUntil := by
  induction h with
  | refl => exact le_refl _
  | tail _ hcall ih =>
      obtain ⟨clock, call, -, rfl⟩ := hcall
      exact ih.trans (step_penaltyUntil call)

theorem Called.plan {instants : Set ℚ} (h : bucket.Called instants after) : after.plan = bucket.plan := by
  induction h with
  | refl => rfl
  | tail _ hcall ih =>
      obtain ⟨clock, call, -, rfl⟩ := hcall
      exact (step_changes clock _ call).plan_eq.trans ih

end TokenBucket

/-! ## What a semaphore keeps -/

namespace Semaphore

variable {semaphore after : Semaphore}

/-- The permits in use are never more than there are. -/
structure Bounded (permits : ℕ) (semaphore : Semaphore) : Prop where
  pool : semaphore.permits = permits
  used : semaphore.used ≤ permits

theorem create_bounded (permits : ℕ) (name : String) : (create permits name).Bounded permits :=
  ⟨rfl, Int.natCast_nonneg permits⟩

theorem Call.bounded {permits : ℕ} (hcall : semaphore.Call after) (h : semaphore.Bounded permits) :
    after.Bounded permits := by
  obtain ⟨hpermits, hused⟩ := h
  have hfail : ∀ caller error, (semaphore.fail caller error).Bounded permits := by
    intro caller error
    unfold fail
    split
    · exact ⟨hpermits, hused⟩
    · exact ⟨hpermits, hused⟩
  cases hcall with
  | acquire clock caller deadlineAt signal =>
      unfold Semaphore.acquire
      split_ifs with _ hfree
      · exact ⟨hpermits, hused⟩
      · refine ⟨hpermits, ?_⟩
        change semaphore.used + 1 ≤ permits
        rw [hpermits] at hfree
        omega
      · exact ⟨hpermits, hused⟩
      · exact ⟨hpermits, hused⟩
  | release caller =>
      unfold Semaphore.release
      split
      · exact ⟨hpermits, hused⟩
      · dsimp only
        split
        · exact ⟨hpermits, by dsimp only; omega⟩
        · exact ⟨hpermits, hused⟩
  | deadline caller => exact hfail caller _
  | abort caller =>
      unfold Semaphore.abort
      split
      · exact hfail caller _
      · exact ⟨hpermits, hused⟩

theorem Called.bounded {permits : ℕ} (hcalled : semaphore.Called after)
    (h : semaphore.Bounded permits) : after.Bounded permits := by
  induction hcalled with
  | refl => exact h
  | tail _ hcall ih => exact hcall.bounded ih

end Semaphore

end VoiceOrder.RateLimit
