import VoiceOrder.RateLimit.AcquireCosts

/-! # Holding off

Before the penalty of a bucket is over nothing is paid out of it. So an acquire that starts in the
meantime gets no further than its first take. -/

namespace VoiceOrder.RateLimit

namespace TokenBucket

/-- The bucket was debited nothing for the take. -/
def Unpaid (promise : PromiseId) (bucket : TokenBucket) : Prop :=
  ∀ waitedMs paid, bucket.outcomes promise = some (.resolved waitedMs paid) → paid ≤ 0

section

variable {clock : Clock} {bucket : TokenBucket} {promise : PromiseId} {hold t : ℚ}

theorem Unpaid.of_eq {after : TokenBucket} (h : bucket.Unpaid promise)
    (hsame : after.outcomes = bucket.outcomes) : after.Unpaid promise := fun waitedMs paid hpaid =>
  h waitedMs paid (hsame ▸ hpaid)

theorem Unpaid.update {after : TokenBucket} {settled : PromiseId} {outcome : Option TakeOutcome}
    (h : bucket.Unpaid promise) (hfree : ∀ waitedMs paid, outcome = some (.resolved waitedMs paid) → paid ≤ 0)
    (hafter : after.outcomes = Function.update bucket.outcomes settled outcome) : after.Unpaid promise := by
  intro waitedMs paid hpaid
  rw [hafter] at hpaid
  by_cases heq : promise = settled
  · rw [heq, Function.update_self] at hpaid
    exact hfree waitedMs paid hpaid
  · rw [Function.update_of_ne heq] at hpaid
    exact h waitedMs paid hpaid

theorem refill_outcomes : (bucket.refill clock).outcomes = bucket.outcomes := by
  unfold refill
  dsimp only
  split
  · rfl
  · rfl

theorem armTimer_outcomes : (bucket.armTimer t).outcomes = bucket.outcomes := by
  unfold armTimer
  split
  · rfl
  · dsimp only
    split
    · rfl
    · split
      · rfl
      · rfl

/-- Nobody in the queue is paid before the penalty is over. -/
theorem payHeads_penalized (queue : List Waiter) (h : t < bucket.penaltyUntil) :
    payHeads t queue bucket = bucket := by
  cases queue with
  | nil => rfl
  | cons head rest => exact if_neg fun hdue => not_le.mpr h hdue.1

theorem reschedule_outcomes (h : clock 1 < bucket.penaltyUntil) :
    (bucket.reschedule clock).outcomes = bucket.outcomes := by
  unfold reschedule
  dsimp only
  rw [armTimer_outcomes, payHeads_penalized _ (refill_penaltyUntil.symm ▸ h), refill_outcomes]

/-- A take that needs something is not granted at once. -/
theorem tryPay_penalized {cost n : ℚ} (h : clock 1 < bucket.penaltyUntil)
    (hpaid : (bucket.tryPay clock cost n).1 = true) : n ≤ 0 := by
  by_contra hpositive
  unfold tryPay at hpaid
  rw [if_neg hpositive] at hpaid
  dsimp only at hpaid
  rw [if_pos (refill_penaltyUntil.symm ▸ h)] at hpaid
  cases hpaid

theorem tryPay_outcomes (cost n : ℚ) :
    (bucket.tryPay clock cost n).2.outcomes = bucket.outcomes := by
  unfold tryPay
  split
  · rfl
  · dsimp only
    split_ifs
    · exact refill_outcomes
    · exact refill_outcomes
    · exact refill_outcomes
    · exact refill_outcomes

theorem clamp_outcomes (cost : ℚ) : (bucket.clamp cost).2.outcomes = bucket.outcomes := by
  unfold clamp
  dsimp only
  split
  · rfl
  · rfl

/-- What a take does to the promises before the penalty is over: the one that it hands out is
pending, rejected, or was for nothing. -/
theorem take_outcomes (hclock : ∀ n, clock n < bucket.penaltyUntil) (cost deadlineAt : ℚ)
    (signal : AbortSignal) : ∃ outcome : Option TakeOutcome,
      (∀ waitedMs paid, outcome = some (.resolved waitedMs paid) → paid ≤ 0) ∧
      (bucket.take clock cost deadlineAt signal).2.outcomes =
        Function.update bucket.outcomes (bucket.take clock cost deadlineAt signal).1 outcome := by
  have hpenalty : ∀ k n, clock.after k n < (bucket.clamp cost).2.penaltyUntil := fun k n =>
    (@clamp_penaltyUntil bucket cost).symm ▸ hclock (n + k)
  have hfound : ∀ {found : TokenBucket}, found.outcomes = (bucket.clamp cost).2.outcomes →
      found.outcomes = bucket.outcomes := fun hsame => hsame.trans (clamp_outcomes cost)
  unfold take
  dsimp only
  split
  · refine ⟨_, fun waitedMs paid hpaid => ?_, congrArg (Function.update · _ _) (clamp_outcomes cost)⟩
    cases hpaid
  · split
    · rename_i paid heq
      have houtcomes := @tryPay_outcomes (clock.after 1) (bucket.clamp cost).2 cost (bucket.clamp cost).1
      rw [heq] at houtcomes
      refine ⟨some (.resolved 0 (bucket.clamp cost).1), fun waitedMs paid hpaid => ?_,
        congrArg (Function.update · _ _) (hfound houtcomes)⟩
      cases hpaid
      exact tryPay_penalized (hpenalty 1 1) (congrArg Prod.fst heq)
    · rename_i parked heq
      have houtcomes := @tryPay_outcomes (clock.after 1) (bucket.clamp cost).2 cost (bucket.clamp cost).1
      have hparked := @tryPay_penaltyUntil (clock.after 1) (bucket.clamp cost).2 cost (bucket.clamp cost).1
      rw [heq] at houtcomes hparked
      split
      · refine ⟨_, fun waitedMs paid hpaid => ?_, congrArg (Function.update · _ _) (hfound houtcomes)⟩
        cases hpaid
      · refine ⟨none, fun waitedMs paid hpaid => ?_, ?_⟩
        · cases hpaid
        · rw [reschedule_outcomes]
          · exact congrArg (Function.update · _ _) (hfound houtcomes)
          · exact hparked.symm ▸ hpenalty 3 1

theorem fail_unpaid (h : bucket.Unpaid promise) (hclock : clock 1 < bucket.penaltyUntil)
    (failed : PromiseId) (error : RateLimitTimeoutError) : (bucket.fail clock failed error).Unpaid promise := by
  unfold fail
  split
  · refine @Unpaid.update _ _ _ _ (some (.rejected error)) h (fun waitedMs paid hpaid => ?_)
      (reschedule_outcomes hclock)
    cases hpaid
  · exact h

/-- No step before the penalty is over pays for a take. -/
theorem step_unpaid (h : bucket.Unpaid promise) (hclock : ∀ n, clock n < bucket.penaltyUntil)
    (call : Call) : (bucket.step clock call).Unpaid promise := by
  have hrescheduled : ∀ {found : TokenBucket} {k}, found.outcomes = bucket.outcomes →
      found.penaltyUntil = bucket.penaltyUntil → (found.reschedule (clock.after k)).Unpaid promise :=
    fun houtcomes hpenalty => h.of_eq
      ((reschedule_outcomes (hpenalty.symm ▸ hclock _)).trans houtcomes)
  cases call with
  | available => exact h.of_eq refill_outcomes
  | tryTake n => exact h.of_eq (tryPay_outcomes n n)
  | take cost deadlineAt signal =>
      obtain ⟨outcome, hfree, houtcomes⟩ := take_outcomes hclock cost deadlineAt signal
      exact h.update hfree houtcomes
  | forceTake n =>
      change (bucket.forceTake clock n).Unpaid promise
      unfold forceTake
      split
      · exact h
      · exact hrescheduled refill_outcomes refill_penaltyUntil
  | refund n =>
      change (bucket.refund clock n).Unpaid promise
      unfold refund
      split
      · exact h
      · exact hrescheduled refill_outcomes refill_penaltyUntil
  | penalize untilMs =>
      change (bucket.penalize clock untilMs).Unpaid promise
      unfold penalize
      split
      · exact h
      · rename_i hlater
        refine h.of_eq (reschedule_outcomes ?_)
        exact (hclock 1).trans (not_le.mp hlater)
  | deadline failed => exact fail_unpaid h (hclock 1) failed _
  | abort failed =>
      unfold step
      dsimp only
      split
      · exact fail_unpaid h (hclock 1) failed _
      · exact h
  | timer =>
      unfold step
      dsimp only
      split
      · exact h
      · exact hrescheduled (k := 0) rfl rfl

/-- Nothing is paid as long as every reading comes before the penalty is over. -/
theorem Called.unpaid {after : TokenBucket} (hcalled : bucket.Called (Set.Iio hold) after)
    (hpenalty : hold ≤ bucket.penaltyUntil) (h : bucket.Unpaid promise) : after.Unpaid promise := by
  induction hcalled with
  | refl => exact h
  | tail hcalled hcall ih =>
      obtain ⟨clock, call, hclock, rfl⟩ := hcall
      exact step_unpaid ih (fun n => (hclock n).trans_le (hpenalty.trans (Called.penaltyUntil hcalled))) call

end

end TokenBucket

namespace RateLimiter

/-- Nothing was paid for the take of this promise. -/
def Withheld (bucket : Option TokenBucket) (promise : PromiseId) : Prop :=
  ∀ b, bucket = some b → b.Unpaid promise

/-- The acquire has got no further than its first take. Without request tokens a limiter holds off
only who asks for tokens. -/
inductive HeldBack (limiter : RateLimiter) (acquire : Acquire) : Stage → Prop where
  | rpm {promise : PromiseId} (hwithheld : Withheld limiter.rpm promise) :
      HeldBack limiter acquire (.rpm promise)
  | tpm {promise : PromiseId} (hcost : 0 < acquire.cost) (hwithheld : Withheld limiter.tpm promise) :
      HeldBack limiter acquire (.tpm promise)
  | failed (error : RateLimitTimeoutError) : HeldBack limiter acquire (.failed error)
  | free {stage : Stage} (hrpm : limiter.rpm = none) (htpm : limiter.tpm = none ∨ acquire.cost = 0) :
      HeldBack limiter acquire stage

/-- The limiter grants nothing before an instant to the acquires from `first` on. -/
structure HoldsOff (hold : ℚ) (first : CallerId) (limiter : RateLimiter) : Prop where
  inv : Inv limiter
  rpm : ∀ bucket, limiter.rpm = some bucket → hold ≤ bucket.penaltyUntil
  tpm : ∀ bucket, limiter.tpm = some bucket → hold ≤ bucket.penaltyUntil
  capacity : ∀ bucket, limiter.tpm = some bucket → 0 < bucket.plan.capacity
  back : ∀ id acquire, first ≤ id → limiter.acquires id = some acquire →
    HeldBack limiter acquire acquire.stage

section

variable {hold : ℚ} {first id : CallerId} {clock : Clock} {limiter after : RateLimiter}
  {acquire next : Acquire} {bucket : Option TokenBucket} {promise : PromiseId}

/-! ## The steps of an acquire -/

/-- Only its own continuation takes an acquire that holds no lease any further. -/
theorem step_stage (hinv : Inv limiter) (h : limiter.acquires id = some acquire) {action : Action}
    (haction : action ≠ .resume id) (hunleased : ∀ waitedMs done, acquire.stage ≠ .leased waitedMs done) :
    ∃ next, (limiter.step clock action).acquires id = some next ∧ next.stage = acquire.stage ∧
      next.cost = acquire.cost := by
  have hsame : ∀ {after : RateLimiter}, after.acquires id = limiter.acquires id →
      ∃ next, after.acquires id = some next ∧ next.stage = acquire.stage ∧ next.cost = acquire.cost :=
    fun hafter => ⟨acquire, hafter.trans h, rfl, rfl⟩
  have hclose : ∀ other closing, (limiter.close clock other closing).acquires id = limiter.acquires id := by
    intro other closing
    by_cases heq : id = other
    · subst heq
      rw [close_unleased closing h hunleased]
    · exact close_of_ne closing heq
  cases action with
  | acquire options =>
      have hne : id ≠ limiter.nextAcquire := fun heq => by
        rw [hinv.unissued id heq.ge] at h
        cases h
      exact hsame (acquire_of_ne options hne)
  | resume other => exact hsame (resume_of_ne fun heq => haction (heq ▸ rfl))
  | settle other actualCost => exact hsame (hclose other (.settled actualCost))
  | abandon other => exact hsame (hclose other .abandoned)
  | abort other =>
      rcases @abort_acquires clock limiter other with hacquires | ⟨aborted, haborted, hacquires⟩
      · exact hsame (congrFun hacquires id)
      · by_cases heq : id = other
        · subst heq
          rw [haborted] at h
          cases h
          exact ⟨{ acquire with signal := some true },
            (congrFun hacquires id).trans (Function.update_self ..), rfl, rfl⟩
        · exact hsame ((congrFun hacquires id).trans (Function.update_of_ne heq _ _))
  | penalize | rpmTimer | tpmTimer | permitDeadline => exact hsame rfl

/-- Only a call of `acquire` begins an acquire. -/
theorem step_unissued (h : limiter.acquires id = none) {action : Action}
    (haction : ∀ options, action ≠ .acquire options) : (limiter.step clock action).acquires id = none := by
  have hclose : ∀ other closing, (limiter.close clock other closing).acquires id = none := by
    intro other closing
    by_cases heq : id = other
    · subst heq
      cases closing with
      | settled actualCost => simp only [close, settle, h]
      | abandoned => simp only [close, abandon, h]
    · exact (close_of_ne closing heq).trans h
  cases action with
  | acquire options => exact (haction options rfl).elim
  | resume other =>
      by_cases heq : id = other
      · subst heq
        simp only [step, resume, h]
      · exact (resume_of_ne heq).trans h
  | settle other actualCost => exact hclose other (.settled actualCost)
  | abandon other => exact hclose other .abandoned
  | abort other =>
      rcases @abort_acquires clock limiter other with hacquires | ⟨aborted, haborted, hacquires⟩
      · exact (congrFun hacquires id).trans h
      · have hne : id ≠ other := fun heq => by
          rw [← heq, h] at haborted
          cases haborted
        exact (congrFun hacquires id).trans ((Function.update_of_ne hne _ _).trans h)
  | penalize | rpmTimer | tpmTimer | permitDeadline => exact h

/-! ## What is held back -/

theorem Withheld.of_called {later : Option TokenBucket} (h : Withheld bucket promise)
    (hcalled : Option.Rel (TokenBucket.Called (Set.Iio hold)) bucket later)
    (hpenalty : ∀ b, bucket = some b → hold ≤ b.penaltyUntil) : Withheld later promise := by
  intro b hb
  subst hb
  cases hcalled with
  | some hcalled => exact TokenBucket.Called.unpaid hcalled (hpenalty _ rfl) (h _ rfl)

theorem rel_eq_none {α : Type} {R : α → α → Prop} {part later : Option α} (h : Option.Rel R part later)
    (hnone : part = none) : later = none := by
  subst hnone
  cases h
  rfl

/-- What an acquire is held back by stays while every reading comes before the instant. -/
theorem HeldBack.of_parts {stage : Stage} (h : HeldBack limiter acquire stage) (hoff : HoldsOff hold first limiter)
    (hparts : Parts (Set.Iio hold) limiter after) (hcost : next.cost = acquire.cost) :
    HeldBack after next stage := by
  cases h with
  | rpm hwithheld => exact .rpm (hwithheld.of_called hparts.rpm hoff.rpm)
  | tpm hpositive hwithheld =>
      exact .tpm (hcost ▸ hpositive) (hwithheld.of_called hparts.tpm hoff.tpm)
  | failed error => exact .failed error
  | free hrpm htpm =>
      refine .free (rel_eq_none hparts.rpm hrpm) ?_
      rcases htpm with htpm | hzero
      · exact .inl (rel_eq_none hparts.tpm htpm)
      · exact .inr (hcost.trans hzero)

/-- A granted take that needed something was paid for. -/
theorem Withheld.not_granted {need : ℚ} (h : Withheld bucket promise) (hawaits : Awaits bucket promise need)
    (hneed : 0 < need) (waitedMs paid : ℚ) : takeOutcome bucket promise ≠ some (.resolved waitedMs paid) := by
  intro hgranted
  cases hawaits with
  | owed howed =>
      have hpaid := howed.paid waitedMs paid hgranted
      exact absurd (h _ rfl waitedMs paid hgranted) (not_le.mpr (hpaid ▸ hneed))

/-- What a take hands out before the instant is withheld. -/
theorem withheld_take {b : TokenBucket} (hpenalty : hold ≤ b.penaltyUntil)
    (hclock : clock.Within (Set.Iio hold)) (cost deadlineAt : ℚ) (signal : AbortSignal) :
    Withheld (some (b.take clock cost deadlineAt signal).2) (b.take clock cost deadlineAt signal).1 := by
  intro found hfound waitedMs paid hpaid
  cases hfound
  obtain ⟨outcome, hfree, houtcomes⟩ := @TokenBucket.take_outcomes clock b
    (fun n => (hclock n).trans_le hpenalty) cost deadlineAt signal
  rw [houtcomes, Function.update_self] at hpaid
  exact hfree waitedMs paid hpaid

theorem enterTpm_back (htpm : ∀ b, limiter.tpm = some b → hold ≤ b.penaltyUntil)
    (hclock : clock.Within (Set.Iio hold)) (hrpm : limiter.rpm = none) (hcost : 0 ≤ acquire.cost)
    (h : (limiter.enterTpm clock id acquire).acquires id = some next) :
    HeldBack (limiter.enterTpm clock id acquire) next next.stage := by
  have hparts := @enterTpm_parts _ clock id limiter acquire hclock
  obtain ⟨asked, hasked, hsame⟩ := @enterTpm_asks clock id limiter acquire _ rfl
  rw [h] at hasked
  cases hasked
  cases hbucket : limiter.tpm with
  | none => exact .free (rel_eq_none hparts.rpm hrpm) (.inl (rel_eq_none hparts.tpm hbucket))
  | some b =>
      rcases hcost.lt_or_eq with hpositive | hzero
      · simp only [enterTpm, hbucket, if_pos hpositive] at h ⊢
        rw [put_self] at h
        cases h
        exact .tpm hpositive (withheld_take (htpm b hbucket) hclock _ _ _)
      · exact .free (rel_eq_none hparts.rpm hrpm) (.inr (hsame.trans hzero.symm))

theorem enterRpm_back (hrpm : ∀ b, limiter.rpm = some b → hold ≤ b.penaltyUntil)
    (htpm : ∀ b, limiter.tpm = some b → hold ≤ b.penaltyUntil) (hclock : clock.Within (Set.Iio hold))
    (hcost : 0 ≤ acquire.cost) (h : (limiter.enterRpm clock id acquire).acquires id = some next) :
    HeldBack (limiter.enterRpm clock id acquire) next next.stage := by
  cases hbucket : limiter.rpm with
  | none =>
      simp only [enterRpm, hbucket] at h ⊢
      exact enterTpm_back htpm hclock hbucket hcost h
  | some b =>
      simp only [enterRpm, hbucket] at h ⊢
      rw [put_self] at h
      cases h
      exact .rpm (withheld_take (hrpm b hbucket) hclock _ _ _)

/-- A new acquire stops at its first take. -/
theorem acquire_back (h : HoldsOff hold first limiter) (hclock : clock.Within (Set.Iio hold))
    (options : AcquireOptions)
    (hnext : (limiter.acquire clock options).acquires limiter.nextAcquire = some next) :
    HeldBack (limiter.acquire clock options) next next.stage := by
  have hparts := @acquire_parts _ clock limiter hclock options
  cases hunlimited : limiter.unlimited with
  | true =>
      obtain ⟨hrpm, htpm, -⟩ := h.inv.resources.unlimited hunlimited
      exact .free (rel_eq_none hparts.rpm hrpm) (.inl (rel_eq_none hparts.tpm htpm))
  | false =>
      simp only [RateLimiter.acquire, hunlimited, Bool.false_eq_true, if_false] at hnext ⊢
      exact enterRpm_back h.rpm h.tpm (hclock.after 1) (le_max_left 0 _) hnext

theorem HoldsOff.reserve_pos (h : HoldsOff hold first limiter) (hsome : limiter.tpm.isSome = true)
    {cost : ℚ} (hcost : 0 < cost) : 0 < limiter.reserve cost := by
  obtain ⟨b, hb⟩ := Option.isSome_iff_exists.mp hsome
  simp only [reserve, hb, if_pos hcost]
  exact lt_min hcost (h.capacity b hb)

/-- Its own continuation takes an acquire no further than its failure. -/
theorem resume_back (h : HoldsOff hold first limiter) (hclock : clock.Within (Set.Iio hold))
    (hacquire : limiter.acquires id = some acquire) (hback : HeldBack limiter acquire acquire.stage)
    (hnext : (limiter.resume clock id).acquires id = some next) :
    HeldBack (limiter.resume clock id) next next.stage := by
  have hparts := @resume_parts _ clock id limiter hclock
  obtain ⟨asked, hasked, hcost⟩ := @resume_asks clock id limiter _ ⟨acquire, hacquire, rfl⟩
  rw [hnext] at hasked
  cases hasked
  have hok := h.inv.acquires id acquire hacquire
  have hstage := hok.stage
  have hfree : limiter.rpm = none → limiter.tpm = none ∨ acquire.cost = 0 →
      HeldBack (limiter.resume clock id) next next.stage := fun hrpm htpm =>
    .free (rel_eq_none hparts.rpm hrpm)
      (htpm.imp (rel_eq_none hparts.tpm) hcost.trans)
  -- A take that has not settled leaves the acquire where it is.
  have hpending : limiter.resume clock id = limiter →
      HeldBack (limiter.resume clock id) next next.stage := fun hsame => by
    rw [hsame, hacquire] at hnext
    cases hnext
    exact hback.of_parts h hparts rfl
  have hrejected : ∀ error, limiter.resume clock id = limiter.failAcquire clock id error acquire →
      HeldBack (limiter.resume clock id) next next.stage := fun error hfailed => by
    rw [hfailed, failAcquire, put_self] at hnext
    cases hnext
    exact .failed error
  cases hcase : acquire.stage with
  | rpm promise =>
      rw [hcase] at hback hstage
      obtain ⟨-, -, -, hawaits, -⟩ := hstage
      cases hback with
      | rpm hwithheld =>
          cases hsettled : takeOutcome limiter.rpm promise with
          | none => exact hpending (by simp only [resume, hacquire, hcase, hsettled])
          | some outcome =>
              cases outcome with
              | resolved waitedMs paid =>
                  exact (hwithheld.not_granted hawaits one_pos waitedMs paid hsettled).elim
              | rejected error =>
                  exact hrejected error (by simp only [resume, hacquire, hcase, hsettled])
      | free hrpm htpm => exact (hfree hrpm htpm)
  | tpm promise =>
      rw [hcase] at hback hstage
      obtain ⟨-, -, -, hawaits, -⟩ := hstage
      cases hback with
      | tpm hpositive hwithheld =>
          cases hsettled : takeOutcome limiter.tpm promise with
          | none => exact hpending (by simp only [resume, hacquire, hcase, hsettled])
          | some outcome =>
              cases outcome with
              | resolved waitedMs paid =>
                  have hreserved : 0 < acquire.reserved := by
                    rw [hok.reserved]
                    exact h.reserve_pos hawaits.isSome hpositive
                  exact (hwithheld.not_granted hawaits hreserved waitedMs paid hsettled).elim
              | rejected error =>
                  exact hrejected error (by simp only [resume, hacquire, hcase, hsettled])
      | free hrpm htpm => exact hfree hrpm htpm
  | permit =>
      rw [hcase] at hback
      cases hback with
      | free hrpm htpm => exact hfree hrpm htpm
  | leased waitedMs done | failed error | noop =>
      exact hpending (by simp only [resume, hacquire, hcase])

theorem hold_of_parts {later : Option TokenBucket} {instants : Set ℚ}
    (hcalled : Option.Rel (TokenBucket.Called instants) bucket later)
    (hpenalty : ∀ b, bucket = some b → hold ≤ b.penaltyUntil) :
    ∀ b, later = some b → hold ≤ b.penaltyUntil := by
  intro b hb
  subst hb
  cases hcalled with
  | some hcalled => exact (hpenalty _ rfl).trans (TokenBucket.Called.penaltyUntil hcalled)

/-- No step before the instant grants anything to the acquires that are held off. -/
theorem HoldsOff.step (h : HoldsOff hold first limiter) (hclock : clock.Within (Set.Iio hold))
    (action : Action) : HoldsOff hold first (limiter.step clock action) := by
  have hparts := @step_parts _ clock limiter hclock action
  refine ⟨step_inv h.inv clock action, ?_, ?_, ?_, fun id next hid hnext => ?_⟩
  · exact hold_of_parts hparts.rpm h.rpm
  · exact hold_of_parts hparts.tpm h.tpm
  · intro b hb
    have htpm := hparts.tpm
    rw [hb] at htpm
    generalize hbefore : limiter.tpm = before at htpm
    cases htpm with
    | some hcalled =>
        rw [TokenBucket.Called.plan hcalled]
        exact h.capacity _ hbefore
  · cases hacquire : limiter.acquires id with
    | some acquire =>
        have hback := h.back id acquire hid hacquire
        by_cases hresume : action = .resume id
        · subst hresume
          exact resume_back h hclock hacquire hback hnext
        · obtain ⟨asked, hasked, hcost⟩ :=
            @step_asks clock id limiter _ h.inv ⟨acquire, hacquire, rfl⟩ action
          rw [hnext] at hasked
          cases hasked
          by_cases hleased : ∃ waitedMs done, acquire.stage = .leased waitedMs done
          · obtain ⟨waitedMs, done, hleased⟩ := hleased
            rw [hleased] at hback
            cases hback with
            | free hrpm htpm =>
                exact .free (rel_eq_none hparts.rpm hrpm) (htpm.imp (rel_eq_none hparts.tpm) hcost.trans)
          · obtain ⟨found, hfound, hstage, -⟩ := @step_stage _ clock _ _ h.inv hacquire _ hresume
              fun waitedMs done hcase => hleased ⟨waitedMs, done, hcase⟩
            rw [hnext] at hfound
            cases hfound
            exact hstage ▸ hback.of_parts h hparts hcost
    | none =>
        by_cases hnew : ∃ options, action = .acquire options
        · obtain ⟨options, rfl⟩ := hnew
          by_cases heq : id = limiter.nextAcquire
          · subst heq
            exact acquire_back h hclock options hnext
          · rw [(acquire_of_ne options heq).symm.trans hnext] at hacquire
            cases hacquire
        · rw [step_unissued hacquire fun options heq => hnew ⟨options, heq⟩] at hnext
          cases hnext

/-- A penalty holds off the acquires that are still to come. -/
theorem HoldsOff.start (hinv : Inv limiter) (hrpm : ∀ b, limiter.rpm = some b → hold ≤ b.penaltyUntil)
    (htpm : ∀ b, limiter.tpm = some b → hold ≤ b.penaltyUntil)
    (hcapacity : ∀ b, limiter.tpm = some b → 0 < b.plan.capacity) :
    HoldsOff hold limiter.nextAcquire limiter where
  inv := hinv
  rpm := hrpm
  tpm := htpm
  capacity := hcapacity
  back := fun id acquire hid hacquire => by
    rw [hinv.unissued id hid] at hacquire
    cases hacquire

theorem penalize_hold (clock : Clock) (untilMs : ℚ) :
    (∀ b, (limiter.penalize clock untilMs).rpm = some b → untilMs ≤ b.penaltyUntil) ∧
      ∀ b, (limiter.penalize clock untilMs).tpm = some b → untilMs ≤ b.penaltyUntil := by
  constructor
  · intro b hb
    obtain ⟨before, -, rfl⟩ := Option.map_eq_some_iff.mp hb
    exact TokenBucket.le_penalize untilMs
  · intro b hb
    obtain ⟨before, -, rfl⟩ := Option.map_eq_some_iff.mp hb
    exact TokenBucket.le_penalize untilMs

end

end RateLimiter

end VoiceOrder.RateLimit
