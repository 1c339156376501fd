import VoiceOrder.RateLimit.BucketPromises
import VoiceOrder.RateLimit.RateBound

/-! # What `reschedule` promises the head of the queue

The balance of a bucket is a function of time between its steps, so the instant at which the head
can be paid is known. A call leaves it as it was, or it comes to a `reschedule`, which pays who can
be paid and arms the timer for that instant. -/

namespace VoiceOrder.RateLimit

namespace TokenBucket

/-- The readings that the `reschedule` of a call takes, if the call comes to one. -/
def rescheduling (clock : Clock) (bucket : TokenBucket) : Call → Option Clock
  | .available | .tryTake _ => none
  | .take cost _ signal =>
      if signal = some true then none
      else
        match (bucket.clamp cost).2.tryPay (clock.after 1) cost (bucket.clamp cost).1 with
        | (true, _) => none
        | (false, refused) =>
            if maxQueuedWaiters ≤ refused.queue.length then none else some (clock.after 3)
  | .forceTake n | .refund n => if n ≤ 0 then none else some (clock.after 1)
  | .penalize untilMs => if untilMs ≤ bucket.penaltyUntil then none else some clock
  | .deadline promise =>
      if bucket.queue.any (fun waiter => waiter.promise = promise) then some clock else none
  | .abort promise =>
      if bucket.queue.any (fun waiter => waiter.promise = promise && waiter.abortable) then some clock
      else none
  | .timer => bucket.timer.map fun _ => clock

/-- The tokens on hand at an instant, if nothing but refills happens until then. -/
def balanceAt (t : ℚ) (bucket : TokenBucket) : ℚ := (bucket.refill fun _ => t).tokens

/-- The instant at which the refill has brought in what the head needs. -/
def onHandAt (head : Waiter) (bucket : TokenBucket) : ℚ :=
  bucket.lastRefillAt + (head.need - bucket.tokens) / bucket.plan.refillPerSec * 1000

/-- Nothing but time has gone by: the queue and the penalty are the same, and the balance is what
it would have been. -/
structure Passed (bucket after : TokenBucket) : Prop where
  queue : after.queue = bucket.queue
  penaltyUntil : after.penaltyUntil = bucket.penaltyUntil
  balance : ∀ t, after.lastRefillAt ≤ t → after.balanceAt t = bucket.balanceAt t

end TokenBucket

/-- A timer that the runtime holds for the bucket: when the balance it was computed from was
credited, when it was armed and when it is due. -/
structure Alarm where
  handle : ℕ
  creditedAt : ℚ
  armedAt : ℚ
  due : ℚ
  deriving DecidableEq, Repr

namespace TokenBucket

/-- The alarm is due when the penalty is over and the refill wait of the head, rounded up to a
millisecond, has gone by, and from then on the head's cost is on hand. -/
structure Timely (bucket : TokenBucket) (head : Waiter) (alarm : Alarm) : Prop where
  order : alarm.creditedAt ≤ alarm.armedAt
  soon : alarm.due ≤ max bucket.penaltyUntil
    (alarm.armedAt + ⌈bucket.onHandAt head - alarm.creditedAt⌉)
  penalty : bucket.penaltyUntil ≤ alarm.due
  funded : ∀ t, alarm.due ≤ t → bucket.lastRefillAt ≤ t → head.need ≤ bucket.balanceAt t

/-! ## The balance over time -/

variable {bucket after : TokenBucket} {head : Waiter} {rest : List Waiter} {t : ℚ} {clock : Clock}

theorem refill_mark (h : bucket.lastRefillAt ≤ clock 0) :
    (bucket.refill clock).lastRefillAt = clock 0 := by
  rcases h.eq_or_lt with heq | hlt
  · rw [refill_of_le heq.ge, heq]
  · simp only [refill, hlt, if_true]
    split <;> rfl

theorem refill_rest (clock : Clock) (bucket : TokenBucket) :
    (bucket.refill clock).plan = bucket.plan ∧ (bucket.refill clock).queue = bucket.queue ∧
      (bucket.refill clock).penaltyUntil = bucket.penaltyUntil := by
  simp only [refill]
  split <;> exact ⟨rfl, rfl, rfl⟩

theorem refill_tokens (hok : bucket.Ok) (hrate : 0 < bucket.plan.refillPerSec)
    (h : bucket.lastRefillAt ≤ clock 0) :
    (bucket.refill clock).tokens = min bucket.plan.capacity
      (bucket.tokens + (clock 0 - bucket.lastRefillAt) / 1000 * bucket.plan.refillPerSec) := by
  rcases h.eq_or_lt with heq | hlt
  · rw [refill_of_le heq.ge, heq, sub_self, zero_div, zero_mul, add_zero, min_eq_right hok.capped]
  · rw [refill_of_lt hlt hrate]

theorem balanceAt_eq (hok : bucket.Ok) (hrate : 0 < bucket.plan.refillPerSec)
    (h : bucket.lastRefillAt ≤ t) : bucket.balanceAt t = min bucket.plan.capacity
      (bucket.tokens + (t - bucket.lastRefillAt) / 1000 * bucket.plan.refillPerSec) :=
  refill_tokens hok hrate h

/-- From that instant on, and not before, the head's cost is on hand. -/
theorem onHandAt_le_iff (hok : bucket.Ok) (hrate : 0 < bucket.plan.refillPerSec)
    (hfits : head.need ≤ bucket.plan.capacity) (h : bucket.lastRefillAt ≤ t) :
    bucket.onHandAt head ≤ t ↔ head.need ≤ bucket.balanceAt t := by
  rw [balanceAt_eq hok hrate h, le_min_iff, onHandAt]
  have hwait : bucket.lastRefillAt +
      (head.need - bucket.tokens) / bucket.plan.refillPerSec * 1000 ≤ t ↔
      head.need ≤ bucket.tokens + (t - bucket.lastRefillAt) / 1000 * bucket.plan.refillPerSec := by
    constructor
    · intro hle
      have hshare : (head.need - bucket.tokens) / bucket.plan.refillPerSec ≤
          (t - bucket.lastRefillAt) / 1000 := by linarith
      have hneed := (div_le_iff₀ hrate).mp hshare
      linarith
    · intro hle
      have hshare : (head.need - bucket.tokens) / bucket.plan.refillPerSec ≤
          (t - bucket.lastRefillAt) / 1000 := (div_le_iff₀ hrate).mpr (by linarith)
      linarith
  rw [hwait]
  exact ⟨fun hneed => ⟨hfits, hneed⟩, fun hneed => hneed.2⟩

/-- A refill on the way does not show later. -/
theorem balanceAt_refill (hok : bucket.Ok) (hrate : 0 < bucket.plan.refillPerSec)
    (h : bucket.lastRefillAt ≤ clock 0) (hlater : clock 0 ≤ t) :
    (bucket.refill clock).balanceAt t = bucket.balanceAt t := by
  have hplan := (refill_rest clock bucket).1
  have hok' : (bucket.refill clock).Ok := (refill_metered hok clock).ok
  have hmark := refill_mark h
  have hmore : 0 ≤ (t - clock 0) / 1000 * bucket.plan.refillPerSec :=
    mul_nonneg (div_nonneg (sub_nonneg.mpr hlater) (by norm_num)) hrate.le
  rw [balanceAt_eq hok' (by rwa [hplan]) (by rwa [hmark]), balanceAt_eq hok hrate (h.trans hlater),
    hplan, hmark, refill_tokens hok hrate h, ← min_add_add_right, ← min_assoc,
    min_eq_left (le_add_of_nonneg_right hmore)]
  congr 1
  ring

theorem onHandAt_refill (hok : bucket.Ok) (hrate : 0 < bucket.plan.refillPerSec)
    (h : bucket.lastRefillAt ≤ clock 0) :
    bucket.onHandAt head ≤ (bucket.refill clock).onHandAt head := by
  have hcredited : (bucket.refill clock).tokens ≤
      bucket.tokens + (clock 0 - bucket.lastRefillAt) / 1000 * bucket.plan.refillPerSec :=
    (refill_tokens hok hrate h).trans_le (min_le_right _ _)
  have hmissing : (head.need - bucket.tokens) / bucket.plan.refillPerSec -
      (clock 0 - bucket.lastRefillAt) / 1000 ≤
      (head.need - (bucket.refill clock).tokens) / bucket.plan.refillPerSec := by
    rw [le_div_iff₀ hrate, sub_mul, div_mul_cancel₀ _ hrate.ne']
    linarith
  rw [onHandAt, onHandAt, refill_mark h, (refill_rest clock bucket).1]
  linarith

theorem Passed.refl (bucket : TokenBucket) : Passed bucket bucket := ⟨rfl, rfl, fun _ _ => rfl⟩

theorem refill_passed (hok : bucket.Ok) (hrate : 0 < bucket.plan.refillPerSec)
    (h : bucket.lastRefillAt ≤ clock 0) : Passed bucket (bucket.refill clock) := by
  obtain ⟨-, hqueue, hpenalty⟩ := refill_rest clock bucket
  refine ⟨hqueue, hpenalty, fun t hlater => ?_⟩
  rw [refill_mark h] at hlater
  exact balanceAt_refill hok hrate h hlater

/-! ## What `reschedule` leaves behind -/

theorem payHeads_rest (t : ℚ) (queue : List Waiter) (bucket : TokenBucket) :
    (payHeads t queue bucket).plan = bucket.plan ∧
      (payHeads t queue bucket).lastRefillAt = bucket.lastRefillAt ∧
      (payHeads t queue bucket).penaltyUntil = bucket.penaltyUntil := by
  induction queue generalizing bucket with
  | nil => exact ⟨rfl, rfl, rfl⟩
  | cons head rest ih =>
      unfold payHeads
      split
      · exact ih _
      · exact ⟨rfl, rfl, rfl⟩

/-- The head that is left cannot be paid. -/
theorem payHeads_unpayable {queue : List Waiter} (hqueue : bucket.queue = queue)
    (hleft : (payHeads t queue bucket).queue = head :: rest) :
    ¬((payHeads t queue bucket).penaltyUntil ≤ t ∧
      head.need ≤ (payHeads t queue bucket).tokens) := by
  induction queue generalizing bucket with
  | nil =>
      rw [payHeads, hqueue] at hleft
      cases hleft
  | cons first others ih =>
      unfold payHeads at hleft ⊢
      split at hleft
      · rename_i hpays
        rw [if_pos hpays]
        exact ih rfl hleft
      · rename_i hpays
        rw [if_neg hpays]
        rw [hqueue] at hleft
        cases hleft
        exact hpays

theorem armTimer_rest (t : ℚ) (bucket : TokenBucket) :
    ∃ timer, bucket.armTimer t = { bucket with timer := timer } := by
  unfold armTimer
  split
  · exact ⟨_, rfl⟩
  · simp only
    split
    · exact ⟨_, rfl⟩
    · split
      · exact ⟨_, rfl⟩
      · exact ⟨_, rfl⟩

theorem reschedule_idle (h : (bucket.reschedule clock).queue = []) :
    (bucket.reschedule clock).timer = none := by
  rw [reschedule] at h ⊢
  obtain ⟨timer, harmed⟩ := armTimer_rest (clock 1)
    (payHeads (clock 1) (bucket.refill clock).queue (bucket.refill clock))
  have hpaid : (payHeads (clock 1) (bucket.refill clock).queue (bucket.refill clock)).queue = [] := by
    simp only [harmed] at h
    exact h
  simp only [armTimer, hpaid]

/-- The delay of the timer: until the penalty is over, and until the refill has brought in what
is missing. -/
theorem armTimer_delay (hrate : 0 < bucket.plan.refillPerSec) (hqueue : bucket.queue = head :: rest) :
    ∃ delay, (bucket.armTimer t).timer = some delay ∧
      t + delay = max bucket.penaltyUntil
        (t + max 0 ⌈(head.need - bucket.tokens) / bucket.plan.refillPerSec * 1000⌉) := by
  simp only [armTimer, hqueue]
  have hshift : ∀ wait : ℚ, 0 ≤ wait →
      t + max 0 (max (bucket.penaltyUntil - t) wait) = max bucket.penaltyUntil (t + wait) := by
    intro wait hwait
    rw [max_eq_right (hwait.trans (le_max_right _ _)), add_comm, ← max_add_add_right, sub_add_cancel,
      add_comm wait]
  split
  · rename_i hfunded
    refine ⟨_, rfl, ?_⟩
    have hnone : ⌈(head.need - bucket.tokens) / bucket.plan.refillPerSec * 1000⌉ ≤ 0 := by
      rw [Int.ceil_le]
      have hshare := div_nonpos_of_nonpos_of_nonneg hfunded hrate.le
      push_cast
      linarith
    rw [hshift 0 le_rfl, max_eq_left hnone, Int.cast_zero]
  · rename_i howing
    refine ⟨_, rfl, ?_⟩
    have hpos : 0 < ⌈(head.need - bucket.tokens) / bucket.plan.refillPerSec * 1000⌉ := by
      rw [Int.ceil_pos]
      exact mul_pos (div_pos (not_le.mp howing) hrate) (by norm_num)
    rw [hshift _ (by exact_mod_cast hpos.le), max_eq_right hpos.le]

theorem Ok.fits (hok : bucket.Ok) {waiter : Waiter} (hmem : waiter ∈ bucket.queue) :
    waiter.need ≤ bucket.plan.capacity := by
  rw [← (hok.parked waiter hmem).2]
  exact min_le_right _ _

/-- What is on hand when the timer is armed is what the last refill credited. -/
theorem timely_of_due {delay : ℚ} {handle : ℕ} (hok : bucket.Ok)
    (hrate : 0 < bucket.plan.refillPerSec) (hfits : head.need ≤ bucket.plan.capacity)
    (hmark : bucket.lastRefillAt = clock 0) (hclock : clock 0 ≤ clock 1)
    (hunpayable : ¬(bucket.penaltyUntil ≤ clock 1 ∧ head.need ≤ bucket.tokens))
    (hdue : clock 1 + delay = max bucket.penaltyUntil
      (clock 1 + max 0 ⌈(head.need - bucket.tokens) / bucket.plan.refillPerSec * 1000⌉)) :
    Timely bucket head ⟨handle, clock 0, clock 1, clock 1 + delay⟩ := by
  have hwait : bucket.onHandAt head - clock 0 =
      (head.need - bucket.tokens) / bucket.plan.refillPerSec * 1000 := by
    rw [onHandAt, hmark, add_sub_cancel_left]
  rw [← hwait] at hdue
  refine ⟨hclock, ?_, ?_, fun t hdone hlater => ?_⟩
  · change clock 1 + delay ≤ max _ (clock 1 + ⌈bucket.onHandAt head - clock 0⌉)
    rw [hdue]
    rcases le_total 0 ⌈bucket.onHandAt head - clock 0⌉ with hpos | hneg
    · rw [max_eq_right hpos]
    · -- Nothing is missing, so it is the penalty that the head waits for.
      have hfunded : head.need ≤ bucket.tokens := by
        have hle := Int.ceil_le.mp hneg
        rw [hwait] at hle
        push_cast at hle
        have hshare : (head.need - bucket.tokens) / bucket.plan.refillPerSec ≤ 0 := by linarith
        have hneed := (div_le_iff₀ hrate).mp hshare
        linarith
      have hpenalty : clock 1 < bucket.penaltyUntil := by
        by_contra hover
        exact hunpayable ⟨not_lt.mp hover, hfunded⟩
      rw [max_eq_left hneg, Int.cast_zero, add_zero, max_eq_left hpenalty.le]
      exact le_max_left _ _
  · change bucket.penaltyUntil ≤ clock 1 + delay
    rw [hdue]
    exact le_max_left _ _
  · refine (onHandAt_le_iff hok hrate hfits hlater).mp ?_
    change clock 1 + delay ≤ t at hdone
    have hrefilled : clock 1 + max 0 ⌈bucket.onHandAt head - clock 0⌉ ≤ t :=
      (le_max_right _ _).trans (hdue.symm.trans_le hdone)
    have hceil := Int.le_ceil (bucket.onHandAt head - clock 0)
    have hrounded : ((⌈bucket.onHandAt head - clock 0⌉ : ℤ) : ℚ) ≤
        ((max 0 ⌈bucket.onHandAt head - clock 0⌉ : ℤ) : ℚ) := by exact_mod_cast le_max_right _ _
    linarith

theorem reschedule_timely (hok : bucket.Ok) (hrate : 0 < bucket.plan.refillPerSec)
    (hmark : bucket.lastRefillAt ≤ clock 0) (hclock : clock 0 ≤ clock 1)
    (hleft : (bucket.reschedule clock).queue = head :: rest) :
    ¬((bucket.reschedule clock).penaltyUntil ≤ clock 1 ∧
        head.need ≤ (bucket.reschedule clock).balanceAt (clock 0)) ∧
      ∃ delay, (bucket.reschedule clock).timer = some delay ∧
        ∀ handle, Timely (bucket.reschedule clock) head ⟨handle, clock 0, clock 1, clock 1 + delay⟩ := by
  have hrescheduled := changes_metered hok (reschedule_changes clock bucket)
  have hok' := hrescheduled.ok
  have hplan := hrescheduled.plan
  have hfits := hok'.fits (hleft ▸ List.mem_cons_self)
  obtain ⟨timer, harmed⟩ := armTimer_rest (clock 1)
    (payHeads (clock 1) (bucket.refill clock).queue (bucket.refill clock))
  obtain ⟨hpaidPlan, hpaidMark, hpaidPenalty⟩ :=
    payHeads_rest (clock 1) (bucket.refill clock).queue (bucket.refill clock)
  have hrest : bucket.reschedule clock = { payHeads (clock 1) (bucket.refill clock).queue
      (bucket.refill clock) with timer := timer } := harmed
  have hmark' : (bucket.reschedule clock).lastRefillAt = clock 0 := by
    rw [hrest]
    exact hpaidMark.trans (refill_mark hmark)
  have hpaidLeft : (payHeads (clock 1) (bucket.refill clock).queue (bucket.refill clock)).queue =
      head :: rest := by
    rw [hrest] at hleft
    exact hleft
  have hunpayable : ¬((bucket.reschedule clock).penaltyUntil ≤ clock 1 ∧
      head.need ≤ (bucket.reschedule clock).tokens) := by
    rw [hrest]
    exact payHeads_unpayable rfl hpaidLeft
  have hrate' : 0 < (payHeads (clock 1) (bucket.refill clock).queue
      (bucket.refill clock)).plan.refillPerSec := by
    rwa [hpaidPlan, (refill_rest clock bucket).1]
  obtain ⟨delay, hdelay, hdue⟩ := armTimer_delay (t := clock 1) hrate' hpaidLeft
  have hcredited : (bucket.reschedule clock).refill (fun _ => clock 0) = bucket.reschedule clock :=
    refill_of_le hmark'.ge
  rw [balanceAt, hcredited]
  refine ⟨hunpayable, delay, hdelay, fun handle => ?_⟩
  refine timely_of_due hok' (by rwa [hplan]) hfits hmark' hclock hunpayable ?_
  rw [hrest]
  exact hdue

/-- A head that can be paid when the bucket reschedules is granted. -/
theorem reschedule_grants (hpromised : bucket.Promised) (hqueue : bucket.queue = head :: rest)
    (hpenalty : bucket.penaltyUntil ≤ clock 1) (hfunded : head.need ≤ (bucket.refill clock).tokens) :
    (bucket.reschedule clock).outcomes head.promise =
      some (.resolved (max 0 (clock 1 - head.startedAt)) head.need) := by
  obtain ⟨-, hrefilled, hsame⟩ := refill_rest clock bucket
  have hqueue' := hrefilled.trans hqueue
  have hpays : (bucket.refill clock).penaltyUntil ≤ clock 1 ∧
      head.need ≤ (bucket.refill clock).tokens := ⟨hsame.trans_le hpenalty, hfunded⟩
  have hrefill := refill_keeps hpromised clock
  have hgrant : Change (bucket.refill clock) ((bucket.refill clock).grantHead (clock 1) head rest) :=
    .grantHead hqueue' hfunded
  have hgranted := change_keeps hrefill.promised hgrant
  have hothers : Changes ((bucket.refill clock).grantHead (clock 1) head rest)
      (bucket.reschedule clock) := by
    rw [reschedule, hqueue', payHeads, if_pos hpays]
    exact (payHeads_changes (clock 1) rest rfl).trans (armTimer_changes (clock 1) _)
  exact (changes_keep hgranted.promised hothers).settled _ _ (Function.update_self ..)

theorem Timely.passed {alarm : Alarm} (h : Timely bucket head alarm) (hpassed : Passed bucket after)
    (hmark : bucket.lastRefillAt ≤ after.lastRefillAt)
    (honHand : bucket.onHandAt head ≤ after.onHandAt head) : Timely after head alarm := by
  refine ⟨h.order, ?_, ?_, fun t hdone hlater => ?_⟩
  · refine h.soon.trans ?_
    rw [hpassed.penaltyUntil]
    refine max_le_max le_rfl (add_le_add le_rfl ?_)
    exact_mod_cast Int.ceil_le_ceil (sub_le_sub_right honHand _)
  · rw [hpassed.penaltyUntil]
    exact h.penalty
  · rw [hpassed.balance t hlater]
    exact h.funded t hdone (hmark.trans hlater)

/-! ## The steps that reschedule, and the others -/

/-- Time has gone by, and perhaps shown. -/
structure Waited (bucket after : TokenBucket) : Prop where
  passed : Passed bucket after
  mark : bucket.lastRefillAt ≤ after.lastRefillAt
  onHand : ∀ head, bucket.onHandAt head ≤ after.onHandAt head

theorem Waited.refl (bucket : TokenBucket) : Waited bucket bucket :=
  ⟨.refl bucket, le_rfl, fun _ => le_rfl⟩

theorem refill_waited (hok : bucket.Ok) (hrate : 0 < bucket.plan.refillPerSec)
    (h : bucket.lastRefillAt ≤ clock 0) : Waited bucket (bucket.refill clock) :=
  ⟨refill_passed hok hrate h, h.trans (refill_mark h).ge, fun _ => onHandAt_refill hok hrate h⟩

/-- The promises and the histories have no part in it. -/
theorem Waited.congr {later : TokenBucket} (h : Waited bucket after) (hplan : later.plan = after.plan)
    (htokens : later.tokens = after.tokens) (hmark : later.lastRefillAt = after.lastRefillAt)
    (hqueue : later.queue = after.queue) (hpenalty : later.penaltyUntil = after.penaltyUntil) :
    Waited bucket later := by
  have hbalance : ∀ t, later.balanceAt t = after.balanceAt t := by
    intro t
    simp only [balanceAt, refill, hplan, htokens, hmark]
    split
    · rfl
    · rfl
  have honHand : ∀ head, later.onHandAt head = after.onHandAt head := by
    intro head
    rw [onHandAt, onHandAt, hplan, htokens, hmark]
  refine ⟨⟨hqueue.trans h.passed.queue, hpenalty.trans h.passed.penaltyUntil, fun t hlater => ?_⟩,
    hmark ▸ h.mark, fun head => honHand head ▸ h.onHand head⟩
  rw [hbalance]
  exact h.passed.balance t (hmark ▸ hlater)

/-- A synchronous take is free, refused, or granted while nobody waits. -/
theorem tryPay_outcome (clock : Clock) (cost n : ℚ) (bucket : TokenBucket) :
    bucket.tryPay clock cost n = (true, bucket.pay cost 0) ∨
      bucket.tryPay clock cost n = (false, bucket.refill clock) ∨
      bucket.queue = [] ∧ bucket.tryPay clock cost n = (true, (bucket.refill clock).pay cost n) := by
  by_cases hfree : n ≤ 0
  · exact .inl (if_pos hfree)
  · refine .inr ?_
    rw [tryPay, if_neg hfree, ← (refill_rest clock bucket).2.1]
    simp only
    split
    · exact .inl rfl
    · split
      · exact .inl rfl
      · split
        · exact .inl rfl
        · rename_i hqueue _
          exact .inr ⟨not_not.mp hqueue, rfl⟩

theorem tryPay_waited {cost n : ℚ} (hok : bucket.Ok) (hrate : 0 < bucket.plan.refillPerSec)
    (h : bucket.lastRefillAt ≤ clock 0) :
    (bucket.queue = [] ∧ (bucket.tryPay clock cost n).2.queue = []) ∨
      Waited bucket (bucket.tryPay clock cost n).2 := by
  rcases tryPay_outcome clock cost n bucket with hfree | hrefused | ⟨hnobody, hgranted⟩
  · rw [hfree]
    exact .inr ((Waited.refl bucket).congr rfl (sub_zero _) rfl rfl rfl)
  · rw [hrefused]
    exact .inr (refill_waited hok hrate h)
  · rw [hgranted]
    exact .inl ⟨hnobody, (refill_rest clock bucket).2.1.trans hnobody⟩

theorem clamp_waited (cost : ℚ) : Waited bucket (bucket.clamp cost).2 := by
  simp only [clamp]
  split
  · exact .refl bucket
  · exact (Waited.refl bucket).congr rfl rfl rfl rfl rfl

theorem Waited.trans {later : TokenBucket} (h : Waited bucket after) (hlater : Waited after later) :
    Waited bucket later :=
  ⟨⟨hlater.passed.queue.trans h.passed.queue, hlater.passed.penaltyUntil.trans h.passed.penaltyUntil,
      fun t ht => (hlater.passed.balance t ht).trans (h.passed.balance t (hlater.mark.trans ht))⟩,
    h.mark.trans hlater.mark, fun head => (h.onHand head).trans (hlater.onHand head)⟩

/-- A call that does not reschedule: nobody waits, or nothing but time goes by. -/
structure Quiet (clock : Clock) (bucket : TokenBucket) (call : Call) : Prop where
  none : bucket.rescheduling clock call = none
  after : (bucket.queue = [] ∧ (bucket.step clock call).queue = []) ∨
    Waited bucket (bucket.step clock call)

/-- A call that makes its changes and then reschedules. -/
structure Reschedules (clock : Clock) (bucket : TokenBucket) (call : Call) (readings : Clock)
    (changed : TokenBucket) : Prop where
  some : bucket.rescheduling clock call = some readings
  after : bucket.step clock call = changed.reschedule readings
  changes : Changes bucket changed
  mark : changed.lastRefillAt ≤ readings 0
  order : readings 0 ≤ readings 1

theorem quiet_of_same {call : Call} (hnone : bucket.rescheduling clock call = none)
    (hsame : bucket.step clock call = bucket) : Quiet clock bucket call := by
  refine ⟨hnone, .inr ?_⟩
  rw [hsame]
  exact .refl bucket

theorem take_kinds (hok : bucket.Ok) (hrate : 0 < bucket.plan.refillPerSec)
    (hclock : ∀ i j, i ≤ j → clock i ≤ clock j) (hmark : bucket.lastRefillAt ≤ clock 0)
    (cost deadlineAt : ℚ) (signal : AbortSignal) :
    Quiet clock bucket (.take cost deadlineAt signal) ∨
      ∃ readings changed, Reschedules clock bucket (.take cost deadlineAt signal) readings changed := by
  have hclamp := clamp_changes cost bucket
  have hwaits : Waited bucket (bucket.clamp cost).2 := clamp_waited cost
  have hneed := bucket.clamp_need cost
  have hclampMark : (bucket.clamp cost).2.lastRefillAt = bucket.lastRefillAt := by
    simp only [clamp]
    split
    · rfl
    · rfl
  have hmark' : bucket.lastRefillAt ≤ clock.after 1 0 := hmark.trans (hclock 0 1 (Nat.zero_le 1))
  suffices h : (rescheduling clock bucket (.take cost deadlineAt signal) = none ∧
      ((bucket.queue = [] ∧ (bucket.take clock cost deadlineAt signal).2.queue = []) ∨
        Waited bucket (bucket.take clock cost deadlineAt signal).2)) ∨
      ∃ readings changed, rescheduling clock bucket (.take cost deadlineAt signal) = some readings ∧
        (bucket.take clock cost deadlineAt signal).2 = changed.reschedule readings ∧
        Changes bucket changed ∧ changed.lastRefillAt ≤ readings 0 ∧ readings 0 ≤ readings 1 by
    rcases h with ⟨hnone, hafter⟩ | ⟨readings, changed, hsome, hafter, hchanges, hlast, horder⟩
    · exact .inl ⟨hnone, hafter⟩
    · exact .inr ⟨readings, changed, hsome, hafter, hchanges, hlast, horder⟩
  simp only [rescheduling]
  unfold take
  generalize bucket.clamp cost = clamped at hclamp hneed hwaits hclampMark ⊢
  obtain ⟨need, clamped⟩ := clamped
  simp only at hclamp hneed hwaits hclampMark ⊢
  have hclampedOk := (changes_metered hok hclamp).ok
  have hplan := hclamp.plan_eq
  have hlast : clamped.lastRefillAt ≤ clock.after 1 0 := by rwa [hclampMark]
  by_cases haborted : signal = some true
  · rw [if_pos haborted, if_pos haborted]
    exact .inl ⟨rfl, .inr (hwaits.congr rfl rfl rfl rfl rfl)⟩
  · rw [if_neg haborted, if_neg haborted]
    rcases tryPay_outcome (clock.after 1) cost need clamped with
      hfree | hrefused | ⟨hnobody, hgranted⟩
    · rw [hfree]
      exact .inl ⟨rfl, .inr (hwaits.congr rfl (sub_zero _) rfl rfl rfl)⟩
    · have hpositive : 0 < need := need_pos_of_tryPay (congrArg Prod.fst hrefused)
      have hrefilled : Waited clamped (clamped.refill (clock.after 1)) :=
        refill_waited hclampedOk (by rwa [hplan]) hlast
      rw [hrefused]
      simp only
      by_cases hfull : maxQueuedWaiters ≤ (clamped.refill (clock.after 1)).queue.length
      · rw [if_pos hfull, if_pos hfull]
        exact .inl ⟨rfl, .inr ((hwaits.trans hrefilled).congr rfl rfl rfl rfl rfl)⟩
      · rw [if_neg hfull, if_neg hfull]
        refine .inr ⟨clock.after 3, _, rfl, rfl, (hclamp.tail (.refill (clock.after 1))).tail
          (.park (fun _ => rfl) fun _ => ⟨hpositive, ?_⟩), ?_, hclock 3 4 (by decide)⟩
        · rw [(refill_rest (clock.after 1) clamped).1, hplan]
          exact (debit_of_need hneed).2 hpositive
        · exact (refill_mark hlast).trans_le (hclock 1 3 (by decide))
    · rw [hgranted]
      exact .inl ⟨rfl, .inl ⟨hwaits.passed.queue.symm.trans hnobody,
        (refill_rest (clock.after 1) clamped).2.1.trans hnobody⟩⟩

theorem fail_kinds {promise : PromiseId} {call : Call} {error : RateLimitTimeoutError}
    (hqueued : bucket.queue.any (fun waiter => waiter.promise = promise) = true)
    (hsome : bucket.rescheduling clock call = some clock)
    (hstep : bucket.step clock call = bucket.fail clock promise error)
    (hclock : ∀ i j, i ≤ j → clock i ≤ clock j) (hmark : bucket.lastRefillAt ≤ clock 0) :
    ∃ readings changed, Reschedules clock bucket call readings changed := by
  obtain ⟨waiter, hmem, hpromise⟩ := List.any_eq_true.mp hqueued
  refine ⟨clock, bucket.drop promise error, hsome, ?_, .single (.drop hmem (of_decide_eq_true hpromise)),
    hmark, hclock 0 1 (by decide)⟩
  rw [hstep, fail, if_pos hqueued]

/-- Every call but that of the timer. -/
theorem step_kinds (hok : bucket.Ok) (hrate : 0 < bucket.plan.refillPerSec)
    (hclock : ∀ i j, i ≤ j → clock i ≤ clock j) (hmark : bucket.lastRefillAt ≤ clock 0) {call : Call}
    (hcall : call ≠ .timer) :
    Quiet clock bucket call ∨ ∃ readings changed, Reschedules clock bucket call readings changed := by
  have horder : ∀ i, clock i ≤ clock (i + 1) := fun i => hclock i (i + 1) (Nat.le_succ i)
  have hrefilled := refill_mark hmark
  cases call with
  | available => exact .inl ⟨rfl, .inr (refill_waited hok hrate hmark)⟩
  | tryTake n => exact .inl ⟨rfl, tryPay_waited hok hrate hmark⟩
  | take cost deadlineAt signal => exact take_kinds hok hrate hclock hmark cost deadlineAt signal
  | forceTake n =>
      by_cases hn : n ≤ 0
      · have hsame : bucket.step clock (.forceTake n) = bucket := if_pos hn
        exact .inl (quiet_of_same (if_pos hn) hsame)
      · exact .inr ⟨clock.after 1, _, if_neg hn, if_neg hn,
          (Relation.ReflTransGen.single (.refill clock)).tail (.charge (not_le.mp hn)),
          hrefilled.trans_le (horder 0), horder 1⟩
  | refund n =>
      by_cases hn : n ≤ 0
      · have hsame : bucket.step clock (.refund n) = bucket := if_pos hn
        exact .inl (quiet_of_same (if_pos hn) hsame)
      · exact .inr ⟨clock.after 1, _, if_neg hn, if_neg hn,
          (Relation.ReflTransGen.single (.refill clock)).tail (.credit (not_le.mp hn)),
          hrefilled.trans_le (horder 0), horder 1⟩
  | penalize untilMs =>
      by_cases hlater : untilMs ≤ bucket.penaltyUntil
      · have hsame : bucket.step clock (.penalize untilMs) = bucket := if_pos hlater
        exact .inl (quiet_of_same (if_pos hlater) hsame)
      · exact .inr ⟨clock, _, if_neg hlater, if_neg hlater, .single (.penalty untilMs), hmark, horder 0⟩
  | deadline promise =>
      by_cases hqueued : bucket.queue.any (fun waiter => waiter.promise = promise) = true
      · exact .inr (fail_kinds hqueued (if_pos hqueued) rfl hclock hmark)
      · have hsame : bucket.step clock (.deadline promise) = bucket := if_neg hqueued
        exact .inl (quiet_of_same (if_neg hqueued) hsame)
  | abort promise =>
      by_cases hlistens : bucket.queue.any
          (fun waiter => waiter.promise = promise && waiter.abortable) = true
      · have hqueued : bucket.queue.any (fun waiter => waiter.promise = promise) = true := by
          obtain ⟨waiter, hmem, hboth⟩ := List.any_eq_true.mp hlistens
          exact List.any_eq_true.mpr ⟨waiter, hmem, (Bool.and_eq_true_iff.mp hboth).1⟩
        exact .inr (fail_kinds hqueued (if_pos hlistens) (if_pos hlistens) hclock hmark)
      · have hsame : bucket.step clock (.abort promise) = bucket := if_neg hlistens
        exact .inl (quiet_of_same (if_neg hlistens) hsame)
  | timer => exact absurd rfl hcall

end TokenBucket

end VoiceOrder.RateLimit
