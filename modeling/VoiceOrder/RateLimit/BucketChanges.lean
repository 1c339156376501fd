import VoiceOrder.RateLimit.TokenBucket
import Mathlib.Logic.Relation
import Mathlib.Tactic.Ring
import Mathlib.Tactic.Linarith

/-! # What a call can change in a bucket

`Change` lists the elementary changes; every call of the bucket is a sequence of them. An
invariant of the bucket has to be checked on these changes only. -/

namespace VoiceOrder.RateLimit

/-- What a granted cost is debited: a cost above capacity counts as capacity. -/
def BucketPlan.debit (plan : BucketPlan) (cost : ℚ) : ℚ := min cost plan.capacity

namespace TokenBucket

inductive Change (bucket : TokenBucket) : TokenBucket → Prop where
  | refill (clock) : Change bucket (bucket.refill clock)
  | timer (timer) : Change bucket { bucket with timer := timer }
  | warned : Change bucket { bucket with warnedOversizedCost := true }
  | penalty (untilMs) : Change bucket { bucket with penaltyUntil := untilMs }
  | charge {n} : 0 < n → Change bucket { bucket with tokens := bucket.tokens - n }
  | credit {n} : 0 < n → Change bucket { bucket with
      tokens := min bucket.plan.capacity (bucket.tokens + n)
      refunds := bucket.refunds ++ [n] }
  | promise (outcome) : Change bucket (bucket.newPromise (some outcome)).2
  | free {cost} : cost ≤ 0 ∨ bucket.plan.debit cost = 0 → Change bucket (bucket.pay cost 0)
  | pay {cost need} : 0 < need → (need ≤ bucket.plan.capacity → bucket.plan.debit cost = need) →
      need ≤ bucket.tokens → Change bucket (bucket.pay cost need)
  | grantHead {t head rest} : bucket.queue = head :: rest → head.need ≤ bucket.tokens →
      Change bucket (bucket.grantHead t head rest)
  | park {waiter : PromiseId → Waiter} : (∀ promise, (waiter promise).promise = promise) →
      (∀ promise, 0 < (waiter promise).need ∧
        bucket.plan.debit (waiter promise).cost = (waiter promise).need) →
      Change bucket (bucket.park waiter)
  | drop {promise error waiter} : waiter ∈ bucket.queue → waiter.promise = promise →
      Change bucket (bucket.drop promise error)

/-- A sequence of elementary changes. -/
abbrev Changes : TokenBucket → TokenBucket → Prop := Relation.ReflTransGen Change

theorem Change.plan_eq {bucket after : TokenBucket} (h : Change bucket after) :
    after.plan = bucket.plan := by
  cases h with
  | refill clock =>
      unfold TokenBucket.refill
      simp only
      split <;> rfl
  | timer | warned | penalty | charge | credit | promise | free | pay | grantHead | park | drop => rfl

theorem Changes.plan_eq {bucket after : TokenBucket} (h : Changes bucket after) :
    after.plan = bucket.plan := by
  induction h with
  | refl => rfl
  | tail _ hchange ih => exact hchange.plan_eq.trans ih

/-! ## The methods -/

theorem payHeads_changes (t : ℚ) (queue : List Waiter) {bucket : TokenBucket}
    (hqueue : bucket.queue = queue) : Changes bucket (payHeads t queue bucket) := by
  induction queue generalizing bucket with
  | nil => exact .refl
  | cons head rest ih =>
      unfold payHeads
      split
      · rename_i hpay
        exact .head (.grantHead hqueue hpay.2) (ih rfl)
      · exact .refl

theorem armTimer_changes (t : ℚ) (bucket : TokenBucket) : Changes bucket (bucket.armTimer t) := by
  unfold armTimer
  split
  · exact .single (.timer none)
  · simp only
    split
    · exact .single (.timer _)
    · split
      · exact .single (.timer _)
      · exact .single (.timer none)

theorem reschedule_changes (clock : Clock) (bucket : TokenBucket) :
    Changes bucket (bucket.reschedule clock) :=
  .head (.refill clock) ((payHeads_changes (clock 1) _ rfl).trans (armTimer_changes (clock 1) _))

/-- A synchronous grant of `n` for a cost that is debited `n`. -/
theorem tryPay_changes {bucket : TokenBucket} (clock : Clock) {cost n : ℚ}
    (hfree : n ≤ 0 → cost ≤ 0 ∨ bucket.plan.debit cost = 0)
    (hneed : 0 < n → n ≤ bucket.plan.capacity → bucket.plan.debit cost = n) :
    Changes bucket (bucket.tryPay clock cost n).2 := by
  have hrefill : Change bucket (bucket.refill clock) := .refill clock
  unfold tryPay
  split
  · rename_i hn
    exact .single (.free (hfree hn))
  · rename_i hn
    simp only
    split
    · exact .single hrefill
    · split
      · exact .single hrefill
      · split
        · exact .single hrefill
        · rename_i htokens
          have hn := not_le.mp hn
          exact .head hrefill (.single (.pay hn (hrefill.plan_eq ▸ hneed hn) (not_lt.mp htokens)))

theorem need_pos_of_tryPay {bucket : TokenBucket} {clock : Clock} {cost n : ℚ}
    (h : (bucket.tryPay clock cost n).1 = false) : 0 < n := by
  unfold tryPay at h
  split at h
  · cases h
  · rename_i hn
    exact not_le.mp hn

/-- The clamped need of a cost is what the cost is debited, when the cost is positive. -/
theorem clamp_need (cost : ℚ) (bucket : TokenBucket) :
    (bucket.clamp cost).1 = max 0 (bucket.plan.debit cost) := by
  have hcapacity := bucket.plan.capacity_nonneg
  unfold clamp BucketPlan.debit
  rcases le_total cost 0 with hcost | hcost
  · have hmin : min cost bucket.plan.capacity ≤ 0 := (min_le_left _ _).trans hcost
    simp [max_eq_left hcost, max_eq_left hmin, hcapacity]
  · rw [max_eq_right hcost, max_eq_right (le_min hcost hcapacity)]
    rcases le_total cost bucket.plan.capacity with hle | hle
    · simp [hle]
    · rcases hle.eq_or_lt with heq | hlt
      · simp [heq]
      · simp [not_le.mpr hlt, hle]

theorem clamp_changes (cost : ℚ) (bucket : TokenBucket) :
    Changes bucket (bucket.clamp cost).2 := by
  simp only [clamp]
  split
  · exact .refl
  · exact .single .warned

/-- Both ways of paying for a clamped need debit what the cost is debited. -/
theorem debit_of_need {plan : BucketPlan} {cost need : ℚ} (h : need = max 0 (plan.debit cost)) :
    (need ≤ 0 → cost ≤ 0 ∨ plan.debit cost = 0) ∧ (0 < need → plan.debit cost = need) := by
  constructor
  · intro hn
    have hdebit : plan.debit cost ≤ 0 := (le_max_right _ _).trans (h ▸ hn)
    rcases le_or_gt cost 0 with hcost | hcost
    · exact Or.inl hcost
    · exact Or.inr (le_antisymm hdebit (le_min hcost.le plan.capacity_nonneg))
  · intro hn
    rcases max_choice 0 (plan.debit cost) with hmax | hmax
    · rw [h, hmax] at hn
      exact absurd hn (lt_irrefl 0)
    · rw [h, hmax]

theorem take_changes (clock : Clock) (cost deadlineAt : ℚ) (signal : AbortSignal)
    (bucket : TokenBucket) : Changes bucket (bucket.take clock cost deadlineAt signal).2 := by
  have hclamp := clamp_changes cost bucket
  have hneed := bucket.clamp_need cost
  unfold take
  generalize bucket.clamp cost = clamped at hclamp hneed
  obtain ⟨need, clamped⟩ := clamped
  simp only at hclamp hneed ⊢
  split
  · exact hclamp.tail (.promise _)
  · have hdebit := debit_of_need hneed
    rw [← hclamp.plan_eq] at hdebit
    have htry : Changes clamped (clamped.tryPay (clock.after 1) cost need).2 :=
      tryPay_changes _ hdebit.1 fun hn _ => hdebit.2 hn
    have hparked : (clamped.tryPay (clock.after 1) cost need).1 = false → 0 < need :=
      need_pos_of_tryPay
    generalize clamped.tryPay (clock.after 1) cost need = tried at htry hparked
    obtain ⟨granted, tried⟩ := tried
    have htried := hclamp.trans htry
    cases granted with
    | true => exact htried.tail (.promise _)
    | false =>
        simp only
        split
        · exact htried.tail (.promise _)
        · refine Relation.ReflTransGen.trans ?_ (reschedule_changes _ _)
          refine htried.tail (.park (fun _ => rfl) fun _ => ⟨hparked rfl, ?_⟩)
          rw [htry.plan_eq]
          exact hdebit.2 (hparked rfl)

theorem forceTake_changes (clock : Clock) (n : ℚ) (bucket : TokenBucket) :
    Changes bucket (bucket.forceTake clock n) := by
  unfold forceTake
  split
  · exact .refl
  · rename_i hn
    exact .head (.refill clock) (.head (.charge (not_le.mp hn)) (reschedule_changes _ _))

theorem refund_changes (clock : Clock) (n : ℚ) (bucket : TokenBucket) :
    Changes bucket (bucket.refund clock n) := by
  unfold refund
  split
  · exact .refl
  · rename_i hn
    exact .head (.refill clock) (.head (.credit (not_le.mp hn)) (reschedule_changes _ _))

theorem penalize_changes (clock : Clock) (untilMs : ℚ) (bucket : TokenBucket) :
    Changes bucket (bucket.penalize clock untilMs) := by
  unfold penalize
  split
  · exact .refl
  · exact .head (.penalty untilMs) (reschedule_changes clock _)

theorem fail_changes (clock : Clock) (promise : PromiseId) (error : RateLimitTimeoutError)
    (bucket : TokenBucket) : Changes bucket (bucket.fail clock promise error) := by
  unfold fail
  split
  · rename_i hany
    obtain ⟨waiter, hmem, hpromise⟩ := List.any_eq_true.mp hany
    exact .head (.drop hmem (of_decide_eq_true hpromise)) (reschedule_changes clock _)
  · exact .refl

/-- Whatever happens to a bucket is a sequence of elementary changes. -/
theorem step_changes (clock : Clock) (bucket : TokenBucket) (call : Call) :
    Changes bucket (bucket.step clock call) := by
  cases call with
  | available => exact .single (.refill clock)
  | tryTake n => exact tryPay_changes clock Or.inl fun _ => min_eq_left
  | take cost deadlineAt signal => exact take_changes clock cost deadlineAt signal bucket
  | forceTake n => exact forceTake_changes clock n bucket
  | refund n => exact refund_changes clock n bucket
  | penalize untilMs => exact penalize_changes clock untilMs bucket
  | deadline promise => exact fail_changes clock promise _ bucket
  | abort promise =>
      simp only [step]
      split
      · exact fail_changes clock promise _ bucket
      · exact .refl
  | timer =>
      simp only [step]
      split
      · exact .refl
      · exact .head (.timer none) (reschedule_changes clock _)

theorem run_changes (bucket : TokenBucket) (calls : List (Clock × Call)) :
    Changes bucket (bucket.run calls) := by
  induction calls generalizing bucket with
  | nil => exact .refl
  | cons call calls ih => exact (step_changes call.1 bucket call.2).trans (ih _)

end TokenBucket

end VoiceOrder.RateLimit
