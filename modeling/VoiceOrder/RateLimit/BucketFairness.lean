import VoiceOrder.RateLimit.ArmedBucket
import Mathlib.Algebra.BigOperators.Group.List.Basic

/-! # Fairness of the bucket, and settlement exactly once

Over any sequence of calls, expiries, aborts, timer firings and clock readings, waiters are
granted in the order in which they were parked and nobody overtakes them; a take settles once
and is charged exactly when it is granted. -/

namespace VoiceOrder.RateLimit

open Runs

namespace Grant

/-- A grant of positive cost goes to the head of the queue, or to a caller that finds the queue
empty, and is not decided before the penalty instant. -/
structure Allowed (grant : Grant) : Prop where
  head : grant.parked = true → grant.waiting.head? = grant.promise
  empty : grant.parked = false → 0 < grant.cost → grant.waiting = []
  patient : 0 < grant.cost → ∃ t, grant.reading = some t ∧ grant.penaltyUntil ≤ t

end Grant

namespace ArmedBucket

/-- The promises of the waiters granted so far, in order. -/
def served (armed : ArmedBucket) : List PromiseId :=
  (armed.granted.filter Grant.parked).filterMap Grant.promise

/-- What the grants have been debited. -/
def debited (armed : ArmedBucket) : ℚ := (armed.granted.map Grant.paid).sum

/-! ## Elementary moves -/

/-- Only the account has moved, by what was gained and forced. -/
structure Accounts (armed after : ArmedBucket) : Prop where
  queue : after.bucket.queue = armed.bucket.queue
  outcomes : after.bucket.outcomes = armed.bucket.outcomes
  nextPromise : after.bucket.nextPromise = armed.bucket.nextPromise
  plan : after.bucket.plan = armed.bucket.plan
  deadlineTimers : after.deadlineTimers = armed.deadlineTimers
  listeners : after.listeners = armed.listeners
  granted : after.granted = armed.granted
  parks : after.parks = armed.parks
  settlements : after.settlements = armed.settlements
  tokens : after.bucket.tokens - after.gained + after.forced =
    armed.bucket.tokens - armed.gained + armed.forced

/-- An elementary move: of the account alone, or of one promise. -/
inductive Move (armed : ArmedBucket) : ArmedBucket → Prop where
  | account {after} : Accounts armed after → Move armed after
  | reject (error) : Move armed (armed.newSettled (.rejected error))
  | payNow {reading cost need} :
      Grant.Allowed ⟨none, false, cost, need, reading, armed.bucket.penaltyUntil, armed.waiting⟩ →
      Move armed (armed.pay none false reading cost need)
  | grantNow {reading cost need} :
      Grant.Allowed ⟨some armed.bucket.nextPromise, false, cost, need, reading,
        armed.bucket.penaltyUntil, armed.waiting⟩ →
      Move armed ((armed.pay (some armed.bucket.nextPromise) false reading cost need).newSettled
        (.resolved 0 need))
  | grantHead {t head rest} : armed.bucket.queue = head :: rest → armed.bucket.penaltyUntil ≤ t →
      head.need ≤ armed.bucket.tokens → Move armed (armed.grantHead t head rest)
  | park {waiter : PromiseId → Waiter} : (∀ promise, (waiter promise).promise = promise) →
      Move armed (armed.park waiter)
  | drop {promise error waiter} : waiter ∈ armed.bucket.queue → waiter.promise = promise →
      Move armed (armed.drop promise error)

abbrev Moves : ArmedBucket → ArmedBucket → Prop := Relation.ReflTransGen Move

variable {armed after : ArmedBucket} {clock : Clock}

theorem refill_fields (clock : Clock) (bucket : TokenBucket) :
    (bucket.refill clock).queue = bucket.queue ∧ (bucket.refill clock).outcomes = bucket.outcomes ∧
      (bucket.refill clock).nextPromise = bucket.nextPromise ∧
      (bucket.refill clock).plan = bucket.plan := by
  unfold TokenBucket.refill
  simp only
  split <;> exact ⟨rfl, rfl, rfl, rfl⟩

theorem refill_moves (clock : Clock) (armed : ArmedBucket) : Move armed (armed.refill clock) := by
  obtain ⟨hqueue, houtcomes, hnext, hplan⟩ := refill_fields clock armed.bucket
  refine .account ⟨hqueue, houtcomes, hnext, hplan, rfl, rfl, rfl, rfl, rfl, ?_⟩
  simp only [refill]
  ring

theorem payHeads_moves (t : ℚ) (queue : List Waiter) {armed : ArmedBucket}
    (hqueue : armed.bucket.queue = queue) : Moves armed (payHeads t queue armed) := by
  induction queue generalizing armed with
  | nil => exact .refl
  | cons head rest ih =>
      unfold payHeads
      split
      · rename_i hpay
        exact .head (.grantHead hqueue hpay.1 hpay.2) (ih rfl)
      · exact .refl

theorem armTimer_moves (t : ℚ) (armed : ArmedBucket) :
    Move armed { armed with bucket := armed.bucket.armTimer t } := by
  have hsame : ∃ timer, armed.bucket.armTimer t = { armed.bucket with timer := timer } := by
    unfold TokenBucket.armTimer
    split
    · exact ⟨_, rfl⟩
    · simp only
      split_ifs <;> exact ⟨_, rfl⟩
  obtain ⟨timer, hsame⟩ := hsame
  rw [hsame]
  exact .account ⟨rfl, rfl, rfl, rfl, rfl, rfl, rfl, rfl, rfl, rfl⟩

theorem reschedule_moves (clock : Clock) (armed : ArmedBucket) :
    Moves armed (armed.reschedule clock) :=
  .head (refill_moves clock armed) ((payHeads_moves (clock 1) _ rfl).tail (armTimer_moves (clock 1) _))

/-- How a synchronous attempt ends: it is refused and only the account moves, or it pays. -/
theorem tryPay_cases (armed : ArmedBucket) (clock : Clock) (promise : Option PromiseId) (cost n : ℚ)
    (hcost : n ≤ 0 → cost ≤ 0) :
    ∃ refilled, Moves armed refilled ∧ refilled.bucket.nextPromise = armed.bucket.nextPromise ∧
      (armed.tryPay clock promise cost n = (false, refilled) ∨
        ∃ reading, Grant.Allowed ⟨promise, false, cost, max 0 n, reading,
            refilled.bucket.penaltyUntil, refilled.waiting⟩ ∧
          armed.tryPay clock promise cost n =
            (true, refilled.pay promise false reading cost (max 0 n))) := by
  have hrefill : Moves armed (armed.refill clock) := .single (refill_moves clock armed)
  have hnext : (armed.refill clock).bucket.nextPromise = armed.bucket.nextPromise :=
    (refill_fields clock armed.bucket).2.2.1
  unfold tryPay
  by_cases hfree : n ≤ 0
  · refine ⟨armed, .refl, rfl, .inr ⟨none, ⟨fun h => (nomatch h), fun _ h => ?_, fun h => ?_⟩, ?_⟩⟩
    · exact absurd (hcost hfree) (not_le.mpr h)
    · exact absurd (hcost hfree) (not_le.mpr h)
    · rw [if_pos hfree, max_eq_left hfree]
  · have hpaid : max 0 n = n := max_eq_right (not_le.mp hfree).le
    refine ⟨armed.refill clock, hrefill, hnext, ?_⟩
    rw [if_neg hfree, hpaid]
    simp only
    by_cases hpenalty : clock 1 < (armed.refill clock).bucket.penaltyUntil
    · exact .inl (if_pos hpenalty)
    · rw [if_neg hpenalty]
      by_cases hqueue : (armed.refill clock).bucket.queue = []
      · rw [if_neg (not_not.mpr hqueue)]
        by_cases htokens : (armed.refill clock).bucket.tokens < n
        · exact .inl (if_pos htokens)
        · refine .inr ⟨some (clock 1), ⟨fun h => (nomatch h), fun _ _ => ?_, fun _ => ?_⟩,
            if_neg htokens⟩
          · exact congrArg (List.map Waiter.promise) hqueue
          · exact ⟨_, rfl, not_lt.mp hpenalty⟩
      · exact .inl (if_pos hqueue)

theorem tryTake_moves (n : ℚ) : Moves armed (armed.tryPay clock none n n).2 := by
  obtain ⟨refilled, hrefilled, -, htried | ⟨reading, hallowed, htried⟩⟩ :=
    tryPay_cases armed clock none n n id
  · rw [htried]
    exact hrefilled
  · rw [htried]
    exact hrefilled.tail (.payNow hallowed)

theorem clamp_moves (armed : ArmedBucket) (cost : ℚ) :
    Move armed { armed with bucket := (armed.bucket.clamp cost).2 } := by
  unfold TokenBucket.clamp
  simp only
  split <;> exact .account ⟨rfl, rfl, rfl, rfl, rfl, rfl, rfl, rfl, rfl, rfl⟩

theorem take_moves (hcapacity : 0 < armed.bucket.plan.capacity) (cost deadlineAt : ℚ)
    (signal : AbortSignal) : Moves armed (armed.take clock cost deadlineAt signal) := by
  have hclamp := clamp_moves armed cost
  have hneed := armed.bucket.clamp_need cost
  have hfree : (armed.bucket.clamp cost).1 ≤ 0 → cost ≤ 0 := by
    intro hle
    rw [hneed] at hle
    have := le_trans (le_max_right 0 _) hle
    exact (min_le_iff.mp this).resolve_right (not_le.mpr hcapacity)
  have hpaid : max 0 (armed.bucket.clamp cost).1 = (armed.bucket.clamp cost).1 := by
    rw [hneed, max_eq_right (le_max_left _ _)]
  simp only [take]
  generalize armed.bucket.clamp cost = clamped at hclamp hfree hpaid ⊢
  obtain ⟨need, bucket⟩ := clamped
  simp only at hclamp hfree hpaid ⊢
  split
  · exact .head hclamp (.single (.reject _))
  · obtain ⟨refilled, hrefilled, hnext, htried⟩ := tryPay_cases
      { armed with bucket := bucket } (clock.after 1) (some bucket.nextPromise) cost need hfree
    have hmoves := Relation.ReflTransGen.head hclamp hrefilled
    obtain htried | ⟨reading, hallowed, htried⟩ := htried
    · rw [htried]
      simp only
      split
      · exact hmoves.tail (.reject _)
      · exact (hmoves.tail (.park fun _ => rfl)).trans (reschedule_moves _ _)
    · rw [htried]
      simp only
      rw [hpaid] at hallowed ⊢
      rw [← hnext] at hallowed ⊢
      exact hmoves.tail (.grantNow hallowed)

theorem forceTake_moves (n : ℚ) : Moves armed (armed.forceTake clock n) := by
  unfold forceTake
  split
  · exact .refl
  · refine .head (refill_moves clock armed) (.head (.account ?_) (reschedule_moves _ _))
    refine ⟨rfl, rfl, rfl, rfl, rfl, rfl, rfl, rfl, rfl, ?_⟩
    simp only
    ring

theorem refund_moves (n : ℚ) : Moves armed (armed.refund clock n) := by
  unfold refund
  split
  · exact .refl
  · refine .head (refill_moves clock armed) (.head (.account ?_) (reschedule_moves _ _))
    refine ⟨rfl, rfl, rfl, rfl, rfl, rfl, rfl, rfl, rfl, ?_⟩
    simp only
    ring

theorem penalize_moves (untilMs : ℚ) : Moves armed (armed.penalize clock untilMs) := by
  unfold penalize
  split
  · exact .refl
  · refine .head (.account ?_) (reschedule_moves _ _)
    exact ⟨rfl, rfl, rfl, rfl, rfl, rfl, rfl, rfl, rfl, rfl⟩

/-! ## What no move breaks -/

/-- The waiters: they have the timers, and no others are pending; they were parked in the order
of the queue, after those that have been served. -/
structure Parked (armed : ArmedBucket) : Prop where
  timers : ∀ promise, promise ∈ armed.deadlineTimers ↔ promise ∈ armed.waiting
  listeners : ∀ promise, promise ∈ armed.listeners ↔
    ∃ waiter ∈ armed.bucket.queue, waiter.promise = promise ∧ waiter.abortable = true
  pending : ∀ promise < armed.bucket.nextPromise, armed.bucket.outcomes promise = none →
    promise ∈ armed.waiting
  order : (armed.served ++ armed.waiting).Sublist armed.parks
  sorted : armed.parks.Pairwise (· < ·)
  issued : ∀ promise ∈ armed.parks, promise < armed.bucket.nextPromise

/-- A promise is settled by one call. -/
structure SettledOnce (armed : ArmedBucket) : Prop where
  once : armed.settlements.Nodup
  settled : ∀ promise, promise ∈ armed.settlements ↔
    ∃ outcome, armed.bucket.outcomes promise = some outcome

/-- The bucket is debited for what it has granted, and for nothing else. -/
structure Charged (armed : ArmedBucket) : Prop where
  allowed : ∀ grant ∈ armed.granted, grant.Allowed
  distinct : (armed.granted.filterMap Grant.promise).Nodup
  charged : ∀ promise paid,
    (∃ waitedMs, armed.bucket.outcomes promise = some (.resolved waitedMs paid)) ↔
      ∃ grant ∈ armed.granted, grant.promise = some promise ∧ grant.paid = paid
  balance : armed.bucket.tokens =
    armed.bucket.plan.capacity + armed.gained - armed.forced - armed.debited

structure Tidy (plan : BucketPlan) (armed : ArmedBucket) : Prop where
  plan : armed.bucket.plan = plan
  promised : armed.bucket.Promised
  parked : armed.Parked
  settled : armed.SettledOnce
  charged : armed.Charged

theorem create_tidy (plan : BucketPlan) (now : ℚ) : (create plan now).Tidy plan where
  plan := rfl
  promised := TokenBucket.create_promised plan now
  parked := by
    refine ⟨fun _ => Iff.rfl, fun promise => ?_, fun promise h => (Nat.not_lt_zero _ h).elim,
      List.Sublist.refl _, .nil, fun _ h => (nomatch h)⟩
    simp [create, TokenBucket.create]
  settled := ⟨List.nodup_nil, fun promise => by simp [create, TokenBucket.create]⟩
  charged := by
    refine ⟨fun _ h => (nomatch h), List.nodup_nil, fun promise paid => ?_, ?_⟩
    · simp [create, TokenBucket.create]
    · simp [create, TokenBucket.create, debited]

theorem move_promised (h : armed.bucket.Promised) (hmove : Move armed after) :
    after.bucket.Promised := by
  cases hmove with
  | account haccount =>
      exact (TokenBucket.Keeps.of_unchanged h haccount.queue haccount.outcomes
        haccount.nextPromise).promised
  | reject error => exact (TokenBucket.newPromise_keeps h _).promised
  | payNow hallowed => exact ⟨h.fresh, h.issued, h.pending, h.nodup⟩
  | grantNow hallowed =>
      have hpaid : ∀ reading cost, (armed.bucket.pay reading cost).Promised :=
        fun _ _ => ⟨h.fresh, h.issued, h.pending, h.nodup⟩
      exact (TokenBucket.newPromise_keeps (hpaid _ _) _).promised
  | grantHead hqueue _ htokens => exact (TokenBucket.change_keeps h (.grantHead hqueue htokens)).promised
  | park hpromise => exact (TokenBucket.park_keeps h hpromise).promised
  | drop hw hpromise => exact (TokenBucket.change_keeps h (.drop hw hpromise)).promised

theorem move_settled (h : armed.bucket.Promised) (hsettled : armed.SettledOnce)
    (hmove : Move armed after) : after.SettledOnce := by
  have hadd : ∀ {promise : PromiseId} {outcome : TakeOutcome},
      armed.bucket.outcomes promise = none →
      after.settlements = armed.settlements ++ [promise] →
      after.bucket.outcomes = Function.update armed.bucket.outcomes promise (some outcome) →
      after.SettledOnce := by
    intro promise outcome hpending hsettlements houtcomes
    have hnot : promise ∉ armed.settlements := by
      intro hmem
      obtain ⟨settled, hsome⟩ := (hsettled.settled promise).mp hmem
      rw [hpending] at hsome
      cases hsome
    refine ⟨?_, fun other => ?_⟩
    · rw [hsettlements, List.nodup_append]
      refine ⟨hsettled.once, List.nodup_singleton _, ?_⟩
      intro a ha b hb he
      exact hnot (List.mem_singleton.mp hb ▸ he ▸ ha)
    · rw [hsettlements, List.mem_append, hsettled.settled, houtcomes, List.mem_singleton]
      by_cases hother : other = promise
      · simp [hother]
      · simp [hother]
  cases hmove with
  | account haccount =>
      refine ⟨haccount.settlements ▸ hsettled.once, fun promise => ?_⟩
      rw [haccount.settlements, haccount.outcomes]
      exact hsettled.settled promise
  | reject error => exact hadd (h.fresh _ le_rfl) rfl rfl
  | payNow hallowed => exact ⟨hsettled.once, hsettled.settled⟩
  | grantNow hallowed => exact hadd (h.fresh _ le_rfl) rfl rfl
  | @grantHead t head rest hqueue hpenalty htokens =>
      exact hadd (h.pending head (hqueue ▸ List.mem_cons_self)) rfl rfl
  | @park waiter hpromise =>
      refine ⟨hsettled.once, fun promise => ?_⟩
      change promise ∈ armed.settlements ↔
        ∃ outcome, Function.update armed.bucket.outcomes armed.bucket.nextPromise none promise =
          some outcome
      rw [hsettled.settled]
      by_cases hnew : promise = armed.bucket.nextPromise
      · simp [hnew, h.fresh _ le_rfl]
      · simp [hnew]
  | @drop promise error waiter hw hpromise =>
      subst hpromise
      exact hadd (h.pending waiter hw) rfl rfl

/-- A new promise that is settled at once leaves the waiters as they are. -/
theorem Parked.newSettled (h : armed.Parked) (outcome : TakeOutcome) :
    (armed.newSettled outcome).Parked := by
  refine ⟨h.timers, h.listeners, fun promise hlt hpending => ?_, h.order, h.sorted,
    fun promise hmem => (h.issued promise hmem).trans (Nat.lt_succ_self _)⟩
  change Function.update armed.bucket.outcomes armed.bucket.nextPromise (some outcome) promise =
    none at hpending
  have hne : promise ≠ armed.bucket.nextPromise := by
    intro he
    simp [he] at hpending
  rw [Function.update_of_ne hne] at hpending
  exact h.pending promise (lt_of_le_of_ne (Nat.le_of_lt_succ hlt) hne) hpending

/-- A grant on the spot serves no waiter. -/
theorem Parked.payNow (h : armed.Parked) (promise : Option PromiseId) (reading : Option ℚ)
    (cost need : ℚ) : (armed.pay promise false reading cost need).Parked := by
  have hserved : (armed.pay promise false reading cost need).served = armed.served := by
    simp [served, pay]
  refine ⟨h.timers, h.listeners, h.pending, ?_, h.sorted, h.issued⟩
  rw [hserved]
  exact h.order

/-- A waiter that leaves the queue takes its timers along. -/
theorem Parked.leave (h : armed.Parked) {promise : PromiseId} {outcome : TakeOutcome}
    {queue : List Waiter}
    (htimers : after.deadlineTimers = (armed.dispose promise).deadlineTimers)
    (hlisteners : after.listeners = (armed.dispose promise).listeners)
    (hparks : after.parks = armed.parks) (hqueue : after.bucket.queue = queue)
    (houtcomes : after.bucket.outcomes =
      Function.update armed.bucket.outcomes promise (some outcome))
    (hnext : after.bucket.nextPromise = armed.bucket.nextPromise)
    (hmem : ∀ waiter, waiter ∈ queue ↔ waiter ∈ armed.bucket.queue ∧ waiter.promise ≠ promise)
    (horder : (after.served ++ queue.map Waiter.promise).Sublist armed.parks) : after.Parked := by
  have hwaiting : ∀ other, other ∈ queue.map Waiter.promise ↔
      other ∈ armed.waiting ∧ other ≠ promise := by
    intro other
    simp only [waiting, List.mem_map, hmem]
    constructor
    · rintro ⟨waiter, ⟨hw, hne⟩, rfl⟩
      exact ⟨⟨waiter, hw, rfl⟩, hne⟩
    · rintro ⟨⟨waiter, hw, rfl⟩, hne⟩
      exact ⟨waiter, ⟨hw, hne⟩, rfl⟩
  have hafter : after.waiting = queue.map Waiter.promise := congrArg (List.map Waiter.promise) hqueue
  refine ⟨fun other => ?_, fun other => ?_, fun other hlt hpending => ?_, ?_, hparks ▸ h.sorted, ?_⟩
  · rw [htimers, hafter, hwaiting]
    simp only [dispose, List.mem_filter, h.timers, decide_eq_true_eq]
  · rw [hlisteners, hqueue]
    simp only [dispose, hmem, List.mem_filter, h.listeners, decide_eq_true_eq]
    constructor
    · rintro ⟨⟨waiter, hw, rfl, habortable⟩, hne⟩
      exact ⟨waiter, ⟨hw, hne⟩, rfl, habortable⟩
    · rintro ⟨waiter, ⟨hw, hne⟩, rfl, habortable⟩
      exact ⟨⟨waiter, hw, rfl, habortable⟩, hne⟩
  · rw [hnext] at hlt
    rw [houtcomes] at hpending
    have hne : other ≠ promise := by
      intro he
      simp [he] at hpending
    rw [Function.update_of_ne hne] at hpending
    rw [hafter]
    exact (hwaiting other).mpr ⟨h.pending other hlt hpending, hne⟩
  · rw [hafter, hparks]
    exact horder
  · rw [hparks, hnext]
    exact h.issued

theorem served_grantHead (t : ℚ) (head : Waiter) (rest : List Waiter) :
    (armed.grantHead t head rest).served = armed.served ++ [head.promise] := by
  simp [served, grantHead, pay, dispose]

/-- A waiter that parks gets a promise of its own. -/
theorem Parked.queued (h : armed.Parked) {waiter : PromiseId → Waiter}
    (hpromise : ∀ promise, (waiter promise).promise = promise) : (armed.park waiter).Parked := by
  have hwaiting : (armed.park waiter).waiting = armed.waiting ++ [armed.bucket.nextPromise] := by
    simp [waiting, park, TokenBucket.park, TokenBucket.newPromise, hpromise]
  refine ⟨fun promise => ?_, fun promise => ?_, fun promise hlt hpending => ?_, ?_, ?_, ?_⟩
  · rw [hwaiting]
    simp [park, h.timers]
  · change promise ∈ (if (waiter armed.bucket.nextPromise).abortable = true then
      armed.listeners ++ [armed.bucket.nextPromise] else armed.listeners) ↔
        ∃ other ∈ armed.bucket.queue ++ [waiter armed.bucket.nextPromise],
          other.promise = promise ∧ other.abortable = true
    cases habortable : (waiter armed.bucket.nextPromise).abortable with
    | true =>
        simp only [↓reduceIte, List.mem_append, List.mem_singleton, h.listeners, or_and_right,
          exists_or, exists_eq_left, hpromise, habortable, and_true]
        exact or_congr_right ⟨Eq.symm, Eq.symm⟩
    | false => simp [h.listeners, or_and_right, exists_or, habortable]
  · rw [hwaiting]
    change Function.update armed.bucket.outcomes armed.bucket.nextPromise none promise = none
      at hpending
    by_cases hne : promise = armed.bucket.nextPromise
    · exact List.mem_append_right _ (List.mem_singleton.mpr hne)
    · rw [Function.update_of_ne hne] at hpending
      exact List.mem_append_left _
        (h.pending promise (lt_of_le_of_ne (Nat.le_of_lt_succ hlt) hne) hpending)
  · rw [hwaiting, ← List.append_assoc]
    exact h.order.append (List.Sublist.refl _)
  · change (armed.parks ++ [armed.bucket.nextPromise]).Pairwise (· < ·)
    rw [List.pairwise_append]
    refine ⟨h.sorted, List.pairwise_singleton _ _, fun a ha b hb => ?_⟩
    exact List.mem_singleton.mp hb ▸ h.issued a ha
  · intro promise hmem
    rcases List.mem_append.mp hmem with hmem | hmem
    · exact (h.issued promise hmem).trans (Nat.lt_succ_self _)
    · exact List.mem_singleton.mp hmem ▸ Nat.lt_succ_self _

theorem move_parked (h : armed.bucket.Promised) (hparked : armed.Parked)
    (hmove : Move armed after) : after.Parked := by
  cases hmove with
  | account haccount =>
      have hwaiting : after.waiting = armed.waiting :=
        congrArg (List.map Waiter.promise) haccount.queue
      have hserved : after.served = armed.served := by
        simp only [served, haccount.granted]
      refine ⟨?_, ?_, ?_, ?_, ?_, ?_⟩
      · rw [haccount.deadlineTimers, hwaiting]
        exact hparked.timers
      · rw [haccount.listeners, haccount.queue]
        exact hparked.listeners
      · rw [haccount.nextPromise, haccount.outcomes, hwaiting]
        exact hparked.pending
      · rw [hserved, hwaiting, haccount.parks]
        exact hparked.order
      · rw [haccount.parks]
        exact hparked.sorted
      · rw [haccount.parks, haccount.nextPromise]
        exact hparked.issued
  | reject error => exact hparked.newSettled _
  | payNow hallowed => exact hparked.payNow _ _ _ _
  | grantNow hallowed => exact (hparked.payNow _ _ _ _).newSettled _
  | @grantHead t head rest hqueue hpenalty htokens =>
      have hnodup := h.nodup
      rw [hqueue, List.map_cons, List.nodup_cons] at hnodup
      refine hparked.leave rfl rfl rfl rfl rfl rfl (fun waiter => ?_) ?_
      · rw [hqueue, List.mem_cons]
        constructor
        · intro hw
          exact ⟨.inr hw, fun he => hnodup.1 (he ▸ List.mem_map_of_mem hw)⟩
        · rintro ⟨rfl | hw, hne⟩
          · exact absurd rfl hne
          · exact hw
      · have horder := hparked.order
        rw [waiting, hqueue, List.map_cons] at horder
        rw [served_grantHead, List.append_assoc]
        exact horder
  | park hpromise => exact hparked.queued hpromise
  | @drop promise error waiter hw hpromise =>
      refine hparked.leave rfl rfl rfl rfl rfl rfl (fun other => ?_) ?_
      · constructor
        · exact fun hother => ⟨List.mem_of_mem_eraseP hother, ne_of_mem_eraseP h.nodup hother⟩
        · exact fun hother => (List.mem_eraseP_of_neg (by simpa using hother.2)).mpr hother.1
      · exact ((List.Sublist.refl _).append (List.eraseP_sublist.map _)).trans hparked.order

/-- A debit that is granted. -/
theorem Charged.grant (h : armed.Charged) {grant : Grant} (hallowed : grant.Allowed)
    (hgranted : after.granted = armed.granted ++ [grant])
    (htokens : after.bucket.tokens = armed.bucket.tokens - grant.paid)
    (hplan : after.bucket.plan = armed.bucket.plan) (hgained : after.gained = armed.gained)
    (hforced : after.forced = armed.forced)
    (hpending : ∀ promise, grant.promise = some promise → armed.bucket.outcomes promise = none)
    (hresolved : ∀ promise, grant.promise = some promise →
      ∃ waitedMs, after.bucket.outcomes promise = some (.resolved waitedMs grant.paid))
    (hothers : ∀ promise, grant.promise ≠ some promise →
      after.bucket.outcomes promise = armed.bucket.outcomes promise) : after.Charged := by
  refine ⟨fun other hmem => ?_, ?_, fun promise paid => ?_, ?_⟩
  · rw [hgranted] at hmem
    rcases List.mem_append.mp hmem with hmem | hmem
    · exact h.allowed other hmem
    · exact List.mem_singleton.mp hmem ▸ hallowed
  · rw [hgranted, List.filterMap_append, List.nodup_append]
    refine ⟨h.distinct, ?_, ?_⟩
    · rw [List.filterMap_cons]
      split <;> simp
    · intro a ha b hb he
      subst he
      obtain ⟨earlier, hmem, hpromise⟩ := List.mem_filterMap.mp ha
      obtain ⟨last, hlast, hsame⟩ := List.mem_filterMap.mp hb
      rw [List.mem_singleton.mp hlast] at hsame
      obtain ⟨waitedMs, hbefore⟩ := (h.charged a earlier.paid).mpr ⟨earlier, hmem, hpromise, rfl⟩
      rw [hpending a hsame] at hbefore
      cases hbefore
  · rw [hgranted]
    by_cases hsame : grant.promise = some promise
    · obtain ⟨waitedMs, hafter⟩ := hresolved promise hsame
      constructor
      · rintro ⟨waited, hpaid⟩
        rw [hafter] at hpaid
        cases hpaid
        exact ⟨grant, List.mem_append_right _ (List.mem_singleton_self _), hsame, rfl⟩
      · rintro ⟨other, hmem, hpromise, rfl⟩
        rcases List.mem_append.mp hmem with hmem | hmem
        · obtain ⟨waited, hbefore⟩ := (h.charged promise other.paid).mpr ⟨other, hmem, hpromise, rfl⟩
          rw [hpending promise hsame] at hbefore
          cases hbefore
        · exact ⟨waitedMs, List.mem_singleton.mp hmem ▸ hafter⟩
    · rw [hothers promise hsame, h.charged]
      constructor
      · rintro ⟨other, hmem, hpromise⟩
        exact ⟨other, List.mem_append_left _ hmem, hpromise⟩
      · rintro ⟨other, hmem, hpromise, hpaid⟩
        rcases List.mem_append.mp hmem with hmem | hmem
        · exact ⟨other, hmem, hpromise, hpaid⟩
        · exact absurd (List.mem_singleton.mp hmem ▸ hpromise) hsame
  · have hdebited : after.debited = armed.debited + grant.paid := by
      simp [debited, hgranted]
    rw [htokens, hplan, hgained, hforced, hdebited, h.balance]
    ring

/-- A promise that is not granted is charged nothing. -/
theorem Charged.settle (h : armed.Charged) {promise : PromiseId} {outcome : Option TakeOutcome}
    (hpending : armed.bucket.outcomes promise = none)
    (hnot : ∀ waitedMs paid, outcome ≠ some (.resolved waitedMs paid))
    (hgranted : after.granted = armed.granted)
    (htokens : after.bucket.tokens = armed.bucket.tokens)
    (hplan : after.bucket.plan = armed.bucket.plan) (hgained : after.gained = armed.gained)
    (hforced : after.forced = armed.forced)
    (houtcomes : after.bucket.outcomes = Function.update armed.bucket.outcomes promise outcome) :
    after.Charged := by
  refine ⟨hgranted ▸ h.allowed, hgranted ▸ h.distinct, fun other paid => ?_, ?_⟩
  · rw [hgranted, houtcomes, ← h.charged]
    by_cases hother : other = promise
    · simp [hother, hnot, hpending]
    · simp [hother]
  · rw [htokens, hplan, hgained, hforced, h.balance, debited, debited, hgranted]

theorem move_charged (h : armed.bucket.Promised) (hcharged : armed.Charged)
    (hmove : Move armed after) : after.Charged := by
  cases hmove with
  | account haccount =>
      refine ⟨haccount.granted ▸ hcharged.allowed, haccount.granted ▸ hcharged.distinct, ?_, ?_⟩
      · rw [haccount.granted, haccount.outcomes]
        exact hcharged.charged
      · have htokens := haccount.tokens
        have hbalance := hcharged.balance
        rw [debited, haccount.granted, haccount.plan]
        rw [debited] at hbalance
        linarith
  | reject error =>
      exact hcharged.settle (h.fresh _ le_rfl) (fun _ _ he => by cases he) rfl rfl rfl rfl rfl rfl
  | payNow hallowed =>
      exact hcharged.grant hallowed rfl rfl rfl rfl rfl (fun _ he => by cases he)
        (fun _ he => by cases he) fun _ _ => rfl
  | @grantNow reading cost need hallowed =>
      refine hcharged.grant hallowed rfl rfl rfl rfl rfl (fun promise he => ?_) (fun promise he => ?_)
        fun promise hne => ?_
      · cases he
        exact h.fresh _ le_rfl
      · cases he
        exact ⟨0, Function.update_self _ _ _⟩
      · exact Function.update_of_ne (fun he => hne (congrArg some he.symm)) _ _
  | @grantHead t head rest hqueue hpenalty htokens =>
      have hallowed : Grant.Allowed ⟨some head.promise, true, head.cost, head.need, some t,
          armed.bucket.penaltyUntil, armed.waiting⟩ :=
        ⟨fun _ => by simp [waiting, hqueue], fun he => (nomatch he), fun _ => ⟨t, rfl, hpenalty⟩⟩
      refine hcharged.grant hallowed rfl rfl rfl rfl rfl (fun promise he => ?_) (fun promise he => ?_)
        fun promise hne => ?_
      · cases he
        exact h.pending head (hqueue ▸ List.mem_cons_self)
      · cases he
        exact ⟨_, Function.update_self _ _ _⟩
      · exact Function.update_of_ne (fun he => hne (congrArg some he.symm)) _ _
  | park hpromise =>
      exact hcharged.settle (h.fresh _ le_rfl) (fun _ _ he => by cases he) rfl rfl rfl rfl rfl rfl
  | @drop promise error waiter hw hpromise =>
      subst hpromise
      exact hcharged.settle (h.pending waiter hw) (fun _ _ he => by cases he) rfl rfl rfl rfl rfl rfl

theorem move_plan (hmove : Move armed after) : after.bucket.plan = armed.bucket.plan := by
  cases hmove with
  | account haccount => exact haccount.plan
  | reject | payNow | grantNow | grantHead | park | drop => rfl

variable {plan : BucketPlan}

theorem Tidy.moves (h : armed.Tidy plan) (hmoves : Moves armed after) : after.Tidy plan := by
  induction hmoves with
  | refl => exact h
  | tail _ hmove ih =>
      exact ⟨(move_plan hmove).trans ih.plan, move_promised ih.promised hmove,
        move_parked ih.promised ih.parked hmove, move_settled ih.promised ih.settled hmove,
        move_charged ih.promised ih.charged hmove⟩

/-- Whatever has fired for a waiter, it leaves the queue with its timers. -/
theorem fired_moves {fired : ArmedBucket} {promise : PromiseId} (error : RateLimitTimeoutError)
    (hwaits : promise ∈ armed.waiting) (hbucket : fired.bucket = armed.bucket)
    (hdrop : fired.drop promise error = armed.drop promise error) :
    Moves armed (fired.fail clock promise error) := by
  obtain ⟨waiter, hw, hpromise⟩ := List.mem_map.mp hwaits
  have hany : (fired.bucket.queue.any fun waiter => waiter.promise = promise) = true := by
    rw [hbucket]
    exact List.any_eq_true.mpr ⟨waiter, hw, decide_eq_true hpromise⟩
  unfold fail
  rw [if_pos hany, hdrop]
  exact .head (.drop hw hpromise) (reschedule_moves _ _)

theorem step_moves (hcapacity : 0 < plan.capacity) (h : armed.Tidy plan)
    {call : Clock × TokenBucket.Call} (hstep : armed.step call = some after) :
    Moves armed after := by
  obtain ⟨clock, call⟩ := call
  cases call with
  | available =>
      cases hstep
      exact .single (refill_moves clock armed)
  | tryTake n =>
      cases hstep
      exact tryTake_moves n
  | take cost deadlineAt signal =>
      cases hstep
      exact take_moves (h.plan.symm ▸ hcapacity) cost deadlineAt signal
  | forceTake n =>
      cases hstep
      exact forceTake_moves n
  | refund n =>
      cases hstep
      exact refund_moves n
  | penalize untilMs =>
      cases hstep
      exact penalize_moves untilMs
  | deadline promise =>
      simp only [step] at hstep
      split at hstep
      · rename_i harmed
        cases hstep
        refine fired_moves _ ((h.parked.timers promise).mp harmed) rfl ?_
        simp [drop, dispose]
      · cases hstep
  | abort promise =>
      simp only [step] at hstep
      split at hstep
      · rename_i hlistens
        cases hstep
        obtain ⟨waiter, hw, hpromise, -⟩ := (h.parked.listeners promise).mp hlistens
        refine fired_moves _ (List.mem_map.mpr ⟨waiter, hw, hpromise⟩) rfl ?_
        simp [drop, dispose]
      · cases hstep
  | timer =>
      simp only [step] at hstep
      split at hstep
      · cases hstep
      · cases hstep
        refine .head (.account ?_) (reschedule_moves _ _)
        exact ⟨rfl, rfl, rfl, rfl, rfl, rfl, rfl, rfl, rfl, rfl⟩

/-! ## Whole runs -/

/-- Every call may be made. -/
def anyCall (_ : ArmedBucket) (_ : Clock × TokenBucket.Call) : Prop := True

theorem tidy_run (hcapacity : 0 < plan.capacity) {now : ℚ}
    {calls : List (Clock × TokenBucket.Call)}
    (hrun : Run step anyCall (create plan now) calls armed) : armed.Tidy plan :=
  hrun.invariant (Tidy plan) (create_tidy plan now) fun _ _ _ htidy _ hstep =>
    htidy.moves (step_moves hcapacity htidy hstep)

/-- What the takes of a bucket can rely on. -/
structure Reliable (plan : BucketPlan) (armed : ArmedBucket) : Prop where
  /-- The waiters are served in the order in which they were parked, ahead of those that are
  still waiting. -/
  order : (armed.served ++ armed.waiting).Sublist armed.parks
  parks : armed.parks.Pairwise (· < ·)
  /-- Nobody overtakes a waiter, and no grant is decided before the penalty instant. -/
  allowed : ∀ grant ∈ armed.granted, grant.Allowed
  /-- A take is settled by one call, or still waits. -/
  once : armed.settlements.Nodup
  settled : ∀ promise, promise ∈ armed.settlements ↔
    ∃ outcome, armed.bucket.outcomes promise = some outcome
  pending : ∀ promise < armed.bucket.nextPromise,
    promise ∈ armed.settlements ∨ promise ∈ armed.waiting
  /-- A parked take has its deadline timer armed. -/
  timed : ∀ promise ∈ armed.waiting, promise ∈ armed.deadlineTimers
  /-- A settled take leaves nothing behind. -/
  clear : ∀ promise ∈ armed.settlements,
    promise ∉ armed.waiting ∧ promise ∉ armed.deadlineTimers ∧ promise ∉ armed.listeners
  /-- A take is charged once, and exactly when it is granted. -/
  distinct : (armed.granted.filterMap Grant.promise).Nodup
  charged : ∀ promise paid,
    (∃ waitedMs, armed.bucket.outcomes promise = some (.resolved waitedMs paid)) ↔
      ∃ grant ∈ armed.granted, grant.promise = some promise ∧ grant.paid = paid
  balance : armed.bucket.tokens = plan.capacity + armed.gained - armed.forced - armed.debited

theorem Tidy.reliable (h : armed.Tidy plan) : armed.Reliable plan where
  order := h.parked.order
  parks := h.parked.sorted
  allowed := h.charged.allowed
  once := h.settled.once
  settled := h.settled.settled
  pending := fun promise hlt => by
    cases hpending : armed.bucket.outcomes promise with
    | none => exact .inr (h.parked.pending promise hlt hpending)
    | some outcome => exact .inl ((h.settled.settled promise).mpr ⟨outcome, hpending⟩)
  timed := fun promise hwaits => (h.parked.timers promise).mpr hwaits
  clear := fun promise hsettled => by
    obtain ⟨outcome, houtcome⟩ := (h.settled.settled promise).mp hsettled
    have hnot : ∀ waiter ∈ armed.bucket.queue, waiter.promise ≠ promise := by
      rintro waiter hw rfl
      rw [h.promised.pending waiter hw] at houtcome
      cases houtcome
    have hwaiting : promise ∉ armed.waiting := by
      intro hwaits
      obtain ⟨waiter, hw, hpromise⟩ := List.mem_map.mp hwaits
      exact hnot waiter hw hpromise
    refine ⟨hwaiting, fun harmed => hwaiting ((h.parked.timers promise).mp harmed), ?_⟩
    intro hlistens
    obtain ⟨waiter, hw, hpromise, -⟩ := (h.parked.listeners promise).mp hlistens
    exact hnot waiter hw hpromise
  distinct := h.charged.distinct
  charged := h.charged.charged
  balance := h.plan ▸ h.charged.balance

/-- For every sequence of calls, expiries, aborts, timer firings and clock readings, a bucket of
positive capacity serves its waiters in order, settles each take once, charges exactly what it
grants, and leaves no timer or listener behind. -/
theorem takes_reliable {plan : BucketPlan} (hcapacity : 0 < plan.capacity) {now : ℚ}
    {calls : List (Clock × TokenBucket.Call)}
    (hrun : Run step anyCall (create plan now) calls armed) : armed.Reliable plan :=
  (tidy_run hcapacity hrun).reliable

instance (armed : ArmedBucket) (call : Clock × TokenBucket.Call) :
    Decidable (armed.anyCall call) :=
  inferInstanceAs (Decidable True)

/-- One token, which the first take gets. The second take is aborted and the third one is paid
out by a refund. -/
def refundCalls : List (Clock × TokenBucket.Call) :=
  [.take 1 100 none, .take 1 100 (some false), .take 1 100 none, .abort 1, .refund 1].map
    fun call => (fun _ => 0, call)

def singleToken : BucketPlan where
  capacity := 1
  refillPerSec := 0
  name := "stt"
  capacity_nonneg := zero_le_one
  refill_nonneg := le_rfl

theorem takes_reliable_refund :
    ∃ armed : ArmedBucket, armed.served = [2] ∧ armed.Reliable singleToken := by
  have hexec : ∃ armed, Run step anyCall (create singleToken 0) refundCalls armed ∧
      decide (armed.served = [2]) = true :=
    exists_run (by decide +kernel)
  obtain ⟨armed, hrun, hserved⟩ := hexec
  exact ⟨armed, of_decide_eq_true hserved, takes_reliable zero_lt_one hrun⟩

end ArmedBucket

end VoiceOrder.RateLimit
