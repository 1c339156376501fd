import VoiceOrder.RateLimit.LeaseInvariant
import VoiceOrder.RateLimit.RateBound

/-! # The balance of a bucket

A call moves the account of a bucket by what it charges and refunds, by the refills it makes and
by what the takes that are granted meanwhile are debited, and by nothing else. -/

namespace VoiceOrder.RateLimit

open Metering

namespace TokenBucket

variable {bucket middle after : TokenBucket} {clock : Clock} {promise : PromiseId}

/-- What the takes that have settled were debited, in all. -/
def paidOut (bucket : TokenBucket) : ℚ :=
  ∑ promise ∈ Finset.range bucket.nextPromise, (bucket.outcomes promise).elim 0 TakeOutcome.paid

theorem paidOut_settlePromise (hissued : promise < bucket.nextPromise)
    (hpending : bucket.outcomes promise = none) (outcome : TakeOutcome) :
    (bucket.settlePromise promise outcome).paidOut = bucket.paidOut + outcome.paid := by
  have hmem : promise ∈ Finset.range bucket.nextPromise := Finset.mem_range.mpr hissued
  have hothers : ∀ other ∈ (Finset.range bucket.nextPromise).erase promise,
      (Function.update bucket.outcomes promise (some outcome) other).elim 0 TakeOutcome.paid =
        (bucket.outcomes other).elim 0 TakeOutcome.paid := fun other hother => by
    rw [Function.update_of_ne (Finset.ne_of_mem_erase hother)]
  have hsettled : (bucket.settlePromise promise outcome).paidOut =
      ∑ other ∈ Finset.range bucket.nextPromise,
        (Function.update bucket.outcomes promise (some outcome) other).elim 0 TakeOutcome.paid := rfl
  rw [hsettled, paidOut, ← Finset.sum_erase_add _ _ hmem, ← Finset.sum_erase_add _ _ hmem,
    Finset.sum_congr rfl hothers, Function.update_self, hpending]
  simp

theorem paidOut_newPromise (outcome : Option TakeOutcome) :
    (bucket.newPromise outcome).2.paidOut = bucket.paidOut + outcome.elim 0 TakeOutcome.paid := by
  have hothers : ∀ other ∈ Finset.range bucket.nextPromise,
      (Function.update bucket.outcomes bucket.nextPromise outcome other).elim 0 TakeOutcome.paid =
        (bucket.outcomes other).elim 0 TakeOutcome.paid := fun other hother => by
    rw [Function.update_of_ne (Finset.mem_range.mp hother).ne]
  have hissued : (bucket.newPromise outcome).2.paidOut =
      ∑ other ∈ Finset.range (bucket.nextPromise + 1),
        (Function.update bucket.outcomes bucket.nextPromise outcome other).elim 0
          TakeOutcome.paid := rfl
  rw [hissued, Finset.sum_range_succ, Finset.sum_congr rfl hothers, Function.update_self, paidOut]

/-- The account and the promises of a bucket are in order. -/
structure Sound (bucket : TokenBucket) : Prop where
  ok : bucket.Ok
  promised : bucket.Promised

theorem create_sound (plan : BucketPlan) (now : ℚ) : (create plan now).Sound :=
  ⟨create_ok plan now, create_promised plan now⟩

/-- `Balanced issued forced refunded bucket after`: so many takes were called, and the account has
gone through a run of moves that charged and credited these amounts and granted what the takes
settled meanwhile were debited. -/
structure Balanced (issued : ℕ) (forced refunded : ℚ) (bucket after : TokenBucket) : Prop where
  sound : after.Sound
  plan : after.plan = bucket.plan
  next : after.nextPromise = bucket.nextPromise + issued
  moves : ∃ moves, Run bucket.plan.capacity bucket.plan.refillPerMs bucket.account moves after.account ∧
    after.paidOut = bucket.paidOut + granted moves ∧ charged moves = forced ∧ credited moves = refunded

section

variable {issued issued' : ℕ} {forced forced' refunded refunded' : ℚ}

theorem Balanced.trans (h : Balanced issued forced refunded bucket middle)
    (h' : Balanced issued' forced' refunded' middle after) :
    Balanced (issued + issued') (forced + forced') (refunded + refunded') bucket after := by
  obtain ⟨moves, hrun, hgranted, hcharged, hcredited⟩ := h.moves
  obtain ⟨moves', hrun', hgranted', hcharged', hcredited'⟩ := h'.moves
  rw [h.plan] at hrun'
  refine ⟨h'.sound, h'.plan.trans h.plan, by rw [h'.next, h.next, Nat.add_assoc], moves ++ moves',
    hrun.append hrun', ?_, ?_, ?_⟩
  · rw [hgranted', hgranted, granted_append, add_assoc]
  · rw [charged_append, hcharged, hcharged']
  · rw [credited_append, hcredited, hcredited']

/-- A step that neither charges nor refunds comes after. -/
theorem Balanced.then (h : Balanced issued forced refunded bucket middle)
    (h' : Balanced 0 0 0 middle after) : Balanced issued forced refunded bucket after := by
  simpa using h.trans h'

end

/-- Changes that come to these moves of the account. -/
theorem Balanced.of_changes (h : bucket.Sound) (hchanges : Changes bucket after)
    (hnext : after.nextPromise = bucket.nextPromise) {moves : List (Move ℚ)} {forced refunded : ℚ}
    (hrun : Run bucket.plan.capacity bucket.plan.refillPerMs bucket.account moves after.account)
    (hpaid : after.paidOut = bucket.paidOut + granted moves) (hcharged : charged moves = forced)
    (hcredited : credited moves = refunded) : Balanced 0 forced refunded bucket after :=
  ⟨⟨(changes_metered h.ok hchanges).ok, (changes_keep h.promised hchanges).promised⟩, hchanges.plan_eq,
    hnext, moves, hrun, hpaid, hcharged, hcredited⟩

/-- Changes that neither move the account nor settle a take that is debited. -/
theorem Balanced.of_unmoved (h : bucket.Sound) (hchanges : Changes bucket after)
    (hnext : after.nextPromise = bucket.nextPromise) (haccount : after.account = bucket.account)
    (hpaid : after.paidOut = bucket.paidOut) : Balanced 0 0 0 bucket after := by
  have hrun : Run bucket.plan.capacity bucket.plan.refillPerMs bucket.account [] after.account := by
    rw [haccount]
    exact .nil _
  exact .of_changes h hchanges hnext hrun (by rw [hpaid, granted_nil, add_zero]) rfl rfl

theorem Balanced.refl (h : bucket.Sound) : Balanced 0 0 0 bucket bucket :=
  .of_unmoved h .refl rfl rfl rfl

/-! ## The account is moved -/

theorem refill_balanced (h : bucket.Sound) (clock : Clock) :
    Balanced 0 0 0 bucket (bucket.refill clock) := by
  have hsame : (bucket.refill clock).nextPromise = bucket.nextPromise ∧
      (bucket.refill clock).outcomes = bucket.outcomes := by
    unfold refill
    dsimp only
    split
    · exact ⟨rfl, rfl⟩
    · exact ⟨rfl, rfl⟩
  have hpaid : (bucket.refill clock).paidOut = bucket.paidOut := by
    rw [paidOut, hsame.1, hsame.2, paidOut]
  refine .of_changes h (.single (.refill clock)) hsame.1 (refill_run h.ok clock) ?_ ?_ ?_
  · simp [hpaid, granted, Move.granted]
  · simp [charged, Move.charged]
  · simp [credited, Move.credited]

theorem charge_balanced (h : bucket.Sound) {n : ℚ} (hn : 0 < n) :
    Balanced 0 n 0 bucket { bucket with tokens := bucket.tokens - n } := by
  have hrun : Run bucket.plan.capacity bucket.plan.refillPerMs bucket.account [.charge n]
      { bucket with tokens := bucket.tokens - n }.account := .single _ _ hn
  refine .of_changes h (.single (.charge hn)) rfl hrun ?_ ?_ ?_
  · simp [paidOut, granted, Move.granted]
  · simp [charged, Move.charged]
  · simp [credited, Move.credited]

theorem credit_balanced (h : bucket.Sound) {n : ℚ} (hn : 0 < n) :
    Balanced 0 0 n bucket { bucket with
      tokens := min bucket.plan.capacity (bucket.tokens + n)
      refunds := bucket.refunds ++ [n] } := by
  have hrun : Run bucket.plan.capacity bucket.plan.refillPerMs bucket.account [.credit n]
      { bucket with
        tokens := min bucket.plan.capacity (bucket.tokens + n)
        refunds := bucket.refunds ++ [n] }.account := .single _ _ hn
  refine .of_changes h (.single (.credit hn)) rfl hrun ?_ ?_ ?_
  · simp [paidOut, granted, Move.granted]
  · simp [charged, Move.charged]
  · simp [credited, Move.credited]

theorem grantHead_balanced (h : bucket.Sound) {t : ℚ} {head : Waiter} {rest : List Waiter}
    (hqueue : bucket.queue = head :: rest) (htokens : head.need ≤ bucket.tokens) :
    Balanced 0 0 0 bucket (bucket.grantHead t head rest) := by
  have hmem : head ∈ bucket.queue := hqueue ▸ List.mem_cons_self
  have hpaid : (bucket.grantHead t head rest).paidOut = bucket.paidOut + head.need :=
    paidOut_settlePromise (h.promised.issued head hmem) (h.promised.pending head hmem) _
  have hrun : Run bucket.plan.capacity bucket.plan.refillPerMs bucket.account [.grant head.need]
      (bucket.grantHead t head rest).account :=
    .single _ _ ⟨(h.ok.parked head hmem).1, htokens⟩
  refine .of_changes h (.single (.grantHead hqueue htokens)) rfl hrun ?_ ?_ ?_
  · simp [hpaid, granted, Move.granted]
  · simp [charged, Move.charged]
  · simp [credited, Move.credited]

theorem payHeads_balanced (t : ℚ) (queue : List Waiter) (h : bucket.Sound)
    (hqueue : bucket.queue = queue) : Balanced 0 0 0 bucket (payHeads t queue bucket) := by
  induction queue generalizing bucket with
  | nil => exact .refl h
  | cons head rest ih =>
      unfold payHeads
      split
      · rename_i hpay
        have hgranted : Balanced 0 0 0 bucket (bucket.grantHead t head rest) :=
          grantHead_balanced h hqueue hpay.2
        exact hgranted.then (ih hgranted.sound rfl)
      · exact .refl h

theorem armTimer_balanced (h : bucket.Sound) (t : ℚ) : Balanced 0 0 0 bucket (bucket.armTimer t) := by
  have harmed : ∃ timer, bucket.armTimer t = { bucket with timer := timer } := by
    unfold armTimer
    split
    · exact ⟨_, rfl⟩
    · dsimp only
      split_ifs
      · exact ⟨_, rfl⟩
      · exact ⟨_, rfl⟩
      · exact ⟨_, rfl⟩
  obtain ⟨timer, heq⟩ := harmed
  rw [heq]
  exact .of_unmoved h (.single (.timer timer)) rfl rfl rfl

theorem reschedule_balanced (h : bucket.Sound) (clock : Clock) :
    Balanced 0 0 0 bucket (bucket.reschedule clock) := by
  have hrefilled := refill_balanced h clock
  have hpaid := hrefilled.then (payHeads_balanced (clock 1) _ hrefilled.sound rfl)
  exact hpaid.then (armTimer_balanced hpaid.sound _)

/-! ## The calls of a limiter -/

theorem forceTake_balanced (h : bucket.Sound) (clock : Clock) {n : ℚ} (hn : 0 < n) :
    Balanced 0 n 0 bucket (bucket.forceTake clock n) := by
  have hrefilled := refill_balanced h clock
  have hcharged := hrefilled.trans (charge_balanced hrefilled.sound hn)
  rw [forceTake, if_neg (not_le.mpr hn)]
  simpa using hcharged.then (reschedule_balanced hcharged.sound (clock.after 1))

theorem refund_balanced (h : bucket.Sound) (clock : Clock) {n : ℚ} (hn : 0 < n) :
    Balanced 0 0 n bucket (bucket.refund clock n) := by
  have hrefilled := refill_balanced h clock
  have hcredited := hrefilled.trans (credit_balanced hrefilled.sound hn)
  rw [refund, if_neg (not_le.mpr hn)]
  simpa using hcredited.then (reschedule_balanced hcredited.sound (clock.after 1))

theorem penalize_balanced (h : bucket.Sound) (clock : Clock) (untilMs : ℚ) :
    Balanced 0 0 0 bucket (bucket.penalize clock untilMs) := by
  unfold penalize
  split
  · exact .refl h
  · have hfloored : Balanced 0 0 0 bucket { bucket with penaltyUntil := untilMs } :=
      .of_unmoved h (.single (.penalty untilMs)) rfl rfl rfl
    exact hfloored.then (reschedule_balanced hfloored.sound clock)

theorem fail_balanced (h : bucket.Sound) (clock : Clock) (promise : PromiseId)
    (error : RateLimitTimeoutError) : Balanced 0 0 0 bucket (bucket.fail clock promise error) := by
  unfold fail
  split
  · rename_i hany
    obtain ⟨waiter, hmem, hpromise⟩ := List.any_eq_true.mp hany
    obtain rfl := of_decide_eq_true hpromise
    have hpaid : (bucket.drop waiter.promise error).paidOut = bucket.paidOut :=
      (paidOut_settlePromise (h.promised.issued waiter hmem) (h.promised.pending waiter hmem)
        _).trans (add_zero _)
    have hdropped : Balanced 0 0 0 bucket (bucket.drop waiter.promise error) :=
      .of_unmoved h (.single (.drop hmem rfl)) rfl rfl hpaid
    exact hdropped.then (reschedule_balanced hdropped.sound clock)
  · exact .refl h

theorem timer_balanced (h : bucket.Sound) (clock : Clock) :
    Balanced 0 0 0 bucket (bucket.step clock .timer) := by
  unfold step
  dsimp only
  split
  · exact .refl h
  · have hfired : Balanced 0 0 0 bucket { bucket with timer := none } :=
      .of_unmoved h (.single (.timer none)) rfl rfl rfl
    exact hfired.then (reschedule_balanced hfired.sound clock)

theorem abort_balanced (h : bucket.Sound) (clock : Clock) (promise : PromiseId) :
    Balanced 0 0 0 bucket (bucket.step clock (.abort promise)) := by
  unfold step
  dsimp only
  split
  · exact fail_balanced h clock promise _
  · exact .refl h

/-! ## A take -/

/-- A promise that is settled at once and debited nothing. -/
theorem newPromise_balanced (h : bucket.Sound) {outcome : TakeOutcome} (hfree : outcome.paid = 0) :
    Balanced 1 0 0 bucket (bucket.newPromise (some outcome)).2 where
  sound := ⟨(change_metered h.ok (.promise outcome)).ok, (newPromise_keeps h.promised _).promised⟩
  plan := rfl
  next := rfl
  moves := ⟨[], .nil _, by rw [paidOut_newPromise, Option.elim_some, hfree, granted_nil], rfl, rfl⟩

/-- A take that is granted at once. -/
theorem payNow_balanced (h : bucket.Sound) {cost need : ℚ} (hneed : 0 < need)
    (hdebit : bucket.plan.debit cost = need) (htokens : need ≤ bucket.tokens) :
    Balanced 1 0 0 bucket ((bucket.pay cost need).newPromise (some (.resolved 0 need))).2 := by
  have hpay : Change bucket (bucket.pay cost need) := .pay hneed (fun _ => hdebit) htokens
  have hchanges : Changes bucket ((bucket.pay cost need).newPromise (some (.resolved 0 need))).2 :=
    .head hpay (.single (.promise _))
  refine ⟨⟨(changes_metered h.ok hchanges).ok, (changes_keep h.promised hchanges).promised⟩, rfl, rfl,
    [.grant need], .single _ _ ⟨hneed, htokens⟩, ?_, ?_, ?_⟩
  · rw [paidOut_newPromise]
    simp [paidOut, pay, TakeOutcome.paid, granted, Move.granted]
  · simp [charged, Move.charged]
  · simp [credited, Move.credited]

theorem park_balanced (h : bucket.Sound) {waiter : PromiseId → Waiter}
    (hpromise : ∀ promise, (waiter promise).promise = promise)
    (howed : ∀ promise, 0 < (waiter promise).need ∧
      bucket.plan.debit (waiter promise).cost = (waiter promise).need) :
    Balanced 1 0 0 bucket (bucket.park waiter) where
  sound := ⟨(change_metered h.ok (.park hpromise howed)).ok, (park_keeps h.promised hpromise).promised⟩
  plan := rfl
  next := rfl
  moves := ⟨[], .nil _, @paidOut_newPromise bucket none, rfl, rfl⟩

/-- A take that cannot be paid for is rejected, or parked. -/
theorem wait_balanced (h : bucket.Sound) (clock : Clock) (error : RateLimitTimeoutError)
    {waiter : PromiseId → Waiter} (hpromise : ∀ promise, (waiter promise).promise = promise)
    (howed : ∀ promise, 0 < (waiter promise).need ∧
      bucket.plan.debit (waiter promise).cost = (waiter promise).need) :
    let result := if maxQueuedWaiters ≤ bucket.queue.length then
        bucket.newPromise (some (.rejected error))
      else (bucket.nextPromise, (bucket.park waiter).reschedule clock)
    result.1 = bucket.nextPromise ∧ Balanced 1 0 0 bucket result.2 := by
  dsimp only
  split
  · exact ⟨rfl, newPromise_balanced h rfl⟩
  · have hparked := park_balanced h hpromise howed
    exact ⟨rfl, hparked.then (reschedule_balanced hparked.sound clock)⟩

theorem clamp_balanced (h : bucket.Sound) (cost : ℚ) :
    Balanced 0 0 0 bucket (bucket.clamp cost).2 := by
  unfold clamp
  dsimp only
  split
  · exact .refl h
  · exact .of_unmoved h (.single .warned) rfl rfl rfl

theorem free_balanced (h : bucket.Sound) {cost : ℚ} (hfree : cost ≤ 0 ∨ bucket.plan.debit cost = 0) :
    Balanced 0 0 0 bucket (bucket.pay cost 0) :=
  .of_unmoved h (.single (.free hfree)) rfl (by simp [account, pay]) rfl

/-- Whatever becomes of a take, the promise it hands out is the next one, and the account moves by
what the takes granted meanwhile are debited. -/
theorem take_balanced (h : bucket.Sound) (clock : Clock) (cost deadlineAt : ℚ) (signal : AbortSignal) :
    (bucket.take clock cost deadlineAt signal).1 = bucket.nextPromise ∧
      Balanced 1 0 0 bucket (bucket.take clock cost deadlineAt signal).2 := by
  have hclamp := clamp_balanced h cost
  have hneed := bucket.clamp_need cost
  have hnext : (bucket.clamp cost).2.nextPromise = bucket.nextPromise := hclamp.next
  unfold take
  generalize bucket.clamp cost = clamped at hclamp hneed hnext
  obtain ⟨need, clamped⟩ := clamped
  dsimp only at hclamp hneed hnext ⊢
  have hthen : ∀ {after}, Balanced 1 0 0 clamped after → Balanced 1 0 0 bucket after :=
    fun hafter => by simpa using hclamp.trans hafter
  split
  · exact ⟨hnext, hthen (newPromise_balanced hclamp.sound rfl)⟩
  · obtain ⟨hfree, hpaid⟩ := debit_of_need hneed
    rw [← hclamp.plan] at hfree hpaid
    unfold tryPay
    by_cases hn : need ≤ 0
    · have hzero : (TakeOutcome.resolved 0 need).paid = 0 := le_antisymm hn (hneed ▸ le_max_left _ _)
      have hgranted := free_balanced hclamp.sound (hfree hn)
      rw [if_pos hn]
      exact ⟨hnext, hthen (by simpa using hgranted.trans (newPromise_balanced hgranted.sound hzero))⟩
    · have hneed := not_le.mp hn
      have hrefilled := refill_balanced hclamp.sound (clock.after 1)
      have hdebit := hpaid hneed
      rw [← hrefilled.plan] at hdebit
      have hlater : ∀ {result : PromiseId × TokenBucket},
          result.1 = (clamped.refill (clock.after 1)).nextPromise ∧
            Balanced 1 0 0 (clamped.refill (clock.after 1)) result.2 →
          result.1 = bucket.nextPromise ∧ Balanced 1 0 0 bucket result.2 := fun hresult =>
        ⟨hresult.1.trans (hrefilled.next.trans hnext), hthen (by simpa using hrefilled.trans hresult.2)⟩
      rw [if_neg hn]
      dsimp only
      split_ifs with hpenalty hqueue htokens
      · exact hlater (wait_balanced hrefilled.sound _ _ (fun _ => rfl) fun _ => ⟨hneed, hdebit⟩)
      · exact hlater (wait_balanced hrefilled.sound _ _ (fun _ => rfl) fun _ => ⟨hneed, hdebit⟩)
      · exact hlater (wait_balanced hrefilled.sound _ _ (fun _ => rfl) fun _ => ⟨hneed, hdebit⟩)
      · exact hlater ⟨rfl, payNow_balanced hrefilled.sound hneed hdebit (not_lt.mp htokens)⟩

end TokenBucket

end VoiceOrder.RateLimit
