import VoiceOrder.RateLimit.BucketChanges
import VoiceOrder.Shared.Metering

/-! # The rate bound of the token bucket

Every change of the bucket is a run of moves of a metered account: refills, grants paid
from the tokens on hand, charges and credits. The bounds of such runs are then bounds of
the bucket. -/

namespace VoiceOrder.RateLimit

open Metering

/-- Tokens earned in a millisecond. -/
def BucketPlan.refillPerMs (plan : BucketPlan) : ℚ := plan.refillPerSec / 1000

namespace TokenBucket

/-! ## The account of a bucket -/

/-- The account a bucket keeps. -/
def account (bucket : TokenBucket) : Account ℚ := ⟨bucket.tokens, bucket.lastRefillAt⟩

/-- The tokens are within capacity, and every parked caller is owed the debit of its
positive cost. -/
structure Ok (bucket : TokenBucket) : Prop where
  capped : bucket.tokens ≤ bucket.plan.capacity
  parked : ∀ waiter ∈ bucket.queue, 0 < waiter.need ∧ bucket.plan.debit waiter.cost = waiter.need

/-- `Metered bucket after`: the bucket went from one state to the other by a run of moves,
and its history grew by what those moves granted, gave back and credited. -/
structure Metered (bucket after : TokenBucket) : Prop where
  plan : after.plan = bucket.plan
  ok : after.Ok
  moves : ∃ moves asked back,
    Run bucket.plan.capacity bucket.plan.refillPerMs bucket.account moves after.account ∧
    after.grants = bucket.grants ++ asked ∧ (asked.map bucket.plan.debit).sum = granted moves ∧
    after.refunds = bucket.refunds ++ back ∧ back.sum = credited moves ∧
    after.credits = bucket.credits ++
      if 0 < bucket.plan.refillPerSec then stretches bucket.lastRefillAt moves else []

theorem Metered.trans {first middle last : TokenBucket} (h : Metered first middle)
    (h' : Metered middle last) : Metered first last := by
  obtain ⟨moves, asked, back, hrun, hgrants, hasked, hrefunds, hback, hcredits⟩ := h.moves
  obtain ⟨moves', asked', back', hrun', hgrants', hasked', hrefunds', hback', hcredits'⟩ := h'.moves
  rw [h.plan] at hrun' hasked' hcredits'
  refine ⟨h'.plan.trans h.plan, h'.ok, moves ++ moves', asked ++ asked', back ++ back',
    hrun.append hrun', ?_, ?_, ?_, ?_, ?_⟩
  · rw [hgrants', hgrants, List.append_assoc]
  · rw [List.map_append, List.sum_append, hasked, hasked', granted_append]
  · rw [hrefunds', hrefunds, List.append_assoc]
  · rw [List.sum_append, hback, hback', credited_append]
  · rw [hcredits', hcredits, List.append_assoc]
    by_cases hrefill : 0 < first.plan.refillPerSec
    · simp only [if_pos hrefill]
      exact congrArg (first.credits ++ ·) hrun.stretches_append.symm
    · simp only [if_neg hrefill, List.append_nil]

/-- A change that touches neither the account nor the history. -/
theorem Metered.of_unchanged {bucket after : TokenBucket} (hplan : after.plan = bucket.plan)
    (hok : after.Ok) (haccount : after.account = bucket.account)
    (hgrants : after.grants = bucket.grants) (hrefunds : after.refunds = bucket.refunds)
    (hcredits : after.credits = bucket.credits) : Metered bucket after := by
  refine ⟨hplan, hok, [], [], [], haccount ▸ .nil _, ?_, rfl, ?_, rfl, ?_⟩
  · rw [hgrants, List.append_nil]
  · rw [hrefunds, List.append_nil]
  · rw [hcredits]
    simp [stretches]

theorem Metered.refl {bucket : TokenBucket} (h : bucket.Ok) : Metered bucket bucket :=
  .of_unchanged rfl h rfl rfl rfl rfl

/-! ## The moves of each change -/

theorem refill_of_le {bucket : TokenBucket} {clock : Clock} (h : clock 0 ≤ bucket.lastRefillAt) :
    bucket.refill clock = bucket := by
  have helapsed : max 0 (clock 0 - bucket.lastRefillAt) = 0 := max_eq_left (sub_nonpos.mpr h)
  unfold refill
  simp only [helapsed, true_or, ↓reduceIte, if_neg (not_lt.mpr h)]

theorem refill_of_lt {bucket : TokenBucket} {clock : Clock} (h : bucket.lastRefillAt < clock 0)
    (hrefill : 0 < bucket.plan.refillPerSec) :
    bucket.refill clock = { bucket with
      lastRefillAt := clock 0
      tokens := min bucket.plan.capacity (bucket.tokens +
        (clock 0 - bucket.lastRefillAt) / 1000 * bucket.plan.refillPerSec)
      credits := bucket.credits ++ [(bucket.lastRefillAt, clock 0)] } := by
  have helapsed : max 0 (clock 0 - bucket.lastRefillAt) = clock 0 - bucket.lastRefillAt :=
    max_eq_right (sub_nonneg.mpr h.le)
  have hne : clock 0 - bucket.lastRefillAt ≠ 0 := (sub_pos.mpr h).ne'
  simp [refill, helapsed, h, hne, hrefill]

theorem refill_of_no_rate {bucket : TokenBucket} {clock : Clock} (h : bucket.lastRefillAt < clock 0)
    (hrefill : ¬ 0 < bucket.plan.refillPerSec) :
    bucket.refill clock = { bucket with lastRefillAt := clock 0 } := by
  simp [refill, h, not_lt.mp hrefill]

/-- A refill is a move of the account. -/
theorem refill_account {bucket : TokenBucket} (h : bucket.Ok) (clock : Clock) :
    (bucket.refill clock).account =
      bucket.account.move bucket.plan.capacity bucket.plan.refillPerMs (.refill (clock 0)) := by
  by_cases hlt : bucket.lastRefillAt < clock 0
  · have hmove : bucket.account.move bucket.plan.capacity bucket.plan.refillPerMs
        (.refill (clock 0)) = ⟨min bucket.plan.capacity (bucket.tokens +
          (clock 0 - bucket.lastRefillAt) * bucket.plan.refillPerMs), clock 0⟩ := if_pos hlt
    rw [hmove]
    by_cases hrefill : 0 < bucket.plan.refillPerSec
    · have hearned : (clock 0 - bucket.lastRefillAt) * bucket.plan.refillPerMs =
          (clock 0 - bucket.lastRefillAt) / 1000 * bucket.plan.refillPerSec := by
        unfold BucketPlan.refillPerMs
        ring
      rw [refill_of_lt hlt hrefill, hearned, account]
    · have hzero : bucket.plan.refillPerMs = 0 := by
        unfold BucketPlan.refillPerMs
        rw [le_antisymm (not_lt.mp hrefill) bucket.plan.refill_nonneg, zero_div]
      rw [refill_of_no_rate hlt hrefill, hzero, mul_zero, add_zero, min_eq_right h.capped, account]
  · rw [refill_of_le (not_lt.mp hlt)]
    exact (if_neg hlt).symm

theorem refill_run {bucket : TokenBucket} (h : bucket.Ok) (clock : Clock) :
    Run bucket.plan.capacity bucket.plan.refillPerMs bucket.account [.refill (clock 0)]
      (bucket.refill clock).account := by
  rw [refill_account h]
  exact .single _ _ trivial

/-- A refill credits the stretch up to the new mark. -/
theorem refill_metered {bucket : TokenBucket} (h : bucket.Ok) (clock : Clock) :
    Metered bucket (bucket.refill clock) := by
  have hrun := refill_run h clock
  by_cases hlt : bucket.lastRefillAt < clock 0
  · by_cases hrefill : 0 < bucket.plan.refillPerSec
    · rw [refill_of_lt hlt hrefill] at hrun ⊢
      refine ⟨rfl, ⟨min_le_left _ _, h.parked⟩, [.refill (clock 0)], [], [], hrun,
        (List.append_nil _).symm, ?_, (List.append_nil _).symm, ?_, ?_⟩
      · simp [granted, Move.granted]
      · simp [credited, Move.credited]
      · simp [hrefill, stretches, hlt]
    · rw [refill_of_no_rate hlt hrefill] at hrun ⊢
      refine ⟨rfl, ⟨h.capped, h.parked⟩, [.refill (clock 0)], [], [], hrun,
        (List.append_nil _).symm, ?_, (List.append_nil _).symm, ?_, ?_⟩
      · simp [granted, Move.granted]
      · simp [credited, Move.credited]
      · simp [hrefill]
  · rw [refill_of_le (not_lt.mp hlt)]
    exact .refl h

/-- Paying a positive debit that is on hand is a grant. -/
theorem pay_metered {bucket : TokenBucket} (h : bucket.Ok) {cost need : ℚ} (hneed : 0 < need)
    (hdebit : bucket.plan.debit cost = need) (htokens : need ≤ bucket.tokens) :
    Metered bucket (bucket.pay cost need) := by
  have hcost : 0 < cost := lt_of_lt_of_le hneed (hdebit ▸ min_le_left _ _)
  refine ⟨rfl, ⟨?_, h.parked⟩, [.grant need], [cost], [], .single _ _ ⟨hneed, htokens⟩, ?_, ?_, ?_, ?_, ?_⟩
  · have := h.capped
    simp only [pay]
    linarith
  · simp [pay, hcost]
  · simp [hdebit, granted, Move.granted]
  · simp [pay]
  · simp [credited, Move.credited]
  · simp [pay, stretches]

/-- A grant that costs nothing leaves the account alone. -/
theorem free_metered {bucket : TokenBucket} (h : bucket.Ok) {cost : ℚ}
    (hdebit : cost ≤ 0 ∨ bucket.plan.debit cost = 0) : Metered bucket (bucket.pay cost 0) := by
  by_cases hcost : 0 < cost
  · have hzero := hdebit.resolve_left (not_le.mpr hcost)
    refine ⟨rfl, ⟨?_, h.parked⟩, [], [cost], [], ?_, ?_, ?_, ?_, rfl, ?_⟩
    · simpa [pay] using h.capped
    · simpa [pay, account] using Run.nil _
    · simp [pay, hcost]
    · simp [hzero]
    · simp [pay]
    · simp [pay, stretches]
  · exact .of_unchanged rfl ⟨by simpa [pay] using h.capped, h.parked⟩ (by simp [pay, account])
      (by simp [pay, hcost]) rfl rfl

theorem charge_metered {bucket : TokenBucket} (h : bucket.Ok) {n : ℚ} (hn : 0 < n) :
    Metered bucket { bucket with tokens := bucket.tokens - n } := by
  refine ⟨rfl, ⟨?_, h.parked⟩, [.charge n], [], [], .single _ _ hn, (List.append_nil _).symm, ?_,
    (List.append_nil _).symm, ?_, ?_⟩
  · have := h.capped
    simp only
    linarith
  · simp [granted, Move.granted]
  · simp [credited, Move.credited]
  · simp [stretches]

theorem credit_metered {bucket : TokenBucket} (h : bucket.Ok) {n : ℚ} (hn : 0 < n) :
    Metered bucket { bucket with
      tokens := min bucket.plan.capacity (bucket.tokens + n)
      refunds := bucket.refunds ++ [n] } := by
  refine ⟨rfl, ⟨min_le_left _ _, h.parked⟩, [.credit n], [], [n], .single _ _ hn,
    (List.append_nil _).symm, ?_, rfl, ?_, ?_⟩
  · simp [granted, Move.granted]
  · simp [credited, Move.credited]
  · simp [stretches]

theorem change_metered {bucket after : TokenBucket} (h : bucket.Ok) (hchange : Change bucket after) :
    Metered bucket after := by
  cases hchange with
  | refill clock => exact refill_metered h clock
  | timer | warned | penalty | promise =>
      exact .of_unchanged rfl ⟨h.capped, h.parked⟩ rfl rfl rfl rfl
  | charge hn => exact charge_metered h hn
  | credit hn => exact credit_metered h hn
  | free hdebit => exact free_metered h hdebit
  | pay hneed hdebit htokens =>
      exact pay_metered h hneed (hdebit (htokens.trans h.capped)) htokens
  | @grantHead t head rest hqueue htokens =>
      obtain ⟨hneed, hdebit⟩ := h.parked head (hqueue ▸ List.mem_cons_self)
      have hpaid := pay_metered h hneed hdebit htokens
      refine hpaid.trans (.of_unchanged rfl ⟨hpaid.ok.capped, fun waiter hw => ?_⟩ rfl rfl rfl rfl)
      exact h.parked waiter (hqueue ▸ List.mem_cons_of_mem _ hw)
  | park _ howed =>
      refine .of_unchanged rfl ⟨h.capped, fun parked hparked => ?_⟩ rfl rfl rfl rfl
      rcases List.mem_append.mp hparked with hmem | hmem
      · exact h.parked parked hmem
      · exact List.mem_singleton.mp hmem ▸ howed _
  | drop _ _ =>
      exact .of_unchanged rfl ⟨h.capped, fun waiter hw =>
        h.parked waiter (List.mem_of_mem_eraseP hw)⟩ rfl rfl rfl rfl

theorem changes_metered {bucket after : TokenBucket} (h : bucket.Ok)
    (hchanges : Changes bucket after) : Metered bucket after := by
  induction hchanges with
  | refl => exact .refl h
  | tail _ hchange ih => exact ih.trans (change_metered ih.ok hchange)

/-- Whatever happens to a bucket is a run of moves of its account. -/
theorem run_metered {bucket : TokenBucket} (h : bucket.Ok) (calls : List (Clock × Call)) :
    Metered bucket (bucket.run calls) :=
  changes_metered h (run_changes bucket calls)

/-! ## The bound -/

theorem create_ok (plan : BucketPlan) (now : ℚ) : (create plan now).Ok :=
  ⟨le_rfl, fun _ hw => nomatch hw⟩

/-- The costs granted since an earlier point of the run. -/
def grantsSince (earlier later : TokenBucket) : List ℚ := later.grants.drop earlier.grants.length

/-- The refunds made since an earlier point of the run. -/
def refundsSince (earlier later : TokenBucket) : List ℚ :=
  later.refunds.drop earlier.refunds.length

/-- Between any two points of a run the bucket grants at most its capacity, what the advance
of its mark earns and what it was refunded, a cost above capacity counting as capacity; its
tokens stay within capacity, and no stretch of clock time is credited twice. -/
theorem grants_bounded (plan : BucketPlan) (now : ℚ) (before during : List (Clock × Call)) :
    let earlier := (create plan now).run before
    let later := earlier.run during
    later.tokens ≤ plan.capacity ∧
      ((grantsSince earlier later).map plan.debit).sum ≤ plan.capacity +
        plan.refillPerSec * (later.lastRefillAt - earlier.lastRefillAt) / 1000 +
          (refundsSince earlier later).sum ∧
      later.credits.Pairwise (fun first second => first.2 ≤ second.1) := by
  intro earlier later
  have hbefore : Metered (create plan now) earlier := run_metered (create_ok plan now) before
  have hduring : Metered earlier later := run_metered hbefore.ok during
  have hplan : earlier.plan = plan := hbefore.plan
  have hwhole := hbefore.trans hduring
  refine ⟨?_, ?_, ?_⟩
  · have := hduring.ok.capped
    rwa [hduring.plan, hplan] at this
  · obtain ⟨moves, asked, back, hrun, hgrants, hasked, hrefunds, hback, -⟩ := hduring.moves
    have hrate : 0 ≤ earlier.plan.refillPerMs :=
      div_nonneg earlier.plan.refill_nonneg (by norm_num)
    have hbound := hrun.granted_le earlier.plan.capacity_nonneg hrate hbefore.ok.capped
    rw [grantsSince, refundsSince, hgrants, hrefunds, List.drop_left, List.drop_left, hback,
      ← hplan, hasked]
    calc granted moves
        ≤ earlier.plan.capacity + (later.lastRefillAt - earlier.lastRefillAt) *
            earlier.plan.refillPerMs + credited moves := hbound
      _ = earlier.plan.capacity + earlier.plan.refillPerSec *
            (later.lastRefillAt - earlier.lastRefillAt) / 1000 + credited moves := by
          unfold BucketPlan.refillPerMs
          ring
  · obtain ⟨moves, -, -, -, -, -, -, -, hcredits⟩ := hwhole.moves
    rw [hcredits]
    split
    · exact stretches_pairwise _ moves
    · exact List.Pairwise.nil

/-- Ten tokens, one more a second. -/
def tenTokens : BucketPlan := ⟨10, 1, "bucket", by norm_num, by norm_num⟩

/-- A full bucket of ten grants a take that asks for a hundred, so costs as asked for are
not bounded. -/
theorem oversized_take_granted :
    ¬ ∀ (plan : BucketPlan) (now : ℚ) (before during : List (Clock × Call)),
      let earlier := (create plan now).run before
      let later := earlier.run during
      (grantsSince earlier later).sum ≤ plan.capacity +
        plan.refillPerSec * (later.lastRefillAt - earlier.lastRefillAt) / 1000 +
          (refundsSince earlier later).sum := by
  intro h
  have := h tenTokens 0 [] [(fun _ => 0, .take 100 1000 none)]
  revert this
  decide +kernel

end TokenBucket

end VoiceOrder.RateLimit
