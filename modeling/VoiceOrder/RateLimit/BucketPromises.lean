import VoiceOrder.RateLimit.BucketChanges

/-! # The promises of a bucket

A promise settles once, and a caller whose take is granted was debited what it needed. -/

namespace VoiceOrder.RateLimit

namespace TokenBucket

/-- Promises are issued in order, and a parked one is pending and parked once. -/
structure Promised (bucket : TokenBucket) : Prop where
  fresh : ∀ promise, bucket.nextPromise ≤ promise → bucket.outcomes promise = none
  issued : ∀ waiter ∈ bucket.queue, waiter.promise < bucket.nextPromise
  pending : ∀ waiter ∈ bucket.queue, bucket.outcomes waiter.promise = none
  nodup : (bucket.queue.map Waiter.promise).Nodup

/-- Whatever becomes of the promise, the bucket is debited `need` for it or nothing. -/
structure Owed (bucket : TokenBucket) (promise : PromiseId) (need : ℚ) : Prop where
  issued : promise < bucket.nextPromise
  parked : ∀ waiter ∈ bucket.queue, waiter.promise = promise → waiter.need = need
  paid : ∀ waitedMs paid, bucket.outcomes promise = some (.resolved waitedMs paid) → paid = need

/-- What no change of a bucket breaks. -/
structure Keeps (bucket after : TokenBucket) : Prop where
  promised : after.Promised
  settled : ∀ promise outcome, bucket.outcomes promise = some outcome →
    after.outcomes promise = some outcome
  owed : ∀ promise need, bucket.Owed promise need → after.Owed promise need

theorem Keeps.trans {first middle last : TokenBucket} (h : Keeps first middle)
    (h' : Keeps middle last) : Keeps first last :=
  ⟨h'.promised, fun promise outcome hs => h'.settled _ _ (h.settled promise outcome hs),
    fun promise need ho => h'.owed _ _ (h.owed promise need ho)⟩

/-- A change of the account only. -/
theorem Keeps.of_unchanged {bucket after : TokenBucket} (h : bucket.Promised)
    (hqueue : after.queue = bucket.queue) (houtcomes : after.outcomes = bucket.outcomes)
    (hnext : after.nextPromise = bucket.nextPromise) : Keeps bucket after := by
  refine ⟨⟨?_, ?_, ?_, ?_⟩, ?_, ?_⟩
  · rw [hnext, houtcomes]
    exact h.fresh
  · rw [hqueue, hnext]
    exact h.issued
  · rw [hqueue, houtcomes]
    exact h.pending
  · rw [hqueue]
    exact h.nodup
  · intro promise outcome hs
    rwa [houtcomes]
  · rintro promise need ⟨hissued, hparked, hpaid⟩
    refine ⟨?_, ?_, ?_⟩
    · rwa [hnext]
    · rwa [hqueue]
    · rwa [houtcomes]

theorem refill_keeps {bucket : TokenBucket} (h : bucket.Promised) (clock : Clock) :
    Keeps bucket (bucket.refill clock) := by
  unfold refill
  simp only
  split <;> exact .of_unchanged h rfl rfl rfl

/-- A settled promise is not the next one to be issued. -/
theorem Promised.ne_next {bucket : TokenBucket} (h : bucket.Promised) {promise : PromiseId}
    {outcome : TakeOutcome} (hs : bucket.outcomes promise = some outcome) :
    promise ≠ bucket.nextPromise := by
  rintro rfl
  rw [h.fresh _ le_rfl] at hs
  cases hs

theorem newPromise_keeps {bucket : TokenBucket} (h : bucket.Promised)
    (outcome : Option TakeOutcome) : Keeps bucket (bucket.newPromise outcome).2 := by
  have hother : ∀ {promise}, promise ≠ bucket.nextPromise →
      (bucket.newPromise outcome).2.outcomes promise = bucket.outcomes promise := fun hne =>
    Function.update_of_ne hne _ _
  refine ⟨⟨?_, ?_, ?_, h.nodup⟩, ?_, ?_⟩
  · intro promise hle
    have hlt : bucket.nextPromise < promise := hle
    rw [hother hlt.ne', h.fresh promise hlt.le]
  · intro waiter hw
    exact (h.issued waiter hw).trans (Nat.lt_succ_self _)
  · intro waiter hw
    rw [hother (h.issued waiter hw).ne]
    exact h.pending waiter hw
  · intro promise settled hs
    rw [hother (h.ne_next hs), hs]
  · intro promise need ho
    refine ⟨ho.issued.trans (Nat.lt_succ_self _), ho.parked, fun waitedMs paid hs => ?_⟩
    rw [hother ho.issued.ne] at hs
    exact ho.paid waitedMs paid hs

/-- Settling the promise of a waiter that leaves the queue. -/
theorem settle_keeps {bucket : TokenBucket} (h : bucket.Promised) {waiter : Waiter}
    (hw : waiter ∈ bucket.queue) {outcome : TakeOutcome}
    (hpaid : ∀ waitedMs paid, outcome = .resolved waitedMs paid → paid = waiter.need)
    {queue : List Waiter} (hsub : queue.Sublist bucket.queue)
    (hout : ∀ other ∈ queue, other.promise ≠ waiter.promise) {after : TokenBucket}
    (hqueue : after.queue = queue)
    (houtcomes : after.outcomes = Function.update bucket.outcomes waiter.promise (some outcome))
    (hnext : after.nextPromise = bucket.nextPromise) : Keeps bucket after := by
  have hother : ∀ {promise}, promise ≠ waiter.promise →
      after.outcomes promise = bucket.outcomes promise := fun hne => by
    rw [houtcomes, Function.update_of_ne hne]
  refine ⟨⟨?_, ?_, ?_, ?_⟩, ?_, ?_⟩
  · intro promise hle
    rw [hnext] at hle
    rw [hother (lt_of_lt_of_le (h.issued waiter hw) hle).ne', h.fresh promise hle]
  · intro other hmem
    rw [hqueue] at hmem
    rw [hnext]
    exact h.issued other (hsub.subset hmem)
  · intro other hmem
    rw [hqueue] at hmem
    rw [hother (hout other hmem)]
    exact h.pending other (hsub.subset hmem)
  · rw [hqueue]
    exact h.nodup.sublist (hsub.map _)
  · intro promise settled hs
    have hne : promise ≠ waiter.promise := by
      rintro rfl
      rw [h.pending waiter hw] at hs
      cases hs
    rw [hother hne, hs]
  · intro promise need ho
    refine ⟨hnext ▸ ho.issued, fun other hmem => ?_, fun waitedMs paid hs => ?_⟩
    · rw [hqueue] at hmem
      exact ho.parked other (hsub.subset hmem)
    · by_cases hne : promise = waiter.promise
      · subst hne
        rw [houtcomes, Function.update_self, Option.some.injEq] at hs
        rw [hpaid waitedMs paid hs, ho.parked waiter hw rfl]
      · rw [hother hne] at hs
        exact ho.paid waitedMs paid hs

theorem park_keeps {bucket : TokenBucket} (h : bucket.Promised) {waiter : PromiseId → Waiter}
    (hpromise : ∀ promise, (waiter promise).promise = promise) :
    Keeps bucket (bucket.park waiter) := by
  have hnew := newPromise_keeps h none
  refine ⟨⟨hnew.promised.fresh, ?_, ?_, ?_⟩, hnew.settled, ?_⟩
  · intro other hmem
    rcases List.mem_append.mp hmem with hmem | hmem
    · exact hnew.promised.issued other hmem
    · rw [List.mem_singleton.mp hmem, hpromise]
      exact Nat.lt_succ_self _
  · intro other hmem
    rcases List.mem_append.mp hmem with hmem | hmem
    · exact hnew.promised.pending other hmem
    · rw [List.mem_singleton.mp hmem, hpromise]
      exact Function.update_self _ _ _
  · change ((bucket.queue ++ [waiter bucket.nextPromise]).map Waiter.promise).Nodup
    rw [List.map_append, List.nodup_append]
    refine ⟨h.nodup, List.nodup_singleton _, ?_⟩
    rintro a ha b hb rfl
    obtain ⟨other, hmem, rfl⟩ := List.mem_map.mp ha
    rw [List.map_singleton, List.mem_singleton, hpromise] at hb
    exact absurd hb (h.issued other hmem).ne
  · intro promise need ho
    have ho' := hnew.owed promise need ho
    refine ⟨ho'.issued, fun other hmem heq => ?_, ho'.paid⟩
    rcases List.mem_append.mp hmem with hmem | hmem
    · exact ho.parked other hmem heq
    · rw [List.mem_singleton.mp hmem, hpromise] at heq
      exact absurd heq ho.issued.ne'

theorem change_keeps {bucket after : TokenBucket} (h : bucket.Promised)
    (hchange : Change bucket after) : Keeps bucket after := by
  cases hchange with
  | refill clock => exact refill_keeps h clock
  | timer | warned | penalty | charge | credit | free | pay => exact .of_unchanged h rfl rfl rfl
  | promise outcome => exact newPromise_keeps h (some outcome)
  | @grantHead t head rest hqueue htokens =>
      have hnodup := h.nodup
      rw [hqueue, List.map_cons, List.nodup_cons] at hnodup
      refine settle_keeps h (hqueue ▸ List.mem_cons_self) (fun _ _ he => ?_)
        (hqueue ▸ List.sublist_cons_self head rest) (fun other hmem he => ?_) rfl rfl rfl
      · cases he
        rfl
      · exact hnodup.1 (List.mem_map.mpr ⟨other, hmem, he⟩)
  | park hpromise _ => exact park_keeps h hpromise
  | @drop promise error waiter hw hpromise =>
      subst hpromise
      exact settle_keeps h hw (by rintro _ _ ⟨⟩) List.eraseP_sublist
        (fun other hmem => ne_of_mem_eraseP h.nodup hmem) rfl rfl rfl

theorem changes_keep {bucket after : TokenBucket} (h : bucket.Promised)
    (hchanges : Changes bucket after) : Keeps bucket after := by
  induction hchanges with
  | refl => exact ⟨h, fun _ _ hs => hs, fun _ _ ho => ho⟩
  | tail _ hchange ih => exact ih.trans (change_keeps ih.promised hchange)

theorem create_promised (plan : BucketPlan) (now : ℚ) : (create plan now).Promised :=
  ⟨fun _ _ => rfl, fun _ hw => (nomatch hw), fun _ hw => (nomatch hw), List.nodup_nil⟩

/-! ## The promise of a take -/

theorem newPromise_owed {bucket : TokenBucket} (h : bucket.Promised) {outcome : TakeOutcome}
    {need : ℚ} (hpaid : ∀ waitedMs paid, outcome = .resolved waitedMs paid → paid = need) :
    (bucket.newPromise (some outcome)).2.Owed bucket.nextPromise need := by
  refine ⟨Nat.lt_succ_self _, fun waiter hw he => ?_, fun waitedMs paid hs => ?_⟩
  · exact absurd he (h.issued waiter hw).ne
  · have : (bucket.newPromise (some outcome)).2.outcomes bucket.nextPromise = some outcome :=
      Function.update_self _ _ _
    rw [this, Option.some.injEq] at hs
    exact hpaid waitedMs paid hs

theorem park_owed {bucket : TokenBucket} (h : bucket.Promised) {waiter : PromiseId → Waiter}
    {need : ℚ} (hneed : ∀ promise, (waiter promise).need = need) :
    (bucket.park waiter).Owed bucket.nextPromise need := by
  refine ⟨Nat.lt_succ_self _, fun other hmem he => ?_, fun waitedMs paid hs => ?_⟩
  · rcases List.mem_append.mp hmem with hmem | hmem
    · exact absurd he (h.issued other hmem).ne
    · rw [List.mem_singleton.mp hmem]
      exact hneed _
  · have : (bucket.park waiter).outcomes bucket.nextPromise = none := Function.update_self _ _ _
    rw [this] at hs
    cases hs

/-- The promise of a take is owed the clamped cost. -/
theorem take_owed {bucket : TokenBucket} (h : bucket.Promised) (clock : Clock)
    (cost deadlineAt : ℚ) (signal : AbortSignal) :
    (bucket.take clock cost deadlineAt signal).2.Owed
      (bucket.take clock cost deadlineAt signal).1 (max 0 (bucket.plan.debit cost)) := by
  have hclamp := clamp_changes cost bucket
  have hneed := bucket.clamp_need cost
  unfold take
  generalize bucket.clamp cost = clamped at hclamp hneed
  obtain ⟨need, clamped⟩ := clamped
  simp only at hclamp hneed ⊢
  have hclamped := (changes_keep h hclamp).promised
  rw [← hneed]
  split
  · exact newPromise_owed hclamped fun _ _ he => nomatch he
  · have hdebit := debit_of_need hneed
    rw [← hclamp.plan_eq] at hdebit
    have htry : Changes clamped (clamped.tryPay (clock.after 1) cost need).2 :=
      tryPay_changes _ hdebit.1 fun hn _ => hdebit.2 hn
    generalize clamped.tryPay (clock.after 1) cost need = tried at htry
    obtain ⟨granted, tried⟩ := tried
    have htried := (changes_keep hclamped htry).promised
    cases granted with
    | true =>
        refine newPromise_owed htried fun _ _ he => ?_
        cases he
        rfl
    | false =>
        simp only
        split
        · exact newPromise_owed htried fun _ _ he => nomatch he
        · refine (changes_keep ?_ (reschedule_changes _ _)).owed _ _ (park_owed htried fun _ => rfl)
          exact (park_keeps htried fun _ => rfl).promised

end TokenBucket

end VoiceOrder.RateLimit
