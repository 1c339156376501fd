import VoiceOrder.RateLimit.LeaseInvariant

/-! # Every action keeps the account of every acquire

The invariant of the limiter, and one lemma for each stage and each action. -/

namespace VoiceOrder.RateLimit

namespace RateLimiter

/-! ## The invariant of the limiter -/

structure Inv (limiter : RateLimiter) : Prop where
  resources : Resources limiter
  unissued : ∀ id, limiter.nextAcquire ≤ id → limiter.acquires id = none
  recorded : ∀ id, id < limiter.nextAcquire → (limiter.acquires id).isSome
  acquires : ∀ id acquire, limiter.acquires id = some acquire → AcquireOk limiter id acquire

/-- The invariant but for the acquire that is being stepped. -/
structure Frame (id : CallerId) (limiter : RateLimiter) : Prop where
  resources : Resources limiter
  issued : id < limiter.nextAcquire
  unissued : ∀ other, limiter.nextAcquire ≤ other → limiter.acquires other = none
  recorded : ∀ other, other < limiter.nextAcquire → other ≠ id → (limiter.acquires other).isSome
  others : ∀ other acquire, other ≠ id → limiter.acquires other = some acquire →
    AcquireOk limiter other acquire

section

variable {mover : Option CallerId} {limiter after : RateLimiter} {id : CallerId} {acquire : Acquire}

theorem keeps_rel_refl (mover : Option CallerId) (semaphore : Option Semaphore) :
    Option.Rel (Semaphore.Keeps mover) semaphore semaphore := by
  cases semaphore with
  | none => exact .none
  | some semaphore => exact .some (.refl mover semaphore)

/-- Recording an acquire moves nothing. -/
theorem moves_put (limiter : RateLimiter) (id : CallerId) (acquire : Acquire) :
    Moves none limiter (limiter.put id acquire) :=
  ⟨.refl _, .refl _, keeps_rel_refl _ _⟩

theorem Inv.frame (h : Inv limiter) (hacquire : limiter.acquires id = some acquire) :
    Frame id limiter := by
  refine ⟨h.resources, ?_, h.unissued, fun other hlt _ => h.recorded other hlt,
    fun other a _ ha => h.acquires other a ha⟩
  by_contra hle
  rw [h.unissued id (not_lt.mp hle)] at hacquire
  cases hacquire

theorem Frame.put (h : Frame id limiter) (hok : AcquireOk limiter id acquire) :
    Inv (limiter.put id acquire) := by
  have hmoves := moves_put limiter id acquire
  refine ⟨⟨h.resources.rpm, h.resources.rpmCapacity, h.resources.tpm, h.resources.concurrency,
    h.resources.unlimited⟩, fun other hle => ?_, fun other hlt => ?_, fun other a ha => ?_⟩
  · exact (Function.update_of_ne (lt_of_lt_of_le h.issued hle).ne' _ _).trans (h.unissued other hle)
  · by_cases hother : other = id
    · simp [RateLimiter.put, hother]
    · simpa [RateLimiter.put, hother] using h.recorded other hlt hother
  · by_cases hother : other = id
    · subst hother
      have : acquire = a := by simpa [RateLimiter.put] using ha
      exact this ▸ hok.of_moves hmoves h.resources (by simp)
    · have ha : limiter.acquires other = some a := by
        simpa [RateLimiter.put, hother] using ha
      exact (h.others other a hother ha).of_moves hmoves h.resources (by simp)

theorem Frame.moves (h : Frame id limiter) (hmoves : Moves (some id) limiter after)
    (hresources : Resources after) (hacquires : after.acquires = limiter.acquires)
    (hnext : after.nextAcquire = limiter.nextAcquire) : Frame id after := by
  refine ⟨hresources, hnext ▸ h.issued, fun other hle => ?_, fun other hlt hne => ?_,
    fun other a hne ha => ?_⟩
  · rw [hacquires]
    exact h.unissued other (hnext ▸ hle)
  · rw [hacquires]
    exact h.recorded other (hnext ▸ hlt) hne
  · rw [hacquires] at ha
    exact (h.others other a hne ha).of_moves hmoves h.resources
      fun he => hne (Option.some.inj he).symm

theorem Inv.moves (h : Inv limiter) (hmoves : Moves none limiter after)
    (hresources : Resources after) (hacquires : after.acquires = limiter.acquires)
    (hnext : after.nextAcquire = limiter.nextAcquire) : Inv after := by
  refine ⟨hresources, fun id hle => ?_, fun id hlt => ?_, fun id a ha => ?_⟩
  · rw [hacquires]
    exact h.unissued id (hnext ▸ hle)
  · rw [hacquires]
    exact h.recorded id (hnext ▸ hlt)
  · rw [hacquires] at ha
    exact (h.acquires id a ha).of_moves hmoves h.resources (by simp)

/-! ## Stepping one resource -/

theorem Changed.eq_none {bucket after : Option TokenBucket} (h : Changed bucket after)
    (hnone : bucket = none) : after = none := by
  subst hnone
  cases h
  rfl

/-- A step of the semaphore. -/
theorem Resources.changeSemaphore (h : Resources limiter) {semaphore : Semaphore}
    (hsome : limiter.concurrency.isSome) (hok : semaphore.Ok limiter.nextAcquire) :
    Resources { limiter with concurrency := some semaphore } := by
  refine ⟨h.rpm, h.rpmCapacity, h.tpm, fun s hs => Option.some.inj hs ▸ hok, fun hu => ?_⟩
  rw [(h.unlimited hu).2.2] at hsome
  cases hsome

theorem Resources.changeRpm (h : Resources limiter) {bucket : Option TokenBucket}
    (hchanged : Changed limiter.rpm bucket) : Resources { limiter with rpm := bucket } := by
  refine ⟨hchanged.ok h.rpm, fun b hb => ?_, h.tpm, h.concurrency, fun hu => ?_⟩
  · have hb : bucket = some b := hb
    subst hb
    generalize hbefore : limiter.rpm = before at hchanged
    cases hchanged with
    | some hc =>
        rw [hc.plan_eq]
        exact h.rpmCapacity _ hbefore
  · obtain ⟨hrpm, htpm, hsem⟩ := h.unlimited hu
    exact ⟨hchanged.eq_none hrpm, htpm, hsem⟩

theorem Resources.changeTpm (h : Resources limiter) {bucket : Option TokenBucket}
    (hchanged : Changed limiter.tpm bucket) : Resources { limiter with tpm := bucket } :=
  ⟨h.rpm, h.rpmCapacity, hchanged.ok h.tpm, h.concurrency, fun hu => by
    obtain ⟨hrpm, htpm, hsem⟩ := h.unlimited hu
    exact ⟨hrpm, hchanged.eq_none htpm, hsem⟩⟩

theorem moves_changeRpm {bucket : Option TokenBucket} (hchanged : Changed limiter.rpm bucket) :
    Moves mover limiter { limiter with rpm := bucket } :=
  ⟨hchanged, .refl _, keeps_rel_refl _ _⟩

theorem moves_changeTpm {bucket : Option TokenBucket} (hchanged : Changed limiter.tpm bucket) :
    Moves mover limiter { limiter with tpm := bucket } :=
  ⟨.refl _, hchanged, keeps_rel_refl _ _⟩

theorem Changed.map {bucket : Option TokenBucket} {f : TokenBucket → TokenBucket}
    (h : ∀ b, TokenBucket.Changes b (f b)) : Changed bucket (bucket.map f) := by
  cases bucket with
  | none => exact .none
  | some b => exact .some (h b)

theorem Inv.changeRpm (h : Inv limiter) {f : TokenBucket → TokenBucket}
    (hf : ∀ b, TokenBucket.Changes b (f b)) : Inv { limiter with rpm := limiter.rpm.map f } :=
  h.moves (moves_changeRpm (.map hf)) (h.resources.changeRpm (.map hf)) rfl rfl

theorem Inv.changeTpm (h : Inv limiter) {f : TokenBucket → TokenBucket}
    (hf : ∀ b, TokenBucket.Changes b (f b)) : Inv { limiter with tpm := limiter.tpm.map f } :=
  h.moves (moves_changeTpm (.map hf)) (h.resources.changeTpm (.map hf)) rfl rfl

/-- A waiter of the semaphore fails, or nothing happens. -/
theorem Inv.failPermit (h : Inv limiter) {f : Semaphore → Semaphore}
    (hf : ∀ semaphore, (∃ caller error, f semaphore = semaphore.fail caller error) ∨
      f semaphore = semaphore) :
    Inv { limiter with concurrency := limiter.concurrency.map f } := by
  have hspec : ∀ semaphore, limiter.concurrency = some semaphore →
      (f semaphore).Ok limiter.nextAcquire ∧ Semaphore.Keeps none semaphore (f semaphore) := by
    intro semaphore hs
    have hok := h.resources.concurrency semaphore hs
    rcases hf semaphore with ⟨caller, error, he⟩ | he
    · rw [he]
      exact Semaphore.fail_spec hok caller error
    · rw [he]
      exact ⟨hok, .refl none semaphore⟩
  cases hconcurrency : limiter.concurrency with
  | none =>
      have : { limiter with concurrency := none } = limiter := by rw [← hconcurrency]
      rw [Option.map_none, this]
      exact h
  | some semaphore =>
      obtain ⟨hok, hkeeps⟩ := hspec semaphore hconcurrency
      have hmoves : Moves none limiter { limiter with concurrency := some (f semaphore) } :=
        ⟨.refl _, .refl _, by rw [hconcurrency]; exact .some hkeeps⟩
      exact h.moves hmoves (h.resources.changeSemaphore (hconcurrency ▸ rfl) hok) rfl rfl

/-! ## The stages of an acquire -/

theorem lease_inv (h : Frame id limiter) (clock : Clock)
    (hreserved : acquire.reserved = limiter.reserve acquire.cost) (hrpm : RpmHeld limiter acquire)
    (htpm : TpmHeld limiter acquire) (hrelease : acquire.release = limiter.concurrency.isSome)
    (hat : limiter.AtSemaphore fun s => s.Holds id) : Inv (limiter.lease clock id acquire) :=
  h.put ⟨hreserved, ⟨hrpm.taken, hrpm.refunded, hrpm.paid⟩,
    ⟨htpm.taken, htpm.refunded, htpm.forced, htpm.paid⟩, hrelease, hat⟩

theorem enterPermit_inv (h : Frame id limiter) (clock : Clock)
    (hreserved : acquire.reserved = limiter.reserve acquire.cost) (hrpm : RpmHeld limiter acquire)
    (htpm : TpmHeld limiter acquire) (hrelease : acquire.release = false)
    (hat : limiter.AtSemaphore fun s => s.Untouched id) :
    Inv (limiter.enterPermit clock id acquire) := by
  unfold enterPermit
  split
  · rename_i hnone
    refine lease_inv h clock hreserved hrpm htpm ?_ ?_
    · rw [hrelease, hnone]
      rfl
    · intro semaphore hs
      rw [hnone] at hs
      cases hs
  · rename_i semaphore hsome
    obtain ⟨hok, hkeeps, hreleased⟩ := Semaphore.acquire_spec
      (h.resources.concurrency semaphore hsome) h.issued (hat semaphore hsome) clock
      acquire.deadlineAt acquire.signal
    have hmoves : Moves (some id) limiter { limiter with
        concurrency := some (semaphore.acquire clock id acquire.deadlineAt acquire.signal) } :=
      ⟨.refl _, .refl _, hsome ▸ .some hkeeps⟩
    have hframe := h.moves hmoves (h.resources.changeSemaphore (hsome ▸ rfl) hok) rfl rfl
    exact hframe.put ⟨hreserved, ⟨hrpm.taken, hrpm.refunded, hrpm.paid⟩,
      ⟨htpm.taken, htpm.refunded, htpm.forced, htpm.paid⟩, hrelease, rfl,
      fun s hs => Option.some.inj hs ▸ hreleased⟩

theorem enterTpm_inv (h : Frame id limiter) (clock : Clock)
    (hreserved : acquire.reserved = limiter.reserve acquire.cost) (hrpm : RpmHeld limiter acquire)
    (hclear : TpmClear acquire) (hpromise : acquire.tpmPromise = none)
    (hrelease : acquire.release = false) (hat : limiter.AtSemaphore fun s => s.Untouched id) :
    Inv (limiter.enterTpm clock id acquire) := by
  have hskip : acquire.reserved = 0 → Inv (limiter.enterPermit clock id acquire) := fun hzero =>
    enterPermit_inv h clock hreserved hrpm ⟨hclear.taken.trans hzero.symm, hclear.refunded,
      hclear.forced, by rw [hpromise, hzero]; exact .never _⟩ hrelease hat
  unfold enterTpm
  split
  · rename_i hnone
    exact hskip (by rw [hreserved, reserve, hnone])
  · rename_i bucket hsome
    have hreserve : limiter.reserve acquire.cost =
        if 0 < acquire.cost then min acquire.cost bucket.plan.capacity else 0 := by
      rw [reserve, hsome]
    split
    · rename_i hcost
      have hchanges := TokenBucket.take_changes clock acquire.cost acquire.deadlineAt
        acquire.signal bucket
      have howed := TokenBucket.take_owed (h.resources.tpm bucket hsome) clock acquire.cost
        acquire.deadlineAt acquire.signal
      have hneed : max 0 (bucket.plan.debit acquire.cost) = acquire.reserved := by
        rw [hreserved, hreserve, if_pos hcost]
        exact max_eq_right (le_min hcost.le bucket.plan.capacity_nonneg)
      rw [hneed] at howed
      generalize bucket.take clock acquire.cost acquire.deadlineAt acquire.signal = taken
        at hchanges howed
      have hchanged : Changed limiter.tpm (some taken.2) := hsome ▸ .some hchanges
      have hmoves : Moves (some id) limiter { limiter with tpm := some taken.2 } :=
        moves_changeTpm hchanged
      have hframe := h.moves hmoves (h.resources.changeTpm hchanged) rfl rfl
      exact hframe.put ⟨hreserved.trans (hmoves.reserve _).symm,
        ⟨hrpm.taken, hrpm.refunded, hrpm.paid⟩,
        ⟨hclear.taken, hclear.refunded, hclear.forced⟩, rfl, .owed howed, hrelease, hat⟩
    · rename_i hcost
      exact hskip (by rw [hreserved, hreserve, if_neg hcost])

theorem enterRpm_inv (h : Frame id limiter) (clock : Clock)
    (hreserved : acquire.reserved = limiter.reserve acquire.cost)
    (htaken : acquire.rpmTaken = false) (hrefunded : acquire.rpmRefunded = 0)
    (hnone : acquire.rpmPromise = none) (hclear : TpmClear acquire)
    (hpromise : acquire.tpmPromise = none) (hrelease : acquire.release = false)
    (hat : limiter.AtSemaphore fun s => s.Untouched id) :
    Inv (limiter.enterRpm clock id acquire) := by
  unfold enterRpm
  split
  · rename_i hrpm
    refine enterTpm_inv h clock hreserved ⟨?_, hrefunded, ?_⟩ hclear hpromise hrelease hat
    · rw [htaken, hrpm]
      rfl
    · rw [hnone, rpmCost, hrpm]
      exact .never _
  · rename_i bucket hsome
    have hchanges := TokenBucket.take_changes clock 1 acquire.deadlineAt acquire.signal bucket
    have howed := TokenBucket.take_owed (h.resources.rpm bucket hsome) clock 1
      acquire.deadlineAt acquire.signal
    have hneed : max 0 (bucket.plan.debit 1) = 1 := by
      have hcapacity := h.resources.rpmCapacity bucket hsome
      rw [BucketPlan.debit, min_eq_left hcapacity]
      exact max_eq_right zero_le_one
    rw [hneed] at howed
    generalize bucket.take clock 1 acquire.deadlineAt acquire.signal = taken at hchanges howed
    have hchanged : Changed limiter.rpm (some taken.2) := hsome ▸ .some hchanges
    have hmoves : Moves (some id) limiter { limiter with rpm := some taken.2 } :=
      moves_changeRpm hchanged
    have hframe := h.moves hmoves (h.resources.changeRpm hchanged) rfl rfl
    exact hframe.put ⟨hreserved.trans (hmoves.reserve _).symm, htaken, hrefunded, rfl,
      .owed howed, ⟨hclear.taken, hclear.refunded, hclear.forced⟩, hpromise, hrelease, hat⟩

theorem acquire_inv (h : Inv limiter) (clock : Clock) (options : AcquireOptions) :
    Inv (limiter.acquire clock options) := by
  have hmoves : Moves none limiter { limiter with nextAcquire := limiter.nextAcquire + 1 } :=
    ⟨.refl _, .refl _, keeps_rel_refl _ _⟩
  have hframe : Frame limiter.nextAcquire
      { limiter with nextAcquire := limiter.nextAcquire + 1 } :=
    ⟨⟨h.resources.rpm, h.resources.rpmCapacity, h.resources.tpm,
        fun s hs => (h.resources.concurrency s hs).succ, h.resources.unlimited⟩,
      Nat.lt_succ_self _, fun other hle => h.unissued other (Nat.le_of_succ_le hle),
      fun other hlt hne => h.recorded other (lt_of_le_of_ne (Nat.le_of_lt_succ hlt) hne),
      fun other a _ ha => (h.acquires other a ha).of_moves hmoves h.resources (by simp)⟩
  unfold RateLimiter.acquire
  simp only
  split
  · rename_i hu
    obtain ⟨hrpm, htpm, hsem⟩ := h.resources.unlimited hu
    exact hframe.put ⟨rfl, hrpm, htpm, hsem, rfl, ⟨rfl, rfl, rfl⟩⟩
  · exact enterRpm_inv hframe _ rfl rfl rfl rfl ⟨rfl, rfl, rfl⟩ rfl rfl
      fun s hs => (h.resources.concurrency s hs).untouched _ le_rfl

/-! ## Giving back -/

/-- What has been taken from the buckets for an acquire, and nothing given back. -/
structure Taken (limiter : RateLimiter) (acquire : Acquire) : Prop where
  rpm : Paid limiter.rpm acquire.rpmPromise (if acquire.rpmTaken then 1 else 0)
  rpmSome : acquire.rpmTaken = true → limiter.rpm.isSome
  tpm : Paid limiter.tpm acquire.tpmPromise acquire.tpmTaken
  tpmSome : acquire.tpmTaken ≠ 0 → limiter.tpm.isSome
  tpmNonneg : 0 ≤ acquire.tpmTaken
  rpmRefunded : acquire.rpmRefunded = 0
  tpmRefunded : acquire.tpmRefunded = 0
  forced : acquire.tpmForced = 0

/-- The reservation is refunded in full. -/
theorem refundTpm_eq (clock : Clock) (h : Taken limiter acquire) :
    ∃ bucket, Changed limiter.tpm bucket ∧ limiter.refundTpm clock acquire =
      ({ acquire with tpmRefunded := acquire.tpmTaken }, { limiter with tpm := bucket }) := by
  have hidle : acquire.tpmTaken = 0 → { acquire with tpmRefunded := acquire.tpmTaken } = acquire :=
    fun hzero => congrArg (fun amount => { acquire with tpmRefunded := amount })
      (hzero.trans h.tpmRefunded.symm)
  unfold refundTpm
  split
  · rename_i hnone
    have hzero : acquire.tpmTaken = 0 := by
      by_contra hne
      have := h.tpmSome hne
      rw [hnone] at this
      cases this
    exact ⟨limiter.tpm, .refl _, by rw [hidle hzero]⟩
  · rename_i bucket hsome
    split
    · have hchanged : Changed limiter.tpm (some (bucket.refund clock acquire.tpmTaken)) :=
        hsome ▸ .some (TokenBucket.refund_changes clock acquire.tpmTaken bucket)
      exact ⟨_, hchanged, by rw [h.tpmRefunded, zero_add]⟩
    · rename_i hpos
      exact ⟨limiter.tpm, .refl _, by rw [hidle (le_antisymm (not_lt.mp hpos) h.tpmNonneg)]⟩

/-- The request token is refunded, when it was taken. -/
theorem refundRpm_eq (clock : Clock) (hrefunded : acquire.rpmRefunded = 0)
    (hsome : acquire.rpmTaken = true → limiter.rpm.isSome) :
    ∃ bucket, Changed limiter.rpm bucket ∧ limiter.refundRpm clock acquire =
      ({ acquire with rpmRefunded := if acquire.rpmTaken then 1 else 0 },
        { limiter with rpm := bucket }) := by
  have hidle : acquire.rpmTaken = false →
      { acquire with rpmRefunded := if acquire.rpmTaken then 1 else 0 } = acquire :=
    fun hfalse => congrArg (fun amount => { acquire with rpmRefunded := amount })
      ((if_neg (by simp [hfalse])).trans hrefunded.symm)
  unfold refundRpm
  split
  · rename_i hnone
    have hfalse : acquire.rpmTaken = false := by
      rw [hnone] at hsome
      simpa using hsome
    exact ⟨limiter.rpm, .refl _, by rw [hidle hfalse]⟩
  · rename_i bucket hbucket
    split
    · rename_i htaken
      have hchanged : Changed limiter.rpm (some (bucket.refund clock 1)) :=
        hbucket ▸ .some (TokenBucket.refund_changes clock 1 bucket)
      exact ⟨_, hchanged, by simp [hrefunded, htaken]⟩
    · exact ⟨limiter.rpm, .refl _, congrArg
        (fun amount => ({ acquire with rpmRefunded := amount }, limiter)) hrefunded⟩

/-- Everything taken for an acquire is refunded, and nothing else of it changes. -/
theorem giveBack_eq (clock : Clock) (h : Taken limiter acquire) :
    ∃ rpm tpm, Changed limiter.rpm rpm ∧ Changed limiter.tpm tpm ∧
      limiter.giveBack clock acquire =
        ({ acquire with
            tpmRefunded := acquire.tpmTaken
            rpmRefunded := if acquire.rpmTaken then 1 else 0 },
          { limiter with tpm := tpm, rpm := rpm }) := by
  obtain ⟨tpm, htpm, heq⟩ := refundTpm_eq clock h
  unfold giveBack
  rw [heq]
  obtain ⟨rpm, hrpm, heq⟩ := @refundRpm_eq { limiter with tpm := tpm }
    { acquire with tpmRefunded := acquire.tpmTaken } (clock.after 3) h.rpmRefunded h.rpmSome
  exact ⟨rpm, tpm, hrpm, htpm, heq⟩

theorem failAcquire_inv (h : Frame id limiter) (clock : Clock) (error : RateLimitTimeoutError)
    (hreserved : acquire.reserved = limiter.reserve acquire.cost) (htaken : Taken limiter acquire)
    (hat : limiter.AtSemaphore (Denied id)) :
    Inv (limiter.failAcquire clock id error acquire) := by
  obtain ⟨rpm, tpm, hrpm, htpm, heq⟩ := giveBack_eq clock htaken
  unfold failAcquire
  rw [heq]
  have hmoves : Moves (some id) limiter { limiter with tpm := tpm, rpm := rpm } :=
    ⟨hrpm, htpm, keeps_rel_refl _ _⟩
  have hresources : Resources { limiter with tpm := tpm, rpm := rpm } :=
    (h.resources.changeTpm htpm).changeRpm hrpm
  refine (h.moves hmoves hresources rfl rfl).put ⟨hreserved.trans (hmoves.reserve _).symm,
    hrpm.paid h.resources.rpm htaken.rpm, htpm.paid h.resources.tpm htaken.tpm, htaken.forced, hat⟩

/-! ## Resuming -/

theorem reserve_nonneg (limiter : RateLimiter) (cost : ℚ) : 0 ≤ limiter.reserve cost := by
  unfold reserve
  split
  · exact le_rfl
  · rename_i bucket _
    split
    · rename_i hcost
      exact le_min hcost.le bucket.plan.capacity_nonneg
    · exact le_rfl

theorem reserve_ne_zero {cost : ℚ} (h : limiter.reserve cost ≠ 0) : limiter.tpm.isSome := by
  unfold reserve at h
  split at h
  · exact absurd rfl h
  · rename_i hsome
    rw [hsome]
    rfl

theorem RpmHeld.paidTaken (h : RpmHeld limiter acquire) :
    Paid limiter.rpm acquire.rpmPromise (if acquire.rpmTaken then 1 else 0) := by
  rw [h.taken]
  exact h.paid

/-- What an acquire that holds both its tokens has taken. -/
theorem taken_of_held (hreserved : acquire.reserved = limiter.reserve acquire.cost)
    (hrpm : RpmHeld limiter acquire) (htpm : TpmHeld limiter acquire) : Taken limiter acquire where
  rpm := hrpm.paidTaken
  rpmSome := fun htaken => hrpm.taken ▸ htaken
  tpm := htpm.taken ▸ htpm.paid
  tpmSome := fun hne => by
    rw [htpm.taken, hreserved] at hne
    exact reserve_ne_zero hne
  tpmNonneg := by
    rw [htpm.taken, hreserved]
    exact reserve_nonneg limiter acquire.cost
  rpmRefunded := hrpm.refunded
  tpmRefunded := htpm.refunded
  forced := htpm.forced

/-- What an acquire has taken before it reserves anything. -/
theorem taken_of_clear (hclear : TpmClear acquire) (hrefunded : acquire.rpmRefunded = 0)
    (hrpm : Paid limiter.rpm acquire.rpmPromise (if acquire.rpmTaken then 1 else 0))
    (hsome : acquire.rpmTaken = true → limiter.rpm.isSome)
    (htpm : Paid limiter.tpm acquire.tpmPromise 0) : Taken limiter acquire where
  rpm := hrpm
  rpmSome := hsome
  tpm := hclear.taken ▸ htpm
  tpmSome := fun hne => absurd hclear.taken hne
  tpmNonneg := hclear.taken ▸ le_rfl
  rpmRefunded := hrefunded
  tpmRefunded := hclear.refunded
  forced := hclear.forced

theorem Awaits.isSome {bucket : Option TokenBucket} {promise : PromiseId} {need : ℚ}
    (h : Awaits bucket promise need) : bucket.isSome := by
  cases h
  rfl

theorem resume_inv (h : Inv limiter) (clock : Clock) (id : CallerId) :
    Inv (limiter.resume clock id) := by
  unfold resume
  split
  · exact h
  · rename_i acquire hacquire
    have hframe := h.frame hacquire
    have hok := h.acquires id acquire hacquire
    have hstage := hok.stage
    cases hcase : acquire.stage with
    | rpm promise =>
        rw [hcase] at hstage
        obtain ⟨htaken, hrefunded, hpromise, hawaits, hclear, hnone, hrelease, hat⟩ := hstage
        cases houtcome : takeOutcome limiter.rpm promise with
        | none => simpa only [houtcome] using h
        | some outcome =>
            cases outcome with
            | resolved waitedMs paid =>
                simp only [houtcome]
                refine enterTpm_inv hframe clock hok.reserved ⟨hawaits.isSome.symm, hrefunded, ?_⟩
                  ⟨hclear.taken, hclear.refunded, hclear.forced⟩ hnone hrelease hat
                have hpaid := hawaits.granted houtcome
                rw [rpmCost, if_pos hawaits.isSome]
                exact hpromise ▸ hpaid
            | rejected error =>
                simp only [houtcome]
                refine failAcquire_inv hframe clock error hok.reserved (taken_of_clear hclear
                  hrefunded ?_ (fun ht => absurd ht (by simp [htaken])) ?_)
                  fun s hs => Or.inl (hat s hs)
                · rw [hpromise, htaken]
                  exact hawaits.rejected houtcome
                · exact hnone ▸ .never _
    | tpm promise =>
        rw [hcase] at hstage
        obtain ⟨hheld, hclear, hpromise, hawaits, hrelease, hat⟩ := hstage
        cases houtcome : takeOutcome limiter.tpm promise with
        | none => simpa only [houtcome] using h
        | some outcome =>
            cases outcome with
            | resolved waitedMs paid =>
                simp only [houtcome]
                refine enterPermit_inv hframe clock hok.reserved
                  ⟨hheld.taken, hheld.refunded, hheld.paid⟩
                  ⟨rfl, hclear.refunded, hclear.forced, ?_⟩ hrelease hat
                exact hpromise ▸ hawaits.granted houtcome
            | rejected error =>
                simp only [houtcome]
                exact failAcquire_inv hframe clock error hok.reserved (taken_of_clear hclear
                  hheld.refunded hheld.paidTaken (fun ht => hheld.taken ▸ ht)
                  (hpromise ▸ hawaits.rejected houtcome)) fun s hs => Or.inl (hat s hs)
    | permit =>
        rw [hcase] at hstage
        obtain ⟨hrpm, htpm, hrelease, hsome, hat⟩ := hstage
        obtain ⟨semaphore, hsemaphore⟩ := Option.isSome_iff_exists.mp hsome
        simp only [hsemaphore, Option.bind_some]
        cases houtcome : semaphore.outcomes id with
        | none => simpa only [houtcome] using h
        | some outcome =>
            cases outcome with
            | granted =>
                simp only
                refine lease_inv hframe clock hok.reserved ⟨hrpm.taken, hrpm.refunded, hrpm.paid⟩
                  ⟨htpm.taken, htpm.refunded, htpm.forced, htpm.paid⟩ hsome.symm fun s hs => ?_
                cases hsemaphore.symm.trans hs
                exact ⟨houtcome, hat _ hs⟩
            | rejected error =>
                simp only
                refine failAcquire_inv hframe clock error hok.reserved
                  (taken_of_held hok.reserved hrpm htpm) fun s hs => Or.inr ⟨error, ?_⟩
                cases hsemaphore.symm.trans hs
                exact houtcome
    | leased | failed | noop => exact h

/-! ## Closing a lease -/

/-- The overrun is charged, and nothing else of the acquire changes. -/
theorem reconcile_eq (clock : Clock) (actualCost : Option ℚ) (hforced : acquire.tpmForced = 0) :
    ∃ bucket, Changed limiter.tpm bucket ∧ limiter.reconcile clock actualCost acquire =
      ({ acquire with tpmForced := limiter.overrun acquire actualCost },
        { limiter with tpm := bucket }) := by
  have hidle : limiter.overrun acquire actualCost = 0 → (acquire, limiter) =
      ({ acquire with tpmForced := limiter.overrun acquire actualCost }, limiter) := fun hzero =>
    congrArg (fun amount => ({ acquire with tpmForced := amount }, limiter))
      (hforced.trans hzero.symm)
  unfold reconcile
  split
  · rename_i actualCost bucket hsome
    have hoverrun : limiter.overrun acquire (some actualCost) =
        max 0 (actualCost - acquire.reserved) := by
      rw [overrun, hsome]
      rfl
    simp only
    split
    · rename_i hpos
      have hchanged : Changed limiter.tpm
          (some (bucket.forceTake clock (actualCost - acquire.reserved))) :=
        hsome ▸ .some (TokenBucket.forceTake_changes clock _ bucket)
      exact ⟨_, hchanged, by rw [hoverrun, max_eq_right hpos.le, hforced, zero_add]⟩
    · rename_i hpos
      exact ⟨limiter.tpm, .refl _, hidle (hoverrun.trans (max_eq_left (not_lt.mp hpos)))⟩
  · rename_i given _ _ hnone
    refine ⟨limiter.tpm, .refl _, hidle ?_⟩
    unfold overrun
    cases given with
    | none => simp
    | some actualCost =>
        cases htpm : limiter.tpm with
        | none => rfl
        | some bucket => exact absurd htpm (hnone actualCost bucket rfl)

/-- A closed lease hands its permit back. -/
theorem close_inv (h : Frame id limiter) {waitedMs : ℚ} {closing : Closing}
    (hreserved : acquire.reserved = limiter.reserve acquire.cost)
    (hrpm : Paid limiter.rpm acquire.rpmPromise limiter.rpmCost)
    (htpm : Paid limiter.tpm acquire.tpmPromise acquire.reserved)
    (hclosed : ClosedWith limiter acquire closing)
    (hrelease : acquire.release = limiter.concurrency.isSome)
    (hat : limiter.AtSemaphore fun s => s.Holds id) :
    Inv ((limiter.handBack id acquire).put id
      { acquire with stage := .leased waitedMs (some closing) }) := by
  unfold handBack
  rw [hrelease]
  cases hsemaphore : limiter.concurrency with
  | none =>
      rw [Option.isSome_none, if_neg (by simp)]
      exact h.put ⟨hreserved, hrpm, htpm, by cases closing <;> exact hclosed,
        fun s hs => by rw [hsemaphore] at hs; cases hs⟩
  | some semaphore =>
      rw [Option.isSome_some, if_pos rfl, Option.map_some]
      obtain ⟨hok, hkeeps, hreleased⟩ := Semaphore.release_spec
        (h.resources.concurrency semaphore hsemaphore) h.issued (hat semaphore hsemaphore)
      have hmoves : Moves (some id) limiter
          { limiter with concurrency := some (semaphore.release id) } :=
        ⟨.refl _, .refl _, by rw [hsemaphore]; exact .some hkeeps⟩
      have hframe := h.moves hmoves
        (h.resources.changeSemaphore (hsemaphore ▸ rfl) hok) rfl rfl
      exact hframe.put ⟨hreserved, hrpm, htpm, by cases closing <;> exact hclosed,
        fun s hs => Option.some.inj hs ▸ hreleased⟩

theorem settle_inv (h : Inv limiter) (clock : Clock) (id : CallerId) (actualCost : Option ℚ) :
    Inv (limiter.settle clock id actualCost) := by
  unfold settle
  split
  · exact h
  · rename_i acquire hacquire
    have hframe := h.frame hacquire
    have hok := h.acquires id acquire hacquire
    have hstage := hok.stage
    split
    · rename_i waitedMs hcase
      rw [hcase] at hstage
      obtain ⟨hrpm, htpm, hrelease, hat⟩ := hstage
      obtain ⟨bucket, hchanged, heq⟩ := reconcile_eq clock actualCost htpm.forced
      rw [heq]
      have hmoves : Moves (some id) limiter { limiter with tpm := bucket } :=
        moves_changeTpm hchanged
      have hheld := hmoves.rpmHeld h.resources hrpm
      refine close_inv (hframe.moves hmoves (h.resources.changeTpm hchanged) rfl rfl)
        (hok.reserved.trans (hmoves.reserve _).symm) hheld.paid
        (hchanged.paid h.resources.tpm htpm.paid) ⟨hrpm.refunded, htpm.refunded, ?_⟩ hrelease hat
      simp only [overrun, hchanged.isSome]
    · exact h

theorem abandon_inv (h : Inv limiter) (clock : Clock) (id : CallerId) :
    Inv (limiter.abandon clock id) := by
  unfold abandon
  split
  · exact h
  · rename_i acquire hacquire
    have hframe := h.frame hacquire
    have hok := h.acquires id acquire hacquire
    have hstage := hok.stage
    split
    · rename_i waitedMs hcase
      rw [hcase] at hstage
      obtain ⟨hrpm, htpm, hrelease, hat⟩ := hstage
      obtain ⟨rpm, tpm, hrpmChanged, htpmChanged, heq⟩ :=
        giveBack_eq clock (taken_of_held hok.reserved hrpm htpm)
      rw [heq]
      have hmoves : Moves (some id) limiter { limiter with tpm := tpm, rpm := rpm } :=
        ⟨hrpmChanged, htpmChanged, keeps_rel_refl _ _⟩
      have hheld := hmoves.rpmHeld h.resources hrpm
      refine close_inv (hframe.moves hmoves
          ((h.resources.changeTpm htpmChanged).changeRpm hrpmChanged) rfl rfl)
        (hok.reserved.trans (hmoves.reserve _).symm) hheld.paid
        (htpmChanged.paid h.resources.tpm htpm.paid) ⟨?_, htpm.taken, htpm.forced⟩ hrelease hat
      rw [hmoves.rpmCost, rpmCost, ← hrpm.taken]
    · exact h

/-! ## Every action -/

theorem penalize_inv (h : Inv limiter) (clock : Clock) (untilMs : ℚ) :
    Inv (limiter.penalize clock untilMs) :=
  (h.changeRpm fun bucket => TokenBucket.penalize_changes clock untilMs bucket).changeTpm
    fun bucket => TokenBucket.penalize_changes (clock.after 2) untilMs bucket

/-- Recording that a signal was aborted. -/
theorem signal_inv (h : Inv limiter) {id : CallerId} {acquire : Acquire}
    (hacquire : limiter.acquires id = some acquire) (signal : AbortSignal) :
    Inv (limiter.put id { acquire with signal := signal }) := by
  have hok := h.acquires id acquire hacquire
  refine (h.frame hacquire).put ⟨hok.reserved, ?_⟩
  have hstage := hok.stage
  change StageOk limiter id { acquire with signal := signal } acquire.stage
  generalize acquire.stage = stage at hstage
  cases stage with
  | rpm promise =>
      obtain ⟨htaken, hrefunded, hpromise, hawaits, hclear, hrest⟩ := hstage
      exact ⟨htaken, hrefunded, hpromise, hawaits, ⟨hclear.1, hclear.2, hclear.3⟩, hrest⟩
  | tpm promise =>
      obtain ⟨hheld, hclear, hrest⟩ := hstage
      exact ⟨⟨hheld.1, hheld.2, hheld.3⟩, ⟨hclear.1, hclear.2, hclear.3⟩, hrest⟩
  | permit =>
      obtain ⟨hrpm, htpm, hrest⟩ := hstage
      exact ⟨⟨hrpm.1, hrpm.2, hrpm.3⟩, ⟨htpm.1, htpm.2, htpm.3, htpm.4⟩, hrest⟩
  | leased waitedMs done =>
      cases done with
      | none =>
          obtain ⟨hrpm, htpm, hrest⟩ := hstage
          exact ⟨⟨hrpm.1, hrpm.2, hrpm.3⟩, ⟨htpm.1, htpm.2, htpm.3, htpm.4⟩, hrest⟩
      | some closing =>
          obtain ⟨hrpm, htpm, hclosed, hat⟩ := hstage
          exact ⟨hrpm, htpm, by cases closing <;> exact hclosed, hat⟩
  | failed error => exact hstage
  | noop =>
      obtain ⟨hrpm, htpm, hsem, hrefunded, hclear⟩ := hstage
      exact ⟨hrpm, htpm, hsem, hrefunded, ⟨hclear.1, hclear.2, hclear.3⟩⟩

theorem abort_inv (h : Inv limiter) (clock : Clock) (id : CallerId) :
    Inv (limiter.abort clock id) := by
  unfold abort
  split
  · exact h
  · rename_i acquire hacquire
    split
    · have hsignal := signal_inv h hacquire (some true)
      simp only
      split
      · exact hsignal.changeRpm fun bucket => TokenBucket.step_changes clock bucket _
      · exact hsignal.changeTpm fun bucket => TokenBucket.step_changes clock bucket _
      · refine hsignal.failPermit fun semaphore => ?_
        unfold Semaphore.abort
        split
        · exact Or.inl ⟨id, _, rfl⟩
        · exact Or.inr rfl
      · exact hsignal
      · exact hsignal
      · exact hsignal
    · exact h

theorem step_inv (h : Inv limiter) (clock : Clock) (action : Action) :
    Inv (limiter.step clock action) := by
  cases action with
  | acquire options => exact acquire_inv h clock options
  | resume id => exact resume_inv h clock id
  | settle id actualCost => exact settle_inv h clock id actualCost
  | abandon id => exact abandon_inv h clock id
  | penalize untilMs => exact penalize_inv h clock untilMs
  | abort id => exact abort_inv h clock id
  | rpmTimer timer => exact h.changeRpm fun bucket => TokenBucket.step_changes clock bucket _
  | tpmTimer timer => exact h.changeTpm fun bucket => TokenBucket.step_changes clock bucket _
  | permitDeadline id => exact h.failPermit fun semaphore => Or.inl ⟨id, _, rfl⟩

theorem run_inv (h : Inv limiter) (actions : List (Clock × Action)) : Inv (limiter.run actions) := by
  induction actions generalizing limiter with
  | nil => exact h
  | cons action actions ih => exact ih (step_inv h action.1 action.2)

theorem create_inv (name : String) (limits : RateLimits) (now : ℚ) :
    Inv (create name limits now) := by
  have hbucket : ∀ {limit : ℕ} {plan : BucketPlan}, BucketOk
      (if 0 < limit then some (TokenBucket.create plan now) else none) := by
    intro limit plan bucket hb
    split at hb
    · exact Option.some.inj hb ▸ TokenBucket.create_promised plan now
    · cases hb
  refine ⟨⟨hbucket, fun bucket hb => ?_, hbucket, fun semaphore hs => ?_, fun hu => ?_⟩,
    fun _ _ => rfl, fun _ hlt => absurd hlt (Nat.not_lt_zero _), fun _ _ ha => nomatch ha⟩
  · simp only [create] at hb
    split at hb
    · rename_i hpos
      rw [← Option.some.inj hb]
      change (1 : ℚ) ≤ (limits.rpm : ℚ)
      exact_mod_cast hpos
    · cases hb
  · simp only [create] at hs
    split at hs
    · exact Option.some.inj hs ▸ Semaphore.create_ok _ _
    · cases hs
  · simp only [create, hasAnyLimit, Bool.not_eq_eq_eq_not, Bool.not_true, Bool.or_eq_false_iff,
      decide_eq_false_iff_not] at hu
    obtain ⟨⟨hrpm, htpm⟩, hmax⟩ := hu
    simp only [create, if_neg hrpm, if_neg htpm, if_neg hmax, and_self]

end

end RateLimiter

end VoiceOrder.RateLimit
