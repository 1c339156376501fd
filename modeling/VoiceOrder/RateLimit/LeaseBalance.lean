import VoiceOrder.RateLimit.BucketBalance
import VoiceOrder.RateLimit.LeaseSteps

/-! # The balance of a limiter

Every take of a bucket was called by one acquire, and a step of the limiter moves the account of
the bucket by what the acquires are debited, charged and refunded in it. -/

namespace VoiceOrder.RateLimit

open Metering

namespace RateLimiter

/-- What the bucket was debited for a take. -/
def paidFor (bucket : Option TokenBucket) (promise : Option PromiseId) : ℚ :=
  ((bucket.bind fun bucket => promise.bind bucket.outcomes).map TakeOutcome.paid).getD 0

/-- The sum of an amount over the acquires that were called. -/
def total (amount : Acquire → ℚ) (limiter : RateLimiter) : ℚ :=
  ∑ id ∈ Finset.range limiter.nextAcquire, (limiter.acquires id).elim 0 amount

/-- One of the buckets, with what the acquires record of it. -/
structure Side where
  bucket : RateLimiter → Option TokenBucket
  promise : Acquire → Option PromiseId
  forced : Acquire → ℚ
  refunded : Acquire → ℚ
  bucket_put : ∀ limiter id acquire, bucket (put id acquire limiter) = bucket limiter

/-- The requests; none is charged unconditionally. -/
def rpmSide : Side where
  bucket := rpm
  promise := Acquire.rpmPromise
  forced := fun _ => 0
  refunded := Acquire.rpmRefunded
  bucket_put := fun _ _ _ => rfl

def tpmSide : Side where
  bucket := tpm
  promise := Acquire.tpmPromise
  forced := Acquire.tpmForced
  refunded := Acquire.tpmRefunded
  bucket_put := fun _ _ _ => rfl

namespace Side

variable {side : Side} {limiter middle after : RateLimiter} {bucket : TokenBucket}

/-- What the bucket has debited for the acquires, in all. -/
def paid (side : Side) (limiter : RateLimiter) : ℚ :=
  limiter.total fun acquire => paidFor (side.bucket limiter) (side.promise acquire)

/-- The account of the bucket has gone through a run of moves that granted what it debited for the
acquires, and charged and credited what they record. -/
def Balances (side : Side) (limiter after : RateLimiter) : Prop :=
  ∀ bucket ∈ side.bucket limiter, ∃ later ∈ side.bucket after, later.plan = bucket.plan ∧ ∃ moves,
    Run bucket.plan.capacity bucket.plan.refillPerMs bucket.account moves later.account ∧
    granted moves = side.paid after - side.paid limiter ∧
    charged moves = after.total side.forced - limiter.total side.forced ∧
    credited moves = after.total side.refunded - limiter.total side.refunded

theorem Balances.trans (h : side.Balances limiter middle) (h' : side.Balances middle after) :
    side.Balances limiter after := by
  intro bucket hbucket
  obtain ⟨between, hbetween, hplan, moves, hrun, hgranted, hcharged, hcredited⟩ := h bucket hbucket
  obtain ⟨later, hlater, hplan', moves', hrun', hgranted', hcharged', hcredited'⟩ := h' between hbetween
  rw [hplan] at hrun'
  refine ⟨later, hlater, hplan'.trans hplan, moves ++ moves', hrun.append hrun', ?_, ?_, ?_⟩
  · rw [granted_append, hgranted, hgranted']
    ring
  · rw [charged_append, hcharged, hcharged']
    ring
  · rw [credited_append, hcredited, hcredited']
    ring

/-- The bucket is in order, and each of its takes was called by one acquire. -/
structure Kept (side : Side) (limiter : RateLimiter) : Prop where
  sound : ∀ bucket ∈ side.bucket limiter, bucket.Sound
  claimed : ∀ bucket ∈ side.bucket limiter, ∀ amount : PromiseId → ℚ,
    limiter.total (fun acquire => (side.promise acquire).elim 0 amount) =
      ∑ promise ∈ Finset.range bucket.nextPromise, amount promise

theorem Kept.paid (h : side.Kept limiter) (hbucket : bucket ∈ side.bucket limiter) :
    side.paid limiter = bucket.paidOut := by
  have hclaimed := h.claimed bucket hbucket fun promise => (bucket.outcomes promise).elim 0 TakeOutcome.paid
  rw [TokenBucket.paidOut, ← hclaimed, Side.paid, Option.mem_def.mp hbucket]
  refine congrArg (limiter.total ·) (funext fun acquire => ?_)
  cases side.promise acquire with
  | none => rfl
  | some promise =>
      simp only [paidFor, Option.bind_some, Option.elim_some]
      cases bucket.outcomes promise <;> rfl

/-- A step keeps the bucket in order, and balances. -/
def Ledger (side : Side) (limiter after : RateLimiter) : Prop :=
  side.Kept limiter → side.Kept after ∧ side.Balances limiter after

theorem Ledger.trans (h : side.Ledger limiter middle) (h' : side.Ledger middle after) :
    side.Ledger limiter after := fun hkept =>
  have ⟨hmiddle, hbalances⟩ := h hkept
  have ⟨hafter, hbalances'⟩ := h' hmiddle
  ⟨hafter, hbalances.trans hbalances'⟩

/-- What a bucket goes through while what the acquires record of it changes by these amounts. -/
def Posts (side : Side) (limiter after : RateLimiter) (bucket later : TokenBucket) : Prop :=
  ∃ issued, TokenBucket.Balanced issued (after.total side.forced - limiter.total side.forced)
      (after.total side.refunded - limiter.total side.refunded) bucket later ∧
    ∀ amount : PromiseId → ℚ, after.total (fun acquire => (side.promise acquire).elim 0 amount) =
      limiter.total (fun acquire => (side.promise acquire).elim 0 amount) +
        ∑ n ∈ Finset.range issued, amount (bucket.nextPromise + n)

theorem Ledger.of_posts (h : Option.Rel (fun bucket later => bucket.Sound → side.Posts limiter after bucket later)
    (side.bucket limiter) (side.bucket after)) : side.Ledger limiter after := by
  intro hkept
  generalize hbefore : side.bucket limiter = before at h
  generalize hlast : side.bucket after = last at h
  cases h with
  | none =>
      refine ⟨⟨fun bucket hbucket => ?_, fun bucket hbucket => ?_⟩, fun bucket hbucket => ?_⟩
      · rw [hlast] at hbucket
        cases hbucket
      · rw [hlast] at hbucket
        cases hbucket
      · rw [hbefore] at hbucket
        cases hbucket
  | @some bucket later hposts =>
      obtain ⟨issued, hbalanced, hissued⟩ := hposts (hkept.sound bucket hbefore)
      have hafter : side.Kept after := by
        refine ⟨fun found hfound => ?_, fun found hfound amount => ?_⟩
        · obtain rfl := Option.some.inj (hlast.symm.trans hfound)
          exact hbalanced.sound
        · obtain rfl := Option.some.inj (hlast.symm.trans hfound)
          rw [hissued, hkept.claimed bucket hbefore, hbalanced.next, Finset.sum_range_add]
      refine ⟨hafter, fun found hfound => ?_⟩
      obtain rfl := Option.some.inj (hbefore.symm.trans hfound)
      obtain ⟨moves, hrun, hgranted, hcharged, hcredited⟩ := hbalanced.moves
      refine ⟨later, hlast, hbalanced.plan, moves, hrun, ?_, hcharged, hcredited⟩
      rw [hafter.paid hlast, hkept.paid hbefore, hgranted, add_sub_cancel_left]

/-! ## One acquire is recorded anew -/

variable {id : CallerId} {old new : Acquire}

/-- What a bucket goes through while an acquire is recorded anew. -/
def Entry (side : Side) (old new : Acquire) (bucket later : TokenBucket) : Prop :=
  ∃ issued, TokenBucket.Balanced issued (side.forced new - side.forced old)
      (side.refunded new - side.refunded old) bucket later ∧
    ∀ amount : PromiseId → ℚ, (side.promise new).elim 0 amount = (side.promise old).elim 0 amount +
      ∑ n ∈ Finset.range issued, amount (bucket.nextPromise + n)

/-- The one bucket goes through this, where it is there. -/
abbrev Enters (side : Side) (old new : Acquire) : Option TokenBucket → Option TokenBucket → Prop :=
  Option.Rel fun bucket later => bucket.Sound → side.Entry old new bucket later

theorem Entry.of_balanced {forced refunded : ℚ} {later : TokenBucket}
    (h : TokenBucket.Balanced 0 forced refunded bucket later)
    (hpromise : side.promise new = side.promise old) (hforced : side.forced new - side.forced old = forced)
    (hrefunded : side.refunded new - side.refunded old = refunded) : side.Entry old new bucket later :=
  ⟨0, by rwa [hforced, hrefunded], fun amount => by simp [hpromise]⟩

/-- A take is called for the acquire. -/
theorem Entry.of_take {later : TokenBucket} (h : TokenBucket.Balanced 1 0 0 bucket later)
    (hnone : side.promise old = none) (hpromise : side.promise new = some bucket.nextPromise)
    (hforced : side.forced new = side.forced old) (hrefunded : side.refunded new = side.refunded old) :
    side.Entry old new bucket later :=
  ⟨1, by rwa [hforced, hrefunded, sub_self, sub_self], fun amount => by simp [hnone, hpromise]⟩

end Side

section

variable {limiter after : RateLimiter} {id : CallerId} {old new acquire : Acquire} {clock : Clock}

/-- The sum over the acquires but one. -/
def totalOthers (id : CallerId) (amount : Acquire → ℚ) (limiter : RateLimiter) : ℚ :=
  ∑ other ∈ (Finset.range limiter.nextAcquire).erase id, (limiter.acquires other).elim 0 amount

theorem total_put (hid : id < limiter.nextAcquire) (amount : Acquire → ℚ) :
    (limiter.put id acquire).total amount = amount acquire + limiter.totalOthers id amount := by
  have hput : (limiter.put id acquire).total amount = ∑ other ∈ Finset.range limiter.nextAcquire,
      (Function.update limiter.acquires id (some acquire) other).elim 0 amount := rfl
  have hothers : ∀ other ∈ (Finset.range limiter.nextAcquire).erase id,
      (Function.update limiter.acquires id (some acquire) other).elim 0 amount =
        (limiter.acquires other).elim 0 amount := fun other hother => by
    rw [Function.update_of_ne (Finset.ne_of_mem_erase hother)]
  rw [hput, ← Finset.add_sum_erase _ _ (Finset.mem_range.mpr hid), Finset.sum_congr rfl hothers,
    Function.update_self, Option.elim_some, totalOthers]

theorem Side.Ledger.of_put {side : Side} (hid : id < limiter.nextAcquire)
    (hacquires : after.acquires = limiter.acquires) (hnext : after.nextAcquire = limiter.nextAcquire)
    (h : side.Enters old new (side.bucket limiter) (side.bucket after)) :
    side.Ledger (limiter.put id old) (after.put id new) := by
  have hothers : ∀ amount, after.totalOthers id amount = limiter.totalOthers id amount := fun amount => by
    rw [totalOthers, hacquires, hnext, totalOthers]
  have htotal : ∀ amount, (after.put id new).total amount - (limiter.put id old).total amount =
      amount new - amount old := fun amount => by
    rw [total_put (hnext ▸ hid), total_put hid, hothers, add_sub_add_right_eq_sub]
  refine .of_posts ?_
  rw [side.bucket_put, side.bucket_put]
  generalize side.bucket limiter = before at h
  generalize side.bucket after = last at h
  cases h with
  | none => exact .none
  | some hentry =>
      refine .some fun hsound => ?_
      obtain ⟨issued, hbalanced, hissued⟩ := hentry hsound
      refine ⟨issued, by rwa [htotal, htotal], fun amount => ?_⟩
      rw [total_put (hnext ▸ hid), total_put hid, hothers, hissued, add_right_comm]

/-- The records of an acquire that concern the buckets are the same. -/
structure SameRecord (old new : Acquire) : Prop where
  rpmPromise : new.rpmPromise = old.rpmPromise
  tpmPromise : new.tpmPromise = old.tpmPromise
  rpmRefunded : new.rpmRefunded = old.rpmRefunded
  tpmRefunded : new.tpmRefunded = old.tpmRefunded
  tpmForced : new.tpmForced = old.tpmForced

/-- A step balances for both buckets. -/
structure Ledgers (limiter after : RateLimiter) : Prop where
  rpm : rpmSide.Ledger limiter after
  tpm : tpmSide.Ledger limiter after

theorem Ledgers.trans {middle : RateLimiter} (h : Ledgers limiter middle) (h' : Ledgers middle after) :
    Ledgers limiter after := ⟨h.rpm.trans h'.rpm, h.tpm.trans h'.tpm⟩

theorem enters_same {side : Side} (hpromise : side.promise new = side.promise old)
    (hforced : side.forced new = side.forced old) (hrefunded : side.refunded new = side.refunded old)
    (bucket : Option TokenBucket) : side.Enters old new bucket bucket := by
  cases bucket with
  | none => exact .none
  | some bucket =>
      exact .some fun hsound => .of_balanced (.refl hsound) hpromise (by rw [hforced, sub_self])
        (by rw [hrefunded, sub_self])

theorem SameRecord.rpm (h : SameRecord old new) (bucket : Option TokenBucket) :
    rpmSide.Enters old new bucket bucket :=
  @enters_same old new rpmSide h.rpmPromise rfl h.rpmRefunded bucket

theorem SameRecord.tpm (h : SameRecord old new) (bucket : Option TokenBucket) :
    tpmSide.Enters old new bucket bucket :=
  @enters_same old new tpmSide h.tpmPromise h.tpmForced h.tpmRefunded bucket

/-- Neither bucket moves, and no record changes. -/
theorem Ledgers.of_same (hid : id < limiter.nextAcquire) (hacquires : after.acquires = limiter.acquires)
    (hnext : after.nextAcquire = limiter.nextAcquire) (hrpm : after.rpm = limiter.rpm)
    (htpm : after.tpm = limiter.tpm) (h : SameRecord old new) :
    Ledgers (limiter.put id old) (after.put id new) where
  rpm := .of_put hid hacquires hnext (by
    change Option.Rel _ limiter.rpm after.rpm
    rw [hrpm]
    exact h.rpm _)
  tpm := .of_put hid hacquires hnext (by
    change Option.Rel _ limiter.tpm after.tpm
    rw [htpm]
    exact h.tpm _)

/-! ## The stages of an acquire -/

theorem enterPermit_ledgers (hid : id < limiter.nextAcquire) :
    Ledgers (limiter.put id acquire) (limiter.enterPermit clock id acquire) := by
  unfold enterPermit
  split
  · exact .of_same hid rfl rfl rfl rfl ⟨rfl, rfl, rfl, rfl, rfl⟩
  · exact .of_same hid rfl rfl rfl rfl ⟨rfl, rfl, rfl, rfl, rfl⟩

theorem enterTpm_ledgers (hid : id < limiter.nextAcquire) (hnone : acquire.tpmPromise = none) :
    Ledgers (limiter.put id acquire) (limiter.enterTpm clock id acquire) := by
  unfold enterTpm
  split
  · exact enterPermit_ledgers hid
  · rename_i bucket hbucket
    split
    · refine ⟨.of_put hid rfl rfl (enters_same rfl rfl rfl limiter.rpm), .of_put hid rfl rfl ?_⟩
      change Option.Rel _ limiter.tpm (some _)
      rw [hbucket]
      refine .some fun hsound => ?_
      obtain ⟨hpromise, hbalanced⟩ := TokenBucket.take_balanced hsound clock acquire.cost
        acquire.deadlineAt acquire.signal
      exact .of_take hbalanced hnone (congrArg some hpromise) rfl rfl
    · exact enterPermit_ledgers hid

theorem enterRpm_ledgers (hid : id < limiter.nextAcquire) (hrpm : acquire.rpmPromise = none)
    (htpm : acquire.tpmPromise = none) :
    Ledgers (limiter.put id acquire) (limiter.enterRpm clock id acquire) := by
  unfold enterRpm
  split
  · exact enterTpm_ledgers hid htpm
  · rename_i bucket hbucket
    refine ⟨.of_put hid rfl rfl ?_, .of_put hid rfl rfl (enters_same rfl rfl rfl limiter.tpm)⟩
    change Option.Rel _ limiter.rpm (some _)
    rw [hbucket]
    refine .some fun hsound => ?_
    obtain ⟨hpromise, hbalanced⟩ := TokenBucket.take_balanced hsound clock 1 acquire.deadlineAt
      acquire.signal
    exact .of_take hbalanced hrpm (congrArg some hpromise) rfl rfl

/-! ## Giving back -/

theorem refundTpm_next : (limiter.refundTpm clock acquire).2.nextAcquire = limiter.nextAcquire := by
  unfold refundTpm
  split
  · rfl
  · split
    · rfl
    · rfl

theorem refundTpm_ledgers (hid : id < limiter.nextAcquire) : Ledgers (limiter.put id acquire)
    ((limiter.refundTpm clock acquire).2.put id (limiter.refundTpm clock acquire).1) := by
  unfold refundTpm
  split
  · exact .of_same hid rfl rfl rfl rfl ⟨rfl, rfl, rfl, rfl, rfl⟩
  · rename_i bucket hbucket
    split
    · rename_i htaken
      refine ⟨.of_put hid rfl rfl (enters_same rfl rfl rfl limiter.rpm), .of_put hid rfl rfl ?_⟩
      change Option.Rel _ limiter.tpm (some _)
      rw [hbucket]
      exact .some fun hsound => .of_balanced (TokenBucket.refund_balanced hsound clock htaken) rfl
        (sub_self _) (add_sub_cancel_left _ _)
    · exact .of_same hid rfl rfl rfl rfl ⟨rfl, rfl, rfl, rfl, rfl⟩

theorem refundRpm_ledgers (hid : id < limiter.nextAcquire) : Ledgers (limiter.put id acquire)
    ((limiter.refundRpm clock acquire).2.put id (limiter.refundRpm clock acquire).1) := by
  unfold refundRpm
  split
  · exact .of_same hid rfl rfl rfl rfl ⟨rfl, rfl, rfl, rfl, rfl⟩
  · rename_i bucket hbucket
    split
    · refine ⟨.of_put hid rfl rfl ?_, .of_put hid rfl rfl (enters_same rfl rfl rfl limiter.tpm)⟩
      change Option.Rel _ limiter.rpm (some _)
      rw [hbucket]
      exact .some fun hsound => .of_balanced (TokenBucket.refund_balanced hsound clock one_pos) rfl
        (sub_self _) (add_sub_cancel_left _ _)
    · exact .of_same hid rfl rfl rfl rfl ⟨rfl, rfl, rfl, rfl, rfl⟩

theorem giveBack_ledgers (hid : id < limiter.nextAcquire) : Ledgers (limiter.put id acquire)
    ((limiter.giveBack clock acquire).2.put id (limiter.giveBack clock acquire).1) :=
  (refundTpm_ledgers hid).trans (refundRpm_ledgers (hid.trans_eq refundTpm_next.symm))

theorem giveBack_next : (limiter.giveBack clock acquire).2.nextAcquire = limiter.nextAcquire := by
  have hrpm : ∀ {limiter : RateLimiter} {acquire : Acquire},
      (limiter.refundRpm (clock.after 3) acquire).2.nextAcquire = limiter.nextAcquire := by
    intro limiter acquire
    unfold refundRpm
    split
    · rfl
    · split
      · rfl
      · rfl
  exact hrpm.trans refundTpm_next

theorem failAcquire_ledgers (hid : id < limiter.nextAcquire) (error : RateLimitTimeoutError) :
    Ledgers (limiter.put id acquire) (limiter.failAcquire clock id error acquire) :=
  (giveBack_ledgers hid).trans
    (.of_same (hid.trans_eq giveBack_next.symm) rfl rfl rfl rfl ⟨rfl, rfl, rfl, rfl, rfl⟩)

/-! ## Steps that record nothing of the buckets -/

/-- The bucket, where it is there, is called by no acquire. -/
abbrev Unasked : Option TokenBucket → Option TokenBucket → Prop :=
  Option.Rel fun bucket later => bucket.Sound → TokenBucket.Balanced 0 0 0 bucket later

theorem Side.Ledger.of_bucket {side : Side} (hacquires : after.acquires = limiter.acquires)
    (hnext : after.nextAcquire = limiter.nextAcquire)
    (h : Unasked (side.bucket limiter) (side.bucket after)) : side.Ledger limiter after := by
  have htotal : ∀ amount, after.total amount = limiter.total amount := fun amount => by
    rw [total, hacquires, hnext, total]
  refine .of_posts ?_
  generalize side.bucket limiter = before at h
  generalize side.bucket after = last at h
  cases h with
  | none => exact .none
  | some hbalanced =>
      refine .some fun hsound => ⟨0, ?_, fun amount => ?_⟩
      · rw [htotal, htotal, sub_self, sub_self]
        exact hbalanced hsound
      · rw [htotal, Finset.sum_range_zero, add_zero]

theorem Unasked.refl (bucket : Option TokenBucket) : Unasked bucket bucket := by
  cases bucket with
  | none => exact .none
  | some bucket => exact .some .refl

theorem Unasked.map {f : TokenBucket → TokenBucket}
    (hf : ∀ bucket : TokenBucket, bucket.Sound → TokenBucket.Balanced 0 0 0 bucket (f bucket))
    (bucket : Option TokenBucket) : Unasked bucket (bucket.map f) := by
  cases bucket with
  | none => exact .none
  | some bucket => exact .some (hf bucket)

theorem Ledgers.of_buckets {rpm tpm : Option TokenBucket} {concurrency : Option Semaphore}
    (hrpm : Unasked limiter.rpm rpm) (htpm : Unasked limiter.tpm tpm) :
    Ledgers limiter { limiter with rpm := rpm, tpm := tpm, concurrency := concurrency } :=
  ⟨.of_bucket rfl rfl hrpm, .of_bucket rfl rfl htpm⟩

theorem Ledgers.refl (limiter : RateLimiter) : Ledgers limiter limiter :=
  .of_buckets (.refl _) (.refl _)

/-! ## Every action -/

theorem put_same (h : limiter.acquires id = some acquire) : limiter.put id acquire = limiter := by
  rw [put, ← h, Function.update_eq_self]

theorem acquire_ledgers (h : Inv limiter) (clock : Clock) (options : AcquireOptions) :
    Ledgers limiter (limiter.acquire clock options) := by
  have hnone := h.unissued limiter.nextAcquire le_rfl
  -- The acquire enters with nothing on its record.
  have hentered : ∀ {amount : Acquire → ℚ}, amount (limiter.newAcquire clock options) = 0 →
      ({ limiter with nextAcquire := limiter.nextAcquire + 1 }.put limiter.nextAcquire
        (limiter.newAcquire clock options)).total amount = limiter.total amount := by
    intro amount hzero
    rw [total_put (Nat.lt_succ_self _), hzero, zero_add, totalOthers, Finset.range_add_one,
      Finset.erase_insert Finset.notMem_range_self, total]
  have hnew : Ledgers limiter ({ limiter with nextAcquire := limiter.nextAcquire + 1 }.put
      limiter.nextAcquire (limiter.newAcquire clock options)) := by
    have hside : ∀ side : Side, (∀ amount : PromiseId → ℚ,
        (side.promise (limiter.newAcquire clock options)).elim 0 amount = 0) →
        side.forced (limiter.newAcquire clock options) = 0 →
        side.refunded (limiter.newAcquire clock options) = 0 →
        side.bucket { limiter with nextAcquire := limiter.nextAcquire + 1 } = side.bucket limiter →
        side.Ledger limiter ({ limiter with nextAcquire := limiter.nextAcquire + 1 }.put
          limiter.nextAcquire (limiter.newAcquire clock options)) := by
      intro side hpromise hforced hrefunded hbucket
      refine .of_posts ?_
      rw [side.bucket_put, hbucket]
      cases side.bucket limiter with
      | none => exact .none
      | some bucket =>
          refine .some fun hsound => ⟨0, ?_, fun amount => ?_⟩
          · rw [hentered hforced, hentered hrefunded, sub_self, sub_self]
            exact .refl hsound
          · rw [hentered (hpromise amount), Finset.sum_range_zero, add_zero]
    exact ⟨hside rpmSide (fun _ => rfl) rfl rfl rfl, hside tpmSide (fun _ => rfl) rfl rfl rfl⟩
  unfold RateLimiter.acquire
  dsimp only
  split
  · exact hnew
  · exact hnew.trans (enterRpm_ledgers (Nat.lt_succ_self _) rfl rfl)

theorem resume_ledgers (h : Inv limiter) (clock : Clock) (id : CallerId) :
    Ledgers limiter (limiter.resume clock id) := by
  unfold resume
  split
  · exact .refl limiter
  · rename_i acquire hacquire
    have hid := (h.frame hacquire).issued
    have hstage := (h.acquires id acquire hacquire).stage
    have hsame := put_same hacquire
    have hfailed : ∀ error, Ledgers limiter (limiter.failAcquire clock id error acquire) := fun error => by
      have hledgers := @failAcquire_ledgers limiter id acquire clock hid error
      rwa [hsame] at hledgers
    have hrecorded : ∀ next, SameRecord acquire next → Ledgers limiter (limiter.put id next) :=
      fun next hrecord => by
        have hledgers := @Ledgers.of_same limiter limiter id acquire next hid rfl rfl rfl rfl hrecord
        rwa [hsame] at hledgers
    split
    · rename_i promise hcase
      rw [hcase] at hstage
      split
      · exact .refl limiter
      · exact (hrecorded { acquire with rpmTaken := true } ⟨rfl, rfl, rfl, rfl, rfl⟩).trans
          (enterTpm_ledgers hid hstage.2.2.2.2.2.1)
      · exact hfailed _
    · split
      · exact .refl limiter
      · exact (hrecorded { acquire with tpmTaken := acquire.reserved } ⟨rfl, rfl, rfl, rfl, rfl⟩).trans
          (enterPermit_ledgers hid)
      · exact hfailed _
    · split
      · exact .refl limiter
      · exact hrecorded _ ⟨rfl, rfl, rfl, rfl, rfl⟩
      · exact hfailed _
    · exact .refl limiter
    · exact .refl limiter
    · exact .refl limiter

theorem reconcile_ledgers (hid : id < limiter.nextAcquire) (actualCost : Option ℚ) :
    Ledgers (limiter.put id acquire) ((limiter.reconcile clock actualCost acquire).2.put id
      (limiter.reconcile clock actualCost acquire).1) := by
  unfold reconcile
  split
  · rename_i actualCost bucket hbucket
    dsimp only
    split
    · rename_i hdelta
      refine ⟨.of_put hid rfl rfl (enters_same rfl rfl rfl limiter.rpm), .of_put hid rfl rfl ?_⟩
      change Option.Rel _ limiter.tpm (some _)
      rw [hbucket]
      exact .some fun hsound => .of_balanced (TokenBucket.forceTake_balanced hsound clock hdelta) rfl
        (add_sub_cancel_left _ _) (sub_self _)
    · exact .of_same hid rfl rfl rfl rfl ⟨rfl, rfl, rfl, rfl, rfl⟩
  · exact .of_same hid rfl rfl rfl rfl ⟨rfl, rfl, rfl, rfl, rfl⟩

theorem reconcile_next (actualCost : Option ℚ) :
    (limiter.reconcile clock actualCost acquire).2.nextAcquire = limiter.nextAcquire := by
  unfold reconcile
  split
  · dsimp only
    split
    · rfl
    · rfl
  · rfl

/-- The permit goes back, and the lease is closed. -/
theorem closed_ledgers (hid : id < limiter.nextAcquire) (stage : Stage) :
    Ledgers (limiter.put id acquire)
      ((limiter.handBack id acquire).put id { acquire with stage := stage }) := by
  unfold handBack
  split
  · exact .of_same hid rfl rfl rfl rfl ⟨rfl, rfl, rfl, rfl, rfl⟩
  · exact .of_same hid rfl rfl rfl rfl ⟨rfl, rfl, rfl, rfl, rfl⟩

theorem settle_ledgers (h : Inv limiter) (clock : Clock) (id : CallerId) (actualCost : Option ℚ) :
    Ledgers limiter (limiter.settle clock id actualCost) := by
  unfold settle
  split
  · exact .refl limiter
  · rename_i acquire hacquire
    have hid := (h.frame hacquire).issued
    split
    · have hreconciled := @reconcile_ledgers limiter id acquire clock hid actualCost
      rw [put_same hacquire] at hreconciled
      exact hreconciled.trans (closed_ledgers (hid.trans_eq (reconcile_next actualCost).symm) _)
    · exact .refl limiter

theorem abandon_ledgers (h : Inv limiter) (clock : Clock) (id : CallerId) :
    Ledgers limiter (limiter.abandon clock id) := by
  unfold abandon
  split
  · exact .refl limiter
  · rename_i acquire hacquire
    have hid := (h.frame hacquire).issued
    split
    · have hgiven := @giveBack_ledgers limiter id acquire clock hid
      rw [put_same hacquire] at hgiven
      exact hgiven.trans (closed_ledgers (hid.trans_eq giveBack_next.symm) _)
    · exact .refl limiter

theorem abort_ledgers (h : Inv limiter) (clock : Clock) (id : CallerId) :
    Ledgers limiter (limiter.abort clock id) := by
  unfold abort
  split
  · exact .refl limiter
  · rename_i acquire hacquire
    split
    · have hrecorded := @Ledgers.of_same limiter limiter id acquire { acquire with signal := some true }
        (h.frame hacquire).issued rfl rfl rfl rfl ⟨rfl, rfl, rfl, rfl, rfl⟩
      rw [put_same hacquire] at hrecorded
      have habort : ∀ (promise : PromiseId) (bucket : TokenBucket), bucket.Sound →
          TokenBucket.Balanced 0 0 0 bucket (bucket.step clock (.abort promise)) :=
        fun promise bucket hsound => TokenBucket.abort_balanced hsound clock promise
      dsimp only
      split
      · exact hrecorded.trans (.of_buckets (.map (habort _) _) (.refl _))
      · exact hrecorded.trans (.of_buckets (.refl _) (.map (habort _) _))
      · exact hrecorded.trans (.of_buckets (.refl _) (.refl _))
      · exact hrecorded
      · exact hrecorded
      · exact hrecorded
    · exact .refl limiter

theorem timer_balanced {bucket : TokenBucket} (hsound : bucket.Sound) (clock : Clock)
    (timer : BucketTimer) : TokenBucket.Balanced 0 0 0 bucket (bucket.step clock timer.call) := by
  cases timer with
  | head => exact TokenBucket.timer_balanced hsound clock
  | deadline promise => exact TokenBucket.fail_balanced hsound clock promise _

theorem step_ledgers (h : Inv limiter) (clock : Clock) (action : Action) :
    Ledgers limiter (limiter.step clock action) := by
  cases action with
  | acquire options => exact acquire_ledgers h clock options
  | resume id => exact resume_ledgers h clock id
  | settle id actualCost => exact settle_ledgers h clock id actualCost
  | abandon id => exact abandon_ledgers h clock id
  | penalize untilMs =>
      exact .of_buckets (.map (fun _ hsound => TokenBucket.penalize_balanced hsound clock untilMs) _)
        (.map (fun _ hsound => TokenBucket.penalize_balanced hsound (clock.after 2) untilMs) _)
  | abort id => exact abort_ledgers h clock id
  | rpmTimer timer =>
      exact .of_buckets (.map (fun _ hsound => timer_balanced hsound clock timer) _) (.refl _)
  | tpmTimer timer =>
      exact .of_buckets (.refl _) (.map (fun _ hsound => timer_balanced hsound clock timer) _)
  | permitDeadline id => exact .of_buckets (.refl _) (.refl _)

/-! ## Runs -/

/-- Both buckets are in order. -/
structure BucketsKept (limiter : RateLimiter) : Prop where
  rpm : rpmSide.Kept limiter
  tpm : tpmSide.Kept limiter

theorem create_kept (name : String) (limits : RateLimits) (now : ℚ) :
    BucketsKept (create name limits now) := by
  have hkept : ∀ side : Side, (∀ bucket ∈ side.bucket (create name limits now),
      ∃ plan, bucket = TokenBucket.create plan now) → side.Kept (create name limits now) := by
    intro side hcreated
    refine ⟨fun bucket hbucket => ?_, fun bucket hbucket amount => ?_⟩
    · obtain ⟨plan, rfl⟩ := hcreated bucket hbucket
      exact TokenBucket.create_sound plan now
    · obtain ⟨plan, rfl⟩ := hcreated bucket hbucket
      rfl
  have hbucket : ∀ {limit : ℕ} {plan : BucketPlan}, ∀ bucket ∈
      (if 0 < limit then some (TokenBucket.create plan now) else none),
      ∃ plan, bucket = TokenBucket.create plan now := by
    intro limit plan bucket hbucket
    obtain ⟨-, heq⟩ := Option.ite_none_right_eq_some.mp hbucket
    exact ⟨plan, (Option.some.inj heq).symm⟩
  exact ⟨hkept rpmSide hbucket, hkept tpmSide hbucket⟩

theorem run_kept (hinv : Inv limiter) (h : BucketsKept limiter) (actions : List (Clock × Action)) :
    BucketsKept (limiter.run actions) := by
  induction actions generalizing limiter with
  | nil => exact h
  | cons action actions ih =>
      have hledgers := step_ledgers hinv action.1 action.2
      exact ih (step_inv hinv action.1 action.2) ⟨(hledgers.rpm h.rpm).1, (hledgers.tpm h.tpm).1⟩

end

end RateLimiter

end VoiceOrder.RateLimit
