import VoiceOrder.Stt.SttProvider

/-! # The lease of a session

The lease is closed by the first exit of its session, whichever that is and whatever comes after
it. Only a failure to open that is no refusal for rate, and that no event of the socket came
before, closes it with a refund. -/

namespace VoiceOrder.Stt

open RateLimit Histories Runs

/-! ## The exits -/

namespace Happening

/-- An exit of a session, with the call that it makes on the lease. -/
def exit? : Happening → Option Closing
  | .failed error => some (if isOverLimit error then .settled none else .abandoned)
  | .errored _ | .closed .. | .stopped _ | .dropped _ => some (.settled none)
  | .turned .. | .reported _ | .stopping | .closing => none

/-- The socket has called back with an error or a close. -/
def fires : Happening → Bool
  | .errored _ | .closed .. => true
  | .failed _ | .turned .. | .reported _ | .stopping | .stopped _ | .closing | .dropped _ => false

end Happening

/-- How the lease is closed after a history: by the first exit. -/
def closing (happened : List Happening) : Option Closing := happened.findSome? Happening.exit?

/-- `openStream` has failed with an error that is no refusal for rate, and the socket had not
called back with an error or a close before. -/
def Refunded (happened : List Happening) : Prop :=
  ∃ earlier error later, happened = earlier ++ .failed error :: later ∧
    isOverLimit error = false ∧ ∀ happening ∈ earlier, happening.fires = false

section

variable {happened : List Happening} {happening : Happening}

theorem closing_concat :
    closing (happened ++ [happening]) = (closing happened).or happening.exit? := by
  rw [closing, closing, List.findSome?_append]
  simp

theorem closing_eq_none : closing happened = none ↔ ∀ happening ∈ happened, happening.exit? = none :=
  List.findSome?_eq_none_iff

theorem exit_cases (happening : Happening) : happening.exit? = none ∨
    happening.exit? = some (.settled none) ∨ happening.exit? = some .abandoned := by
  cases happening with
  | failed error => cases h : isOverLimit error <;> simp [Happening.exit?, h]
  | errored | closed | stopped | dropped => exact .inr (.inl rfl)
  | turned | reported | stopping | closing => exact .inl rfl

theorem closing_cases (happened : List Happening) : closing happened = none ∨
    closing happened = some (.settled none) ∨ closing happened = some .abandoned := by
  induction happened using List.reverseRecOn with
  | nil => exact .inl rfl
  | append_singleton earlier happening ih =>
      rw [closing_concat]
      rcases ih with h | h | h
      · rw [h]
        exact exit_cases happening
      · exact .inr (.inl (by rw [h]; rfl))
      · exact .inr (.inr (by rw [h]; rfl))

/-- The lease is abandoned exactly where the reservation goes back. -/
theorem closing_abandoned (h : Built Happening.Allowed happened) :
    closing happened = some .abandoned ↔ Refunded happened := by
  rw [closing, List.findSome?_eq_some_iff]
  constructor
  · rintro ⟨earlier, happening, later, rfl, hexit, hearlier⟩
    cases happening with
    | failed error =>
        refine ⟨earlier, error, later, rfl, ?_, fun other hother => ?_⟩
        · cases hover : isOverLimit error with
          | false => rfl
          | true => simp [Happening.exit?, hover] at hexit
        · have hnone := hearlier other hother
          cases other with
          | errored | closed => cases hnone
          | _ => rfl
    | errored | closed | stopped | dropped => cases hexit
    | turned | reported | stopping | closing => cases hexit
  · rintro ⟨earlier, error, later, rfl, hover, hearlier⟩
    refine ⟨earlier, .failed error, later, rfl, by simp [Happening.exit?, hover], fun other hother => ?_⟩
    -- Before `openStream` has settled only the socket calls back.
    have hearly : other.early = true := h earlier (.failed error) later rfl other hother
    have hfires := hearlier other hother
    cases other with
    | turned | reported => rfl
    | errored | closed => cases hfires
    | failed | stopping | stopped | closing | dropped => cases hearly

end

/-! ## The calls on the lease -/

section

variable {clock : Clock} {id other : CallerId} {limiter : RateLimiter} {acquire : Acquire}
  {leaseCalls : List LeaseCall}

theorem applyCalls_inv (h : limiter.Inv) : (applyCalls clock id leaseCalls limiter).Inv := by
  induction leaseCalls generalizing limiter with
  | nil => exact h
  | cons leaseCall leaseCalls ih =>
      refine ih ?_
      cases leaseCall with
      | settle => exact RateLimiter.inv_of_close h clock (.settled none)
      | abandon => exact RateLimiter.inv_of_close h clock .abandoned
      | penalize ms => exact RateLimiter.penalize_inv h _ _

theorem applyCalls_of_ne (h : other ≠ id) :
    (applyCalls clock id leaseCalls limiter).acquires other = limiter.acquires other := by
  induction leaseCalls generalizing limiter with
  | nil => rfl
  | cons leaseCall leaseCalls ih =>
      refine ih.trans ?_
      cases leaseCall with
      | settle | abandon => exact RateLimiter.close_of_ne _ h
      | penalize ms => rfl

theorem applyCalls_unleased (h : limiter.acquires id = some acquire)
    (hstage : ∀ waitedMs done, acquire.stage ≠ .leased waitedMs done) :
    (applyCalls clock id leaseCalls limiter).acquires id = some acquire ∧
      (applyCalls clock id leaseCalls limiter).concurrency = limiter.concurrency := by
  induction leaseCalls generalizing limiter with
  | nil => exact ⟨h, rfl⟩
  | cons leaseCall leaseCalls ih =>
      cases leaseCall with
      | settle =>
          have hsame : limiter.close clock id (.settled none) = limiter :=
            RateLimiter.close_unleased _ h hstage
          rw [applyCalls, List.foldl_cons, LeaseCall.apply, hsame]
          exact ih h
      | abandon =>
          have hsame : limiter.close clock id .abandoned = limiter :=
            RateLimiter.close_unleased _ h hstage
          rw [applyCalls, List.foldl_cons, LeaseCall.apply, hsame]
          exact ih h
      | penalize ms => exact @ih (limiter.penalize (clock.after 1) (clock 0 + ms)) h

/-- What a happening does to the lease: an exit closes it, and a penalty leaves it alone. -/
theorem applyCalls_happening (clock : Clock) (id : CallerId) (limiter : RateLimiter)
    (happening : Happening) :
    happening.exit? = none ∧ happening.leaseCalls = [] ∨
      ∃ closing, happening.exit? = some closing ∧
        (applyCalls clock id happening.leaseCalls limiter).acquires =
          (limiter.close clock id closing).acquires ∧
        (applyCalls clock id happening.leaseCalls limiter).concurrency =
          (limiter.close clock id closing).concurrency := by
  cases happening with
  | failed error =>
      right
      simp only [Happening.exit?, Happening.leaseCalls]
      cases isOverLimit error with
      | true => exact ⟨.settled none, rfl, rfl, rfl⟩
      | false => exact ⟨.abandoned, rfl, rfl, rfl⟩
  | errored | closed | stopped | dropped => exact .inr ⟨.settled none, rfl, rfl, rfl⟩
  | turned | reported | stopping | closing => exact .inl ⟨rfl, rfl⟩

theorem applyCalls_leased {waitedMs : ℚ} {done : Option Closing} (clock : Clock)
    (happening : Happening) (h : limiter.acquires id = some acquire)
    (hstage : acquire.stage = .leased waitedMs done) :
    ∃ next, (applyCalls clock id happening.leaseCalls limiter).acquires id = some next ∧
      next.stage = .leased waitedMs (done.or happening.exit?) := by
  rcases applyCalls_happening clock id limiter happening with ⟨hexit, hcalls⟩ | ⟨closing, hexit, hacquires, -⟩
  · rw [hexit, hcalls, Option.or_none]
    exact ⟨acquire, h, hstage⟩
  · rw [hexit, hacquires]
    exact RateLimiter.close_first clock closing h hstage

theorem applyCalls_concurrency {waitedMs : ℚ} {done : Option Closing} (hinv : limiter.Inv)
    (clock : Clock) (happening : Happening) (h : limiter.acquires id = some acquire)
    (hstage : acquire.stage = .leased waitedMs done) :
    (applyCalls clock id happening.leaseCalls limiter).concurrency =
      if done = none ∧ happening.exit? ≠ none then limiter.concurrency.map (Semaphore.release id)
      else limiter.concurrency := by
  rcases applyCalls_happening clock id limiter happening with ⟨hexit, hcalls⟩ | ⟨closing, hexit, -, hsame⟩
  · rw [hexit, hcalls, if_neg fun hexits => hexits.2 rfl]
    rfl
  · rw [hsame, RateLimiter.close_concurrency hinv clock closing h hstage, hexit]
    simp

end

/-! ## The invariant -/

/-- What the acquire of a session has come to. -/
inductive Held (session : SttSession) : RateLimit.Stage → Prop where
  | waiting {stage : RateLimit.Stage} (hacquiring : session.opening = .acquiring)
      (hopen : stage.closing? = none) : Held session stage
  | leased (waitedMs : ℚ) : Held session (.leased waitedMs (closing session.happened))
  | unlimited : Held session .noop
  | refused (error : RateLimitTimeoutError) {later : List Happening}
      (hhappened : session.happened = .failed (.ofLimiter error) :: later) :
      Held session (.failed error)

namespace SttProvider

structure Inv (provider : SttProvider) : Prop where
  limiter : provider.limiter.Inv
  sessions : ∀ id session, provider.sessions id = some session → session.Ok ∧
    ∃ acquire, provider.limiter.acquires id = some acquire ∧ Held session acquire.stage

section

variable {provider next : SttProvider} {clock : Clock} {id : CallerId} {session : SttSession}
  {acquire : Acquire}

theorem create_inv (name : String) (limits : RateLimits) (waitMs now : ℚ) :
    (create name limits waitMs now).Inv where
  limiter := RateLimiter.create_inv name limits now
  sessions := fun _ _ hsession => (nomatch hsession)

/-- A session keeps its lease while others act on the limiter. -/
theorem held_of_continues {limiter : RateLimiter} (h : Held session acquire.stage)
    (hcontinues : limiter.Continues id acquire) :
    ∃ acquire, limiter.acquires id = some acquire ∧ Held session acquire.stage := by
  obtain ⟨next, hnext, hclosing, hended⟩ := hcontinues
  refine ⟨next, hnext, ?_⟩
  generalize hstage : acquire.stage = stage at h hclosing hended
  cases h with
  | waiting hacquiring hopen => exact .waiting hacquiring (hclosing.trans hopen)
  | leased waitedMs => exact hended rfl ▸ .leased waitedMs
  | unlimited => exact hended rfl ▸ .unlimited
  | refused error hhappened => exact hended rfl ▸ .refused error hhappened

/-- What an event does to the lease of its session. -/
theorem held_of_steps {limiter : RateLimiter} {after : SttSession} {leaseCalls : List LeaseCall}
    (hsteps : session.Steps after leaseCalls) (hlive : session.opening ≠ .acquiring)
    (hacquire : limiter.acquires id = some acquire) (h : Held session acquire.stage) :
    ∃ acquire, (applyCalls clock id leaseCalls limiter).acquires id = some acquire ∧
      Held after acquire.stage := by
  generalize hstage : acquire.stage = stage at h
  cases h with
  | waiting hacquiring => exact (hlive hacquiring).elim
  | leased waitedMs =>
      rcases hsteps.calls with ⟨hhappened, rfl⟩ | ⟨happening, hhappened, rfl⟩
      · refine ⟨acquire, hacquire, ?_⟩
        rw [hstage, ← hhappened]
        exact .leased waitedMs
      · obtain ⟨next, hnext, hclosed⟩ := applyCalls_leased clock happening hacquire hstage
        refine ⟨next, hnext, ?_⟩
        rw [hclosed, ← closing_concat, ← hhappened]
        exact .leased waitedMs
  | unlimited =>
      refine ⟨acquire, (applyCalls_unleased hacquire fun _ _ hleased => ?_).1, ?_⟩
      · rw [hstage] at hleased
        cases hleased
      · rw [hstage]
        exact .unlimited
  | refused error hfirst =>
      refine ⟨acquire, (applyCalls_unleased hacquire fun _ _ hleased => ?_).1, ?_⟩
      · rw [hstage] at hleased
        cases hleased
      · rw [hstage]
        rcases hsteps.calls with ⟨hhappened, -⟩ | ⟨happening, hhappened, -⟩
        · exact .refused error (hhappened.trans hfirst)
        · exact .refused error (by rw [hhappened, hfirst, List.cons_append])

/-- The invariant is about each session, its acquire and the limiter. -/
theorem Inv.put (h : provider.Inv) {limiter : RateLimiter} (hlimiter : limiter.Inv)
    (hothers : ∀ other acquire, other ≠ id → provider.limiter.acquires other = some acquire →
      limiter.Continues other acquire)
    (hok : session.Ok)
    (hheld : ∃ acquire, limiter.acquires id = some acquire ∧ Held session acquire.stage) :
    ({ provider with limiter := limiter }.put id session).Inv := by
  refine ⟨hlimiter, fun other found hfound => ?_⟩
  change Function.update provider.sessions id (some session) other = some found at hfound
  by_cases heq : other = id
  · subst heq
    rw [Function.update_self] at hfound
    cases hfound
    exact ⟨hok, hheld⟩
  · rw [Function.update_of_ne heq] at hfound
    obtain ⟨hok, acquire, hacquire, hheld⟩ := h.sessions other found hfound
    exact ⟨hok, held_of_continues hheld (hothers other acquire heq hacquire)⟩

theorem openStream_inv (h : provider.Inv) (clock : Clock) : (provider.openStream clock).Inv := by
  refine h.put (RateLimiter.acquire_inv h.limiter clock _) (fun other acquire _ hacquire => ?_)
    SttSession.create_ok ?_
  · exact @RateLimiter.step_continues clock _ _ _ h.limiter hacquire
      (.acquire ⟨none, some provider.waitMs, none⟩) rfl
  · obtain ⟨acquire, hacquire, hopen⟩ :=
      @RateLimiter.acquire_self clock provider.limiter ⟨none, some provider.waitMs, none⟩
    exact ⟨acquire, hacquire, .waiting rfl hopen⟩

theorem acquired_inv (h : provider.Inv) (hsession : provider.sessions id = some session)
    (hacquiring : session.opening = .acquiring) (hstep : provider.acquired id session = some next) :
    next.Inv := by
  obtain ⟨hok, acquire, hacquire, hheld⟩ := h.sessions id session hsession
  have hcreate := hok.acquiring hacquiring
  subst hcreate
  have hothers : ∀ other acquire, other ≠ id → provider.limiter.acquires other = some acquire →
      provider.limiter.Continues other acquire := fun _ _ _ hother => .of_eq hother
  -- A lease that nobody has called yet is open.
  have hopen : acquire.stage.closing? = none := by
    generalize acquire.stage = stage at hheld
    cases hheld with
    | waiting _ hopen => exact hopen
    | leased waitedMs => rfl
    | unlimited => rfl
    | refused error hhappened => cases hhappened
  unfold acquired at hstep
  rw [hacquire, Option.map_some] at hstep
  cases hstage : acquire.stage with
  | leased waitedMs done =>
      rw [hstage] at hstep hopen
      cases hstep
      cases hopen
      refine h.put h.limiter hothers (hok.advances rfl .making [] (by decide)).ok ⟨acquire, hacquire, ?_⟩
      rw [hstage]
      exact .leased waitedMs
  | noop =>
      rw [hstage] at hstep
      cases hstep
      refine h.put h.limiter hothers (hok.advances rfl .making [] (by decide)).ok ⟨acquire, hacquire, ?_⟩
      rw [hstage]
      exact .unlimited
  | failed error =>
      rw [hstage] at hstep
      cases hstep
      refine h.put h.limiter hothers (SttSession.fail_steps hok rfl (.ofLimiter error)).ok
        ⟨acquire, hacquire, ?_⟩
      rw [hstage]
      exact .refused error rfl
  | rpm | tpm | permit =>
      rw [hstage] at hstep
      cases hstep

theorem step_inv (h : provider.Inv) {action : Clock × Action} (hstep : provider.step action = some next) :
    next.Inv := by
  obtain ⟨clock, action⟩ := action
  cases action with
  | openStream =>
      cases hstep
      exact openStream_inv h clock
  | acquired id =>
      obtain ⟨session, hsession, hstep⟩ := Option.bind_eq_some_iff.mp hstep
      obtain ⟨hacquiring, hstep⟩ := Option.ite_none_right_eq_some.mp hstep
      exact acquired_inv h hsession hacquiring hstep
  | session id event =>
      obtain ⟨session, hsession, hstep⟩ := Option.bind_eq_some_iff.mp hstep
      obtain ⟨⟨after, leaseCalls⟩, hafter, rfl⟩ := Option.map_eq_some_iff.mp hstep
      obtain ⟨hok, acquire, hacquire, hheld⟩ := h.sessions id session hsession
      have hsteps := SttSession.step_steps hok hafter
      refine h.put (applyCalls_inv h.limiter) (fun other acquire hne hother => ?_) hsteps.ok
        (held_of_steps hsteps (SttSession.step_live hok hafter) hacquire hheld)
      exact .of_eq ((applyCalls_of_ne hne).trans hother)
  | limiter action =>
      obtain ⟨hforeign, hstep⟩ := Option.ite_none_right_eq_some.mp hstep
      cases hstep
      refine ⟨RateLimiter.step_inv h.limiter clock action, fun id session hsession => ?_⟩
      obtain ⟨hok, acquire, hacquire, hheld⟩ := h.sessions id session hsession
      refine ⟨hok, held_of_continues hheld (RateLimiter.step_continues h.limiter hacquire ?_)⟩
      cases action with
      | settle other | abandon other =>
          refine decide_eq_false fun heq => ?_
          rw [foreign, heq, hsession] at hforeign
          cases hforeign
      | acquire | resume | penalize | abort | rpmTimer | tpmTimer | permitDeadline => rfl

/-! ## What holds of a session -/

theorem Inv.permit (h : provider.Inv) (hsession : provider.sessions id = some session)
    (hlive : session.opening ≠ .acquiring) (hcapped : provider.limiter.concurrency.isSome = true) :
    provider.limiter.holdsPermit id = true ↔
      ∀ happening ∈ session.happened, happening.exit? = none := by
  obtain ⟨-, acquire, hacquire, hheld⟩ := h.sessions id session hsession
  have hstageOk := (h.limiter.acquires id acquire hacquire).stage
  rw [RateLimiter.holdsPermit, hacquire, ← closing_eq_none]
  dsimp only
  generalize acquire.stage = stage at hheld hstageOk
  cases hheld with
  | waiting hacquiring => exact (hlive hacquiring).elim
  | leased waitedMs =>
      cases closing session.happened with
      | none => simp
      | some closing => simp
  | unlimited =>
      rw [hstageOk.2.2.1] at hcapped
      cases hcapped
  | refused error hhappened => simp [hhappened, closing, Happening.exit?]

/-- The net charge of the request of a session. -/
theorem Inv.token (h : provider.Inv) (hsession : provider.sessions id = some session)
    (hlive : session.opening ≠ .acquiring) :
    ∃ acquire, provider.limiter.acquires id = some acquire ∧
      (Refunded session.happened → provider.limiter.netRpm acquire = 0) ∧
      (¬Refunded session.happened →
        provider.limiter.netRpm acquire = if provider.limiter.rpm.isSome then 1 else 0) := by
  obtain ⟨hok, acquire, hacquire, hheld⟩ := h.sessions id session hsession
  have hacquireOk := h.limiter.acquires id acquire hacquire
  have hstageOk := hacquireOk.stage
  have hdue : ∀ due, RateLimiter.dueRpm provider.limiter acquire.stage = some due →
      provider.limiter.netRpm acquire = due := fun due => hacquireOk.netRpm
  refine ⟨acquire, hacquire, ?_⟩
  rw [← closing_abandoned hok.built]
  generalize acquire.stage = stage at hheld hstageOk hdue
  cases hheld with
  | waiting hacquiring => exact (hlive hacquiring).elim
  | leased waitedMs =>
      rcases closing_cases session.happened with hclosing | hclosing | hclosing
      · rw [hclosing] at hdue ⊢
        exact ⟨fun heq => (nomatch heq), fun _ => hdue _ rfl⟩
      · rw [hclosing] at hdue ⊢
        exact ⟨fun heq => (nomatch heq), fun _ => hdue _ rfl⟩
      · rw [hclosing] at hdue ⊢
        exact ⟨fun _ => hdue _ rfl, fun hne => (hne rfl).elim⟩
  | unlimited =>
      rw [hstageOk.1]
      exact ⟨fun _ => hdue _ rfl, fun _ => hdue _ rfl⟩
  | refused error hhappened =>
      have hclosing : closing session.happened = some .abandoned := by
        simp [hhappened, closing, Happening.exit?, isOverLimit, is429, has429, StreamingError.ofLimiter]
      exact ⟨fun _ => hdue _ rfl, fun hne => (hne hclosing).elim⟩

theorem step_session (hsession : provider.sessions id = some session) {event : Event}
    (hstep : provider.step (clock, .session id event) = some next) :
    ∃ after leaseCalls, session.step event = some (after, leaseCalls) ∧
      next = { provider with limiter := applyCalls clock id leaseCalls provider.limiter }.put id after := by
  obtain ⟨found, hfound, hstep⟩ := Option.bind_eq_some_iff.mp hstep
  rw [hsession] at hfound
  cases hfound
  obtain ⟨⟨after, leaseCalls⟩, hafter, rfl⟩ := Option.map_eq_some_iff.mp hstep
  exact ⟨after, leaseCalls, hafter, rfl⟩

/-- The first exit hands the permit back, and no other event does. -/
theorem Inv.returned (h : provider.Inv) (hsession : provider.sessions id = some session)
    {event : Event} (hstep : provider.step (clock, .session id event) = some next) :
    ∃ after, next.sessions id = some after ∧ next.limiter.concurrency =
      if closing session.happened = none ∧ closing after.happened ≠ none then
        provider.limiter.concurrency.map (Semaphore.release id)
      else provider.limiter.concurrency := by
  obtain ⟨hok, acquire, hacquire, hheld⟩ := h.sessions id session hsession
  have hstageOk := (h.limiter.acquires id acquire hacquire).stage
  obtain ⟨after, leaseCalls, hafter, rfl⟩ := step_session hsession hstep
  have hsteps := SttSession.step_steps hok hafter
  refine ⟨after, Function.update_self .., ?_⟩
  change (applyCalls clock id leaseCalls provider.limiter).concurrency = _
  generalize hstage : acquire.stage = stage at hheld hstageOk
  have hunleased : (∀ waitedMs done, stage ≠ .leased waitedMs done) →
      (applyCalls clock id leaseCalls provider.limiter).concurrency = provider.limiter.concurrency :=
    fun hstages => (applyCalls_unleased hacquire fun waitedMs done => hstage ▸ hstages waitedMs done).2
  cases hheld with
  | waiting hacquiring => exact (SttSession.step_live hok hafter hacquiring).elim
  | leased waitedMs =>
      rcases hsteps.calls with ⟨hhappened, rfl⟩ | ⟨happening, hhappened, rfl⟩
      · rw [hhappened, if_neg fun hexits => hexits.2 hexits.1]
        rfl
      · rw [applyCalls_concurrency h.limiter clock happening hacquire hstage, hhappened, closing_concat]
        cases closing session.happened with
        | none => simp
        | some first => simp
  | unlimited =>
      rw [hunleased fun _ _ heq => (nomatch heq), hstageOk.2.2.1]
      split
      · rfl
      · rfl
  | refused error hfirst =>
      rw [hunleased fun _ _ heq => (nomatch heq), if_neg]
      rintro ⟨hnone, -⟩
      rw [hfirst] at hnone
      cases hnone

/-- A refusal for rate settles the lease and floors the next grant. -/
theorem Inv.penalty (h : provider.Inv) (hsession : provider.sessions id = some session)
    {event : Event} {error : StreamingError} {after : SttSession}
    (hstep : provider.step (clock, .session id event) = some next)
    (hafter : next.sessions id = some after)
    (hfailed : after.happened = session.happened ++ [.failed error]) (hover : isOverLimit error = true) :
    next.limiter = (provider.limiter.settle clock id none).penalize (clock.after 1)
        (clock 0 + retryAfterMs error) ∧
      ∀ bucket, next.limiter.rpm = some bucket → clock 0 + retryAfterMs error ≤ bucket.penaltyUntil := by
  obtain ⟨hok, -⟩ := h.sessions id session hsession
  obtain ⟨stepped, leaseCalls, hstepped, rfl⟩ := step_session hsession hstep
  change Function.update provider.sessions id (some stepped) id = some after at hafter
  rw [Function.update_self] at hafter
  cases hafter
  rcases (SttSession.step_steps hok hstepped).calls with ⟨hhappened, -⟩ | ⟨happening, hhappened, rfl⟩
  · rw [hhappened] at hfailed
    exact absurd hfailed (by simp)
  · rw [hhappened] at hfailed
    obtain ⟨-, heq⟩ := List.append_inj' hfailed rfl
    cases heq
    have hlimiter : applyCalls clock id (Happening.failed error).leaseCalls provider.limiter =
        (provider.limiter.settle clock id none).penalize (clock.after 1)
          (clock 0 + retryAfterMs error) := by
      rw [Happening.leaseCalls, if_pos hover]
      rfl
    refine ⟨hlimiter, fun bucket hbucket => ?_⟩
    change (applyCalls clock id (Happening.failed error).leaseCalls provider.limiter).rpm = _ at hbucket
    rw [hlimiter] at hbucket
    obtain ⟨before, -, rfl⟩ := Option.map_eq_some_iff.mp hbucket
    exact TokenBucket.le_penalize _

end

/-- A run of the provider, whose limiter anyone may use and whose sessions the world may open,
call and call back in any order. -/
def Reachable (provider : SttProvider) : Prop :=
  ∃ name limits waitMs now actions,
    Run step (fun _ _ => True) (create name limits waitMs now) actions provider

theorem reachable_inv {provider : SttProvider} (h : provider.Reachable) : provider.Inv := by
  obtain ⟨name, limits, waitMs, now, actions, hrun⟩ := h
  exact hrun.invariant Inv (create_inv name limits waitMs now) fun _ _ _ hinv _ hstep =>
    step_inv hinv hstep

/-! ## The buckets of the limiter -/

theorem applyCalls_ledgers {limiter : RateLimiter} (h : limiter.Inv) (clock : Clock) (id : CallerId)
    (leaseCalls : List LeaseCall) :
    RateLimiter.Ledgers limiter (applyCalls clock id leaseCalls limiter) := by
  induction leaseCalls generalizing limiter with
  | nil => exact .refl limiter
  | cons leaseCall leaseCalls ih =>
      cases leaseCall with
      | settle =>
          exact (RateLimiter.settle_ledgers h clock id none).trans
            (ih (RateLimiter.settle_inv h clock id none))
      | abandon =>
          exact (RateLimiter.abandon_ledgers h clock id).trans (ih (RateLimiter.abandon_inv h clock id))
      | penalize ms =>
          exact (RateLimiter.step_ledgers h (clock.after 1) (.penalize (clock 0 + ms))).trans
            (ih (RateLimiter.penalize_inv h _ _))

theorem step_ledgers {provider next : SttProvider} {action : Clock × Action} (h : provider.Inv)
    (hstep : provider.step action = some next) : RateLimiter.Ledgers provider.limiter next.limiter := by
  obtain ⟨clock, action⟩ := action
  cases action with
  | openStream =>
      obtain rfl := Option.some.inj hstep
      exact RateLimiter.acquire_ledgers h.limiter clock _
  | acquired id =>
      obtain ⟨session, -, hstep⟩ := Option.bind_eq_some_iff.mp hstep
      obtain ⟨-, hstep⟩ := Option.ite_none_right_eq_some.mp hstep
      have hsame : next.limiter = provider.limiter := by
        unfold acquired at hstep
        split at hstep
        · cases hstep
          rfl
        · cases hstep
          rfl
        · cases hstep
          rfl
        · cases hstep
      rw [hsame]
      exact .refl _
  | session id event =>
      obtain ⟨session, -, hstep⟩ := Option.bind_eq_some_iff.mp hstep
      obtain ⟨⟨after, leaseCalls⟩, -, rfl⟩ := Option.map_eq_some_iff.mp hstep
      exact applyCalls_ledgers h.limiter clock id leaseCalls
  | limiter action =>
      obtain ⟨-, hstep⟩ := Option.ite_none_right_eq_some.mp hstep
      obtain rfl := Option.some.inj hstep
      exact RateLimiter.step_ledgers h.limiter clock action

theorem reachable_kept {provider : SttProvider} (h : provider.Reachable) :
    provider.limiter.BucketsKept := by
  obtain ⟨name, limits, waitMs, now, actions, hrun⟩ := h
  have hkept : provider.Inv ∧ provider.limiter.BucketsKept :=
    hrun.invariant (fun provider => provider.Inv ∧ provider.limiter.BucketsKept)
      ⟨create_inv name limits waitMs now, RateLimiter.create_kept name limits now⟩
      fun _ _ _ hinv _ hstep => by
        have hledgers := step_ledgers hinv.1 hstep
        exact ⟨step_inv hinv.1 hstep, (hledgers.rpm hinv.2.rpm).1, (hledgers.tpm hinv.2.tpm).1⟩
  exact hkept.2

end SttProvider

/-- A failure to open that is a refusal for rate is no refund. -/
theorem not_refunded {happened : List Happening} (hbuilt : Built Happening.Allowed happened)
    {error : StreamingError} (hfailed : .failed error ∈ happened) (hover : isOverLimit error = true) :
    ¬Refunded happened := by
  rintro ⟨earlier, other, later, rfl, hother, -⟩
  -- `openStream` fails at most once: only the socket calls back before it does.
  rcases List.mem_append.mp hfailed with hearlier | hlater
  · have hearly := hbuilt earlier (.failed other) later rfl (.failed error) hearlier
    cases hearly
  · rcases List.mem_cons.mp hlater with heq | hlater
    · cases heq
      rw [hover] at hother
      cases hother
    · obtain ⟨between, rest, rfl⟩ := List.append_of_mem hlater
      have hearly := hbuilt (earlier ++ .failed other :: between) (.failed error) rest
        (by rw [List.append_assoc, List.cons_append]) (.failed other) (by simp)
      cases hearly

theorem finals_nodup {happened : List Happening} (hbuilt : Built Happening.Allowed happened)
    (hturns : (happened.filterMap Happening.turnOrder?).Pairwise (· ≤ ·)) :
    (happened.filterMap Happening.finalOrder?).Nodup := by
  have hmarks : ∀ happening : Happening, ∀ order ∈ happening.finalOrder?,
      happening.turnOrder? = some order := fun happening order horder => by
    unfold Happening.finalOrder? at horder
    split at horder
    · exact horder
    · cases horder
  refine (marks_lt hmarks (fun earlier happening later heq => ?_) hturns).imp ne_of_lt
  have hallowed := hbuilt earlier happening later heq
  intro order horder
  cases happening with
  | turned turn report => exact hallowed order horder
  | failed | errored | reported | closed | stopping | stopped | closing | dropped => cases horder

/-- What holds of a session and of its lease. -/
structure LeaseKept (provider : SttProvider) (id : CallerId) (session : SttSession) : Prop where
  /-- The permit is held from the acquire until the first exit. -/
  permit : session.opening ≠ .acquiring → provider.limiter.concurrency.isSome = true →
    (provider.limiter.holdsPermit id = true ↔ ∀ happening ∈ session.happened, happening.exit? = none)
  /-- It is handed back at that exit, and at no other event. -/
  returned : ∀ clock event next, provider.step (clock, .session id event) = some next →
    ∃ after, next.sessions id = some after ∧ next.limiter.concurrency =
      if closing session.happened = none ∧ closing after.happened ≠ none then
        provider.limiter.concurrency.map (Semaphore.release id)
      else provider.limiter.concurrency
  /-- The permits in use are those that are held. -/
  permits : ∀ semaphore, provider.limiter.concurrency = some semaphore → semaphore.used =
    ((Finset.range provider.limiter.nextAcquire).filter fun id =>
      provider.limiter.holdsPermit id = true).card
  /-- The token is refunded if and only if `openStream` failed with an error that is no refusal
  for rate, before the socket called back with an error or a close. -/
  token : session.opening ≠ .acquiring → ∃ acquire, provider.limiter.acquires id = some acquire ∧
    (Refunded session.happened → provider.limiter.netRpm acquire = 0) ∧
    (¬Refunded session.happened →
      provider.limiter.netRpm acquire = if provider.limiter.rpm.isSome then 1 else 0)
  /-- What the bucket debits and credits for the sessions is what moves its tokens. -/
  balanced : ∀ action next, provider.step action = some next →
    RateLimiter.rpmSide.Balances provider.limiter next.limiter ∧
      RateLimiter.tpmSide.Balances provider.limiter next.limiter
  /-- A refusal for rate keeps the token. -/
  refused : ∀ error, .failed error ∈ session.happened → isOverLimit error = true →
    ¬Refunded session.happened
  /-- It penalizes the limiter. -/
  penalty : ∀ clock event next after error, provider.step (clock, .session id event) = some next →
    next.sessions id = some after → after.happened = session.happened ++ [.failed error] →
    isOverLimit error = true →
      next.limiter = (provider.limiter.settle clock id none).penalize (clock.after 1)
          (clock 0 + retryAfterMs error) ∧
        ∀ bucket, next.limiter.rpm = some bucket → clock 0 + retryAfterMs error ≤ bucket.penaltyUntil
  /-- A final is reported at most once for a turn. -/
  finals : (session.happened.filterMap Happening.turnOrder?).Pairwise (· ≤ ·) →
    (session.happened.filterMap Happening.finalOrder?).Nodup
  /-- A close after our own teardown or after a final reports no error. -/
  quiet : ∀ earlier code reason report later,
    session.happened = earlier ++ .closed code reason report :: later →
    (∃ happening ∈ earlier, happening.tearsDown = true ∨ happening.finalOrder?.isSome = true) →
      report = none

/-- Whatever fails, fires and is called, in any order: a session holds its permit until its first
exit and gives it back there, and its token goes back only when it never became a session. -/
theorem session_lease {provider : SttProvider} {id : CallerId} {session : SttSession}
    (h : provider.Reachable) (hsession : provider.sessions id = some session) :
    LeaseKept provider id session := by
  have hinv := SttProvider.reachable_inv h
  obtain ⟨hok, -⟩ := hinv.sessions id session hsession
  exact {
    permit := fun hlive hcapped => hinv.permit hsession hlive hcapped
    returned := fun clock event next hstep => hinv.returned hsession hstep
    permits := fun semaphore hsemaphore => hinv.limiter.permits hsemaphore
    token := fun hlive => hinv.token hsession hlive
    balanced := fun action next hstep => by
      have hkept := SttProvider.reachable_kept h
      have hledgers := SttProvider.step_ledgers hinv hstep
      exact ⟨(hledgers.rpm hkept.rpm).2, (hledgers.tpm hkept.tpm).2⟩
    refused := fun error hfailed hover => not_refunded hok.built hfailed hover
    penalty := fun clock event next after error hstep hafter hfailed hover =>
      hinv.penalty hsession hstep hafter hfailed hover
    finals := finals_nodup hok.built
    quiet := fun earlier code reason report later heq hteardown => by
      have hreport : report = _ := hok.built earlier (.closed code reason report) later heq
      rw [hreport]
      obtain ⟨happening, hmem, hteardown⟩ := hteardown
      refine if_pos ?_
      rw [Bool.or_eq_true, List.any_eq_true, List.any_eq_true]
      exact hteardown.imp (⟨happening, hmem, ·⟩) (⟨happening, hmem, ·⟩) }

/-! ## A session that is refused -/

def refusal : StreamingError := ⟨"Too many concurrent sessions", none, none, some 3009, none⟩

/-- The socket closes during the handshake, which is then rejected. -/
def refusedActions : List SttProvider.Action :=
  [.openStream, .limiter (.resume 0), .limiter (.resume 0), .acquired 0, .session 0 (.made (.ok ())),
    .session 0 (.registered (.ok ())), .session 0 (.registered (.ok ())),
    .session 0 (.registered (.ok ())), .session 0 (.close 3009 "Too many concurrent sessions"),
    .session 0 (.connected (.error refusal))]

theorem session_lease_refused : ∃ provider session,
    provider.sessions 0 = some session ∧ .failed refusal ∈ session.happened ∧
      LeaseKept provider 0 session := by
  have hrun : ∃ provider, Run SttProvider.step (fun _ _ => True)
      (.create "stt" ⟨1, 0, 1⟩ 1000 0) (refusedActions.map fun action => (fun _ => 0, action)) provider ∧
      ((provider.sessions 0).any fun session => .failed refusal ∈ session.happened) = true :=
    exists_run (by decide +kernel)
  obtain ⟨provider, hrun, hholds⟩ := hrun
  obtain ⟨session, hsession, hfailed⟩ := (Option.any_eq_true _ _).mp hholds
  exact ⟨provider, session, hsession, of_decide_eq_true hfailed,
    session_lease ⟨_, _, _, _, _, hrun⟩ hsession⟩

end VoiceOrder.Stt
