import VoiceOrder.Shared.Histories
import VoiceOrder.Stt.SttSession

/-! # The history of a session

What has happened to a session says what it will do: whether a final was delivered, whether we
tore it down, and what its calls on the lease were. -/

namespace VoiceOrder.Stt

open RateLimit Histories

namespace Happening

/-- The turn that a final was reported for. -/
def finalOrder? : Happening → Option ℤ
  | .turned turn (some (.onFinal _)) => some turn.turnOrder
  | _ => none

def turnOrder? : Happening → Option ℤ
  | .turned turn _ => some turn.turnOrder
  | _ => none

/-- We tear the socket down: in a `stop`, in a `close` or in the error callback. -/
def tearsDown : Happening → Bool
  | .errored _ | .stopping | .closing => true
  | .failed _ | .turned .. | .reported _ | .closed .. | .stopped _ | .dropped _ => false

/-- It may come before `openStream` has settled: only the socket calls back then. -/
def early : Happening → Bool
  | .turned .. | .errored _ | .reported _ | .closed .. => true
  | .failed _ | .stopping | .stopped _ | .closing | .dropped _ => false

/-- The calls on the lease and the limiter that come with it. -/
def leaseCalls : Happening → List LeaseCall
  | .failed error =>
      if isOverLimit error then [.settle, .penalize (retryAfterMs error)] else [.abandon]
  | .errored _ | .closed .. | .stopped _ | .dropped _ => [.settle]
  | .turned .. | .reported _ | .stopping | .closing => []

/-- What the happenings before it say about one. -/
def Allowed (earlier : List Happening) : Happening → Prop
  | .failed _ => ∀ happening ∈ earlier, happening.early = true
  | .turned turn report => ∀ order ∈ (turned turn report).finalOrder?,
      (earlier.filterMap finalOrder?).getLast? ≠ some order
  | .closed code reason report => report =
      if earlier.any tearsDown || earlier.any fun happening => happening.finalOrder?.isSome then none
      else some (.onError (SttSession.closedMessage code reason))
  | _ => True

end Happening

/-- `openStream` has returned or thrown. -/
def Opening.settled : Opening → Bool
  | .opened | .failed _ => true
  | .acquiring | .making | .registering _ | .connecting => false

namespace SttSession

/-- A session is what its history says. -/
structure Ok (session : SttSession) : Prop where
  built : Built Happening.Allowed session.happened
  delivered : session.finalDelivered = session.happened.any fun happening => happening.finalOrder?.isSome
  lastFinal : session.lastFinalTurn =
    ((session.happened.filterMap Happening.finalOrder?).getLast?).getD (-1)
  selfClosing : session.selfClosing = session.happened.any Happening.tearsDown
  early : session.opening.settled = false →
    ∀ happening ∈ session.happened, happening.early = true
  calls : ∀ call frame, session.calls call = some frame →
    session.opening = .opened ∨ ∃ error, frame = .erring error
  acquiring : session.opening = .acquiring → session = create

/-- What a step does that adds a happening to the history. -/
structure Logs (session : SttSession) (happening : Happening) (next : SttSession) : Prop where
  happened : next.happened = session.happened ++ [happening]
  delivered : next.finalDelivered = (session.finalDelivered || happening.finalOrder?.isSome)
  lastFinal : next.lastFinalTurn = happening.finalOrder?.getD session.lastFinalTurn
  selfClosing : next.selfClosing = (session.selfClosing || happening.tearsDown)
  opening : next.opening = session.opening ∨
    session.opening.settled = false ∧ next.opening.settled = true
  early : next.opening.settled = false → happening.early = true
  calls : ∀ call frame, next.calls call = some frame → session.calls call = some frame ∨
    next.opening = .opened ∨ ∃ error, frame = .erring error
  live : next.opening ≠ .acquiring

/-- A step that keeps the session in order, with its calls on the lease. -/
structure Steps (session next : SttSession) (leaseCalls : List LeaseCall) : Prop where
  ok : next.Ok
  live : next.opening ≠ .acquiring
  calls : next.happened = session.happened ∧ leaseCalls = [] ∨
    ∃ happening, next.happened = session.happened ++ [happening] ∧ leaseCalls = happening.leaseCalls

theorem create_ok : create.Ok where
  built := built_nil
  delivered := rfl
  lastFinal := rfl
  selfClosing := rfl
  early := fun _ _ hmem => (nomatch hmem)
  calls := fun _ _ heq => (nomatch heq)
  acquiring := fun _ => rfl

section

variable {session next : SttSession} {happening : Happening} {event : Event}
  {leaseCalls : List LeaseCall}

theorem Steps.of_eq {stepped : SttSession × List LeaseCall} (h : Steps session stepped.1 stepped.2)
    (heq : some stepped = some (next, leaseCalls)) : Steps session next leaseCalls := by
  obtain rfl := Option.some.inj heq
  exact h

theorem Ok.logs (h : session.Ok) (happening : Happening) (hlogs : Logs session happening next)
    (hallowed : happening.Allowed session.happened) : Steps session next happening.leaseCalls := by
  refine ⟨⟨?_, ?_, ?_, ?_, fun hopening => ?_, fun call frame hframe => ?_,
    fun hacquiring => (hlogs.live hacquiring).elim⟩, hlogs.live, .inr ⟨happening, hlogs.happened, rfl⟩⟩
  · rw [hlogs.happened]
    exact built_concat.mpr ⟨h.built, hallowed⟩
  · rw [hlogs.delivered, h.delivered, hlogs.happened, List.any_append]
    simp
  · rw [hlogs.lastFinal, h.lastFinal, hlogs.happened, List.filterMap_append]
    cases hfinal : happening.finalOrder? with
    | none => simp [hfinal]
    | some order => simp [hfinal]
  · rw [hlogs.selfClosing, h.selfClosing, hlogs.happened, List.any_append]
    simp
  · have hsame : session.opening.settled = false := by
      rcases hlogs.opening with hsame | ⟨hopen, -⟩
      · rw [← hsame, hopening]
      · exact hopen
    rw [hlogs.happened]
    intro other hmem
    rcases List.mem_append.mp hmem with hearlier | hlast
    · exact h.early hsame other hearlier
    · rw [List.mem_singleton.mp hlast]
      exact hlogs.early hopening
  · rcases hlogs.calls call frame hframe with hbefore | hopened | herring
    · rcases h.calls call frame hbefore with hopened | herring
      · left
        rcases hlogs.opening with hsame | ⟨hopen, -⟩
        · rw [hsame, hopened]
        · rw [hopened] at hopen
          cases hopen
      · exact .inr herring
    · exact .inl hopened
    · exact .inr herring

/-- A step of `openStream` that adds nothing to the history. -/
theorem Ok.advances (h : session.Ok) (hopening : session.opening.settled = false)
    (opening : Opening) (registered : List Listener) (hlive : opening ≠ .acquiring) :
    Steps session { session with opening := opening, registered := registered } [] := by
  refine ⟨⟨h.built, h.delivered, h.lastFinal, h.selfClosing, fun _ => h.early hopening,
    fun call frame hframe => ?_, fun hacquiring => (hlive hacquiring).elim⟩, hlive, .inl ⟨rfl, rfl⟩⟩
  rcases h.calls call frame hframe with hopened | herring
  · rw [hopened] at hopening
    cases hopening
  · exact .inr herring

/-! ## Every event -/

theorem fail_steps (h : session.Ok) (hopening : session.opening.settled = false)
    (error : StreamingError) : Steps session (session.fail error).1 (session.fail error).2 :=
  h.logs (.failed error) {
    happened := rfl
    delivered := (Bool.or_false _).symm
    lastFinal := rfl
    selfClosing := (Bool.or_false _).symm
    opening := .inr ⟨hopening, rfl⟩
    early := fun hsettled => (nomatch hsettled)
    calls := fun _ _ hframe => .inl hframe
    live := fun hacquiring => (nomatch hacquiring) } (h.early hopening)

theorem attach_steps (h : session.Ok) (hopening : session.opening.settled = false)
    (opening : Opening) (registered : List Listener) (hlive : opening ≠ .acquiring)
    (result : Except StreamingError Unit) :
    Steps session (session.attach { session with opening := opening, registered := registered } result).1
      (session.attach { session with opening := opening, registered := registered } result).2 := by
  cases result with
  | ok => exact h.advances hopening opening registered hlive
  | error error => exact fail_steps h hopening error

theorem onTurn_steps (h : session.Ok) (hlive : session.opening ≠ .acquiring) (turn : TurnEvent) :
    Steps session (session.onTurn turn) [] := by
  -- A turn without a final changes nothing but the history.
  have hquiet : ∀ report, Happening.finalOrder? (.turned turn report) = none →
      Steps session (session.log (.turned turn report)) [] := fun report hreport => by
    refine h.logs (.turned turn report) {
      happened := rfl
      delivered := by rw [hreport]; exact (Bool.or_false _).symm
      lastFinal := by rw [hreport]; rfl
      selfClosing := (Bool.or_false _).symm
      opening := .inl rfl
      early := fun _ => rfl
      calls := fun _ _ hframe => .inl hframe
      live := hlive } ?_
    intro order horder
    rw [hreport] at horder
    cases horder
  unfold onTurn
  dsimp only
  split
  · refine hquiet _ ?_
    split
    · rfl
    · rfl
  · split
    · exact hquiet none rfl
    · rename_i hfinal
      push Not at hfinal
      refine h.logs (.turned turn (some (.onFinal _))) {
        happened := rfl
        delivered := (Bool.or_true _).symm
        lastFinal := rfl
        selfClosing := (Bool.or_false _).symm
        opening := .inl rfl
        early := fun _ => rfl
        calls := fun _ _ hframe => .inl hframe
        live := hlive } ?_
      rintro order ⟨⟩ hlast
      have hsame := h.lastFinal
      rw [hlast, Option.getD_some] at hsame
      exact hfinal.2.1 hsame.symm

/-- A call that has begun may be the error callback, or one of the stream. -/
theorem begin_calls {frame begun : Frame} {call : ℕ}
    (hframe : (session.begin begun).calls call = some frame) :
    session.calls call = some frame ∨ frame = begun := by
  change Function.update session.calls session.nextCall (some begun) call = some frame at hframe
  by_cases heq : call = session.nextCall
  · subst heq
    rw [Function.update_self] at hframe
    exact .inr (Option.some.inj hframe).symm
  · rw [Function.update_of_ne heq] at hframe
    exact .inl hframe

theorem onSocketError_steps (h : session.Ok) (hlive : session.opening ≠ .acquiring)
    (error : StreamingError) :
    Steps session (session.onSocketError error).1 (session.onSocketError error).2 :=
  h.logs (.errored error) {
    happened := rfl
    delivered := (Bool.or_false _).symm
    lastFinal := rfl
    selfClosing := (Bool.or_true _).symm
    opening := .inl rfl
    early := fun _ => rfl
    calls := fun call frame hframe => by
      rcases begin_calls hframe with hbefore | rfl
      · exact .inl hbefore
      · exact .inr (.inr ⟨error, rfl⟩)
    live := hlive } trivial

theorem onSocketClose_steps (h : session.Ok) (hlive : session.opening ≠ .acquiring) (code : ℤ)
    (reason : String) :
    Steps session (session.onSocketClose code reason).1 (session.onSocketClose code reason).2 := by
  refine h.logs (.closed code reason _) {
    happened := rfl
    delivered := (Bool.or_false _).symm
    lastFinal := rfl
    selfClosing := (Bool.or_false _).symm
    opening := .inl rfl
    early := fun _ => rfl
    calls := fun _ _ hframe => .inl hframe
    live := hlive } ?_
  rw [Happening.Allowed, ← h.delivered, ← h.selfClosing]
  cases session.finalDelivered <;> cases session.selfClosing <;> rfl

theorem teardown_steps (h : session.Ok) (hopened : session.opening = .opened) (happening : Happening)
    (frame : Frame)
    (hfinal : happening.finalOrder? = none) (hteardown : happening.tearsDown = true)
    (hallowed : happening.Allowed session.happened) :
    Steps session (({ session with selfClosing := true }.log happening).begin frame)
      happening.leaseCalls :=
  h.logs happening {
    happened := rfl
    delivered := by rw [hfinal]; exact (Bool.or_false _).symm
    lastFinal := by rw [hfinal]; rfl
    selfClosing := by rw [hteardown]; exact (Bool.or_true _).symm
    opening := .inl rfl
    early := fun hsettled => absurd (hopened ▸ hsettled) (by decide)
    calls := fun call frame hframe => by
      rcases begin_calls hframe with hbefore | rfl
      · exact .inl hbefore
      · exact .inr (.inl hopened)
    live := fun hacquiring => (nomatch hopened.symm.trans hacquiring) } hallowed

/-- A call that ends is no longer among those that go on. -/
theorem ends_steps (h : session.Ok) (hlive : session.opening ≠ .acquiring) (happening : Happening)
    (call : ℕ) (hfinal : happening.finalOrder? = none) (hteardown : happening.tearsDown = false)
    (hearly : session.opening.settled = false → happening.early = true)
    (hallowed : happening.Allowed session.happened) :
    Steps session ({ session with calls := Function.update session.calls call none }.log happening)
      happening.leaseCalls :=
  h.logs happening {
    happened := rfl
    delivered := by rw [hfinal]; exact (Bool.or_false _).symm
    lastFinal := by rw [hfinal]; rfl
    selfClosing := by rw [hteardown]; exact (Bool.or_false _).symm
    opening := .inl rfl
    early := hearly
    calls := fun other frame hframe => by
      change Function.update session.calls call none other = some frame at hframe
      by_cases heq : other = call
      · subst heq
        rw [Function.update_self] at hframe
        cases hframe
      · rw [Function.update_of_ne heq] at hframe
        exact .inl hframe
    live := hlive } hallowed

theorem goOn_steps (h : session.Ok) (hlive : session.opening ≠ .acquiring) {call : ℕ} {frame : Frame}
    (hframe : session.calls call = some frame) (result : Except StreamingError Unit) :
    Steps session (session.goOn call frame result).1 (session.goOn call frame result).2 := by
  -- Only the error callback may go on before the stream is there.
  have hopened : (∀ error, frame ≠ .erring error) → session.opening = .opened := fun hframes => by
    rcases h.calls call frame hframe with hopened | ⟨error, herring⟩
    · exact hopened
    · exact (hframes error herring).elim
  have hstopped : ∀ {happening : Happening}, (∀ error, frame ≠ .erring error) →
      session.opening.settled = false → happening.early = true := fun hframes hsettled => by
    rw [hopened hframes] at hsettled
    cases hsettled
  cases frame with
  | forcing =>
      cases result with
      | ok =>
          have hopen := hopened fun _ heq => (nomatch heq)
          refine ⟨⟨h.built, h.delivered, h.lastFinal, h.selfClosing, h.early,
            fun other frame _ => .inl hopen, fun hacquiring => (hlive hacquiring).elim⟩, hlive,
            .inl ⟨rfl, rfl⟩⟩
      | error error =>
          exact ends_steps h hlive (.stopped (.error error)) call rfl rfl
            (hstopped fun _ heq => (nomatch heq)) trivial
  | flushing =>
      exact ends_steps h hlive (.stopped result) call rfl rfl
        (hstopped fun _ heq => (nomatch heq)) trivial
  | dropping =>
      exact ends_steps h hlive (.dropped result) call rfl rfl
        (hstopped fun _ heq => (nomatch heq)) trivial
  | erring error =>
      exact ends_steps h hlive (.reported error) call rfl rfl (fun _ => rfl) trivial

/-- Nothing happens to a session that waits for its acquire. -/
theorem step_live (h : session.Ok) (hstep : session.step event = some (next, leaseCalls)) :
    session.opening ≠ .acquiring := fun hacquiring => by
  rw [h.acquiring hacquiring] at hstep
  cases event <;> simp [step, create] at hstep

/-- Every event keeps the session in order. -/
theorem step_steps (h : session.Ok) (hstep : session.step event = some (next, leaseCalls)) :
    Steps session next leaseCalls := by
  have hlive := step_live h hstep
  cases event with
  | made result =>
      obtain ⟨hopening, heq⟩ := Option.ite_none_right_eq_some.mp hstep
      exact (attach_steps h (by rw [hopening]; rfl) (.registering .turn) _ (by decide) result).of_eq heq
  | registered result =>
      simp only [step] at hstep
      split at hstep
      · rename_i listener hopening
        refine (attach_steps h (by rw [hopening]; rfl) _ _ (fun heq => ?_) result).of_eq hstep
        cases listener <;> cases heq
      · cases hstep
  | connected result =>
      obtain ⟨hopening, heq⟩ := Option.ite_none_right_eq_some.mp hstep
      exact (attach_steps h (by rw [hopening]; rfl) .opened _ (by decide) result).of_eq heq
  | turn turn =>
      obtain ⟨-, heq⟩ := Option.ite_none_right_eq_some.mp hstep
      cases heq
      exact onTurn_steps h hlive turn
  | error error =>
      obtain ⟨-, heq⟩ := Option.ite_none_right_eq_some.mp hstep
      cases heq
      exact onSocketError_steps h hlive error
  | close code reason =>
      obtain ⟨-, heq⟩ := Option.ite_none_right_eq_some.mp hstep
      cases heq
      exact onSocketClose_steps h hlive code reason
  | stop =>
      obtain ⟨hopened, heq⟩ := Option.ite_none_right_eq_some.mp hstep
      cases heq
      exact teardown_steps h hopened .stopping .forcing rfl rfl trivial
  | drop =>
      obtain ⟨hopened, heq⟩ := Option.ite_none_right_eq_some.mp hstep
      cases heq
      exact teardown_steps h hopened .closing .dropping rfl rfl trivial
  | returned call result =>
      obtain ⟨frame, hframe, heq⟩ := Option.map_eq_some_iff.mp hstep
      exact (goOn_steps h hlive hframe result).of_eq (congrArg some heq)

end

end SttSession

end VoiceOrder.Stt
