import Mathlib.Logic.Function.Basic
import VoiceOrder.Tts.FrameProtocol

/-! # One reply in flight for each session

A newer reply or a cancel silences the older replies of its session for good, and the entry of
the in-flight map is always the controller of the newest one. -/

namespace VoiceOrder.Tts

open Voice (ClientConnection Buffer)
open Runs

namespace Reply

/-- A reply is left alone, aborted, or resumed from the call it waits for. -/
inductive Moves : Reply → Reply → Prop where
  | stays (same) : Moves same same
  | aborts (old) : Moves old old.abort
  | resumes (old outcome) : old.pending ≠ [] → Moves old (old.resume outcome)

end Reply

namespace TtsService

variable {provider : TtsProvider} {service next last : TtsService} {action : Action}
  {ref : ReplyRef} {reply : Reply} {session_id : SessionId}

/-! ## What each call does to the two maps -/

theorem abortInflight_replies (session_id : SessionId) (ref : ReplyRef) :
    (service.abortInflight session_id).replies ref =
      if service.inflight session_id = some ref then (service.replies ref).map Reply.abort
      else service.replies ref := by
  unfold abortInflight
  cases hentry : service.inflight session_id with
  | none => rfl
  | some current =>
      by_cases hcurrent : ref = current
      · simp [update, hcurrent]
      · simp [update, hcurrent, Ne.symm hcurrent]

@[simp]
theorem abortInflight_inflight (session_id : SessionId) :
    (service.abortInflight session_id).inflight = service.inflight := by
  unfold abortInflight
  split <;> rfl

@[simp]
theorem abortInflight_nextRef (session_id : SessionId) :
    (service.abortInflight session_id).nextRef = service.nextRef := by
  unfold abortInflight
  split <;> rfl

theorem cancel_replies (session_id : SessionId) (ref : ReplyRef) :
    (service.cancel session_id).replies ref =
      (service.abortInflight session_id).replies ref := by
  unfold cancel abortInflight
  split <;> rfl

theorem cancel_inflight (session_id : SessionId) :
    (service.cancel session_id).inflight = Function.update service.inflight session_id none := by
  unfold cancel
  split
  case h_1 hentry => rw [← hentry, Function.update_eq_self]
  case h_2 => rfl

theorem cancel_nextRef (session_id : SessionId) :
    (service.cancel session_id).nextRef = service.nextRef := by
  unfold cancel
  split <;> rfl

theorem settle_replies (ref other : ReplyRef) (outcome : Outcome) (reply : Reply) :
    (service.settle ref outcome reply).replies other =
      if other = ref then (service.replies ref).map (Reply.resume outcome)
      else service.replies other := by
  have hrelease : ∀ resumed : TtsService,
      (resumed.release ref reply.ctx.session_id).replies = resumed.replies := by
    intro resumed
    unfold release
    split <;> rfl
  have hupdate : (service.settle ref outcome reply).replies =
      Function.update service.replies ref ((service.replies ref).map (Reply.resume outcome)) := by
    unfold settle
    dsimp only
    split
    · exact hrelease _
    · rfl
  rw [hupdate, Function.update_apply]

theorem settle_inflight (ref : ReplyRef) (outcome : Outcome) (reply : Reply) :
    (service.settle ref outcome reply).inflight =
      if (reply.resume outcome).pending = [] ∧ service.inflight reply.ctx.session_id = some ref then
        Function.update service.inflight reply.ctx.session_id none
      else service.inflight := by
  unfold settle release
  by_cases hpending : (reply.resume outcome).pending = []
  · by_cases hentry : service.inflight reply.ctx.session_id = some ref
    · simp [update, hpending, hentry]
    · simp [update, hpending, hentry]
  · simp [update, hpending]

theorem settle_nextRef (ref : ReplyRef) (outcome : Outcome) (reply : Reply) :
    (service.settle ref outcome reply).nextRef = service.nextRef := by
  unfold settle release
  dsimp only
  split
  · split <;> rfl
  · rfl

/-- What a step does: nothing, a new reply after an abort, a cancel, or one call that settles. -/
inductive Steps (provider : TtsProvider) (service : TtsService) : Action → TtsService → Prop where
  | ignored (conn ctx text language) : segmentText text = [] →
      Steps provider service (.speak conn ctx text language) service
  | speaks (conn ctx text language) : segmentText text ≠ [] →
      Steps provider service (.speak conn ctx text language)
        { inflight := Function.update service.inflight ctx.session_id (some service.nextRef)
          replies := Function.update (service.abortInflight ctx.session_id).replies
            service.nextRef (some (.start provider conn ctx (segmentText text) language))
          nextRef := service.nextRef + 1 }
  | cancels (target) : Steps provider service (.cancel target) (service.cancel target)
  | settles (ref outcome reply) : service.replies ref = some reply → reply.pending ≠ [] →
      Steps provider service (.settles ref outcome) (service.settle ref outcome reply)

theorem step_cases (h : step provider service action = some next) :
    Steps provider service action next := by
  cases action with
  | speak conn ctx text language =>
      obtain rfl := Option.some.inj h
      by_cases hsegments : segmentText text = []
      · simpa [speak, hsegments] using .ignored conn ctx text language hsegments
      · simpa [speak, hsegments] using .speaks conn ctx text language hsegments
  | cancel session_id =>
      obtain rfl := Option.some.inj h
      exact .cancels session_id
  | settles ref outcome =>
      obtain ⟨reply, hreply, hstep⟩ := Option.bind_eq_some_iff.mp h
      split at hstep
      case isTrue => cases hstep
      case isFalse hpending =>
          obtain rfl := Option.some.inj hstep
          exact .settles ref outcome reply hreply (by simpa using hpending)

/-! ## What a step does to one reply -/

theorem abortInflight_moves (session_id : SessionId) (hreply : service.replies ref = some reply) :
    ∃ moved, (service.abortInflight session_id).replies ref = some moved ∧ reply.Moves moved := by
  rw [abortInflight_replies, hreply]
  split
  · exact ⟨reply.abort, rfl, .aborts reply⟩
  · exact ⟨reply, rfl, .stays reply⟩

/-- The replies started so far are the ones with a smaller reference than the next. -/
def Fresh (service : TtsService) : Prop :=
  ∀ ref, service.nextRef ≤ ref → service.replies ref = none

theorem Fresh.lt (h : service.Fresh) (hreply : service.replies ref = some reply) :
    ref < service.nextRef := by
  by_contra hnot
  rw [h ref (not_lt.mp hnot)] at hreply
  cases hreply

theorem Steps.moves (h : Steps provider service action next) (hfresh : service.Fresh)
    (hreply : service.replies ref = some reply) :
    ∃ moved, next.replies ref = some moved ∧ reply.Moves moved := by
  cases h with
  | ignored => exact ⟨reply, hreply, .stays reply⟩
  | speaks conn ctx text language =>
      have hne : ref ≠ service.nextRef := (hfresh.lt hreply).ne
      dsimp only
      rw [Function.update_of_ne hne]
      exact abortInflight_moves ctx.session_id hreply
  | cancels target =>
      rw [cancel_replies]
      exact abortInflight_moves target hreply
  | settles current outcome awaited hawaited hpending =>
      rw [settle_replies]
      by_cases hcurrent : ref = current
      · subst hcurrent
        obtain rfl := Option.some.inj (hreply.symm.trans hawaited)
        rw [if_pos rfl, hreply]
        exact ⟨reply.resume outcome, rfl, .resumes reply outcome hpending⟩
      · rw [if_neg hcurrent]
        exact ⟨reply, hreply, .stays reply⟩

/-- A reply after a step was there before, or the step is the `speak` that started it. -/
theorem Steps.origin (h : Steps provider service action next)
    (hreply : next.replies ref = some reply) :
    (∃ before, service.replies ref = some before) ∨
      ref = service.nextRef ∧ ∃ conn ctx text language,
        action = .speak conn ctx text language ∧ segmentText text ≠ [] ∧
          reply = .start provider conn ctx (segmentText text) language := by
  have haborted : ∀ session_id, (service.abortInflight session_id).replies ref = some reply →
      ∃ before, service.replies ref = some before := by
    intro session_id hafter
    rw [abortInflight_replies] at hafter
    split at hafter
    · obtain ⟨before, hbefore, -⟩ := Option.map_eq_some_iff.mp hafter
      exact ⟨before, hbefore⟩
    · exact ⟨reply, hafter⟩
  cases h with
  | ignored => exact .inl ⟨reply, hreply⟩
  | speaks conn ctx text language hsegments =>
      dsimp only at hreply
      by_cases hnew : ref = service.nextRef
      · rw [hnew, Function.update_self] at hreply
        exact .inr ⟨hnew, conn, ctx, text, language, rfl, hsegments, (Option.some.inj hreply).symm⟩
      · rw [Function.update_of_ne hnew] at hreply
        exact .inl (haborted _ hreply)
  | cancels target =>
      rw [cancel_replies] at hreply
      exact .inl (haborted _ hreply)
  | settles current outcome awaited hawaited =>
      rw [settle_replies] at hreply
      split at hreply
      case isTrue hcurrent => exact .inl ⟨awaited, hcurrent ▸ hawaited⟩
      case isFalse => exact .inl ⟨reply, hreply⟩

theorem Steps.fresh (h : Steps provider service action next) (hfresh : service.Fresh) :
    next.Fresh := by
  intro ref hle
  by_contra hsome
  obtain ⟨reply, hreply⟩ := Option.ne_none_iff_exists'.mp hsome
  have hnext : service.nextRef ≤ next.nextRef ∧
      (∀ conn ctx text language, action = .speak conn ctx text language → segmentText text ≠ [] →
        service.nextRef < next.nextRef) := by
    cases h with
    | ignored conn ctx text language hnone =>
        refine ⟨le_rfl, fun _ _ _ _ hspeak hsegments => ?_⟩
        cases hspeak
        exact absurd hnone hsegments
    | speaks => exact ⟨Nat.le_succ _, fun _ _ _ _ _ _ => Nat.lt_succ_self _⟩
    | cancels target => exact ⟨(cancel_nextRef target).ge, fun _ _ _ _ hspeak => by cases hspeak⟩
    | settles => exact ⟨(settle_nextRef ..).ge, fun _ _ _ _ hspeak => by cases hspeak⟩
  cases h.origin hreply with
  | inl hbefore =>
      obtain ⟨before, hbefore⟩ := hbefore
      exact absurd (hfresh.lt hbefore) (not_lt.mpr (hnext.1.trans hle))
  | inr hnew =>
      obtain ⟨hnew, conn, ctx, text, language, haction, hsegments, -⟩ := hnew
      exact absurd (hnew ▸ hle) (not_le.mpr (hnext.2 conn ctx text language haction hsegments))

/-! ## The entry of the in-flight map -/

end TtsService

namespace Reply

/-- The stream is under way and was not cancelled. -/
def Live (session_id : SessionId) (reply : Reply) : Prop :=
  reply.ctx.session_id = session_id ∧ reply.aborted = false ∧ reply.pending ≠ []

theorem start_live (provider : TtsProvider) (conn : ClientConnection) (ctx : TtsContext)
    {segments : List CodeUnits} (hsegments : segments ≠ []) (language : LangCode)
    (session_id : SessionId) :
    (Reply.start provider conn ctx segments language).Live session_id ↔
      ctx.session_id = session_id := by
  cases segments with
  | nil => exact absurd rfl hsegments
  | cons segment rest => simp [Live, Reply.start, Reply.next, Reply.send]

/-- What a reply was started with. -/
def origin (reply : Reply) : ClientConnection × TtsContext × List CodeUnits × LangCode :=
  (reply.conn, reply.ctx, reply.segments, reply.language)

theorem next_keeps (rest : List CodeUnits) (reply : Reply) :
    (reply.next rest).origin = reply.origin ∧ (reply.next rest).aborted = reply.aborted := by
  cases rest <;> exact ⟨rfl, rfl⟩

theorem ship_keeps (audio : Buffer) (reply : Reply) :
    (reply.ship audio).origin = reply.origin ∧ (reply.ship audio).aborted = reply.aborted := by
  unfold Reply.ship
  split <;> exact ⟨rfl, rfl⟩

theorem start_origin (provider : TtsProvider) (conn : ClientConnection) (ctx : TtsContext)
    (segments : List CodeUnits) (language : LangCode) :
    (Reply.start provider conn ctx segments language).origin =
      (conn, ctx, segments, language) :=
  (next_keeps segments _).1

theorem resume_keeps (outcome : Outcome) (reply : Reply) :
    (reply.resume outcome).origin = reply.origin ∧
      (reply.resume outcome).aborted = reply.aborted := by
  unfold Reply.resume
  dsimp only
  split
  · exact ⟨rfl, rfl⟩
  · cases outcome with
    | rejected => exact ⟨rfl, rfl⟩
    | resolved audio =>
        have hnext := next_keeps reply.pending.tail
          (Reply.ship audio { reply with settled := reply.settled ++ [.resolved audio] })
        have hship := ship_keeps audio
          { reply with settled := reply.settled ++ [.resolved audio] }
        exact ⟨hnext.1.trans hship.1, hnext.2.trans hship.2⟩

theorem ctx_of_origin {reply other : Reply} (h : reply.origin = other.origin) :
    reply.ctx = other.ctx :=
  congrArg (fun origin => origin.2.1) h

/-- The reply was cancelled, or its stream has returned. -/
def Silenced (reply : Reply) : Prop := reply.aborted = true ∨ reply.pending = []

theorem live_of_not_silenced {reply : Reply} (h : ¬reply.Silenced) :
    reply.Live reply.ctx.session_id := by
  rw [Silenced, not_or, Bool.not_eq_true] at h
  exact ⟨rfl, h⟩

namespace Moves

variable {reply moved : Reply}

theorem origin (h : Moves reply moved) : moved.origin = reply.origin := by
  cases h with
  | stays => rfl
  | aborts => rfl
  | resumes outcome => exact (resume_keeps outcome reply).1

theorem sound {provider : TtsProvider} (h : Moves reply moved) (hsound : reply.Sound provider) :
    moved.Sound provider := by
  cases h with
  | stays => exact hsound
  | aborts => exact hsound.abort
  | resumes outcome hpending => exact hsound.resume hpending outcome

/-- A silenced reply sends nothing, however its last call settles. -/
theorem silenced (h : Moves reply moved) (hsilenced : reply.Silenced) :
    moved.Silenced ∧ moved.frames = reply.frames := by
  cases h with
  | stays => exact ⟨hsilenced, rfl⟩
  | aborts => exact ⟨.inl rfl, rfl⟩
  | resumes outcome hpending =>
      have haborted : reply.aborted = true := hsilenced.resolve_right hpending
      have hexit : reply.resume outcome =
          Reply.exit { reply with settled := reply.settled ++ [outcome] } := if_pos haborted
      rw [hexit]
      exact ⟨.inr rfl, rfl⟩

end Moves

end Reply

namespace TtsService

variable {provider : TtsProvider} {service next last : TtsService} {action : Action}
  {ref : ReplyRef} {reply : Reply} {session_id : SessionId}

/-- The in-flight map holds exactly the controllers of the live replies, and no newer reply of
its session has been started. -/
structure Tracks (service : TtsService) : Prop where
  live : ∀ session_id ref, service.inflight session_id = some ref ↔
    ∃ reply, service.replies ref = some reply ∧ reply.Live session_id
  newest : ∀ session_id ref newer reply, service.inflight session_id = some ref → ref < newer →
    service.replies newer = some reply → reply.ctx.session_id ≠ session_id

/-- An abort takes the live reply of its session, and no other. -/
theorem Tracks.abortInflight (h : service.Tracks) (aborted session_id : SessionId)
    (ref : ReplyRef) :
    (∃ reply, (service.abortInflight aborted).replies ref = some reply ∧
      reply.Live session_id) ↔
      session_id ≠ aborted ∧ service.inflight session_id = some ref := by
  rw [abortInflight_replies]
  by_cases hentry : service.inflight aborted = some ref
  · rw [if_pos hentry]
    obtain ⟨reply, hreply, hlive⟩ := (h.live aborted ref).mp hentry
    constructor
    · intro hafter
      obtain ⟨after, hafter, hliveAfter⟩ := hafter
      rw [hreply] at hafter
      obtain rfl := Option.some.inj hafter
      cases hliveAfter.2.1
    · intro hother
      obtain ⟨other, hotherReply, hotherLive⟩ := (h.live session_id ref).mp hother.2
      obtain rfl := Option.some.inj (hreply.symm.trans hotherReply)
      exact absurd (hotherLive.1.symm.trans hlive.1) hother.1
  · rw [if_neg hentry, ← h.live]
    constructor
    · intro hsession
      refine ⟨fun hsame => hentry (hsame ▸ hsession), hsession⟩
    · exact And.right

/-- An abort leaves every reply in its session. -/
theorem abortInflight_ctx (aborted : SessionId)
    (hreply : (service.abortInflight aborted).replies ref = some reply) :
    ∃ before, service.replies ref = some before ∧ before.ctx = reply.ctx := by
  rw [abortInflight_replies] at hreply
  split at hreply
  · obtain ⟨before, hbefore, rfl⟩ := Option.map_eq_some_iff.mp hreply
    exact ⟨before, hbefore, rfl⟩
  · exact ⟨reply, hreply, rfl⟩

theorem Tracks.cancel (h : service.Tracks) (cancelled : SessionId) :
    (service.cancel cancelled).Tracks := by
  constructor
  · intro session_id ref
    rw [cancel_replies, h.abortInflight, cancel_inflight, Function.update_apply]
    by_cases hsession : session_id = cancelled
    · simp [hsession]
    · simp [hsession]
  · intro session_id ref newer reply hentry hlt hreply
    rw [cancel_replies] at hreply
    rw [cancel_inflight, Function.update_apply] at hentry
    split at hentry
    · cases hentry
    · obtain ⟨before, hbefore, hctx⟩ := abortInflight_ctx cancelled hreply
      rw [← hctx]
      exact h.newest session_id ref newer before hentry hlt hbefore

theorem Tracks.speak (h : service.Tracks) (hfresh : service.Fresh) (conn : ClientConnection)
    (ctx : TtsContext) {segments : List CodeUnits} (hsegments : segments ≠ [])
    (language : LangCode) :
    Tracks
      { inflight := Function.update service.inflight ctx.session_id (some service.nextRef)
        replies := Function.update (service.abortInflight ctx.session_id).replies
          service.nextRef (some (.start provider conn ctx segments language))
        nextRef := service.nextRef + 1 } := by
  have hunused : ∀ session_id, service.inflight session_id ≠ some service.nextRef := by
    intro session_id hentry
    obtain ⟨reply, hreply, -⟩ := (h.live session_id service.nextRef).mp hentry
    exact (hfresh.lt hreply).ne rfl
  constructor
  · intro session_id ref
    dsimp only
    rw [Function.update_apply, Function.update_apply]
    by_cases hnew : ref = service.nextRef
    · subst hnew
      simp only [if_true, Option.some.injEq, exists_eq_left',
        Reply.start_live provider conn ctx hsegments language]
      by_cases hsession : session_id = ctx.session_id
      · simp [hsession]
      · simp [hsession, hunused, Ne.symm hsession]
    · rw [if_neg hnew, h.abortInflight]
      by_cases hsession : session_id = ctx.session_id
      · simp [hsession, Ne.symm hnew]
      · simp [hsession]
  · intro session_id ref newer reply hentry hlt hreply
    dsimp only at hentry hreply
    rw [Function.update_apply] at hentry hreply
    split at hentry
    case isTrue =>
        obtain rfl := Option.some.inj hentry
        rw [if_neg hlt.ne'] at hreply
        obtain ⟨before, hbefore, -⟩ := abortInflight_ctx ctx.session_id hreply
        exact absurd (hfresh.lt hbefore) (not_lt.mpr hlt.le)
    case isFalse hsession =>
        split at hreply
        case isTrue =>
            obtain rfl := Option.some.inj hreply
            have hctx : (Reply.start provider conn ctx segments language).ctx = ctx :=
              congrArg (fun origin => origin.2.1) (Reply.start_origin ..)
            rw [hctx]
            exact Ne.symm hsession
        case isFalse =>
            obtain ⟨before, hbefore, hctx⟩ := abortInflight_ctx ctx.session_id hreply
            rw [← hctx]
            exact h.newest session_id ref newer before hentry hlt hbefore

theorem Tracks.settle_entry (h : service.Tracks) (outcome : Outcome)
    (hreply : service.replies ref = some reply) (session_id : SessionId) :
    (service.settle ref outcome reply).inflight session_id =
      if (reply.resume outcome).pending = [] ∧ service.inflight session_id = some ref then none
      else service.inflight session_id := by
  rw [settle_inflight]
  by_cases hsession : session_id = reply.ctx.session_id
  · subst hsession
    split
    · exact Function.update_self ..
    · rfl
  · have hother : service.inflight session_id ≠ some ref := by
      intro hentry
      obtain ⟨current, hcurrent, hlive⟩ := (h.live session_id ref).mp hentry
      obtain rfl := Option.some.inj (hreply.symm.trans hcurrent)
      exact hsession hlive.1.symm
    rw [if_neg (not_and_of_not_right _ hother)]
    split
    · exact Function.update_of_ne hsession ..
    · rfl

theorem Tracks.settle (h : service.Tracks) (outcome : Outcome)
    (hreply : service.replies ref = some reply) (hpending : reply.pending ≠ []) :
    (service.settle ref outcome reply).Tracks := by
  obtain ⟨horigin, haborted⟩ := Reply.resume_keeps outcome reply
  have hctx := Reply.ctx_of_origin horigin
  constructor
  · intro session_id other
    rw [h.settle_entry outcome hreply, settle_replies]
    by_cases hother : other = ref
    · subst hother
      have hbefore : service.inflight session_id = some other ↔ reply.Live session_id := by
        rw [h.live, hreply]
        simp
      have hafter : (reply.resume outcome).Live session_id ↔
          (reply.resume outcome).pending ≠ [] ∧ service.inflight session_id = some other := by
        rw [hbefore, Reply.Live, Reply.Live, hctx, haborted]
        tauto
      rw [if_pos rfl, hreply, Option.map_some]
      simp only [Option.some.injEq, exists_eq_left']
      rw [hafter]
      by_cases hdone : (reply.resume outcome).pending = []
      · simp [hdone]
      · simp [hdone]
    · rw [if_neg hother, ← h.live]
      split
      case isTrue hentry =>
          rw [hentry.2]
          simp [Ne.symm hother]
      case isFalse => exact Iff.rfl
  · intro session_id current newer other hentry hlt hother
    rw [h.settle_entry outcome hreply] at hentry
    split at hentry
    · cases hentry
    · rw [settle_replies] at hother
      split at hother
      case isTrue hnewer =>
          rw [hreply] at hother
          obtain rfl := Option.some.inj hother
          rw [hctx]
          exact h.newest session_id current ref reply hentry (hnewer ▸ hlt) hreply
      case isFalse => exact h.newest session_id current newer other hentry hlt hother

theorem Steps.tracks (h : Steps provider service action next) (hfresh : service.Fresh)
    (htracks : service.Tracks) : next.Tracks := by
  cases h with
  | ignored => exact htracks
  | speaks conn ctx text language hsegments => exact htracks.speak hfresh conn ctx hsegments language
  | cancels target => exact htracks.cancel target
  | settles current outcome awaited hawaited hpending => exact htracks.settle outcome hawaited hpending

/-! ## Runs -/

structure Inv (provider : TtsProvider) (service : TtsService) : Prop where
  fresh : service.Fresh
  tracks : service.Tracks
  sound : ∀ ref reply, service.replies ref = some reply → reply.Sound provider

theorem inv_create (provider : TtsProvider) : create.Inv provider where
  fresh _ _ := rfl
  tracks :=
    { live := fun _ _ => by simp [create]
      newest := fun _ _ _ _ hentry => by cases hentry }
  sound _ _ hreply := by cases hreply

/-- Every reply after a step is a new one, or comes from one before by a move. -/
theorem Inv.step_reply (h : service.Inv provider) (hstep : step provider service action = some next)
    (hreply : next.replies ref = some reply) :
    (∃ before, service.replies ref = some before ∧ before.Moves reply) ∨
      ∃ conn ctx text language, action = .speak conn ctx text language ∧
        reply = .start provider conn ctx (segmentText text) language := by
  have hsteps := step_cases hstep
  cases hsteps.origin hreply with
  | inl hbefore =>
      obtain ⟨before, hbefore⟩ := hbefore
      obtain ⟨moved, hmoved, hmoves⟩ := hsteps.moves h.fresh hbefore
      obtain rfl := Option.some.inj (hreply.symm.trans hmoved)
      exact .inl ⟨before, hbefore, hmoves⟩
  | inr hnew =>
      obtain ⟨-, conn, ctx, text, language, haction, -, hstart⟩ := hnew
      exact .inr ⟨conn, ctx, text, language, haction, hstart⟩

theorem Inv.step (h : service.Inv provider) (hstep : step provider service action = some next) :
    next.Inv provider where
  fresh := (step_cases hstep).fresh h.fresh
  tracks := (step_cases hstep).tracks h.fresh h.tracks
  sound ref reply hreply := by
    cases h.step_reply hstep hreply with
    | inl hbefore =>
        obtain ⟨before, hbefore, hmoves⟩ := hbefore
        exact hmoves.sound (h.sound ref before hbefore)
    | inr hnew =>
        obtain ⟨conn, ctx, text, language, -, rfl⟩ := hnew
        exact Reply.start_sound ..

variable {actions later : List Action} {meets : TtsService → Action → Prop}

theorem Inv.run (h : service.Inv provider) (hrun : Run (TtsService.step provider) meets service actions last) :
    last.Inv provider :=
  hrun.invariant (Inv provider) h fun _ _ _ hinv _ hstep => hinv.step hstep

/-- A reply at the end of a run was there at its start, or was started by a `speak` of the run. -/
theorem Inv.run_origin (h : service.Inv provider)
    (hrun : Run (TtsService.step provider) meets service actions last)
    (hreply : last.replies ref = some reply) :
    (∃ before, service.replies ref = some before ∧ reply.origin = before.origin) ∨
      ∃ conn ctx text language, .speak conn ctx text language ∈ actions ∧
        reply.origin = (conn, ctx, segmentText text, language) := by
  induction hrun with
  | nil => exact .inl ⟨reply, hreply, rfl⟩
  | cons _ hstep _ ih =>
      cases ih (h.step hstep) hreply with
      | inl hmiddle =>
          obtain ⟨middle, hmiddle, horigin⟩ := hmiddle
          cases h.step_reply hstep hmiddle with
          | inl hbefore =>
              obtain ⟨before, hbefore, hmoves⟩ := hbefore
              exact .inl ⟨before, hbefore, horigin.trans hmoves.origin⟩
          | inr hnew =>
              obtain ⟨conn, ctx, text, language, rfl, rfl⟩ := hnew
              exact .inr ⟨conn, ctx, text, language, List.mem_cons_self,
                horigin.trans (Reply.start_origin ..)⟩
      | inr hspoken =>
          obtain ⟨conn, ctx, text, language, hmem, horigin⟩ := hspoken
          exact .inr ⟨conn, ctx, text, language, List.mem_cons_of_mem _ hmem, horigin⟩

/-- A silenced reply stays silenced, and sends nothing. -/
theorem Inv.run_silenced (h : service.Inv provider)
    (hrun : Run (TtsService.step provider) meets service actions last)
    (hreply : service.replies ref = some reply) (hsilenced : reply.Silenced) :
    ∃ after, last.replies ref = some after ∧ after.frames = reply.frames := by
  induction hrun generalizing reply with
  | nil => exact ⟨reply, hreply, rfl⟩
  | cons _ hstep _ ih =>
      obtain ⟨moved, hmoved, hmoves⟩ := (step_cases hstep).moves h.fresh hreply
      obtain ⟨hmovedSilenced, hframes⟩ := hmoves.silenced hsilenced
      obtain ⟨after, hafter, hafterFrames⟩ := ih (h.step hstep) hmoved hmovedSilenced
      exact ⟨after, hafter, hafterFrames.trans hframes⟩

/-- The calls that silence the replies of a session: one that starts a newer reply, which sends
its `audio_start` at once, and a cancel. -/
def Supersedes (session_id : SessionId) : Action → Prop
  | .speak _ ctx text _ => ctx.session_id = session_id ∧ segmentText text ≠ []
  | .cancel cancelled => cancelled = session_id
  | .settles .. => False

theorem Tracks.abortInflight_silences (h : service.Tracks) (hreply : service.replies ref = some reply)
    (hsession : reply.ctx.session_id = session_id) :
    ∃ moved, (service.abortInflight session_id).replies ref = some moved ∧ moved.Silenced ∧
      moved.frames = reply.frames := by
  rw [abortInflight_replies, hreply]
  split
  case isTrue => exact ⟨reply.abort, rfl, .inl rfl, rfl⟩
  case isFalse hentry =>
      refine ⟨reply, rfl, ?_, rfl⟩
      by_contra hnot
      exact hentry ((h.live session_id ref).mpr
        ⟨reply, hreply, hsession ▸ Reply.live_of_not_silenced hnot⟩)

theorem Inv.supersede (h : service.Inv provider)
    (hstep : TtsService.step provider service action = some next)
    (hsupersedes : Supersedes session_id action) (hreply : service.replies ref = some reply)
    (hsession : reply.ctx.session_id = session_id) :
    ∃ moved, next.replies ref = some moved ∧ moved.Silenced ∧ moved.frames = reply.frames := by
  have hsilences := h.tracks.abortInflight_silences hreply hsession
  cases step_cases hstep with
  | ignored conn ctx text language hnone => exact absurd hnone hsupersedes.2
  | speaks conn ctx text language =>
      obtain rfl := hsupersedes.1
      dsimp only
      rwa [Function.update_of_ne (h.fresh.lt hreply).ne]
  | cancels target =>
      obtain rfl := hsupersedes
      rwa [cancel_replies]
  | settles => exact hsupersedes.elim

/-- The frames of every reply follow the protocol; a newer reply or a cancel ends those of the
older replies of its session; and the entry of a session in flight is its newest reply, which
has not finished. -/
theorem replies_follow_protocol
    (h : Run (step provider) (fun _ _ => True) create actions service) :
    (∀ ref reply, service.replies ref = some reply →
      (∃ text, .speak reply.conn reply.ctx text reply.language ∈ actions ∧
        reply.segments = segmentText text) ∧
      ∃ audio closing, reply.FollowsProtocol provider audio closing) ∧
    (∀ session_id action next later last, Supersedes session_id action →
      step provider service action = some next →
      Run (step provider) (fun _ _ => True) next later last →
      ∀ ref reply, service.replies ref = some reply → reply.ctx.session_id = session_id →
        ∃ after, last.replies ref = some after ∧ after.frames = reply.frames) ∧
    ∀ session_id ref, service.inflight session_id = some ref →
      (∃ reply, service.replies ref = some reply ∧ reply.ctx.session_id = session_id ∧
        reply.pending ≠ []) ∧
      ∀ newer reply, ref < newer → service.replies newer = some reply →
        reply.ctx.session_id ≠ session_id := by
  have hinv := (inv_create provider).run h
  refine ⟨?_, ?_, ?_⟩
  · intro ref reply hreply
    refine ⟨?_, (hinv.sound ref reply hreply).1⟩
    cases (inv_create provider).run_origin h hreply with
    | inl hbefore =>
        obtain ⟨before, hbefore, -⟩ := hbefore
        cases hbefore
    | inr hspoken =>
        obtain ⟨conn, ctx, text, language, hmem, horigin⟩ := hspoken
        simp only [Reply.origin, Prod.mk.injEq] at horigin
        obtain ⟨rfl, rfl, hsegments, rfl⟩ := horigin
        exact ⟨text, hmem, hsegments⟩
  · intro session_id action next later last hsupersedes hstep hrun ref reply hreply hsession
    obtain ⟨moved, hmoved, hsilenced, hframes⟩ :=
      hinv.supersede hstep hsupersedes hreply hsession
    obtain ⟨after, hafter, hafterFrames⟩ :=
      (hinv.step hstep).run_silenced hrun hmoved hsilenced
    exact ⟨after, hafter, hafterFrames.trans hframes⟩
  · intro session_id ref hentry
    obtain ⟨reply, hreply, hsession, -, hpending⟩ := (hinv.tracks.live session_id ref).mp hentry
    exact ⟨⟨reply, hreply, hsession, hpending⟩,
      fun newer other => hinv.tracks.newest session_id ref newer other hentry⟩

/-- Two replies on one session: the first is superseded in its second segment. -/
def bargeIn : List Action :=
  let conn : ClientConnection := ⟨0, "s1", "cart_1", 1⟩
  [.speak conn ⟨"s1", "r1"⟩ (codeUnits "One. Two.") "en",
    .settles 0 (.resolved [0xde, 0xad]),
    .speak conn ⟨"s1", "r2"⟩ (codeUnits "Hi.") "en",
    .settles 0 (.resolved [0xbe, 0xef]),
    .settles 1 (.resolved [1])]

theorem replies_follow_protocol_barge_in :
    ∃ service : TtsService,
      (service.replies 0).any (fun reply => reply.frames.length = 2) ∧
      (service.replies 1).any (fun reply => reply.frames.length = 3) ∧
      (∀ ref reply, service.replies ref = some reply →
        ∃ audio closing, reply.FollowsProtocol ⟨"mp3", none⟩ audio closing) ∧
      service.inflight "s1" = none := by
  have hrun : ∃ service, Run (step ⟨"mp3", none⟩) (fun _ _ => True) create bargeIn service ∧
      ((service.replies 0).any (fun reply => reply.frames.length = 2) &&
        (service.replies 1).any (fun reply => reply.frames.length = 3) &&
        service.inflight "s1" = none) = true :=
    exists_run (by decide +kernel)
  obtain ⟨service, hrun, hlast⟩ := hrun
  simp only [Bool.and_eq_true, decide_eq_true_eq] at hlast
  exact ⟨service, hlast.1.1, hlast.1.2,
    fun ref reply hreply => ((replies_follow_protocol hrun).1 ref reply hreply).2, hlast.2⟩

end TtsService

end VoiceOrder.Tts
