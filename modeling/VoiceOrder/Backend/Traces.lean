import VoiceOrder.Backend.LaneViews

/-! # What a job has done so far -/

namespace VoiceOrder.Backend

open Async VoiceOrder.CartModule

abbrev Step : Type := Entry Answer Event AppError

abbrev Trace : Type := List Step

/-- The events that were published, in order. -/
def published (trace : Trace) : List Event := trace.filterMap Entry.event?

/-- The call of a step, if it was a write that took effect. -/
def landed? : Step → Option Call
  | .called call (.ok _) => if call.writes then some call else none
  | _ => none

/-- The writes that took effect, in order. -/
def landed (trace : Trace) : List Call := trace.filterMap landed?

/-- The one call whose failure the caller gets over. -/
def Call.bestEffort : Call → Bool
  | .quoteCart _ => true
  | _ => false

/-- The calls that threw, the best-effort quote apart. -/
def failures (trace : Trace) : List Call :=
  (trace.filterMap Entry.failed?).filter fun call => ¬call.bestEffort

section

variable (trace later : Trace) (call : Call) (answer : Answer call) (error : AppError)
  (event : Event)

@[simp] theorem published_append :
    published (trace ++ later) = published trace ++ published later := by simp [published]

@[simp] theorem landed_append : landed (trace ++ later) = landed trace ++ landed later := by
  simp [landed]

@[simp] theorem failures_append :
    failures (trace ++ later) = failures trace ++ failures later := by simp [failures]

@[simp] theorem published_nil : published [] = [] := rfl

@[simp] theorem landed_nil : landed [] = [] := rfl

@[simp] theorem failures_nil : failures [] = [] := rfl

@[simp] theorem published_called (reply : Except AppError (Answer call)) :
    published [.called call reply] = [] := rfl

@[simp] theorem published_emitted : published [.emitted event] = [event] := rfl

@[simp] theorem landed_emitted : landed [.emitted event] = [] := rfl

@[simp] theorem landed_error : landed [.called call (.error error)] = [] := rfl

theorem landed_ok :
    landed [.called call (.ok answer)] = if call.writes then [call] else [] := by
  cases h : call.writes <;> simp [landed, landed?, h]

@[simp] theorem failures_emitted : failures [.emitted event] = [] := rfl

@[simp] theorem failures_ok : failures [.called call (.ok answer)] = [] := rfl

theorem failures_error :
    failures [.called call (.error error)] = if call.bestEffort then [] else [call] := by
  cases h : call.bestEffort <;> simp [failures, Entry.failed?, h]

end

/-! ## Lookups -/

/-- The calls that look something up and are not tied to a cart. -/
def Call.Lookup : Call → Prop
  | .resolveItemKey _ _ | .findByTmplId _ _ | .getItems _ _ | .newLineId | .nowIso => True
  | _ => False

theorem Call.Lookup.writes {call : Call} (h : call.Lookup) : call.writes = false := by
  cases call with
  | resolveItemKey | findByTmplId | getItems | newLineId | nowIso => rfl
  | _ => exact h.elim

theorem Call.Lookup.bestEffort {call : Call} (h : call.Lookup) : call.bestEffort = false := by
  cases call with
  | quoteCart => exact h.elim
  | _ => rfl

/-- Nothing has been published or written, and nothing has failed. -/
structure Quiet (trace : Trace) : Prop where
  published : published trace = []
  landed : landed trace = []
  failures : failures trace = []

/-- Nothing has been published or written, and a call has failed. -/
structure Failed (trace : Trace) : Prop where
  published : published trace = []
  landed : landed trace = []
  failures : failures trace ≠ []

/-- One write has landed; nothing has been published, and nothing has failed. -/
structure Wrote (call : Call) (trace : Trace) : Prop where
  published : published trace = []
  landed : landed trace = [call]
  failures : failures trace = []

namespace Quiet

variable {trace later : Trace} {call : Call}

theorem nil : Quiet [] := ⟨rfl, rfl, rfl⟩

theorem append (h : Quiet trace) (hlater : Quiet later) : Quiet (trace ++ later) where
  published := by rw [published_append, h.published, hlater.published]; rfl
  landed := by rw [landed_append, h.landed, hlater.landed]; rfl
  failures := by rw [failures_append, h.failures, hlater.failures]; rfl

theorem called (h : Quiet trace) (hcall : call.writes = false) (answer : Answer call) :
    Quiet (trace ++ [.called call (.ok answer)]) :=
  h.append ⟨rfl, by rw [landed_ok, hcall]; rfl, rfl⟩

theorem wrote (h : Quiet trace) (hcall : call.writes = true) (answer : Answer call) :
    Wrote call (trace ++ [.called call (.ok answer)]) where
  published := by rw [published_append, h.published]; rfl
  landed := by rw [landed_append, h.landed, landed_ok, hcall]; rfl
  failures := by rw [failures_append, h.failures]; rfl

theorem failed (h : Quiet trace) (hcall : call.bestEffort = false) (error : AppError) :
    Failed (trace ++ [.called call (.error error)]) where
  published := by rw [published_append, h.published]; rfl
  landed := by rw [landed_append, h.landed]; rfl
  failures := by rw [failures_append, h.failures, failures_error, hcall]; exact List.cons_ne_nil _ _

/-- Lookups that answered leave nothing behind. -/
theorem fetched (h : Fetched Call.Lookup trace) : Quiet trace := by
  induction trace with
  | nil => exact .nil
  | cons step trace ih =>
      obtain ⟨call, answer, hlookup, rfl⟩ := h step List.mem_cons_self
      exact (Quiet.nil.called hlookup.writes answer).append
        (ih fun later hmem => h later (List.mem_cons_of_mem _ hmem))

end Quiet

/-! ## Rules for the part of a job that writes nothing -/

section

variable {owner : Owner} {cartId : CartId} {α β : Type} {view : Store} {trace : Trace}
  {always : Store → Trace → Prop}

/-- The program has left the view as it is; it returned a value that satisfies the predicate,
or a call failed. -/
def Looks (view : Store) (returns : α → Prop) : Except AppError α → Store → Trace → Prop
  | .ok value, after, trace => after = view ∧ Quiet trace ∧ returns value
  | .error _, after, trace => after = view ∧ Failed trace

/-- What a program of a cart's lane does from a moment on. -/
abbrev OnLane (owner : Owner) (cartId : CartId) (always : Store → Trace → Prop)
    (post : Except AppError α → Store → Trace → Prop) (program : Promise α) (view : Store)
    (trace : Trace) : Prop :=
  Holds (laneHandle owner (.apply cartId)) (footprint owner (.apply cartId)) always post program
    view trace

theorem looks_call {call : Call} {returns : Answer call → Prop} (hlocal : view.Local owner cartId)
    (halways : ∀ trace, landed trace = [] → always view trace) (htrace : Quiet trace)
    (hcall : (footprint owner (.apply cartId)).calls call) (hwrites : call.writes = false)
    (heffort : call.bestEffort = false)
    (hreturns : ∀ answer next,
      laneHandle owner (.apply cartId) view call (.ok answer) = some next → returns answer) :
    OnLane owner cartId always (Looks view returns) (ask call) view trace := by
  refine .call (halways _ htrace.landed) hcall fun reply next hnext => ?_
  cases reply with
  | ok answer =>
      have hquiet := htrace.called hwrites answer
      have hsame := laneHandle_reads hlocal hwrites hnext
      exact ⟨hsame ▸ halways _ hquiet.landed, hsame, hquiet, hreturns answer next hnext⟩
  | error error =>
      have hfailed := htrace.failed heffort error
      have hsame := laneHandle_error hlocal hnext
      exact ⟨hsame ▸ halways _ hfailed.landed, hsame, hfailed⟩

theorem looks_reads {returns : α → Prop} {program : Promise α} (hlocal : view.Local owner cartId)
    (halways : ∀ trace, landed trace = [] → always view trace) (htrace : Quiet trace)
    (hreads : Reads Call.Lookup returns program) :
    OnLane owner cartId always (Looks view returns) program view trace := by
  refine .reads hreads ?_ (fun call reply next hcall => laneHandle_reads hlocal hcall.writes)
    (fun fetched hfetched => halways _ (htrace.append (.fetched hfetched)).landed)
    (fun value fetched hvalue hfetched => ⟨rfl, htrace.append (.fetched hfetched), hvalue⟩)
    (fun call error fetched hcall hfetched => ?_)
  · intro call hcall
    cases call with
    | resolveItemKey | findByTmplId | getItems | newLineId | nowIso => trivial
    | _ => exact hcall.elim
  · have hfailed := (htrace.append (.fetched hfetched)).failed hcall.bestEffort error
    exact ⟨halways _ hfailed.landed, rfl, hfailed⟩

theorem writes_call {call : Call} {post : Except AppError (Answer call) → Store → Trace → Prop}
    (hlocal : view.Local owner cartId) (halways : ∀ trace, landed trace = [] → always view trace)
    (htrace : Quiet trace) (hcall : (footprint owner (.apply cartId)).calls call)
    (hwrites : call.writes = true)
    (hok : ∀ answer after trace, handle view call (.ok answer) = some after → Wrote call trace →
      always (after.restrict owner cartId) trace ∧
        post (.ok answer) (after.restrict owner cartId) trace)
    (herror : ∀ error trace, Failed trace → post (.error error) view trace) :
    OnLane owner cartId always post (ask call) view trace := by
  refine .call (halways _ htrace.landed) hcall fun reply next hnext => ?_
  cases reply with
  | ok answer =>
      rw [laneHandle_eq view fun requestId heq => by simp [heq, Call.writes] at hwrites] at hnext
      obtain ⟨after, hafter, rfl⟩ := Option.map_eq_some_iff.mp hnext
      exact hok answer after _ hafter (htrace.wrote hwrites answer)
  | error error =>
      have heffort : call.bestEffort = false := by
        cases call with
        | quoteCart => cases hwrites
        | _ => rfl
      have hfailed := htrace.failed heffort error
      have hsame := laneHandle_error hlocal hnext
      subst hsame
      exact ⟨halways _ hfailed.landed, herror error _ hfailed⟩

theorem looks_bind {returns : α → Prop} {program : Promise α} {next : α → Promise β}
    {post : Except AppError β → Store → Trace → Prop}
    (h : OnLane owner cartId always (Looks view returns) program view trace)
    (hnext : ∀ value trace, returns value → Quiet trace →
      OnLane owner cartId always post (next value) view trace)
    (herror : ∀ error trace, Failed trace → post (.error error) view trace) :
    OnLane owner cartId always post (program >>= next) view trace := by
  refine .bind (h.mono (fun _ _ hnow => hnow) fun result after trace _ hlooks => ?_)
  cases result with
  | ok value =>
      obtain ⟨rfl, hquiet, hvalue⟩ := hlooks
      exact hnext value trace hvalue hquiet
  | error error =>
      obtain ⟨rfl, hfailed⟩ := hlooks
      exact herror error trace hfailed

end

end VoiceOrder.Backend
