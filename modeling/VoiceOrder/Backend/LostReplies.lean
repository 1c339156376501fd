import VoiceOrder.Backend.Serial

/-! # Replies that are lost

A call that throws may have taken effect all the same: the store has done it, and the reply was
lost on the way back. -/

namespace VoiceOrder.Backend

open Async Runs VoiceOrder.CartModule

/-- What a write answers; the stores do not depend on it. -/
def Call.ack? : (call : Call) → Option (Answer call)
  | .setCart _ => some ()
  | .markProcessed _ _ => some ()
  | .commitApplied _ _ => some ()
  | .commitCreated _ => some ()
  | .confirmOrder _ => some 0
  | _ => none

/-- How a call has ended at the store when the caller hears the reply. The errors of a run are
arbitrary, so `lost` says of each failure of a write whether it took effect. -/
def atStore (lost : AppError → Bool) (call : Call) :
    Except AppError (Answer call) → Except AppError (Answer call)
  | .ok answer => .ok answer
  | .error error =>
      match call.ack?, lost error with
      | some answer, true => .ok answer
      | _, _ => .error error

def lossy {σ : Type} (lost : AppError → Bool) (handle : Handler Answer AppError σ) :
    Handler Answer AppError σ :=
  fun state call reply => handle state call (atStore lost call reply)

/-- The backend on stores whose replies may be lost. -/
def lossyBackend (lost : AppError → Bool) (ttsLanguage : LangCode) :
    Design Answer Event AppError LaneKey Job Store :=
  { backend ttsLanguage with handle := lossy lost handle }

section

variable {lost : AppError → Bool} {call : Call}

theorem atStore_reads (h : call.writes = false) (reply : Except AppError (Answer call)) :
    atStore lost call reply = reply := by
  have hack : call.ack? = none := by
    cases call with
    | setCart | markProcessed | commitApplied | commitCreated | confirmOrder => cases h
    | _ => rfl
  cases reply with
  | ok answer => rfl
  | error error => simp [atStore, hack]

/-- A call has taken effect, or it has none and the caller knows. -/
theorem atStore_cases (lost : AppError → Bool) (reply : Except AppError (Answer call)) :
    (∃ answer, atStore lost call reply = .ok answer) ∨
      ∃ error, reply = .error error ∧ atStore lost call reply = .error error := by
  cases reply with
  | ok answer => exact .inl ⟨answer, rfl⟩
  | error error =>
      simp only [atStore]
      split
      · exact .inl ⟨_, rfl⟩
      · exact .inr ⟨error, rfl, rfl⟩

theorem atStore_never (reply : Except AppError (Answer call)) :
    atStore (fun _ => false) call reply = reply := by
  cases reply with
  | ok answer => rfl
  | error error => simp [atStore]

/-- Where no reply is lost, a call that throws has no effect. -/
theorem lossyBackend_never (ttsLanguage : LangCode) :
    lossyBackend (fun _ => false) ttsLanguage = backend ttsLanguage := by
  have hhandle : lossy (fun _ => false) handle = handle := by
    funext store call reply
    rw [lossy, atStore_never]
  rw [lossyBackend, hhandle]
  rfl

end

/-! ## Rules -/

section

variable {lost : AppError → Bool} {cartId : CartId} {α β : Type} {view : Store} {trace : Trace}
  {always : Store → Prop}

/-- What a program of a cart's lane does where replies may be lost. -/
abbrev OnLossyLane (lost : AppError → Bool) (cartId : CartId) (always : Store → Prop)
    (post : Except AppError α → Store → Prop) (program : Promise α) (view : Store)
    (trace : Trace) : Prop :=
  Holds (lossy lost (laneHandle anyOwner (.apply cartId))) (footprint anyOwner (.apply cartId))
    (fun view _ => always view) (fun result view _ => post result view) program view trace

/-- The program has left the view as it is, and what it returned satisfies the predicate. -/
def Looked (view : Store) (returns : α → Prop) (result : Except AppError α) (after : Store) :
    Prop :=
  after = view ∧ ∀ value, result = .ok value → returns value

theorem lossy_reads {call : Call} {reply : Except AppError (Answer call)} {next : Store}
    (hlocal : view.Local anyOwner cartId) (hwrites : call.writes = false)
    (hnext : lossy lost (laneHandle anyOwner (.apply cartId)) view call reply = some next) :
    next = view := by
  rw [lossy, atStore_reads hwrites] at hnext
  exact laneHandle_reads hlocal hwrites hnext

theorem looked_call {call : Call} {returns : Answer call → Prop}
    (hlocal : view.Local anyOwner cartId) (hnow : always view)
    (hcall : (footprint anyOwner (.apply cartId)).calls call) (hwrites : call.writes = false)
    (hreturns : ∀ answer next,
      laneHandle anyOwner (.apply cartId) view call (.ok answer) = some next → returns answer) :
    OnLossyLane lost cartId always (Looked view returns) (ask call) view trace := by
  refine .call hnow hcall fun reply next hnext => ?_
  obtain rfl := lossy_reads hlocal hwrites hnext
  refine ⟨hnow, rfl, fun answer heq => ?_⟩
  subst heq
  exact hreturns answer _ hnext

theorem looked_reads {returns : α → Prop} {program : Promise α}
    (hlocal : view.Local anyOwner cartId) (hnow : always view)
    (hreads : Reads Call.Lookup returns program) :
    OnLossyLane lost cartId always (Looked view returns) program view trace := by
  refine .reads hreads (fun call hcall => ?_)
    (fun call reply next hcall => lossy_reads hlocal hcall.writes) (fun _ _ => hnow)
    (fun value _ hvalue _ => ⟨rfl, fun other heq => ?_⟩)
    fun call error _ _ _ => ⟨hnow, rfl, fun _ heq => (nomatch heq)⟩
  · cases call with
    | resolveItemKey | findByTmplId | getItems | newLineId | nowIso => trivial
    | _ => exact hcall.elim
  · cases heq
    exact hvalue

theorem looked_bind {returns : α → Prop} {program : Promise α} {next : α → Promise β}
    {post : Except AppError β → Store → Prop}
    (h : OnLossyLane lost cartId always (Looked view returns) program view trace)
    (hnext : ∀ value trace, returns value →
      OnLossyLane lost cartId always post (next value) view trace)
    (herror : ∀ error, post (.error error) view) :
    OnLossyLane lost cartId always post (program >>= next) view trace := by
  refine .bind (h.mono (fun _ _ hnow => hnow) fun result after trace _ hlooked => ?_)
  obtain ⟨rfl, hvalue⟩ := hlooked
  cases result with
  | ok value => exact hnext value trace (hvalue value rfl)
  | error error => exact herror error

end

end VoiceOrder.Backend
