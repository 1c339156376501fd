import VoiceOrder.Backend.LaneViews
import VoiceOrder.Redis.StoreAgreement

/-! # The backend on the Redis pair

The stores that the backend runs on are those of the in-memory pair. Replayed on Redis, the calls
of a run get the replies that the run saw, as long as no cart shares a key with a request. -/

namespace VoiceOrder.Redis

open Async Runs CartModule
open Backend (Store Call Answer handle backend)

/-- The call of a store that the backend awaits. -/
def opOf? : Call → Option Op
  | .getCart cartId => some (.get cartId)
  | .setCart cart => some (.set cart)
  | .wasProcessed requestId => some (.wasProcessed requestId)
  | .markProcessed requestId outcome => some (.markProcessed requestId outcome)
  | .commitApplied cart requestId => some (.commitApplied cart requestId)
  | .commitCreated cart => some (.commitCreated cart)
  | _ => none

def resultOf : (call : Call) → Answer call → Result
  | .getCart _, found => .cart found
  | .wasProcessed _, processed => .processed processed
  | _, _ => .done

/-- The carts, the ledger and the device index of the backend's stores. -/
structure Represents (store : Store) (memory : InMemory) : Prop where
  carts : memory.store = store.carts
  ledger : memory.processed = store.ledger
  devices : ∀ deviceId, (memory.byDevice deviceId).getD [] = store.devices deviceId

section

variable {store next : Store} {memory : InMemory} {call : Call} {answer : Answer call}

theorem represents_create : Represents .empty .create := ⟨rfl, rfl, fun _ => rfl⟩

theorem Represents.set (h : Represents store memory) (cart : Cart) :
    Represents (store.setCart cart) (memory.set cart) :=
  ⟨by rw [InMemory.set, h.carts]; rfl, h.ledger, h.devices⟩

theorem Represents.mark (h : Represents store memory) (requestId : RequestId)
    (outcome : Backend.LedgerOutcome) :
    Represents (store.mark requestId outcome) (memory.mark requestId outcome) :=
  ⟨h.carts, by rw [InMemory.mark, h.ledger]; rfl, h.devices⟩

theorem Represents.index (h : Represents store memory) (cart : Cart)
    (tables : RestaurantTableId → List CartId) :
    Represents { store with
        devices := Store.index store.devices cart.deviceId cart.cartId
        tables := tables } (memory.index cart) := by
  unfold InMemory.index
  cases cart.deviceId with
  | none => exact ⟨h.carts, h.ledger, h.devices⟩
  | some deviceId =>
      refine ⟨h.carts, h.ledger, fun other => ?_⟩
      by_cases heq : other = deviceId
      · subst heq
        simp [Store.index, h.devices]
      · simp [Store.index, heq, h.devices]

/-- A call of the stores does, and is answered, what it is on the in-memory pair. -/
theorem Represents.asked (h : Represents store memory) {op : Op} (hop : opOf? call = some op)
    (hhandle : handle store call (.ok answer) = some next) :
    Represents next (memory.step op).2 ∧ (memory.step op).1 = resultOf call answer := by
  cases call with
  | getCart cartId =>
      cases hop
      obtain ⟨hfound, heq⟩ := Option.ite_none_right_eq_some.mp hhandle
      cases heq
      exact ⟨h, by rw [InMemory.step, h.carts, resultOf, hfound]⟩
  | setCart cart =>
      cases hop
      cases hhandle
      exact ⟨h.set cart, rfl⟩
  | wasProcessed requestId =>
      cases hop
      obtain ⟨hprocessed, heq⟩ := Option.ite_none_right_eq_some.mp hhandle
      cases heq
      exact ⟨h, by rw [InMemory.step, h.ledger, resultOf, hprocessed]⟩
  | markProcessed requestId outcome =>
      cases hop
      cases hhandle
      exact ⟨h.mark requestId outcome, rfl⟩
  | commitApplied cart requestId =>
      cases hop
      cases hhandle
      exact ⟨((h.set cart).index cart _).mark requestId .applied, rfl⟩
  | commitCreated cart =>
      cases hop
      cases hhandle
      exact ⟨(h.set cart).index cart _, rfl⟩
  | confirmOrder | quoteCart | resolveItemKey | findByTmplId | getItems | newLineId | nowIso
  | readHistory | appendHistory | completeIntent | runAgent => cases hop

/-- The other calls leave the carts, the ledger and the indexes as they are. -/
theorem Represents.other (h : Represents store memory) (hop : opOf? call = none)
    (hhandle : handle store call (.ok answer) = some next) : Represents next memory := by
  cases call with
  | getCart | setCart | wasProcessed | markProcessed | commitApplied | commitCreated => cases hop
  | confirmOrder cart =>
      obtain ⟨-, heq⟩ := Option.ite_none_right_eq_some.mp hhandle
      cases heq
      exact ⟨h.carts, h.ledger, h.devices⟩
  | readHistory pos cartId =>
      obtain ⟨-, heq⟩ := Option.ite_none_right_eq_some.mp hhandle
      cases heq
      exact h
  | appendHistory pos cartId turn =>
      cases hhandle
      exact ⟨h.carts, h.ledger, h.devices⟩
  | quoteCart | resolveItemKey | findByTmplId | getItems | newLineId | nowIso | completeIntent
  | runAgent =>
      cases hhandle
      exact h

end

/-! ## Runs of the backend -/

/-- A call of the stores that succeeds, with its result. -/
def asked? : Backend.Action → Option (Op × Result)
  | .reply _ call (.ok answer) => (opOf? call).map fun op => (op, resultOf call answer)
  | _ => none

def asked (actions : List Backend.Action) : List (Op × Result) := actions.filterMap asked?

section

variable {ttsLanguage : LangCode}
  {meets : Machine Answer Backend.Event Backend.AppError Backend.LaneKey Backend.Job Store →
    Backend.Action → Prop}
  {machine last : Machine Answer Backend.Event Backend.AppError Backend.LaneKey Backend.Job Store}
  {actions : List Backend.Action} {memory : InMemory}

theorem results_of_run (h : Run (Machine.step (backend ttsLanguage)) meets machine actions last)
    (hrepresents : Represents machine.state memory) :
    memory.results ((asked actions).map Prod.fst) = (asked actions).map Prod.snd := by
  induction h generalizing memory with
  | nil => rfl
  | @cons machine next last action actions _ hstep _ ih =>
      by_cases hreply : ∀ lane call reply, action ≠ .reply lane call reply
      · have hasked : asked? action = none := by
          cases action with
          | reply lane call reply => exact (hreply lane call reply rfl).elim
          | submit | begin | emit | finish => rfl
        rw [asked, List.filterMap_cons_none hasked]
        exact ih (Machine.step_state hstep hreply ▸ hrepresents)
      · push Not at hreply
        obtain ⟨lane, call, reply, rfl⟩ := hreply
        obtain ⟨-, -, -, -, hhandle, -⟩ := Machine.reply_some hstep
        cases reply with
        | error error =>
            rw [asked, List.filterMap_cons_none rfl]
            exact ih (Backend.handle_error hhandle ▸ hrepresents)
        | ok answer =>
            cases hop : opOf? call with
            | none =>
                rw [asked, List.filterMap_cons_none (by rw [asked?, hop, Option.map_none])]
                exact ih (hrepresents.other hop hhandle)
            | some op =>
                obtain ⟨hnext, hresult⟩ := hrepresents.asked hop hhandle
                rw [asked, List.filterMap_cons_some (by rw [asked?, hop, Option.map_some])]
                simp only [List.map_cons, InMemory.results, hresult]
                exact congrArg _ (ih hnext)

/-- Only lists of orders may come in another order. -/
theorem eq_of_same {results answers : List Result} (h : List.Forall₂ Result.Same results answers)
    (hplain : ∀ answer ∈ answers, ∀ carts, answer ≠ .orders carts) : results = answers := by
  induction h with
  | nil => rfl
  | @cons result answer results answers hsame _ ih =>
      have heq : result = answer := by
        unfold Result.Same at hsame
        split at hsame
        · exact (hplain _ List.mem_cons_self _ rfl).elim
        · exact hsame
      rw [heq, ih fun other hother => hplain other (List.mem_cons_of_mem _ hother)]

/-- The backend never asks for the orders of a device. -/
theorem asked_plain {answer : Result} (h : answer ∈ (asked actions).map Prod.snd)
    (carts : List Cart) : answer ≠ .orders carts := by
  obtain ⟨asked, hmem, rfl⟩ := List.mem_map.mp h
  obtain ⟨action, -, hasked⟩ := List.mem_filterMap.mp hmem
  cases action with
  | submit | begin | emit | finish => cases hasked
  | reply lane call reply =>
      cases reply with
      | error error => cases hasked
      | ok value =>
          obtain ⟨op, -, rfl⟩ := Option.map_eq_some_iff.mp hasked
          cases call <;> exact fun heq => (nomatch heq)

/-- As long as no cart of a run of the backend shares a key with a request, its calls of the
stores, made on the Redis pair, get the replies that they got in the run. -/
theorem redis_replies (enumeration : Enumeration)
    (h : Run (Machine.step (backend ttsLanguage)) meets (.create .empty) actions last)
    (hne : ∀ op ∈ (asked actions).map Prod.fst, ∀ cartId ∈ op.cart?, ∀ requestId,
      sharedId requestId ≠ cartId) :
    redisResults enumeration (fun _ => none) ((asked actions).map Prod.fst) =
      some ((asked actions).map Prod.snd) := by
  obtain ⟨results, hresults, hsame⟩ := agree_of_unshared enumeration hne
  rw [results_of_run h represents_create] at hsame
  rw [hresults, eq_of_same hsame fun _ => asked_plain]

end

end VoiceOrder.Redis
