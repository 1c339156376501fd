import VoiceOrder.Async.Lanes

/-! # Calls that are due

A footprint says which calls a program may make at all. Here a call must be due in the state
and after the entries in which it is made, and what a due call keeps holds throughout. -/

namespace Async

section

variable {Call : Type} {Answer : Call → Type} {Event Error α β σ : Type}

/-- The calls that a program may make in a state and after what it has done, and the events
that it may emit. -/
structure Dues {Call : Type} (Answer : Call → Type) (Event Error σ : Type) where
  calls : σ → List (Entry Answer Event Error) → Call → Prop
  events : Event → Prop

/-- In every run of a program from a state each call is due where it is made. -/
def Due (handle : Handler Answer Error σ) (due : Dues Answer Event Error σ) :
    Program Answer Event Error α → σ → List (Entry Answer Event Error) → Prop
  | .done _, _, _ => True
  | .throw _, _, _ => True
  | .emit event rest, state, entries =>
      due.events event ∧ Due handle due rest state (entries ++ [.emitted event])
  | .await call resume, state, entries =>
      due.calls state entries call ∧ ∀ reply next, handle state call reply = some next →
        Due handle due (resume reply) next (entries ++ [.called call reply])

namespace Due

variable {handle : Handler Answer Error σ} {due : Dues Answer Event Error σ}
  {program last : Program Answer Event Error α} {state final : σ}
  {entries later : List (Entry Answer Event Error)} {footprint : Footprint Call Event}
  {always : σ → List (Entry Answer Event Error) → Prop}
  {post : Except Error α → σ → List (Entry Answer Event Error) → Prop}

theorem call {call : Call} (h : due.calls state entries call) :
    Due handle due (Program.call call) state entries := by
  refine ⟨h, fun reply next _ => ?_⟩
  cases reply with
  | ok answer => trivial
  | error error => trivial

theorem send {event : Event} (h : due.events event) :
    Due handle due (Program.send event) state entries := ⟨h, trivial⟩

/-- The rule of sequencing: the second program is due wherever the first one can end. -/
theorem bind {next : α → Program Answer Event Error β}
    (h : Due handle due program state entries)
    (hends : Holds handle footprint always post program state entries)
    (hnext : ∀ value state entries, post (.ok value) state entries →
      Due handle due (next value) state entries) :
    Due handle due (program >>= next) state entries := by
  induction program generalizing state entries with
  | done value => exact hnext value state entries hends.2
  | throw error => trivial
  | emit event rest ih => exact ⟨h.1, ih h.2 hends.2.2⟩
  | await call resume ih =>
      exact ⟨h.1, fun reply after hafter => ih reply (h.2 reply after hafter)
        (hends.2.2 reply after hafter)⟩

/-- A program that calls first goes on from what the call has answered. -/
theorem call_bind {call : Call} {next : Answer call → Program Answer Event Error β}
    (h : due.calls state entries call)
    (hnext : ∀ answer after, handle state call (.ok answer) = some after →
      Due handle due (next answer) after (entries ++ [.called call (.ok answer)])) :
    Due handle due (Program.call call >>= next) state entries := by
  refine ⟨h, fun reply after hafter => ?_⟩
  cases reply with
  | ok answer => exact hnext answer after hafter
  | error error => trivial

theorem bind_of_all {next : α → Program Answer Event Error β}
    (h : Due handle due program state entries)
    (hnext : ∀ value state entries, Due handle due (next value) state entries) :
    Due handle due (program >>= next) state entries := by
  induction program generalizing state entries with
  | done value => exact hnext value state entries
  | throw error => trivial
  | emit event rest ih => exact ⟨h.1, ih h.2⟩
  | await call resume ih =>
      exact ⟨h.1, fun reply after hafter => ih reply (h.2 reply after hafter)⟩

theorem attempt (h : Due handle due program state entries) :
    Due handle due program.attempt state entries := by
  induction program generalizing state entries with
  | done value => trivial
  | throw error => trivial
  | emit event rest ih => exact ⟨h.1, ih h.2⟩
  | await call resume ih =>
      exact ⟨h.1, fun reply after hafter => ih reply (h.2 reply after hafter)⟩

/-- A program that only makes calls that are due everywhere. -/
theorem reads {kind : Call → Prop} {returns : α → Prop} (h : Reads kind returns program)
    (hkind : ∀ state entries call, kind call → due.calls state entries call) :
    Due handle due program state entries := by
  induction program generalizing state entries with
  | done value => trivial
  | throw error => trivial
  | emit event rest ih => exact h.elim
  | await call resume ih =>
      refine ⟨hkind _ _ _ h.1, fun reply after _ => ?_⟩
      cases reply with
      | ok answer => exact ih _ (h.2.1 answer)
      | error error =>
          rw [h.2.2 error]
          trivial

/-- What is left of a program is due. -/
theorem executes (h : Due handle due program state entries)
    (hexec : Executes handle program state later last final) :
    Due handle due last final (entries ++ later) := by
  induction hexec generalizing entries with
  | here => simpa using h
  | emit _ ih =>
      have := ih h.2
      rwa [List.append_assoc] at this
  | await hcall _ ih =>
      have := ih (h.2 _ _ hcall)
      rwa [List.append_assoc] at this

/-- What every due call keeps holds throughout. -/
theorem holds {Inv : σ → Prop} (h : Due handle due program state entries) (hinv : Inv state)
    (hcalls : ∀ state entries call, due.calls state entries call → footprint.calls call)
    (hevents : ∀ event, due.events event → footprint.events event)
    (hkeep : ∀ state entries call reply next, due.calls state entries call → Inv state →
      handle state call reply = some next → Inv next) :
    Holds handle footprint (fun state _ => Inv state) (fun _ state _ => Inv state) program state
      entries := by
  induction program generalizing state entries with
  | done value => exact ⟨hinv, hinv⟩
  | throw error => exact ⟨hinv, hinv⟩
  | emit event rest ih => exact ⟨hinv, hevents event h.1, ih h.2 hinv⟩
  | await call resume ih =>
      exact ⟨hinv, hcalls _ _ _ h.1, fun reply next hnext =>
        ih reply (h.2 reply next hnext) (hkeep _ _ _ _ _ h.1 hinv hnext)⟩

end Due

end

end Async
