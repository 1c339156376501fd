import Mathlib.Data.Option.Basic
import Mathlib.Data.List.Basic

/-! # Programs that await

A program emits events, awaits calls that answer or throw, and ends with a value or throws
itself. What the calls do is left open. -/

namespace Async

inductive Program {Call : Type} (Answer : Call → Type) (Event Error : Type) (α : Type) : Type where
  | done (value : α)
  | throw (error : Error)
  | emit (event : Event) (rest : Program Answer Event Error α)
  | await (call : Call) (resume : Except Error (Answer call) → Program Answer Event Error α)

/-- One step of a program as it is seen from outside. -/
inductive Entry {Call : Type} (Answer : Call → Type) (Event Error : Type) : Type where
  | called (call : Call) (reply : Except Error (Answer call))
  | emitted (event : Event)

namespace Entry

variable {Call : Type} {Answer : Call → Type} {Event Error : Type}

def event? : Entry Answer Event Error → Option Event
  | .called _ _ => none
  | .emitted event => some event

/-- The call of the entry, if it threw. -/
def failed? : Entry Answer Event Error → Option Call
  | .called call (.error _) => some call
  | _ => none

end Entry

namespace Program

variable {Call : Type} {Answer : Call → Type} {Event Error α β γ : Type}

def bind : Program Answer Event Error α → (α → Program Answer Event Error β) →
    Program Answer Event Error β
  | .done value, next => next value
  | .throw error, _ => .throw error
  | .emit event rest, next => .emit event (rest.bind next)
  | .await call resume, next => .await call fun reply => (resume reply).bind next

instance : Monad (Program Answer Event Error) where
  pure := .done
  bind := bind

/-- Await one call; if it throws, so does the program. -/
def call (call : Call) : Program Answer Event Error (Answer call) :=
  .await call fun
    | .ok answer => .done answer
    | .error error => .throw error

/-- Emit one event. -/
def send (event : Event) : Program Answer Event Error Unit := .emit event (.done ())

/-- Run a program and catch what it throws. -/
def attempt : Program Answer Event Error α → Program Answer Event Error (Except Error α)
  | .done value => .done (.ok value)
  | .throw error => .done (.error error)
  | .emit event rest => .emit event rest.attempt
  | .await call resume => .await call fun reply => (resume reply).attempt

end Program

/-! ## Programs that only read -/

section

variable {Call : Type} {Answer : Call → Type} {Event Error α β : Type}

/-- The program only makes calls of one kind and emits nothing. When one of them throws it
ends with that, and its value satisfies the postcondition. -/
def Reads (reads : Call → Prop) (post : α → Prop) : Program Answer Event Error α → Prop
  | .done value => post value
  | .throw _ => False
  | .emit _ _ => False
  | .await call resume =>
      reads call ∧ (∀ answer, Reads reads post (resume (.ok answer))) ∧
        ∀ error, resume (.error error) = .throw error

/-- Entries of calls of one kind, none of which threw. -/
def Fetched (reads : Call → Prop) (entries : List (Entry Answer Event Error)) : Prop :=
  ∀ entry ∈ entries, ∃ call answer, reads call ∧ entry = .called call (.ok answer)

namespace Reads

variable {reads : Call → Prop} {program : Program Answer Event Error α}

theorem pure {post : α → Prop} {value : α} (h : post value) :
    Reads reads post (Pure.pure value : Program Answer Event Error α) := h

theorem call {call : Call} (h : reads call) :
    Reads reads (fun _ => True) (Program.call call : Program Answer Event Error (Answer call)) :=
  ⟨h, fun _ => trivial, fun _ => rfl⟩

theorem bind {next : α → Program Answer Event Error β} {middle : α → Prop} {post : β → Prop}
    (h : Reads reads middle program) (hnext : ∀ value, middle value → Reads reads post (next value)) :
    Reads reads post (program >>= next) := by
  induction program with
  | done value => exact hnext value h
  | throw error => exact h.elim
  | emit event rest ih => exact h.elim
  | await call resume ih =>
      refine ⟨h.1, fun answer => ih _ (h.2.1 answer), fun error => ?_⟩
      change (resume (.error error)).bind next = .throw error
      rw [h.2.2 error]
      rfl

end Reads

/-- The program only makes calls of one kind and emits nothing. When one of them throws it
ends with that, and its value satisfies a condition together with the entries of its calls. -/
def Fetches (kind : Call → Prop) : Program Answer Event Error α →
    (List (Entry Answer Event Error) → α → Prop) → Prop
  | .done value, returns => returns [] value
  | .throw _, _ => False
  | .emit _ _, _ => False
  | .await call resume, returns =>
      kind call ∧
        (∀ answer, Fetches kind (resume (.ok answer)) fun fetched value =>
          returns (.called call (.ok answer) :: fetched) value) ∧
        ∀ error, resume (.error error) = .throw error

namespace Fetches

variable {kind : Call → Prop} {program : Program Answer Event Error α}
  {returns : List (Entry Answer Event Error) → α → Prop}

theorem pure {value : α} (h : returns [] value) :
    Fetches kind (Pure.pure value : Program Answer Event Error α) returns := h

theorem call {call : Call} (h : kind call) :
    Fetches kind (Program.call call : Program Answer Event Error (Answer call)) fun fetched answer =>
      fetched = [.called call (.ok answer)] :=
  ⟨h, fun _ => rfl, fun _ => rfl⟩

theorem mono {weaker : List (Entry Answer Event Error) → α → Prop}
    (h : Fetches kind program returns) (hweaker : ∀ fetched value, returns fetched value →
      weaker fetched value) : Fetches kind program weaker := by
  induction program generalizing returns weaker with
  | done value => exact hweaker _ _ h
  | throw error => exact h.elim
  | emit event rest ih => exact h.elim
  | await call resume ih =>
      exact ⟨h.1, fun answer => ih _ (h.2.1 answer) fun _ _ => hweaker _ _, h.2.2⟩

theorem bind {next : α → Program Answer Event Error β}
    {post : List (Entry Answer Event Error) → β → Prop} (h : Fetches kind program returns)
    (hnext : ∀ fetched value, returns fetched value →
      Fetches kind (next value) fun later => post (fetched ++ later)) :
    Fetches kind (program >>= next) post := by
  induction program generalizing returns post with
  | done value => exact hnext [] value h
  | throw error => exact h.elim
  | emit event rest ih => exact h.elim
  | await call resume ih =>
      refine ⟨h.1, fun answer => ih _ (h.2.1 answer) fun fetched value => hnext _ value,
        fun error => ?_⟩
      change (resume (.error error)).bind next = .throw error
      rw [h.2.2 error]
      rfl

theorem and {also : List (Entry Answer Event Error) → α → Prop} (h : Fetches kind program returns)
    (halso : Fetches kind program also) :
    Fetches kind program fun fetched value => returns fetched value ∧ also fetched value := by
  induction program generalizing returns also with
  | done value => exact ⟨h, halso⟩
  | throw error => exact h.elim
  | emit event rest ih => exact h.elim
  | await call resume ih => exact ⟨h.1, fun answer => ih _ (h.2.1 answer) (halso.2.1 answer), h.2.2⟩

end Fetches

theorem Reads.fetches {kind : Call → Prop} {post : α → Prop} {program : Program Answer Event Error α}
    (h : Reads kind post program) : Fetches kind program fun _ value => post value := by
  induction program with
  | done value => exact h
  | throw error => exact h.elim
  | emit event rest ih => exact h.elim
  | await call resume ih => exact ⟨h.1, fun answer => ih _ (h.2.1 answer), h.2.2⟩

end

/-! ## Isolated executions -/

/-- What a call does to the state when it gets a reply; `none` where it cannot get it. -/
abbrev Handler {Call : Type} (Answer : Call → Type) (Error σ : Type) : Type :=
  σ → (call : Call) → Except Error (Answer call) → Option σ

section

variable {Call : Type} {Answer : Call → Type} {Event Error α β σ : Type}
  {handle : Handler Answer Error σ}

/-- A program runs for a while on a state that nothing else writes. -/
inductive Executes (handle : Handler Answer Error σ) :
    Program Answer Event Error α → σ → List (Entry Answer Event Error) →
      Program Answer Event Error α → σ → Prop where
  | here (program state) : Executes handle program state [] program state
  | emit {event rest state entries last final} :
      Executes handle rest state entries last final →
      Executes handle (.emit event rest) state (.emitted event :: entries) last final
  | await {call resume state reply next entries last final} :
      handle state call reply = some next →
      Executes handle (resume reply) next entries last final →
      Executes handle (.await call resume) state (.called call reply :: entries) last final

/-- The executions of a program from a state: what it did, what is left of it, and what can be
seen of the state. -/
def behaviours {ω : Type} (handle : Handler Answer Error σ) (observe : σ → ω)
    (program : Program Answer Event Error α) (state : σ) :
    Set (List (Entry Answer Event Error) × Program Answer Event Error α × ω) :=
  fun behaviour => ∃ final, Executes handle program state behaviour.1 behaviour.2.1 final ∧
    observe final = behaviour.2.2

/-- What a program may do: the calls it makes and the events it emits. -/
structure Footprint (Call Event : Type) where
  calls : Call → Prop
  events : Event → Prop

/-- What holds of every run of a program from a state: it keeps to its footprint, the
assertion holds before and after every step, and so does the postcondition at the end. The
entries so far are part of what is asserted. -/
def Holds (handle : Handler Answer Error σ) (footprint : Footprint Call Event)
    (always : σ → List (Entry Answer Event Error) → Prop)
    (post : Except Error α → σ → List (Entry Answer Event Error) → Prop) :
    Program Answer Event Error α → σ → List (Entry Answer Event Error) → Prop
  | .done value, state, entries => always state entries ∧ post (.ok value) state entries
  | .throw error, state, entries => always state entries ∧ post (.error error) state entries
  | .emit event rest, state, entries =>
      always state entries ∧ footprint.events event ∧
        Holds handle footprint always post rest state (entries ++ [.emitted event])
  | .await call resume, state, entries =>
      always state entries ∧ footprint.calls call ∧
        ∀ reply next, handle state call reply = some next →
          Holds handle footprint always post (resume reply) next (entries ++ [.called call reply])

/-! ## Rules -/

variable {footprint : Footprint Call Event}
  {always : σ → List (Entry Answer Event Error) → Prop}
  {post : Except Error α → σ → List (Entry Answer Event Error) → Prop}
  {program last : Program Answer Event Error α} {state final : σ}
  {entries later : List (Entry Answer Event Error)}

namespace Executes

theorem trans {middle : Program Answer Event Error α} {between : σ}
    (h : Executes handle program state entries middle between)
    (hlater : Executes handle middle between later last final) :
    Executes handle program state (entries ++ later) last final := by
  induction h with
  | here => exact hlater
  | emit _ ih => exact .emit (ih hlater)
  | await hcall _ ih => exact .await hcall (ih hlater)

end Executes

namespace Holds

theorem now (h : Holds handle footprint always post program state entries) :
    always state entries := by
  cases program with
  | done | throw | emit | await => exact h.1

theorem mono {weaker : σ → List (Entry Answer Event Error) → Prop}
    {last : Except Error α → σ → List (Entry Answer Event Error) → Prop}
    (h : Holds handle footprint always post program state entries)
    (halways : ∀ state entries, always state entries → weaker state entries)
    (hpost : ∀ result state entries, always state entries → post result state entries →
      last result state entries) :
    Holds handle footprint weaker last program state entries := by
  induction program generalizing state entries with
  | done value => exact ⟨halways _ _ h.1, hpost _ _ _ h.1 h.2⟩
  | throw error => exact ⟨halways _ _ h.1, hpost _ _ _ h.1 h.2⟩
  | emit event rest ih => exact ⟨halways _ _ h.1, h.2.1, ih h.2.2⟩
  | await call resume ih =>
      exact ⟨halways _ _ h.1, h.2.1, fun reply next hnext => ih reply (h.2.2 reply next hnext)⟩

/-- The rule of sequencing. -/
theorem bind {next : α → Program Answer Event Error β}
    {last : Except Error β → σ → List (Entry Answer Event Error) → Prop}
    (h : Holds handle footprint always
      (fun result state entries =>
        match result with
        | .ok value => Holds handle footprint always last (next value) state entries
        | .error error => last (.error error) state entries) program state entries) :
    Holds handle footprint always last (program >>= next) state entries := by
  induction program generalizing state entries with
  | done value => exact h.2
  | throw error => exact h
  | emit event rest ih => exact ⟨h.1, h.2.1, ih h.2.2⟩
  | await call resume ih => exact ⟨h.1, h.2.1, fun reply next hnext => ih reply (h.2.2 reply next hnext)⟩

/-- The rule of catching. -/
theorem attempt {last : Except Error (Except Error α) → σ → List (Entry Answer Event Error) → Prop}
    (h : Holds handle footprint always (fun result => last (.ok result)) program state entries) :
    Holds handle footprint always last program.attempt state entries := by
  induction program generalizing state entries with
  | done value => exact h
  | throw error => exact h
  | emit event rest ih => exact ⟨h.1, h.2.1, ih h.2.2⟩
  | await call resume ih => exact ⟨h.1, h.2.1, fun reply next hnext => ih reply (h.2.2 reply next hnext)⟩

theorem call {call : Call} {post : Except Error (Answer call) → σ → List (Entry Answer Event Error) → Prop}
    (hnow : always state entries) (hcall : footprint.calls call)
    (h : ∀ reply next, handle state call reply = some next →
      always next (entries ++ [.called call reply]) ∧
        post reply next (entries ++ [.called call reply])) :
    Holds handle footprint always post (Program.call call) state entries := by
  refine ⟨hnow, hcall, fun reply next hnext => ?_⟩
  cases reply with
  | ok answer => exact h _ next hnext
  | error error => exact h _ next hnext

theorem send {event : Event} {post : Except Error Unit → σ → List (Entry Answer Event Error) → Prop}
    (hnow : always state entries) (hevent : footprint.events event)
    (h : always state (entries ++ [.emitted event]) ∧
      post (.ok ()) state (entries ++ [.emitted event])) :
    Holds handle footprint always post (Program.send event) state entries :=
  ⟨hnow, hevent, h⟩

/-- The rule of reading: calls that leave the state as it is, until one of them throws. -/
theorem fetches {kind : Call → Prop} {returns : List (Entry Answer Event Error) → α → Prop}
    (h : Fetches kind program returns) (hcalls : ∀ call, kind call → footprint.calls call)
    (hframe : ∀ call reply next, kind call → handle state call reply = some next → next = state)
    (halways : ∀ fetched, Fetched kind fetched → always state (entries ++ fetched))
    (hok : ∀ value fetched, returns fetched value → Fetched kind fetched →
      post (.ok value) state (entries ++ fetched))
    (herror : ∀ call error fetched, kind call → Fetched kind fetched →
      always state (entries ++ fetched ++ [.called call (.error error)]) ∧
        post (.error error) state (entries ++ fetched ++ [.called call (.error error)])) :
    Holds handle footprint always post program state entries := by
  suffices hrest : ∀ fetched, Fetched kind fetched →
      (∀ value later, returns later value → Fetched kind (fetched ++ later) →
        post (.ok value) state (entries ++ (fetched ++ later))) →
      Holds handle footprint always post program state (entries ++ fetched) by
    simpa using hrest [] (fun _ hmem => nomatch hmem) hok
  clear hok
  induction program generalizing returns with
  | done value =>
      intro fetched hfetched hok
      have hpost := hok value [] h (by rwa [List.append_nil])
      rw [List.append_nil] at hpost
      exact ⟨halways _ hfetched, hpost⟩
  | throw error => exact h.elim
  | emit event rest ih => exact h.elim
  | await call resume ih =>
      refine fun fetched hfetched hok =>
        ⟨halways _ hfetched, hcalls _ h.1, fun reply next hnext => ?_⟩
      have hsame := hframe _ _ _ h.1 hnext
      subst hsame
      cases reply with
      | error error =>
          rw [h.2.2 error]
          exact herror _ _ _ h.1 hfetched
      | ok answer =>
          rw [List.append_assoc]
          refine ih _ (h.2.1 answer) _ (fun entry hmem => ?_) fun value later hreturns hlater => ?_
          · rcases List.mem_append.mp hmem with hold | hnew
            · exact hfetched entry hold
            · exact ⟨call, answer, h.1, List.mem_singleton.mp hnew⟩
          · rw [List.append_assoc] at hlater ⊢
            exact hok value _ hreturns hlater

/-- The rule of reading for a value that does not depend on the entries. -/
theorem reads {kind : Call → Prop} {returns : α → Prop} (h : Reads kind returns program)
    (hcalls : ∀ call, kind call → footprint.calls call)
    (hframe : ∀ call reply next, kind call → handle state call reply = some next → next = state)
    (halways : ∀ fetched, Fetched kind fetched → always state (entries ++ fetched))
    (hok : ∀ value fetched, returns value → Fetched kind fetched →
      post (.ok value) state (entries ++ fetched))
    (herror : ∀ call error fetched, kind call → Fetched kind fetched →
      always state (entries ++ fetched ++ [.called call (.error error)]) ∧
        post (.error error) state (entries ++ fetched ++ [.called call (.error error)])) :
    Holds handle footprint always post program state entries :=
  .fetches h.fetches hcalls hframe halways hok herror

/-- What holds of a program holds of what is left of it. -/
theorem executes (h : Holds handle footprint always post program state entries)
    (hexec : Executes handle program state later last final) :
    Holds handle footprint always post last final (entries ++ later) := by
  induction hexec generalizing entries with
  | here => simpa using h
  | emit _ ih =>
      have := ih h.2.2
      rwa [List.append_assoc] at this
  | await hcall _ ih =>
      have := ih (h.2.2 _ _ hcall)
      rwa [List.append_assoc] at this

/-- A program emits the events of its footprint only. -/
theorem emitted (h : Holds handle footprint always post program state entries)
    (hexec : Executes handle program state later last final) :
    ∀ event ∈ later.filterMap Entry.event?, footprint.events event := by
  induction hexec generalizing entries with
  | here => exact fun event hmem => (nomatch hmem)
  | emit _ ih =>
      intro event hmem
      rcases List.mem_cons.mp hmem with rfl | hrest
      · exact h.2.1
      · exact ih h.2.2 event hrest
  | await hcall _ ih => exact fun event hmem => ih (h.2.2 _ _ hcall) event hmem

/-- What holds of a program on a view of a state holds on the state, where the view follows
its calls. -/
theorem pullback {τ : Type} {other : Handler Answer Error τ} {view : σ → τ}
    {always : τ → List (Entry Answer Event Error) → Prop}
    {post : Except Error α → τ → List (Entry Answer Event Error) → Prop}
    (h : Holds other footprint always post program (view state) entries)
    (hview : ∀ state call reply next, footprint.calls call →
      handle state call reply = some next → other (view state) call reply = some (view next)) :
    Holds handle footprint (fun state => always (view state))
      (fun result state => post result (view state)) program state entries := by
  induction program generalizing state entries with
  | done value => exact h
  | throw error => exact h
  | emit event rest ih => exact ⟨h.1, h.2.1, ih h.2.2⟩
  | await call resume ih =>
      exact ⟨h.1, h.2.1, fun reply next hnext =>
        ih reply (h.2.2 reply (view next) (hview state call reply next h.2.1 hnext))⟩

end Holds

/-- A program runs on a related state in the same way, where its calls keep the relation. -/
theorem Executes.simulate {τ : Type} {other : Handler Answer Error τ} (Rel : σ → τ → Prop)
    {copy : τ} {earlier : List (Entry Answer Event Error)}
    (h : Executes handle program state entries last final) (hrel : Rel state copy)
    (hholds : Holds handle footprint always post program state earlier)
    (hcall : ∀ state copy call reply next, Rel state copy → footprint.calls call →
      handle state call reply = some next → ∃ after, other copy call reply = some after ∧
        Rel next after) :
    ∃ after, Executes other program copy entries last after ∧ Rel final after := by
  induction h generalizing copy earlier with
  | here => exact ⟨copy, .here _ _, hrel⟩
  | emit _ ih =>
      obtain ⟨after, hexec, hafter⟩ := ih hrel hholds.2.2
      exact ⟨after, .emit hexec, hafter⟩
  | await hnext _ ih =>
      obtain ⟨between, hbetween, hrel⟩ := hcall _ _ _ _ _ hrel hholds.2.1 hnext
      obtain ⟨after, hexec, hafter⟩ := ih hrel (hholds.2.2 _ _ hnext)
      exact ⟨after, .await hbetween hexec, hafter⟩

end

end Async
