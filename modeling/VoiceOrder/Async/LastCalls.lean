import VoiceOrder.Async.Program

/-! # Calls that end a program

A reply that is lost looks to the program like a call that failed, while the call has taken
effect. Where such a failure is the last call of the program, what it does is what it would do if
the call had failed, and the state it leaves is that of the call that succeeded. -/

namespace Async

variable {Call : Type} {Answer : Call → Type} {Event Error α β σ : Type}

/-- The program makes no call. -/
def Callless : Program Answer Event Error α → Prop
  | .done _ => True
  | .throw _ => True
  | .emit _ rest => Callless rest
  | .await _ _ => False

/-- After a failure of the kind the program makes no call. -/
def GivesUp (kind : Call → Error → Prop) : Program Answer Event Error α → Prop
  | .done _ => True
  | .throw _ => True
  | .emit _ rest => GivesUp kind rest
  | .await call resume =>
      (∀ reply, GivesUp kind (resume reply)) ∧ ∀ error, kind call error → Callless (resume (.error error))

/-- A failure of the kind is thrown on at once. -/
def Rethrows (kind : Call → Error → Prop) : Program Answer Event Error α → Prop
  | .done _ => True
  | .throw _ => True
  | .emit _ rest => Rethrows kind rest
  | .await call resume =>
      (∀ reply, Rethrows kind (resume reply)) ∧
        ∀ error, kind call error → resume (.error error) = .throw error

section

variable {kind : Call → Error → Prop} {program : Program Answer Event Error α}

namespace Rethrows

theorem pure (value : α) : Rethrows kind (Pure.pure value : Program Answer Event Error α) := trivial

theorem call (call : Call) :
    Rethrows kind (Program.call call : Program Answer Event Error (Answer call)) := by
  refine ⟨fun reply => ?_, fun _ _ => rfl⟩
  cases reply with
  | ok answer => trivial
  | error error => trivial

/-- A call that does not fail so may be caught. -/
theorem attempt_call {call : Call} (h : ∀ error, ¬kind call error) :
    Rethrows kind (Program.call call : Program Answer Event Error (Answer call)).attempt := by
  refine ⟨fun reply => ?_, fun error hkind => absurd hkind (h error)⟩
  cases reply with
  | ok answer => trivial
  | error error => trivial

theorem bind {next : α → Program Answer Event Error β} (h : Rethrows kind program)
    (hnext : ∀ value, Rethrows kind (next value)) : Rethrows kind (program >>= next) := by
  induction program with
  | done value => exact hnext value
  | throw error => trivial
  | emit event rest ih => exact ih h
  | await call resume ih =>
      refine ⟨fun reply => ih reply (h.1 reply), fun error hkind => ?_⟩
      change (resume (.error error)).bind next = .throw error
      rw [h.2 error hkind]
      rfl

theorem reads {kindOf : Call → Prop} {post : α → Prop} (h : Reads kindOf post program) :
    Rethrows kind program := by
  induction program with
  | done value => trivial
  | throw error => trivial
  | emit event rest ih => exact h.elim
  | await call resume ih =>
      refine ⟨fun reply => ?_, fun error _ => h.2.2 error⟩
      cases reply with
      | ok answer => exact ih _ (h.2.1 answer)
      | error error =>
          rw [h.2.2 error]
          trivial

theorem givesUp (h : Rethrows kind program) : GivesUp kind program := by
  induction program with
  | done value => trivial
  | throw error => trivial
  | emit event rest ih => exact ih h
  | await call resume ih =>
      refine ⟨fun reply => ih reply (h.1 reply), fun error hkind => ?_⟩
      rw [h.2 error hkind]
      trivial

/-- What is thrown may be caught where nothing is called any more. -/
theorem catch_givesUp {next : Except Error α → Program Answer Event Error β}
    (h : Rethrows kind program) (hnext : ∀ result, Callless (next result)) :
    GivesUp kind (program.attempt >>= next) := by
  have hlast : ∀ {rest : Program Answer Event Error β}, Callless rest → GivesUp kind rest := by
    intro rest hrest
    induction rest with
    | done value => trivial
    | throw error => trivial
    | emit event rest ih => exact ih hrest
    | await call resume ih => exact hrest.elim
  induction program with
  | done value => exact hlast (hnext _)
  | throw error => exact hlast (hnext _)
  | emit event rest ih => exact ih h
  | await call resume ih =>
      refine ⟨fun reply => ih reply (h.1 reply), fun error hkind => ?_⟩
      change Callless ((resume (.error error)).attempt.bind next)
      rw [h.2 error hkind]
      exact hnext _

end Rethrows

end

/-! ## What a lost reply changes -/

section

variable {kind : Call → Error → Prop} {handle lossy : Handler Answer Error σ}
  {program last : Program Answer Event Error α} {state final : σ}
  {entries : List (Entry Answer Event Error)}

/-- Without a call, nothing of what a program does depends on the state. -/
theorem Executes.callless (handle : Handler Answer Error σ) (hprogram : Callless program)
    (h : Executes lossy program state entries last final) :
    final = state ∧ (∀ entry ∈ entries, ∃ event, entry = .emitted event) ∧
      ∀ other, Executes handle program other entries last other := by
  induction h with
  | here => exact ⟨rfl, fun _ hmem => (nomatch hmem), fun other => .here _ other⟩
  | @emit event rest state entries last final _ ih =>
      obtain ⟨hfinal, hemitted, hsame⟩ := ih hprogram
      refine ⟨hfinal, fun entry hmem => ?_, fun other => .emit (hsame other)⟩
      cases hmem with
      | head => exact ⟨event, rfl⟩
      | tail _ hlater => exact hemitted entry hlater
  | await => exact hprogram.elim

/-- The first handler gives each reply the effect that the second one gives it, or the effect of a
success to a failure of the kind. -/
def LosesReplies (kind : Call → Error → Prop) (lossy handle : Handler Answer Error σ) : Prop :=
  ∀ state call reply next, lossy state call reply = some next → handle state call reply = some next ∨
    ∃ error answer failed, reply = .error error ∧ kind call error ∧
      handle state call (.ok answer) = some next ∧ handle state call (.error error) = some failed

/-- The program has done what it does where the call has failed, and left what it leaves where the
call has succeeded. -/
structure Lost (kind : Call → Error → Prop) (handle : Handler Answer Error σ)
    (program last : Program Answer Event Error α) (state final : σ)
    (entries first rest : List (Entry Answer Event Error)) (call : Call) (error : Error)
    (answer : Answer call) : Prop where
  split : entries = first ++ .called call (.error error) :: rest
  missed : kind call error
  rest_emitted : ∀ entry ∈ rest, ∃ event, entry = .emitted event
  failed : ∃ plain, Executes handle program state entries last plain
  succeeded : ∃ left, Executes handle program state (first ++ [.called call (.ok answer)]) left final

/-- A program that gives up after lost replies loses one at most, and it is its last call. -/
theorem Executes.lost (hlossy : LosesReplies kind lossy handle) (hprogram : GivesUp kind program)
    (h : Executes lossy program state entries last final) :
    Executes handle program state entries last final ∨ ∃ first rest call error answer,
      Lost kind handle program last state final entries first rest call error answer := by
  induction h with
  | here => exact .inl (.here _ _)
  | @emit event rest state entries last final _ ih =>
      rcases ih hprogram with hplain | ⟨first, after, call, error, answer, hlost⟩
      · exact .inl (.emit hplain)
      · obtain ⟨plain, hplain⟩ := hlost.failed
        obtain ⟨left, hleft⟩ := hlost.succeeded
        exact .inr ⟨.emitted event :: first, after, call, error, answer,
          by rw [hlost.split]; rfl, hlost.missed, hlost.rest_emitted, ⟨plain, .emit hplain⟩, left, .emit hleft⟩
  | @await call resume state reply next entries last final hcall hexec ih =>
      rcases hlossy _ _ _ _ hcall with hhandled | ⟨error, answer, failed, rfl, hkind, hok, hfailed⟩
      · rcases ih (hprogram.1 reply) with hplain | ⟨first, after, lostCall, error, answer, hlost⟩
        · exact .inl (.await hhandled hplain)
        · obtain ⟨plain, hplain⟩ := hlost.failed
          obtain ⟨left, hleft⟩ := hlost.succeeded
          exact .inr ⟨.called call reply :: first, after, lostCall, error, answer,
            by rw [hlost.split]; rfl, hlost.missed, hlost.rest_emitted, ⟨plain, .await hhandled hplain⟩,
            left, .await hhandled hleft⟩
      · obtain ⟨rfl, hemitted, hsame⟩ := Executes.callless handle (hprogram.2 error hkind) hexec
        exact .inr ⟨[], entries, call, error, answer, rfl, hkind, hemitted,
          ⟨failed, .await hfailed (hsame failed)⟩, _, .await hok (.here _ _)⟩

end

end Async
