import VoiceOrder.Async.Lanes

/-! # Programs taken apart

A program that has ended did what its parts did, one after the other, and one that is running
is within one of them. Each rule takes one way of putting programs together apart again. -/

namespace Async

section

variable {Call : Type} {Answer : Call → Type} {Event Error α β σ : Type}

/-- A program runs to its end on a state that nothing else writes. -/
inductive Completes (handle : Handler Answer Error σ) :
    Program Answer Event Error α → σ → List (Entry Answer Event Error) → Except Error α → σ →
      Prop where
  | done (value state) : Completes handle (.done value) state [] (.ok value) state
  | throw (error state) : Completes handle (.throw error) state [] (.error error) state
  | emit {event rest state entries result final} :
      Completes handle rest state entries result final →
      Completes handle (.emit event rest) state (.emitted event :: entries) result final
  | await {call resume state reply next entries result final} :
      handle state call reply = some next →
      Completes handle (resume reply) next entries result final →
      Completes handle (.await call resume) state (.called call reply :: entries) result final

/-- The program returns the value when its calls get the replies of the entries. -/
def Returns (program : Program Answer Event Error α) (entries : List (Entry Answer Event Error))
    (value : α) : Prop :=
  Completes (fun _ _ _ => some ()) program () entries (.ok value) ()

variable {handle : Handler Answer Error σ} {program last : Program Answer Event Error α}
  {state final : σ} {entries later : List (Entry Answer Event Error)} {result : Except Error α}

/-- An execution that has come to an end is complete. -/
theorem Executes.completes (h : Executes handle program state entries last final)
    (hresult : last.result? = some result) :
    Completes handle program state entries result final := by
  induction h with
  | here program state =>
      cases program with
      | done value =>
          cases hresult
          exact .done value state
      | throw error =>
          cases hresult
          exact .throw error state
      | emit event rest => cases hresult
      | await call resume => cases hresult
  | emit _ ih => exact .emit (ih hresult)
  | await hcall _ ih => exact .await hcall (ih hresult)

/-- What holds of every run of a program holds at its end. -/
theorem Holds.completes {footprint : Footprint Call Event}
    {always : σ → List (Entry Answer Event Error) → Prop}
    {post : Except Error α → σ → List (Entry Answer Event Error) → Prop}
    (h : Holds handle footprint always post program state entries)
    (hcompletes : Completes handle program state later result final) :
    post result final (entries ++ later) := by
  induction hcompletes generalizing entries with
  | done | throw =>
      rw [List.append_nil]
      exact h.2
  | emit _ ih =>
      have hrest := ih h.2.2
      rwa [List.append_assoc] at hrest
  | await hcall _ ih =>
      have hrest := ih (h.2.2 _ _ hcall)
      rwa [List.append_assoc] at hrest

namespace Completes

theorem pure {value : α}
    (h : Completes handle (Pure.pure value : Program Answer Event Error α) state entries result final) :
    entries = [] ∧ result = .ok value ∧ final = state := by
  cases h
  exact ⟨rfl, rfl, rfl⟩

theorem call {call : Call} {result : Except Error (Answer call)}
    (h : Completes handle (Program.call call : Program Answer Event Error (Answer call)) state entries
      result final) :
    entries = [.called call result] ∧ handle state call result = some final := by
  cases h with
  | @await _ _ _ reply _ _ _ _ hcall hrest =>
      cases reply with
      | ok answer =>
          cases hrest
          exact ⟨rfl, hcall⟩
      | error error =>
          cases hrest
          exact ⟨rfl, hcall⟩

theorem send {event : Event} {result : Except Error Unit}
    (h : Completes handle (Program.send event : Program Answer Event Error Unit) state entries result
      final) : entries = [.emitted event] ∧ result = .ok () ∧ final = state := by
  cases h with
  | emit hrest =>
      cases hrest
      exact ⟨rfl, rfl, rfl⟩

/-- A sequence ends with its second part, or with what its first part has thrown. -/
theorem bind {next : α → Program Answer Event Error β} {result : Except Error β}
    (h : Completes handle (program >>= next) state entries result final) :
    (∃ value middle first second, entries = first ++ second ∧
      Completes handle program state first (.ok value) middle ∧
      Completes handle (next value) middle second result final) ∨
    ∃ error, result = .error error ∧ Completes handle program state entries (.error error) final := by
  induction program generalizing state entries with
  | done value => exact .inl ⟨value, state, [], entries, rfl, .done value state, h⟩
  | throw error =>
      change Completes handle (.throw error) state entries result final at h
      cases h
      exact .inr ⟨error, rfl, .throw error _⟩
  | emit event rest ih =>
      change Completes handle (.emit event (rest >>= next)) state entries result final at h
      cases h with
      | emit hrest =>
          rcases ih hrest with ⟨value, middle, first, second, rfl, hfirst, hsecond⟩ | ⟨error, rfl, hthrown⟩
          · exact .inl ⟨value, middle, _ :: first, second, rfl, .emit hfirst, hsecond⟩
          · exact .inr ⟨error, rfl, .emit hthrown⟩
  | await call resume ih =>
      change Completes handle (.await call fun reply => resume reply >>= next) state entries result
        final at h
      cases h with
      | @await _ _ _ reply _ _ _ _ hcall hrest =>
          rcases ih reply hrest with ⟨value, middle, first, second, rfl, hfirst, hsecond⟩ |
            ⟨error, rfl, hthrown⟩
          · exact .inl ⟨value, middle, _ :: first, second, rfl, .await hcall hfirst, hsecond⟩
          · exact .inr ⟨error, rfl, .await hcall hthrown⟩

theorem bind_ok {next : α → Program Answer Event Error β} {value : β}
    (h : Completes handle (program >>= next) state entries (.ok value) final) :
    ∃ between middle first second, entries = first ++ second ∧
      Completes handle program state first (.ok between) middle ∧
      Completes handle (next between) middle second (.ok value) final := by
  rcases h.bind with hparts | ⟨error, hthrown, -⟩
  · exact hparts
  · cases hthrown

/-- A program that is caught ends with the outcome of the program. -/
theorem attempt {result : Except Error (Except Error α)}
    (h : Completes handle program.attempt state entries result final) :
    ∃ inner, result = .ok inner ∧ Completes handle program state entries inner final := by
  induction program generalizing state entries with
  | done value =>
      cases h
      exact ⟨.ok value, rfl, .done value _⟩
  | throw error =>
      cases h
      exact ⟨.error error, rfl, .throw error _⟩
  | emit event rest ih =>
      cases h with
      | emit hrest =>
          obtain ⟨inner, rfl, hinner⟩ := ih hrest
          exact ⟨inner, rfl, .emit hinner⟩
  | await call resume ih =>
      cases h with
      | await hcall hrest =>
          obtain ⟨inner, rfl, hinner⟩ := ih _ hrest
          exact ⟨inner, rfl, .await hcall hinner⟩

/-- What a program returns depends on the replies to its calls alone. -/
theorem returns {value : α} (h : Completes handle program state entries (.ok value) final) :
    Returns program entries value := by
  generalize hresult : (Except.ok value : Except Error α) = result at h
  induction h with
  | done other => cases hresult; exact .done value ()
  | throw error => cases hresult
  | emit _ ih => exact .emit (ih hresult)
  | await _ _ ih => exact .await rfl (ih hresult)

end Completes

/-- A program that only reads has fetched what it returns. -/
theorem Reads.completes {reads : Call → Prop} {post : α → Prop} {value : α}
    (h : Reads reads post program)
    (hcompletes : Completes handle program state entries (.ok value) final) :
    Fetched reads entries ∧ post value := by
  generalize hresult : (Except.ok value : Except Error α) = result at hcompletes
  induction hcompletes with
  | done other =>
      cases hresult
      exact ⟨fun _ hmem => (nomatch hmem), h⟩
  | throw error => exact h.elim
  | emit _ _ => exact h.elim
  | @await call resume _ reply _ entries _ _ hcall hrest ih =>
      cases reply with
      | error error =>
          rw [h.2.2 error] at hrest
          cases hrest
          cases hresult
      | ok answer =>
          obtain ⟨hfetched, hpost⟩ := ih (h.2.1 answer) hresult
          refine ⟨fun entry hmem => ?_, hpost⟩
          rcases List.mem_cons.mp hmem with rfl | hrest
          · exact ⟨call, answer, h.1, rfl⟩
          · exact hfetched entry hrest

/-! ## Programs that are running -/

namespace Executes

/-- A sequence is within its first part, or the first part has ended and it is within the
second. -/
theorem bind {next : α → Program Answer Event Error β} {last : Program Answer Event Error β}
    (h : Executes handle (program >>= next) state entries last final) :
    (∃ rest, last = rest >>= next ∧ Executes handle program state entries rest final) ∨
    ∃ value middle first second, entries = first ++ second ∧
      Completes handle program state first (.ok value) middle ∧
      Executes handle (next value) middle second last final := by
  induction program generalizing state entries with
  | done value => exact .inr ⟨value, state, [], entries, rfl, .done value state, h⟩
  | throw error =>
      change Executes handle (.throw error) state entries last final at h
      cases h
      exact .inl ⟨.throw error, rfl, .here _ _⟩
  | emit event rest ih =>
      change Executes handle (.emit event (rest >>= next)) state entries last final at h
      cases h with
      | here => exact .inl ⟨.emit event rest, rfl, .here _ _⟩
      | emit hrest =>
          rcases ih hrest with ⟨left, rfl, hleft⟩ | ⟨value, middle, first, second, rfl, hfirst, hsecond⟩
          · exact .inl ⟨left, rfl, .emit hleft⟩
          · exact .inr ⟨value, middle, _ :: first, second, rfl, .emit hfirst, hsecond⟩
  | await call resume ih =>
      change Executes handle (.await call fun reply => resume reply >>= next) state entries last
        final at h
      cases h with
      | here => exact .inl ⟨.await call resume, rfl, .here _ _⟩
      | @await _ _ _ reply _ _ _ _ hcall hrest =>
          rcases ih reply hrest with ⟨left, rfl, hleft⟩ |
            ⟨value, middle, first, second, rfl, hfirst, hsecond⟩
          · exact .inl ⟨left, rfl, .await hcall hleft⟩
          · exact .inr ⟨value, middle, _ :: first, second, rfl, .await hcall hfirst, hsecond⟩

theorem attempt {last : Program Answer Event Error (Except Error α)}
    (h : Executes handle program.attempt state entries last final) :
    ∃ rest, last = rest.attempt ∧ Executes handle program state entries rest final := by
  induction program generalizing state entries with
  | done value =>
      cases h
      exact ⟨.done value, rfl, .here _ _⟩
  | throw error =>
      cases h
      exact ⟨.throw error, rfl, .here _ _⟩
  | emit event rest ih =>
      cases h with
      | here => exact ⟨.emit event rest, rfl, .here _ _⟩
      | emit hrest =>
          obtain ⟨left, rfl, hleft⟩ := ih hrest
          exact ⟨left, rfl, .emit hleft⟩
  | await call resume ih =>
      cases h with
      | here => exact ⟨.await call resume, rfl, .here _ _⟩
      | await hcall hrest =>
          obtain ⟨left, rfl, hleft⟩ := ih _ hrest
          exact ⟨left, rfl, .await hcall hleft⟩

end Executes

theorem Completes.executes (h : Completes handle program state entries result final) :
    ∃ last, last.result? = some result ∧ Executes handle program state entries last final := by
  induction h with
  | done value state => exact ⟨.done value, rfl, .here _ _⟩
  | throw error state => exact ⟨.throw error, rfl, .here _ _⟩
  | emit _ ih =>
      obtain ⟨last, hresult, hexec⟩ := ih
      exact ⟨last, hresult, .emit hexec⟩
  | await hcall _ ih =>
      obtain ⟨last, hresult, hexec⟩ := ih
      exact ⟨last, hresult, .await hcall hexec⟩

/-! ## Programs that emit nothing -/

/-- Whatever its calls answer, the program emits no event. -/
def Silent : Program Answer Event Error α → Prop
  | .done _ => True
  | .throw _ => True
  | .emit _ _ => False
  | .await _ resume => ∀ reply, Silent (resume reply)

namespace Silent

theorem pure (value : α) : Silent (Pure.pure value : Program Answer Event Error α) := trivial

theorem call (call : Call) : Silent (Program.call call : Program Answer Event Error (Answer call)) := by
  intro reply
  cases reply with
  | ok answer => trivial
  | error error => trivial

theorem bind {next : α → Program Answer Event Error β} (h : Silent program)
    (hnext : ∀ value, Silent (next value)) : Silent (program >>= next) := by
  induction program with
  | done value => exact hnext value
  | throw error => trivial
  | emit event rest _ => exact h.elim
  | await call resume ih => exact fun reply => ih reply (h reply)

theorem attempt (h : Silent program) : Silent program.attempt := by
  induction program with
  | done value => trivial
  | throw error => trivial
  | emit event rest _ => exact h.elim
  | await call resume ih => exact fun reply => ih reply (h reply)

theorem reads {kind : Call → Prop} {post : α → Prop} (h : Reads kind post program) :
    Silent program := by
  induction program with
  | done value => trivial
  | throw error => trivial
  | emit event rest _ => exact h.elim
  | await call resume ih =>
      intro reply
      cases reply with
      | ok answer => exact ih _ (h.2.1 answer)
      | error error =>
          rw [h.2.2 error]
          trivial

theorem executes (h : Silent program) (hexec : Executes handle program state entries last final) :
    entries.filterMap Entry.event? = [] := by
  induction hexec with
  | here => rfl
  | emit _ _ => exact h.elim
  | await _ _ ih => exact ih (h _)

theorem completes (h : Silent program) (hcompletes : Completes handle program state entries result final) :
    entries.filterMap Entry.event? = [] := by
  obtain ⟨last, -, hexec⟩ := hcompletes.executes
  exact h.executes hexec

end Silent

end

end Async
