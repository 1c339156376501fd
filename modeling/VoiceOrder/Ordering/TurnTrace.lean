import VoiceOrder.Ordering.AgentGraph

/-! # The nodes of a turn, one by one

What a turn runs and asks for, up to the node that ends it or throws, and the channels that the
checkpointer keeps of it. -/

namespace VoiceOrder.Ordering.AgentGraph

open VoiceOrder.CartModule VoiceOrder.Backend

/-- A node, and the channels that it reads. -/
abbrev Visit := Node × OrderState

/-- The nodes that a run executes, with the one that throws. -/
def visits (services : Services) : ℕ → Node → OrderState → List Visit
  | 0, _, _ => []
  | limit + 1, node, s =>
      if node = .done then []
      else
        (node, s) ::
          match step services node s with
          | .ok (next, after) => visits services limit next after
          | .error _ => []

/-- The channels after the last node that completed. The writes of a node that throws are
dropped. -/
def checkpoint (services : Services) : ℕ → Node → OrderState → OrderState
  | 0, _, s => s
  | limit + 1, node, s =>
      if node = .done then s
      else
        match step services node s with
        | .ok (next, after) => checkpoint services limit next after
        | .error _ => s

/-- The channels once the input of a turn is written. -/
def input (e : SttFinalTranscriptReceived) (s : OrderState) : OrderState :=
  { s with
    requestId := e.requestId
    sessionId := e.sessionId
    cartId := e.cartId
    posConfigId := e.posConfigId
    customerText := e.text
    supportedLanguages := [] }

def turnVisits (services : Services) (e : SttFinalTranscriptReceived) (s : OrderState) : List Visit :=
  visits services recursionLimit .normalize (input e s)

/-- What the thread keeps of a turn, however it ended. -/
def turnCheckpoint (services : Services) (e : SttFinalTranscriptReceived) (s : OrderState) :
    OrderState :=
  checkpoint services recursionLimit .normalize (input e s)

theorem invoke_eq (services : Services) (e : SttFinalTranscriptReceived) (s : OrderState) :
    invoke services e s = run services recursionLimit .normalize (input e s) := rfl

/-! ## The chats -/

/-- The messages of the chat that a node makes. Only the agent makes one, while it has steps
left. -/
def chatOf (services : Services) : Visit → Option (List AgentMessage)
  | (.agent, s) => if maxAgentSteps < s.agentSteps + 1 then none else some (chatMessages services s)
  | _ => none

/-- What each chat of the turn receives. -/
def chats (services : Services) (e : SttFinalTranscriptReceived) (s : OrderState) :
    List (List AgentMessage) :=
  (turnVisits services e s).filterMap (chatOf services)

section

variable {services : Services} {s after : OrderState} {node next : Node} {limit : ℕ}
  {e : SttFinalTranscriptReceived}

theorem visits_done (limit : ℕ) : visits services limit .done s = [] := by
  cases limit <;> rfl

theorem visits_ok (hnode : node ≠ .done) (hstep : step services node s = .ok (next, after)) :
    visits services (limit + 1) node s = (node, s) :: visits services limit next after := by
  rw [visits, if_neg hnode, hstep]

theorem visits_error {failure : Failure} (hnode : node ≠ .done)
    (hstep : step services node s = .error failure) :
    visits services (limit + 1) node s = [(node, s)] := by
  rw [visits, if_neg hnode, hstep]

theorem run_ok (hnode : node ≠ .done) (hstep : step services node s = .ok (next, after)) :
    run services (limit + 1) node s = run services limit next after := by
  rw [run, if_neg hnode, hstep]
  rfl

theorem checkpoint_ok (hnode : node ≠ .done) (hstep : step services node s = .ok (next, after)) :
    checkpoint services (limit + 1) node s = checkpoint services limit next after := by
  rw [checkpoint, if_neg hnode, hstep]

theorem checkpoint_error {failure : Failure} (hnode : node ≠ .done)
    (hstep : step services node s = .error failure) :
    checkpoint services (limit + 1) node s = s := by
  rw [checkpoint, if_neg hnode, hstep]

theorem checkpoint_done (limit : ℕ) : checkpoint services limit .done s = s := by
  cases limit <;> rfl

/-- A run that ends leaves what it ends with. -/
theorem checkpoint_of_run (hrun : run services limit node s = .ok after) :
    checkpoint services limit node s = after := by
  induction limit generalizing node s with
  | zero =>
      rw [run] at hrun
      split at hrun <;> cases hrun
      rfl
  | succ limit ih =>
      by_cases hnode : node = .done
      · subst hnode
        cases hrun
        exact checkpoint_done _
      · cases hstep : step services node s with
        | error failure =>
            rw [run, if_neg hnode, hstep] at hrun
            cases hrun
        | ok pair =>
            rw [run_ok hnode hstep] at hrun
            rw [checkpoint_ok hnode hstep]
            exact ih hrun

/-- A run that throws leaves channels of a node before the end. -/
theorem checkpoint_of_error {failure : Failure} (Holds : Node → OrderState → Prop)
    (hkeep : ∀ node s next after, Holds node s → step services node s = .ok (next, after) →
      Holds next after) (h : Holds node s) (hrun : run services limit node s = .error failure) :
    ∃ stopped, stopped ≠ .done ∧ Holds stopped (checkpoint services limit node s) := by
  induction limit generalizing node s with
  | zero =>
      rw [run] at hrun
      split at hrun
      case isTrue => cases hrun
      case isFalse hnode => exact ⟨node, hnode, h⟩
  | succ limit ih =>
      by_cases hnode : node = .done
      · subst hnode
        cases hrun
      · cases hstep : step services node s with
        | error thrown =>
            rw [checkpoint_error hnode hstep]
            exact ⟨node, hnode, h⟩
        | ok pair =>
            rw [run_ok hnode hstep] at hrun
            rw [checkpoint_ok hnode hstep]
            exact ih (hkeep _ _ _ _ h hstep) hrun

/-- What holds at a node, and at the next one wherever it does, holds at all that are run. -/
theorem visits_forall (Holds : Node → OrderState → Prop)
    (hkeep : ∀ node s next after, Holds node s → step services node s = .ok (next, after) →
      Holds next after) (h : Holds node s) :
    ∀ visit ∈ visits services limit node s, Holds visit.1 visit.2 := by
  induction limit generalizing node s with
  | zero => exact fun _ hvisit => nomatch hvisit
  | succ limit ih =>
      intro visit hvisit
      by_cases hnode : node = .done
      · rw [hnode, visits_done] at hvisit
        cases hvisit
      · cases hstep : step services node s with
        | error failure =>
            rw [visits_error hnode hstep, List.mem_singleton] at hvisit
            rw [hvisit]
            exact h
        | ok pair =>
            obtain ⟨next, after⟩ := pair
            rw [visits_ok hnode hstep] at hvisit
            cases List.mem_cons.mp hvisit with
            | inl hhere =>
                rw [hhere]
                exact h
            | inr hlater => exact ih (hkeep node s next after h hstep) visit hlater

/-- No run is longer than the rank of where it starts. -/
theorem visits_length : (visits services limit node s).length ≤ rank node s := by
  induction limit generalizing node s with
  | zero => exact Nat.zero_le _
  | succ limit ih =>
      by_cases hnode : node = .done
      · rw [hnode, visits_done]
        exact Nat.zero_le _
      · have hpos : 0 < rank node s := by
          cases node <;> simp [rank] at hnode ⊢
        cases hstep : step services node s with
        | error failure =>
            rw [visits_error hnode hstep]
            exact hpos
        | ok pair =>
            obtain ⟨next, after⟩ := pair
            have hless := step_rank hstep hnode
            have hrest : (visits services limit next after).length ≤ rank next after := ih
            rw [visits_ok hnode hstep, List.length_cons]
            omega

end

end VoiceOrder.Ordering.AgentGraph
