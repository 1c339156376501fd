import Mathlib.Data.Option.Basic
import Mathlib.Data.List.Induction

/-! # Runs of a step function

A step function says what an action does in a state, and in which states it can happen.
A run takes its actions one by one, each of them in a state that meets a condition. -/

namespace Runs

variable {σ α : Type*} {step : σ → α → Option σ} {meets : σ → α → Prop}

/-- The state after a list of actions, each of which can happen. -/
def exec (step : σ → α → Option σ) : σ → List α → Option σ
  | state, [] => some state
  | state, action :: actions => (step state action).bind fun next => exec step next actions

theorem exec_append (state : σ) (actions later : List α) :
    exec step state (actions ++ later) =
      (exec step state actions).bind fun middle => exec step middle later := by
  induction actions generalizing state with
  | nil => rfl
  | cons action actions ih =>
      simp only [List.cons_append, exec, Option.bind_assoc]
      exact congrArg ((step state action).bind ·) (funext ih)

/-- The last action is taken in the state after all the others. -/
theorem exec_concat {state last : σ} {actions : List α} {action : α}
    (h : exec step state (actions ++ [action]) = some last) :
    ∃ middle, exec step state actions = some middle ∧ step middle action = some last := by
  rw [exec_append] at h
  obtain ⟨middle, hmiddle, hlast⟩ := Option.bind_eq_some_iff.mp h
  exact ⟨middle, hmiddle, by simpa [exec] using hlast⟩

/-- What every step keeps, of the actions taken so far and the state they lead to, holds at the
end. -/
theorem exec_invariant {first last : σ} {actions : List α} (Inv : List α → σ → Prop)
    (h : exec step first actions = some last) (hinit : Inv [] first)
    (hkeep : ∀ taken state action next, Inv taken state → step state action = some next →
      Inv (taken ++ [action]) next) : Inv actions last := by
  induction actions using List.reverseRecOn generalizing last with
  | nil =>
      cases h
      exact hinit
  | append_singleton actions action ih =>
      obtain ⟨middle, hmiddle, hlast⟩ := exec_concat h
      exact hkeep _ _ _ _ (ih hmiddle) hlast

/-- A run whose every action meets the condition in the state it is taken in. -/
inductive Run (step : σ → α → Option σ) (meets : σ → α → Prop) : σ → List α → σ → Prop where
  | nil (state) : Run step meets state [] state
  | cons {state next last action actions} : meets state action →
      step state action = some next → Run step meets next actions last →
      Run step meets state (action :: actions) last

/-- Take an action only where it meets the condition. -/
def guarded (step : σ → α → Option σ) (meets : σ → α → Prop)
    [∀ state action, Decidable (meets state action)] (state : σ) (action : α) : Option σ :=
  if meets state action then step state action else none

theorem run_iff_exec [∀ state action, Decidable (meets state action)] {actions : List α}
    {state last : σ} :
    Run step meets state actions last ↔ exec (guarded step meets) state actions = some last := by
  constructor
  · intro h
    induction h with
    | nil => rfl
    | cons hmeets hstep _ ih => rw [exec, guarded, if_pos hmeets, hstep, Option.bind_some, ih]
  · intro h
    induction actions generalizing state with
    | nil =>
        cases h
        exact .nil _
    | cons action actions ih =>
        obtain ⟨next, hstep, hrest⟩ := Option.bind_eq_some_iff.mp h
        by_cases hmeets : meets state action
        · rw [guarded, if_pos hmeets] at hstep
          exact .cons hmeets hstep (ih hrest)
        · rw [guarded, if_neg hmeets] at hstep
          cases hstep

/-- Executing a list of actions finds a run, and what its last state satisfies. -/
theorem exists_run [∀ state action, Decidable (meets state action)] {actions : List α} {state : σ}
    {holds : σ → Bool} (h : (exec (guarded step meets) state actions).any holds = true) :
    ∃ last, Run step meets state actions last ∧ holds last = true := by
  obtain ⟨last, hlast, hholds⟩ := (Option.any_eq_true _ _).mp h
  exact ⟨last, run_iff_exec.mpr hlast, hholds⟩

namespace Run

variable {state middle last : σ} {actions later : List α}

theorem append (h : Run step meets state actions middle)
    (hlater : Run step meets middle later last) :
    Run step meets state (actions ++ later) last := by
  induction h with
  | nil => exact hlater
  | cons hmeets hstep _ ih => exact .cons hmeets hstep (ih hlater)

/-- A weaker condition allows more runs. -/
theorem mono {weaker : σ → α → Prop} (h : Run step meets state actions last)
    (himp : ∀ state action, meets state action → weaker state action) :
    Run step weaker state actions last := by
  induction h with
  | nil => exact .nil _
  | cons hmeets hstep _ ih => exact .cons (himp _ _ hmeets) hstep ih

/-- What all the actions have in common can be added to the condition. -/
theorem of_forall {only : α → Prop} (h : Run step meets state actions last)
    (honly : ∀ action ∈ actions, only action) : Run step (fun _ action => only action) state actions last := by
  induction h with
  | nil => exact .nil _
  | cons _ hstep _ ih =>
      obtain ⟨hfirst, hrest⟩ := List.forall_mem_cons.mp honly
      exact .cons hfirst hstep (ih hrest)

/-- The first part of a run is a run to the state that any run with its actions ends in. -/
theorem of_append {weaker : σ → α → Prop} (h : Run step meets state (actions ++ later) last)
    (hearlier : Run step weaker state actions middle) : Run step meets state actions middle := by
  induction hearlier with
  | nil => exact .nil _
  | cons _ hstep _ ih =>
      cases h with
      | cons hmeets hsame hrest =>
          cases hstep.symm.trans hsame
          exact .cons hmeets hstep (ih hrest)

/-- A run meets a further condition at every step, or there is a step that breaks it. -/
theorem meets_or_breaks (h : Run step meets state actions last) (also : σ → α → Prop) :
    Run step (fun state action => meets state action ∧ also state action) state actions last ∨
      ∃ earlier middle action next later, actions = earlier ++ action :: later ∧
        Run step meets state earlier middle ∧ meets middle action ∧ ¬also middle action ∧
          step middle action = some next ∧ Run step meets next later last := by
  induction h with
  | nil => exact .inl (.nil _)
  | @cons state next last action actions hmeets hstep hrest ih =>
      by_cases halso : also state action
      · rcases ih with hrest' | ⟨earlier, middle, breach, after, later, rfl, hearlier, hbreach⟩
        · exact .inl (.cons ⟨hmeets, halso⟩ hstep hrest')
        · exact .inr ⟨action :: earlier, middle, breach, after, later, rfl,
            .cons hmeets hstep hearlier, hbreach⟩
      · exact .inr ⟨[], state, action, next, actions, rfl, .nil _, hmeets, halso, hstep, hrest⟩

/-- What every step keeps holds at the end of a run. -/
theorem invariant (Inv : σ → Prop) (h : Run step meets state actions last) (hinit : Inv state)
    (hkeep : ∀ state action next, Inv state → meets state action →
      step state action = some next → Inv next) : Inv last := by
  induction h with
  | nil => exact hinit
  | cons hmeets hstep _ ih => exact ih (hkeep _ _ _ hinit hmeets hstep)

/-- A relation that is reflexive, composes and holds along each step between two states of
the invariant relates the ends of a run. -/
theorem relates (Inv : σ → Prop) (Rel : σ → σ → Prop)
    (h : Run step meets state actions last) (hinit : Inv state)
    (hkeep : ∀ state action next, Inv state → meets state action →
      step state action = some next → Inv next ∧ Rel state next)
    (hrefl : ∀ state, Rel state state)
    (htrans : ∀ first second third, Rel first second → Rel second third → Rel first third) :
    Rel state last := by
  induction h with
  | nil => exact hrefl _
  | cons hmeets hstep _ ih =>
      obtain ⟨hinv, hrel⟩ := hkeep _ _ _ hinit hmeets hstep
      exact htrans _ _ _ hrel (ih hinv)

end Run

end Runs
