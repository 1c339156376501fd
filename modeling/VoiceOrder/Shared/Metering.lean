import Mathlib.Algebra.Order.Field.Basic
import Mathlib.Algebra.BigOperators.Group.List.Basic
import Mathlib.Tactic.Linarith
import Mathlib.Tactic.Positivity

/-! # Metered accounts

An account holds tokens up to a capacity and earns them at a constant rate, up to the
instant it was last refilled to. Tokens leave it by grants, which need them on hand, and
by charges, which do not. What a run of moves can grant is bounded by the capacity, the
time the run refilled and what it credited. -/

namespace Metering

variable {α : Type*}

structure Account (α : Type*) where
  tokens : α
  /-- The instant the account has been refilled up to. -/
  mark : α

inductive Move (α : Type*) where
  | refill (upTo : α)
  | grant (amount : α)
  | charge (amount : α)
  | credit (amount : α)

section

variable [LinearOrder α]

/-- The stretches of time a run has credited, in order. -/
def stretches : α → List (Move α) → List (α × α)
  | _, [] => []
  | mark, .refill upTo :: moves =>
      if mark < upTo then (mark, upTo) :: stretches upTo moves else stretches mark moves
  | mark, _ :: moves => stretches mark moves

theorem mark_le_of_mem_stretches {mark : α} {moves : List (Move α)}
    {stretch : α × α} (h : stretch ∈ stretches mark moves) :
    mark ≤ stretch.1 ∧ stretch.1 < stretch.2 := by
  induction moves generalizing mark with
  | nil => cases h
  | cons move moves ih =>
      cases move with
      | refill upTo =>
          unfold stretches at h
          split at h
          · rename_i hlt
            rcases List.mem_cons.mp h with rfl | hmem
            · exact ⟨le_rfl, hlt⟩
            · exact ⟨hlt.le.trans (ih hmem).1, (ih hmem).2⟩
          · exact ih h
      | grant | charge | credit => exact ih h

/-- The credited stretches are disjoint: each begins after the ones before it end. -/
theorem stretches_pairwise (mark : α) (moves : List (Move α)) :
    (stretches mark moves).Pairwise (fun earlier later => earlier.2 ≤ later.1) := by
  induction moves generalizing mark with
  | nil => exact List.Pairwise.nil
  | cons move moves ih =>
      cases move with
      | refill upTo =>
          unfold stretches
          split
          · exact List.pairwise_cons.mpr ⟨fun _ hmem => (mark_le_of_mem_stretches hmem).1, ih upTo⟩
          · exact ih mark
      | grant | charge | credit => exact ih mark

end

section

variable [Field α]

def Move.granted : Move α → α
  | .grant amount => amount
  | _ => 0

def Move.charged : Move α → α
  | .charge amount => amount
  | _ => 0

def Move.credited : Move α → α
  | .credit amount => amount
  | _ => 0

def granted (moves : List (Move α)) : α := (moves.map Move.granted).sum

def charged (moves : List (Move α)) : α := (moves.map Move.charged).sum

def credited (moves : List (Move α)) : α := (moves.map Move.credited).sum

@[simp] theorem granted_nil : granted ([] : List (Move α)) = 0 := rfl

@[simp] theorem granted_append (first second : List (Move α)) :
    granted (first ++ second) = granted first + granted second := by
  simp [granted]

@[simp] theorem charged_nil : charged ([] : List (Move α)) = 0 := rfl

@[simp] theorem charged_append (first second : List (Move α)) :
    charged (first ++ second) = charged first + charged second := by
  simp [charged]

@[simp] theorem credited_nil : credited ([] : List (Move α)) = 0 := rfl

@[simp] theorem credited_append (first second : List (Move α)) :
    credited (first ++ second) = credited first + credited second := by
  simp [credited]

end

section

variable [Field α] [LinearOrder α]

/-- A refill up to an instant that is not ahead of the mark changes nothing. -/
def Account.move (capacity rate : α) (account : Account α) : Move α → Account α
  | .refill upTo =>
      if account.mark < upTo then
        ⟨min capacity (account.tokens + (upTo - account.mark) * rate), upTo⟩
      else account
  | .grant amount => { account with tokens := account.tokens - amount }
  | .charge amount => { account with tokens := account.tokens - amount }
  | .credit amount => { account with tokens := min capacity (account.tokens + amount) }

/-- A grant is paid from the tokens on hand; charges and credits are positive. -/
def Move.Allowed (account : Account α) : Move α → Prop
  | .refill _ => True
  | .grant amount => 0 < amount ∧ amount ≤ account.tokens
  | .charge amount => 0 < amount
  | .credit amount => 0 < amount

/-- A run of allowed moves. -/
inductive Run (capacity rate : α) : Account α → List (Move α) → Account α → Prop where
  | nil (account) : Run capacity rate account [] account
  | cons {account move moves last} : move.Allowed account →
      Run capacity rate (account.move capacity rate move) moves last →
      Run capacity rate account (move :: moves) last

variable {capacity rate : α} {account middle last : Account α} {first second moves : List (Move α)}

theorem Run.append (h : Run capacity rate account first middle)
    (h' : Run capacity rate middle second last) :
    Run capacity rate account (first ++ second) last := by
  induction h with
  | nil => exact h'
  | cons hmove _ ih => exact .cons hmove (ih h')

variable (capacity rate) in
theorem Run.single {move : Move α} (h : move.Allowed account) :
    Run capacity rate account [move] (account.move capacity rate move) :=
  .cons h (.nil _)

variable (capacity rate account) in
/-- The mark never moves back. -/
theorem mark_le_move (move : Move α) : account.mark ≤ (account.move capacity rate move).mark := by
  cases move with
  | refill upTo =>
      simp only [Account.move]
      split
      · rename_i h
        exact h.le
      · exact le_rfl
  | grant | charge | credit => exact le_rfl

theorem credited_nonneg {move : Move α} (hmove : move.Allowed account) : 0 ≤ move.credited := by
  cases move with
  | credit amount => exact le_of_lt hmove
  | refill | grant | charge => exact le_rfl

/-- A run that goes on credits on from where it stood. -/
theorem Run.stretches_append (h : Run capacity rate account first middle) :
    stretches account.mark (first ++ second) =
      stretches account.mark first ++ stretches middle.mark second := by
  induction h with
  | nil => rfl
  | @cons account move moves last _ _ ih =>
      cases move with
      | refill upTo =>
          simp only [Account.move] at ih
          simp only [List.cons_append, stretches]
          by_cases hlt : account.mark < upTo
          · rw [if_pos hlt] at ih
            rw [if_pos hlt, if_pos hlt, List.cons_append, ih]
          · rw [if_neg hlt] at ih
            rw [if_neg hlt, if_neg hlt, ih]
      | grant | charge | credit => exact ih

/-! ## The rate bound -/

variable [IsStrictOrderedRing α]

variable (capacity rate) in
/-- What one move pays out and leaves on hand is covered by what was on hand, the time
it refilled and what it credited. -/
theorem move_balance {move : Move α} (hmove : move.Allowed account) :
    move.granted + (account.move capacity rate move).tokens ≤
      account.tokens + ((account.move capacity rate move).mark - account.mark) * rate +
        move.credited := by
  cases move with
  | refill upTo =>
      simp only [Account.move, Move.granted, Move.credited]
      split
      · have := min_le_right capacity (account.tokens + (upTo - account.mark) * rate)
        simp only
        linarith
      · simp
  | grant amount => simp [Account.move, Move.granted, Move.credited]
  | charge amount =>
      have : 0 < amount := hmove
      simp only [Account.move, Move.granted, Move.credited]
      linarith
  | credit amount =>
      have := min_le_right capacity (account.tokens + amount)
      simp only [Account.move, Move.granted, Move.credited, sub_self, zero_mul]
      linarith

/-- The potential of a run: whatever has been paid out so far is below the budget, and so
it is together with the tokens still on hand. -/
theorem Run.budget (hrate : 0 ≤ rate) (h : Run capacity rate account moves last) {paid budget : α}
    (hpaid : paid ≤ budget) (htokens : paid + account.tokens ≤ budget) :
    paid + granted moves ≤ budget + (last.mark - account.mark) * rate + credited moves := by
  induction h generalizing paid budget with
  | nil => simpa using hpaid
  | @cons account move moves last hmove hrun ih =>
      have hbalance := move_balance capacity rate hmove
      have hcredit := credited_nonneg hmove
      have hmark := mul_nonneg (sub_nonneg.mpr (mark_le_move capacity rate account
        move)) hrate
      have hpaidNow : paid + move.granted ≤ budget := by
        cases move with
        | grant amount =>
            have := hmove.2
            simp only [Move.granted]
            linarith
        | refill | charge | credit => simpa [Move.granted] using hpaid
      have := @ih (paid + move.granted)
        (budget + ((account.move capacity rate move).mark - account.mark) * rate + move.credited)
        (by linarith) (by linarith)
      simp only [granted, credited, List.map_cons, List.sum_cons] at this ⊢
      linarith

/-- A run grants at most the capacity, what its time earns and what it credits. -/
theorem Run.granted_le (hcapacity : 0 ≤ capacity) (hrate : 0 ≤ rate)
    (h : Run capacity rate account moves last) (haccount : account.tokens ≤ capacity) :
    granted moves ≤ capacity + (last.mark - account.mark) * rate + credited moves := by
  have := h.budget hrate hcapacity (by simpa using haccount)
  simpa using this

end

end Metering
