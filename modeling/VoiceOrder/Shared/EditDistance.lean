import Mathlib.Data.List.Infix
import Mathlib.Order.Bounds.Basic
import Mathlib.Order.MinMax

/-! # Edit distance

The recursion that compares two lists from their heads computes the least number of insertions,
deletions and substitutions of single entries that lead from one to the other. -/

namespace EditDistance

variable {α : Type*} {a b c : List α} {x y : α} {m n : ℕ}

/-! ## Edits -/

/-- One entry is inserted, deleted or substituted. -/
inductive Edit : List α → List α → Prop where
  | insert (before after : List α) (x : α) : Edit (before ++ after) (before ++ x :: after)
  | delete (before after : List α) (x : α) : Edit (before ++ x :: after) (before ++ after)
  | substitute (before after : List α) (x y : α) :
      Edit (before ++ x :: after) (before ++ y :: after)

/-- As many edits lead from one list to the other. -/
inductive EditedIn : ℕ → List α → List α → Prop where
  | refl (a : List α) : EditedIn 0 a a
  | step {n : ℕ} {a b c : List α} : Edit a b → EditedIn n b c → EditedIn (n + 1) a c

theorem Edit.symm (h : Edit a b) : Edit b a := by
  cases h with
  | insert before after x => exact .delete before after x
  | delete before after x => exact .insert before after x
  | substitute before after x y => exact .substitute before after y x

theorem Edit.cons (x : α) (h : Edit a b) : Edit (x :: a) (x :: b) := by
  cases h with
  | insert before after y => exact .insert (x :: before) after y
  | delete before after y => exact .delete (x :: before) after y
  | substitute before after y z => exact .substitute (x :: before) after y z

theorem Edit.reverse (h : Edit a b) : Edit a.reverse b.reverse := by
  cases h with
  | insert before after x =>
      simpa using Edit.insert after.reverse before.reverse x
  | delete before after x =>
      simpa using Edit.delete after.reverse before.reverse x
  | substitute before after x y =>
      simpa using Edit.substitute after.reverse before.reverse x y

theorem EditedIn.trans (h : EditedIn m a b) (h' : EditedIn n b c) : EditedIn (m + n) a c := by
  induction h with
  | refl a => rwa [Nat.zero_add]
  | step hedit _ ih =>
      rw [Nat.add_right_comm]
      exact .step hedit (ih h')

theorem EditedIn.one (h : Edit a b) : EditedIn 1 a b := .step h (.refl b)

theorem EditedIn.symm (h : EditedIn n a b) : EditedIn n b a := by
  induction h with
  | refl a => exact .refl a
  | step hedit _ ih => exact ih.trans (.one hedit.symm)

theorem EditedIn.map {f : List α → List α} (hf : ∀ {a b}, Edit a b → Edit (f a) (f b))
    (h : EditedIn n a b) : EditedIn n (f a) (f b) := by
  induction h with
  | refl a => exact .refl (f a)
  | step hedit _ ih => exact .step (hf hedit) ih

/-! ## The recursion -/

variable [DecidableEq α]

/-- The edit distance, by what becomes of the heads. -/
def distance : List α → List α → ℕ
  | [], b => b.length
  | x :: a, [] => (x :: a).length
  | x :: a, y :: b =>
      min (min (distance a (y :: b) + 1) (distance (x :: a) b + 1))
        (distance a b + if x = y then 0 else 1)
termination_by a b => a.length + b.length

@[simp] theorem distance_nil_left (b : List α) : distance [] b = b.length := by
  rw [distance]

@[simp] theorem distance_nil_right (a : List α) : distance a [] = a.length := by
  cases a with
  | nil => rw [distance]
  | cons x a => rw [distance]

theorem distance_cons (x y : α) (a b : List α) :
    distance (x :: a) (y :: b) =
      min (min (distance a (y :: b) + 1) (distance (x :: a) b + 1))
        (distance a b + if x = y then 0 else 1) := by
  rw [distance]

theorem distance_cons_left_le (x : α) (a b : List α) : distance (x :: a) b ≤ distance a b + 1 := by
  cases b with
  | nil => simp
  | cons y b =>
      rw [distance_cons]
      omega

theorem distance_cons_right_le (y : α) (a b : List α) : distance a (y :: b) ≤ distance a b + 1 := by
  cases a with
  | nil => simp
  | cons x a =>
      rw [distance_cons]
      omega

theorem distance_cons_cons_le (x y : α) (a b : List α) :
    distance (x :: a) (y :: b) ≤ distance a b + if x = y then 0 else 1 := by
  rw [distance_cons]
  exact min_le_right _ _

/-! ## The recursion counts edits -/

omit [DecidableEq α] in
theorem EditedIn.delete (x : α) (h : EditedIn n a b) : EditedIn (n + 1) (x :: a) b :=
  .step (.delete [] a x) h

omit [DecidableEq α] in
theorem EditedIn.insert (y : α) (h : EditedIn n a b) : EditedIn (n + 1) a (y :: b) :=
  h.trans (.one (.insert [] b y))

theorem EditedIn.substitute (x y : α) (h : EditedIn n a b) :
    EditedIn (n + if x = y then 0 else 1) (x :: a) (y :: b) := by
  have hkept : EditedIn n (x :: a) (x :: b) := h.map (.cons x)
  split
  case isTrue heq => exact heq ▸ hkept
  case isFalse => exact hkept.trans (.one (.substitute [] b x y))

/-- As many edits as the recursion counts are enough. -/
theorem editedIn_distance (a b : List α) : EditedIn (distance a b) a b := by
  induction a, b using distance.induct with
  | case1 b =>
      rw [distance_nil_left]
      induction b with
      | nil => exact .refl []
      | cons y b ih => exact ih.insert y
  | case2 x a =>
      rw [distance_nil_right]
      induction x :: a with
      | nil => exact .refl []
      | cons x a ih => exact ih.delete x
  | case3 x a y b hdelete hinsert hsubstitute =>
      rw [distance_cons]
      rcases min_choice (min (distance a (y :: b) + 1) (distance (x :: a) b + 1))
        (distance a b + if x = y then 0 else 1) with h | h
      · rw [h]
        rcases min_choice (distance a (y :: b) + 1) (distance (x :: a) b + 1) with h | h
        · rw [h]
          exact hdelete.delete x
        · rw [h]
          exact hinsert.insert y
      · rw [h]
        exact hsubstitute.substitute x y

/-- The first list is at most one edit further from any list than the second. -/
def Near (a b : List α) : Prop := ∀ c, distance a c ≤ distance b c + 1

/-- An entry in front of both lists changes nothing. -/
theorem Near.cons (h : Near a b) (x : α) : Near (x :: a) (x :: b) := by
  intro c
  induction c with
  | nil => simpa using h []
  | cons z c ih =>
      have hdelete := distance_cons_left_le x a (z :: c)
      have hinsert := distance_cons_right_le z (x :: a) c
      have hsubstitute := distance_cons_cons_le x z a c
      have hwhole := h (z :: c)
      have hrest := h c
      rw [distance_cons x z b c]
      omega

theorem near_delete (x : α) (a : List α) : Near (x :: a) a := distance_cons_left_le x a

theorem near_insert (x : α) (a : List α) : Near a (x :: a) := by
  intro c
  induction c with
  | nil =>
      rw [distance_nil_right, distance_nil_right, List.length_cons]
      omega
  | cons z c ih =>
      have hinsert := distance_cons_right_le z a c
      rw [distance_cons x z a c]
      omega

theorem near_substitute (x y : α) (a : List α) : Near (x :: a) (y :: a) := by
  intro c
  induction c with
  | nil => simp
  | cons z c ih =>
      have hdelete := distance_cons_left_le x a (z :: c)
      have hinsert := distance_cons_right_le z (x :: a) c
      have hsubstitute := distance_cons_cons_le x z a c
      have hcost : (if x = z then 0 else 1) ≤ 1 := by split <;> omega
      rw [distance_cons y z a c]
      omega

theorem near_of_edit (h : Edit a b) : Near a b := by
  have hfront : ∀ {a b : List α} (before : List α), Near a b → Near (before ++ a) (before ++ b) := by
    intro a b before hnear
    induction before with
    | nil => exact hnear
    | cons x before ih => exact ih.cons x
  cases h with
  | insert before after x => exact hfront before (near_insert x after)
  | delete before after x => exact hfront before (near_delete x after)
  | substitute before after x y => exact hfront before (near_substitute x y after)

@[simp] theorem distance_self (a : List α) : distance a a = 0 := by
  induction a with
  | nil => simp
  | cons x a ih => simp [distance_cons, ih]

theorem distance_le_of_editedIn (h : EditedIn n a b) : distance a b ≤ n := by
  induction h with
  | refl a => rw [distance_self]
  | step hedit _ ih => exact (near_of_edit hedit _).trans (Nat.succ_le_succ ih)

/-- The recursion computes the least number of edits. -/
theorem distance_isLeast (a b : List α) : IsLeast {n | EditedIn n a b} (distance a b) :=
  ⟨editedIn_distance a b, fun _ => distance_le_of_editedIn⟩

theorem distance_comm (a b : List α) : distance a b = distance b a :=
  le_antisymm (distance_le_of_editedIn (editedIn_distance b a).symm)
    (distance_le_of_editedIn (editedIn_distance a b).symm)

/-- Comparing the lists from their ends comes to the same. -/
theorem distance_reverse (a b : List α) : distance a.reverse b.reverse = distance a b := by
  have hle : ∀ a b : List α, distance a.reverse b.reverse ≤ distance a b := fun a b =>
    distance_le_of_editedIn ((editedIn_distance a b).map Edit.reverse)
  refine le_antisymm (hle a b) ?_
  have h := hle a.reverse b.reverse
  rwa [List.reverse_reverse, List.reverse_reverse] at h

theorem distance_concat (x y : α) (a b : List α) :
    distance (a ++ [x]) (b ++ [y]) =
      min (min (distance a (b ++ [y]) + 1) (distance (a ++ [x]) b + 1))
        (distance a b + if x = y then 0 else 1) := by
  have h := distance_cons x y a.reverse b.reverse
  simp only [← List.reverse_concat, distance_reverse] at h
  exact h

/-- The same step between the first parts of two lists. -/
theorem distance_take_succ {a b : List α} {i j : ℕ} (hi : i < a.length) (hj : j < b.length) :
    distance (a.take (i + 1)) (b.take (j + 1)) =
      min (min (distance (a.take i) (b.take (j + 1)) + 1) (distance (a.take (i + 1)) (b.take j) + 1))
        (distance (a.take i) (b.take j) + if a[i] = b[j] then 0 else 1) := by
  rw [List.take_succ_eq_append_getElem hi, List.take_succ_eq_append_getElem hj]
  exact distance_concat _ _ _ _

/-! ## The table of all distances between first parts -/

/-- The distances from one list to the list `done`, extended by each first part of another. -/
def rowAfter (a done : List α) (b : List α) : List ℕ := b.inits.map fun c => distance a (done ++ c)

/-- The row of a list: its distances to the first parts of another. -/
def row (a b : List α) : List ℕ := rowAfter a [] b

@[simp] theorem rowAfter_nil (a done : List α) : rowAfter a done [] = [distance a done] := by
  simp [rowAfter]

theorem rowAfter_cons (a done : List α) (y : α) (b : List α) :
    rowAfter a done (y :: b) = distance a done :: rowAfter a (done ++ [y]) b := by
  simp [rowAfter, List.inits, Function.comp_def]

theorem rowAfter_eq_cons (a done b : List α) :
    rowAfter a done b = distance a done :: (rowAfter a done b).tail := by
  cases b with
  | nil => simp
  | cons y b => rw [rowAfter_cons, List.tail_cons]

@[simp] theorem length_row (a b : List α) : (row a b).length = b.length + 1 := by
  simp [row, rowAfter]

theorem getElem_row (a b : List α) {j : ℕ} (hj : j < (row a b).length) :
    (row a b)[j] = distance a (b.take j) := by
  simp [row, rowAfter]

theorem row_nil (b : List α) : row [] b = List.range (b.length + 1) := by
  refine List.ext_getElem (by simp) ?_
  intro j hj _
  rw [length_row] at hj
  rw [getElem_row, distance_nil_left, List.length_take, List.getElem_range]
  omega

theorem getElem?_row (a b : List α) {j : ℕ} (hj : j ≤ b.length) :
    (row a b)[j]? = some (distance a (b.take j)) := by
  have hlt : j < (row a b).length := by
    rw [length_row]
    omega
  rw [List.getElem?_eq_getElem hlt, getElem_row]

/-- The last entry of the row is the distance to the whole list. -/
theorem getElem?_row_length (a b : List α) : (row a b)[b.length]? = some (distance a b) := by
  rw [getElem?_row a b le_rfl, List.take_length]

/-- At worst every entry of the longer list is edited. -/
theorem distance_le_max (a b : List α) : distance a b ≤ max a.length b.length := by
  induction a, b using distance.induct with
  | case1 b => simp
  | case2 x a => simp
  | case3 x a y b _ _ hsubstitute =>
      have hle := distance_cons_cons_le x y a b
      have hcost : (if x = y then 0 else 1) ≤ 1 := by split <;> omega
      simp only [List.length_cons]
      omega

theorem distance_eq_zero_iff : distance a b = 0 ↔ a = b := by
  constructor
  · intro h
    have hedited := editedIn_distance a b
    rw [h] at hedited
    cases hedited
    rfl
  · rintro rfl
    exact distance_self a

end EditDistance
