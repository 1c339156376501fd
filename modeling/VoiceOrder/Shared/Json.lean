import Mathlib.Data.Rat.Defs
import VoiceOrder.Shared.OrderedMap

/-! # JSON values and the schemas that read them

A schema reads a value that may be absent, as a field of an object may, and refuses it or
returns what it parsed. -/

/-- What `JSON.parse` returns. -/
inductive Json where
  | null
  | bool (value : Bool)
  | num (value : ℚ)
  | str (value : String)
  | arr (elements : List Json)
  | obj (fields : List (String × Json))
  deriving Repr

namespace Json

/-- Read a property. Of fields with one name the last counts; a value that is no object has none. -/
def field (key : String) : Json → Option Json
  | .obj fields => OrderedMap.get (OrderedMap.ofEntries fields) key
  | _ => none

end Json

/-! ## Schemas -/

/-- Absent or present, a value is refused or parsed. -/
abbrev Schema (α : Type) := Option Json → Option α

namespace Schema

variable {α : Type}

/-- The largest integer up to which every integer is a number. -/
def maxSafeInteger : ℕ := 9007199254740991

def object : Schema Json
  | some (.obj fields) => some (.obj fields)
  | _ => none

/-- A string that is not empty. -/
def nonemptyString : Schema String
  | some (.str value) => if value = "" then none else some value
  | _ => none

def integer : Schema ℤ
  | some (.num value) => if value.den = 1 ∧ value.num.natAbs ≤ maxSafeInteger then some value.num else none
  | _ => none

def positive : Schema ℤ := fun value => (integer value).filter fun n => 0 < n

def nonnegative : Schema ℤ := fun value => (integer value).filter fun n => 0 ≤ n

/-- One of the given strings. -/
def enumeration (values : List (String × α)) : Schema α
  | some (.str value) => values.lookup value
  | _ => none

/-- Absent, or a value of the schema. -/
def optional (schema : Schema α) : Schema (Option α)
  | none => some none
  | some value => (schema (some value)).map some

def array (schema : Schema α) : Schema (List α)
  | some (.arr elements) => elements.mapM fun element => schema (some element)
  | _ => none

/-- An absent value is the default; it is not read. -/
def withDefault (default : α) (schema : Schema α) : Schema α
  | none => some default
  | some value => schema (some value)

theorem nonemptyString_ne {value : Option Json} {text : String} (h : nonemptyString value = some text) :
    text ≠ "" := by
  unfold nonemptyString at h
  split at h
  · split at h
    · cases h
    · cases h
      assumption
  · cases h

theorem positive_pos {value : Option Json} {n : ℤ} (h : positive value = some n) : 0 < n :=
  of_decide_eq_true (Option.filter_eq_some_iff.mp h).2

/-- What a schema promises of each element it promises of the array. -/
theorem array_forall {schema : Schema α} {P : α → Prop} (hschema : ∀ value x, schema value = some x → P x)
    {value : Option Json} {xs : List α} (h : array schema value = some xs) : ∀ x ∈ xs, P x := by
  unfold array at h
  split at h
  · rename_i elements
    induction elements generalizing xs with
    | nil =>
        cases h
        exact fun _ hmem => nomatch hmem
    | cons element elements ih =>
        rw [List.mapM_cons] at h
        obtain ⟨x, hx, h⟩ := Option.bind_eq_some_iff.mp h
        obtain ⟨rest, hrest, h⟩ := Option.bind_eq_some_iff.mp h
        cases h
        intro y hmem
        rcases List.mem_cons.mp hmem with rfl | hmem
        · exact hschema _ _ hx
        · exact ih hrest y hmem
  · cases h

end Schema
