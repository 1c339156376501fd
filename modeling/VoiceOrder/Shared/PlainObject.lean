import Mathlib.Logic.Function.Basic

/-! # Plain objects

An object literal used as a map. A property that it does not have itself is looked up in
`Object.prototype`, so that some names are always found. -/

/-- What reading a property finds. -/
inductive Property (ν : Type) where
  | own (value : ν)
  /-- The value that every plain object inherits under this name. -/
  | inherited (name : String)
  deriving DecidableEq, Repr

/-- The properties of an object itself. The object that an assignment to `__proto__` makes its
prototype is not kept: a spread does not copy it. -/
structure PlainObject (ν : Type) where
  own : String → Option ν

namespace PlainObject

variable {ν : Type} {key other : String}

/-- The names of the properties of `Object.prototype`. -/
def inheritedNames : List String :=
  ["constructor", "__defineGetter__", "__defineSetter__", "hasOwnProperty", "__lookupGetter__",
    "__lookupSetter__", "isPrototypeOf", "propertyIsEnumerable", "toString", "valueOf", "__proto__",
    "toLocaleString"]

/-- `{}` -/
def empty : PlainObject ν where
  own := fun _ => none

/-- `object[key] = value`. Under `__proto__` this sets the prototype and no property. -/
def assign (key : String) (value : ν) (object : PlainObject ν) : PlainObject ν :=
  if key = "__proto__" then object else ⟨Function.update object.own key (some value)⟩

/-- `{ ...older, ...newer }` -/
def spread (older newer : PlainObject ν) : PlainObject ν where
  own := fun key => (newer.own key).or (older.own key)

/-- `object[key]`, for an object whose prototype is `Object.prototype`. -/
def get (key : String) (object : PlainObject ν) : Option (Property ν) :=
  ((object.own key).map .own).or (if key ∈ inheritedNames then some (.inherited key) else none)

@[simp] theorem empty_own : (empty : PlainObject ν).own key = none := rfl

@[simp] theorem spread_own (older newer : PlainObject ν) :
    (older.spread newer).own key = (newer.own key).or (older.own key) := rfl

theorem assign_own (value : ν) (object : PlainObject ν) :
    (object.assign key value).own other =
      if key = other ∧ key ≠ "__proto__" then some value else object.own other := by
  unfold assign
  by_cases hproto : key = "__proto__"
  · rw [if_pos hproto, if_neg fun h => h.2 hproto]
  · rw [if_neg hproto]
    by_cases heq : key = other
    · subst heq
      rw [if_pos ⟨rfl, hproto⟩]
      exact Function.update_self ..
    · rw [if_neg fun h => heq h.1]
      exact Function.update_of_ne (Ne.symm heq) _ _

theorem get_of_own {object : PlainObject ν} {value : ν} (h : object.own key = some value) :
    object.get key = some (.own value) := by
  simp [get, h]

theorem get_of_not_own {object : PlainObject ν} (h : object.own key = none) :
    object.get key = if key ∈ inheritedNames then some (.inherited key) else none := by
  simp [get, h]

end PlainObject
