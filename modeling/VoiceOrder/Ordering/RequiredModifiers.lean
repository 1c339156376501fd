import VoiceOrder.Ordering.CartView

/-! # Required modifier groups of a proposed batch

A required group must hold exactly one selection. The check runs over the modifier set
that results from the whole batch, so a swap passes and a lone addition that doubles a
group, or a removal that empties one, is reported. -/

namespace VoiceOrder.Ordering

open VoiceOrder.Menu VoiceOrder.CartModule

/-- The option shape shared by menu candidates and cart-view modifiers. -/
structure ModOption where
  modifierKey : String
  name : String
  groupKey : Option String
  groupName : Option String
  required : Option Bool
  deriving DecidableEq, Repr

def candidateOption (mod : CandidateModifier) : ModOption :=
  ⟨mod.modifierKey, mod.name, mod.groupKey, mod.groupName, mod.required⟩

def viewOption (mod : CartModifierView) : ModOption :=
  ⟨mod.modifierKey, mod.name, mod.groupKey, mod.groupName, mod.required⟩

/-- The tables `checkExactlyOne` reads off the options. -/
structure GroupTables where
  /-- modifier key → group key -/
  groupOf : List (String × String)
  /-- group key → group display name -/
  groupName : List (String × String)
  /-- group key → option names, for the message -/
  optionNames : List (String × List String)
  requiredGroups : List String

/-- An option without a group adds nothing. -/
def GroupTables.addOption (tables : GroupTables) (option : ModOption) : GroupTables :=
  match option.groupKey with
  | none => tables
  | some group =>
      { groupOf := OrderedMap.set tables.groupOf option.modifierKey group
        groupName := match option.groupName with
          | none => tables.groupName
          | some name => OrderedMap.set tables.groupName group name
        optionNames := OrderedMap.set tables.optionNames group
          ((OrderedMap.get tables.optionNames group).getD [] ++ [option.name])
        requiredGroups := if option.required = some true
          then OrderedMap.add tables.requiredGroups group else tables.requiredGroups }

def groupTables (options : List ModOption) : GroupTables :=
  options.foldl GroupTables.addOption ⟨[], [], [], []⟩

/-- How many of the selected keys fall in each group; a key not on the item is not ours
to judge. -/
def groupCounts (groupOf : List (String × String)) (selectedKeys : List String) :
    List (String × ℕ) :=
  selectedKeys.foldl (fun counts key =>
    match OrderedMap.get groupOf key with
    | none => counts
    | some group => OrderedMap.set counts group ((OrderedMap.get counts group).getD 0 + 1)) []

/-- The message for a group that does not hold exactly one selection. -/
def violation (itemLabel gname opts : String) (n : ℕ) : String :=
  if n = 0 then
    "\"" ++ itemLabel ++ "\" requires exactly one choice for \"" ++ gname ++ "\" (options: " ++
      opts ++ "), but none was selected. Do not guess: end this turn with a spoken reply " ++
      "asking the customer which they want."
  else
    "\"" ++ itemLabel ++ "\" allows only one choice for \"" ++ gname ++ "\" (options: " ++ opts ++
      "), but " ++ toString n ++ " were selected. Keep exactly one."

/-- Check that every required group holds exactly one selected key. `onlyGroups`, when
given, narrows the check to those groups. -/
def checkExactlyOne (selectedKeys : List String) (options : List ModOption) (itemLabel : String)
    (onlyGroups : Option (List String)) : List String :=
  let tables := groupTables options
  let counts := groupCounts tables.groupOf selectedKeys
  let judged := tables.requiredGroups.filter fun group =>
    match onlyGroups with
    | none => true
    | some only => group ∈ only
  judged.filterMap fun group =>
    let n := (OrderedMap.get counts group).getD 0
    if n = 1 then none
    else
      let gname := (OrderedMap.get tables.groupName group).getD "a required option"
      let opts := ", ".intercalate ((OrderedMap.get tables.optionNames group).getD [])
      some (violation itemLabel gname opts n)

/-- The modifiers of a line while the batch's edits are simulated on it. -/
structure LineState where
  options : List ModOption
  label : String
  keys : List String
  touchedGroups : List String
  removed : Bool
  deriving DecidableEq, Repr

/-- The simulated lines, by line id, in the order the batch first names them. -/
abbrev LineStates := List (LineId × LineState)

def initialState (line : CartLineView) : LineState where
  options := line.availableModifiers.map viewOption
  label := line.name
  keys := line.modifiers.map CartModifierView.modifierKey
  touchedGroups := []
  removed := false

/-- The state of a line, read from the view when the batch first names it; an unknown
line has none. -/
def stateOf (view : CartView) (lines : LineStates) (lineId : LineId) : Option LineState :=
  match OrderedMap.get lines lineId with
  | some existing => some existing
  | none => (view.items.find? (fun line => line.lineId = lineId)).map initialState

/-- Record that the batch named a key's group, when the menu gives it one. -/
def LineState.touch (state : LineState) (key : String) : LineState :=
  match (state.options.find? (fun option => option.modifierKey = key)).bind ModOption.groupKey with
  | none => state
  | some group => { state with touchedGroups := OrderedMap.add state.touchedGroups group }

def LineState.addKey (state : LineState) (key : String) : LineState :=
  if key ∈ state.keys then state else { state with keys := state.keys ++ [key] }

def LineState.removeKey (state : LineState) (key : String) : LineState :=
  { state with keys := state.keys.filter (fun k => k ≠ key) }

/-- What one operation does to the state of the line it names. -/
def LineState.apply (state : LineState) : CartOperation → LineState
  | .addModifier _ key => (state.touch key).addKey key
  | .removeModifier _ key => (state.touch key).removeKey key
  | .removeItem _ => { state with removed := true }
  | .addItem .. => state
  | .updateQuantity .. => state

/-- The line an operation of the simulation names. -/
def simulatedTarget : CartOperation → Option LineId
  | .addModifier lineId _ => some lineId
  | .removeModifier lineId _ => some lineId
  | .removeItem lineId => some lineId
  | .addItem .. => none
  | .updateQuantity .. => none

def simulateOp (view : CartView) (lines : LineStates) (op : CartOperation) : LineStates :=
  match simulatedTarget op with
  | none => lines
  | some lineId =>
      match stateOf view lines lineId with
      | none => lines
      | some state => OrderedMap.set lines lineId (state.apply op)

/-- A line is judged only on the groups this batch changed. -/
def judgeLine (state : LineState) : List String :=
  if state.removed || state.touchedGroups.isEmpty then []
  else checkExactlyOne state.keys state.options state.label (some state.touchedGroups)

/-- An addition's resulting modifier set is its inline modifiers. An item that did not
resolve, or is not available, is the cart's to reject. -/
def judgeAddition (itemsByKey : String → Option MenuItem) : CartOperation → List String
  | .addItem menuItemKey _ refs =>
      match itemsByKey menuItemKey with
      | none => []
      | some item =>
          if item.available then
            checkExactlyOne (refs.map OpModifierRef.modifierKey)
              (item.modifiers.map candidateOption)
              (displayName (some item.names) item.menuItemKey) none
          else []
  | _ => []

/-- One message per violation, and none twice. -/
def findRequiredModifierViolations (ops : List CartOperation) (cartView : Option CartView)
    (itemsByKey : String → Option MenuItem) : List String :=
  let additions := ops.flatMap (judgeAddition itemsByKey)
  let edits := match cartView with
    | none => []
    | some view => (ops.foldl (simulateOp view) []).flatMap (fun entry => judgeLine entry.2)
  (additions ++ edits).foldl OrderedMap.add []

end VoiceOrder.Ordering
