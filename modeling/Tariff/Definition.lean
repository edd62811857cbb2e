import Tariff.Formula
import Tariff.Identifier
import Tariff.Numeral.IntegerText

/-!
# Stored definitions

Formulas are stored as records. `Formula.ofValue` reads one, and `Definition.Fault` lists why a
value is not a definition. Missing and empty fields take their defaults, older field names are read
too, and an option without an id takes its value, its label or its place for one.
-/

namespace Tariff

namespace Definition

/-- Why a value is not a definition. -/
inductive Fault where
  /-- No kind of variable has this name. -/
  | unknownKind (name : Value)
  /-- No comparison has this name. -/
  | unknownComparison (name : Value)
  /-- Conditions cannot be joined in this way. -/
  | unknownConnective (name : String)
  /-- A text is no number. -/
  | notANumber (s : String)
  /-- A text is no integer. -/
  | notAnInteger (s : String) (fault : Numeral.IntegerFault)
  /-- A price bound is not a number. -/
  | undefinedBound
  /-- A price bound is infinite. -/
  | infiniteBound
  /-- A price bound is neither a number nor a text. -/
  | unfitBound (found : Value)
  /-- A list is needed. -/
  | notAList (found : Value)
  /-- A record is needed. -/
  | notARecord (found : Value)
  deriving Repr

/-- The fault in words. -/
def Fault.message : Fault → String
  | unknownKind name => "Unknown variable type '" ++ name.plain ++ "'"
  | unknownComparison name => name.quoted ++ " is not a valid ConditionKind"
  | unknownConnective name => Text.quoted name ++ " is not a valid LogicOperator"
  | notANumber s => "could not convert string to float: " ++ Text.quoted s
  | notAnInteger s fault => fault.message s
  | undefinedBound => "cannot convert float NaN to integer"
  | infiniteBound => "cannot convert float infinity to integer"
  | unfitBound found =>
    "int() argument must be a string, a bytes-like object or a real number, not '"
      ++ found.typeName ++ "'"
  | notAList found => "'" ++ found.typeName ++ "' object is not iterable"
  | notARecord found => "'" ++ found.typeName ++ "' object has no attribute 'get'"

/-- The fields of a record. -/
def fields : Value → Except Fault (OrderedMap Value)
  | .record fs => .ok fs
  | v => .error (.notARecord v)

/-- The value of a field; no value if it is missing. -/
def field (r : OrderedMap Value) (name : String) : Value :=
  (r.find? name).getD .null

/-- The text of a field; no text if it is missing. -/
def textField (r : OrderedMap Value) (name : String) : String :=
  ((r.find? name).getD (.text "")).plain

/-- The first of some fields that says something. -/
def firstGiven? (r : OrderedMap Value) (names : List String) : Option Value :=
  names.findSome? fun name => (field r name).given?

/-- The text of the first field that says something. -/
def givenText (r : OrderedMap Value) (names : List String) (default : String) : String :=
  ((firstGiven? r names).getD (.text default)).plain

/-- The value of a field that says something, and no value otherwise. -/
def givenField (r : OrderedMap Value) (name : String) : Value :=
  ((field r name).given?).getD .null

/-- The number that a value other than an empty one stands for. -/
def number : Value → Except Fault Number
  | .bool b => .ok (.whole (if b then 1 else 0))
  | .int n => .ok (.whole n)
  | .float x => .ok (.real x)
  | v =>
    let s := Text.strip v.plain
    match Binary64.read? s with
    | some x => .ok (.real x)
    | none => .error (.notANumber s)

/-- The number of a field, if it is given. -/
def number? (v : Value) : Except Fault (Option Number) :=
  if v.isMissing then .ok none else (number v).map some

/-- The number of a field, zero if it is not given. -/
def numberOrZero (v : Value) : Except Fault Number :=
  (number? v).map (·.getD .zero)

/-- The price bound of a field, if it is given. -/
def bound? (v : Value) : Except Fault (Option Int) :=
  if v.isMissing then .ok none
  else match v with
    | .bool b => .ok (some (if b then 1 else 0))
    | .int n => .ok (some n)
    | .float .nan => .error .undefinedBound
    | .float x =>
      match x.truncate? with
      | some n => .ok (some n)
      | none => .error .infiniteBound
    | .text s =>
      match Numeral.readInteger s with
      | .ok n => .ok (some n)
      | .error fault => .error (.notAnInteger s fault)
    | found => .error (.unfitBound found)

/-- The members of a field that holds a list, none if it is empty. A text or a record in its place
has members that are no records. -/
def members (v : Value) : Except Fault (List Value) :=
  if v.isVoid then .ok []
  else match v with
    | .list items => .ok items
    | .text s => .ok (s.toList.map fun c => .text c.toString)
    | .record fs => .ok (fs.map fun f => .text f.1)
    | found => .error (.notAList found)

end Definition

open Definition

/-- Reads the option at a place of its list. -/
def Choice.ofValue (v : Value) (place : Int) : Except Fault Choice := do
  let r ← fields v
  let label := Text.strip (textField r "label")
  let stored := field r "value"
  let value := if stored.isMissing then .text label else stored
  let own := if value.isMissing then "" else value.plain
  let id := match (field r "id").given? with
    | some given => given.plain
    | none => if own.isEmpty then Identifier.numbered "option" place else own
  let number ← numberOrZero (field r "numericValue")
  let unselected ← numberOrZero (field r "defaultUnselectedValue")
  let multiplier? ← number? (field r "multiplier")
  return { id, label, value, number, unselected, multiplier?, image := givenField r "image" }

/-- Reads a condition. A list of expected values goes before a single one. -/
def Condition.ofValue (v : Value) : Except Fault Condition := do
  let r ← fields v
  let name := (firstGiven? r ["kind", "condition"]).getD (.text "equals")
  let expected := match field r "expectedValues" with
    | .list (x :: xs) => .list (x :: xs)
    | _ => field r "expectedValue"
  let dependsOn := givenText r ["dependsOnVariableId", "dependsOnVariable"] ""
  match Comparison.ofValue? name with
  | some comparison => return { dependsOn, comparison, expected }
  | none => throw (.unknownComparison name)

/-- Reads a visibility rule. A single condition may be written in the rule itself. -/
def VisibilityRule.ofValue (v : Value) : Except Fault VisibilityRule := do
  let r ← fields v
  let stored := match field r "conditions", (field r "dependsOnVariable").isVoid with
    | .null, false => .list [v]
    | conditions, _ => conditions
  let name := Text.toUpper (givenText r ["operator"] "AND")
  match Connective.ofName? name with
  | none => throw (.unknownConnective name)
  | some connective =>
    let conditions ← (← members stored).mapM Condition.ofValue
    return {
      enabled := !(field r "enabled").isVoid
      connective
      conditions
      fallback := field r "defaultValue" }

/-- Reads options, the first of which stands at a place of its list. -/
def Choice.listOfValues (place : Nat) : List Value → Except Fault (List Choice)
  | [] => return []
  | v :: vs => do
    let c ← Choice.ofValue v place
    return c :: (← Choice.listOfValues (place + 1) vs)

/-- The kind that a value names. -/
def Kind.ofValue (v : Value) : Except Fault Kind :=
  match Kind.ofName? v.plain with
  | some kind => .ok kind
  | none => .error (.unknownKind v)

/-- Reads a variable. -/
def Variable.ofValue (v : Value) : Except Fault Variable := do
  let r ← fields v
  let kind ← Kind.ofValue ((firstGiven? r ["type", "kind"]).getD (.text "number"))
  let choices ← Choice.listOfValues 0 (← members (field r "options"))
  let min? ← number? (field r "min")
  let max? ← number? (field r "max")
  let step? ← number? (field r "step")
  let rule? ← ((field r "conditionalLogic").given?).mapM VisibilityRule.ofValue
  return {
    id := textField r "id"
    name := textField r "name"
    kind
    unit := givenField r "unit"
    choices
    min?
    max?
    step?
    checked := givenText r ["checkedValue"] "1"
    unchecked := givenText r ["uncheckedValue"] "0"
    allowsSeveral := !(field r "allowMultipleSelection").isVoid
    rule?
    prefilled := field r "defaultValue"
    connection := givenField r "connectionKey" }

/-- Reads a formula. -/
def Formula.ofValue (v : Value) : Except Fault Formula := do
  let r ← fields v
  let questions ← (← members (field r "variables")).mapM Variable.ofValue
  let min? ← bound? (field r "minPrice")
  let max? ← bound? (field r "maxPrice")
  return {
    id := textField r "id"
    name := givenText r ["name", "title"] ""
    expression := givenText r ["expression", "formula"] ""
    questions
    range := { min?, max? } }

end Tariff
