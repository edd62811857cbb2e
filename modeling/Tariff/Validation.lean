import Tariff.Visibility

/-!
# Validation

A formula is checked before it is stored. `Defect` lists what makes a definition unfit, `Advice`
what is allowed but probably not meant. A report keeps each of them once, by its words.
-/

namespace Tariff

/-- What is wrong with a definition. -/
inductive Defect where
  /-- A name is blank. -/
  | emptyName
  /-- An id is blank. -/
  | emptyId
  /-- Two variables have one id. -/
  | duplicateVariable (id : String)
  /-- One of two ids starts with the other. -/
  | prefixCollision (id other : String)
  /-- A unit is too long. -/
  | longUnit (limit : Int)
  /-- The least number is above the greatest. -/
  | emptyRange (least greatest : Number)
  /-- A step is not positive. -/
  | badStep (step : Number)
  /-- There is nothing to choose from. -/
  | noChoices (kind : Kind)
  /-- An option repeats the id or the value of an earlier one. -/
  | duplicateChoice (id value : String)
  /-- A condition names no variable. -/
  | unknownDependency (id : String)
  /-- A condition names a variable that does not come earlier. -/
  | laterDependency (id : String)
  /-- The value of a hidden variable does not suit its kind. -/
  | unfitFallback (value : Value) (kind : Kind)
  /-- The least price is above the greatest. -/
  | emptyPriceRange (least greatest : Int)
  deriving Repr

namespace Defect

/-- The name of the sort of defect. -/
def code : Defect → String
  | emptyName => "empty_name"
  | emptyId => "empty_id"
  | duplicateVariable _ => "duplicate_variable_id"
  | prefixCollision .. => "prefix_collision_id"
  | longUnit _ => "unit_too_long"
  | emptyRange .. => "invalid_range"
  | badStep _ => "invalid_range"
  | noChoices _ => "empty_options"
  | duplicateChoice .. => "duplicate_option_id"
  | unknownDependency _ => "unknown_dependency"
  | laterDependency _ => "forward_dependency"
  | unfitFallback .. => "invalid_default_value"
  | emptyPriceRange .. => "invalid_price_range"

/-- The defect in words. -/
def message : Defect → String
  | emptyName => "Name is required"
  | emptyId => "Id is required"
  | duplicateVariable id => "Id '" ++ id ++ "' is used by more than one variable"
  | prefixCollision id other =>
    "Id '" ++ id ++ "' collides with '" ++ other ++ "' (one is a prefix of the other)"
  | longUnit limit => "Unit must be at most " ++ Numeral.integerText limit ++ " characters"
  | emptyRange least greatest =>
    "min (" ++ least.text ++ ") is greater than max (" ++ greatest.text ++ ")"
  | badStep step => "step must be positive, got " ++ step.text
  | noChoices kind => kind.name ++ " needs at least one option"
  | duplicateChoice id value => "Option '" ++ id ++ "' (" ++ value ++ ") is not unique"
  | unknownDependency id => "Condition references unknown variable '" ++ id ++ "'"
  | laterDependency id =>
    "Condition references '" ++ id ++ "', which does not come before this variable"
  | unfitFallback value kind =>
    "Default value " ++ value.quoted ++ " does not fit a " ++ kind.name ++ " variable"
  | emptyPriceRange least greatest =>
    "minPrice (" ++ Numeral.integerText least ++ ") is greater than maxPrice ("
      ++ Numeral.integerText greatest ++ ")"

end Defect

/-- A defect and the variable that has it. -/
structure DefinitionError where
  /-- The id of the variable; it is empty for the formula itself. -/
  variableId : String
  /-- What is wrong. -/
  defect : Defect
  deriving Repr

/-- The error in words, with the name of its sort. -/
def DefinitionError.text (e : DefinitionError) : String :=
  "[" ++ e.defect.code ++ "] "
    ++ (if e.variableId.isEmpty then "" else e.variableId ++ ": ") ++ e.defect.message

/-- What is allowed in a definition but probably not meant. -/
inductive Advice where
  /-- A comparison that is not offered for the variable it tests. -/
  | unusualComparison (id : String) (comparison : Comparison) (dependency : String) (kind : Kind)
  /-- The value of a hidden variable names none of its options. -/
  | unmatchedFallback (id : String) (value : Value)
  /-- Nothing is computed. -/
  | emptyExpression
  /-- A variable with several choices is used by its id. -/
  | wholeSelection (name : String)
  /-- A name that no variable has. -/
  | unknownName (name : String)
  /-- The expression has no value for sample contributions. -/
  | unevaluable (fault : EvaluationFault)
  deriving Repr

/-- The advice in words. -/
def Advice.message : Advice → String
  | unusualComparison id comparison dependency kind =>
    id ++ ": '" ++ comparison.label ++ "' is not a usual condition for " ++ kind.name
      ++ " variable '" ++ dependency ++ "'"
  | unmatchedFallback id value => id ++ ": default value " ++ value.quoted ++ " matches no option"
  | emptyExpression => "Formula expression is empty"
  | wholeSelection name =>
    "'" ++ name ++ "' allows multiple selections; reference its option tokens (" ++ name
      ++ "_<option>) instead of the variable id"
  | unknownName name => "Unknown token '" ++ name ++ "' will evaluate as 0"
  | unevaluable fault => "Expression may not evaluate: " ++ fault.message

/-- The elements of a list whose key is neither in `seen` nor that of an earlier element. -/
def onceBy {α : Type u} (key : α → String) (seen : List String) : List α → List α
  | [] => []
  | x :: xs =>
    if seen.contains (key x) then onceBy key seen xs else x :: onceBy key (key x :: seen) xs

/-- What a check of a formula found. -/
structure Report where
  /-- What is wrong. -/
  errors : List DefinitionError
  /-- What is probably not meant. -/
  advice : List Advice
  deriving Repr

namespace Report

/-- The report of all findings, each once. -/
def of (errors : List DefinitionError) (advice : List Advice) : Report :=
  ⟨onceBy DefinitionError.text [] errors, onceBy Advice.message [] advice⟩

/-- Whether nothing is wrong. -/
def valid (r : Report) : Bool := r.errors.isEmpty

/-- The words of the errors. -/
def messages (r : Report) : List String := r.errors.map (·.text)

/-- The words of the advice. -/
def warnings (r : Report) : List String := r.advice.map (·.message)

end Report

/-- A unit that has no length: it is a number or a truth value. -/
structure UnmeasuredUnit where
  /-- The id of the variable that has it. -/
  variableId : String
  deriving DecidableEq, Repr

/-- Whether a value is a truth value. -/
def isTruthValue : Value → Bool
  | .bool _ => true
  | _ => false

/-- Whether a value is a text. -/
def isText : Value → Bool
  | .text _ => true
  | _ => false

/-- Whether a value is a text or a number; truth values are neither. -/
def isScalarAnswer : Value → Bool
  | .text _ | .int _ | .float _ => true
  | _ => false

namespace Variable

/-- The length of the unit, in characters or members; `none` if it has no length. -/
def unitLength? (v : Variable) : Option Nat :=
  match v.unit with
  | .null => some 0
  | .text s => some s.length
  | .list items => some items.length
  | .record fields => some fields.length
  | _ => none

/-- What is wrong between the id of a variable and those of the others. -/
def idDefects (v : Variable) (others : List Variable) : List Defect :=
  if Text.isBlankText v.id then [.emptyId]
  else (others.filter fun o => !o.id.isEmpty).filterMap fun o =>
    if o.id = v.id then some (.duplicateVariable v.id)
    else if v.id.toList.isPrefixOf o.id.toList || o.id.toList.isPrefixOf v.id.toList then
      some (.prefixCollision v.id o.id)
    else none

/-- What is wrong with the range of a variable. -/
def rangeDefects (v : Variable) : List Defect :=
  if !v.kind.hasRange then []
  else
    let range := match v.min?, v.max? with
      | some least, some greatest =>
        if greatest.isBelow least then [.emptyRange least greatest] else []
      | _, _ => []
    let step := match v.kind, v.step? with
      | .slider, some step =>
        if (step.compare? .zero).any (· != .gt) then [.badStep step] else []
      | _, _ => []
    range ++ step

/-- The options that repeat the id or the value of one of those before them. -/
def duplicateChoices (ids values : List String) : List Choice → List Defect
  | [] => []
  | c :: cs =>
    let value := c.value.plain
    let rest := duplicateChoices (c.id :: ids) (value :: values) cs
    if ids.contains c.id || values.contains value then .duplicateChoice c.id value :: rest else rest

/-- What is wrong with the options of a variable. -/
def choiceDefects (v : Variable) : List Defect :=
  if !v.kind.hasOptions then []
  else (if v.choices.isEmpty then [.noChoices v.kind] else []) ++ duplicateChoices [] [] v.choices

/-- What is wrong with a variable, on its own and among the others of its formula. -/
def validate (v : Variable) (others : List Variable) (unitLimit : Int) :
    Except UnmeasuredUnit (List DefinitionError) :=
  match v.unitLength? with
  | none => .error ⟨v.id⟩
  | some length =>
    let defects :=
      (if Text.isBlankText v.name then [.emptyName] else [])
        ++ v.idDefects others
        ++ (if !v.unit.isVoid && unitLimit < length then [.longUnit unitLimit] else [])
        ++ v.rangeDefects ++ v.choiceDefects
    .ok (defects.map (⟨v.id, ·⟩))

/-- Whether a value suits the kind of a variable as its value while it is hidden. -/
def fallbackSuits (v : Variable) (value : Value) : Bool :=
  match value with
  | .null => true
  | value =>
    if v.kind.isNumeric then !isTruthValue value && (Answer.number? value).isSome
    else match v.kind with
      | .checkbox => isTruthValue value
      | .text => isText value
      | _ =>
        match value with
        | .list items => v.isMultiSelect && items.all isScalarAnswer
        | value => isScalarAnswer value

/-- The values that a fallback names options by. -/
def fallbackNames : Value → List Value
  | .list items => items
  | .null => []
  | .text s => if s.isEmpty then [] else [.text s]
  | value => [value]

/-- The last place of an id among some variables, and the variable there. -/
def lastPlace? (questions : List Variable) (id : String) : Option (Variable × Nat) :=
  questions.zipIdx.foldl (fun found e => if e.1.id = id then some e else found) none

/-- What is wrong with a condition of the variable at a place. -/
def conditionDefect? (questions : List Variable) (place : Nat) (c : Condition) : Option Defect :=
  match lastPlace? questions c.dependsOn with
  | none => some (.unknownDependency c.dependsOn)
  | some (_, p) => if place ≤ p then some (.laterDependency c.dependsOn) else none

/-- What is unusual about a condition of the variable at a place, if nothing is wrong with it. -/
def conditionAdvice? (v : Variable) (questions : List Variable) (place : Nat) (c : Condition) :
    Option Advice :=
  match lastPlace? questions c.dependsOn with
  | some (d, p) =>
    if p < place && !(Comparison.offered d.kind).contains c.comparison then
      some (.unusualComparison v.id c.comparison c.dependsOn d.kind)
    else none
  | none => none

/-- What is wrong with the rule of the variable at a place. -/
def ruleDefects (v : Variable) (questions : List Variable) (place : Nat) : List Defect :=
  match v.activeRule? with
  | none => []
  | some rule =>
    rule.conditions.filterMap (conditionDefect? questions place)
      ++ if v.fallbackSuits rule.fallback then [] else [.unfitFallback rule.fallback v.kind]

/-- What is unusual about the rule of the variable at a place. -/
def ruleAdvice (v : Variable) (questions : List Variable) (place : Nat) : List Advice :=
  match v.activeRule? with
  | none => []
  | some rule =>
    rule.conditions.filterMap (v.conditionAdvice? questions place)
      ++ if v.kind.hasOptions && v.fallbackSuits rule.fallback then
          ((fallbackNames rule.fallback).filter fun value => (v.choiceFor? value).isNone).map
            (.unmatchedFallback v.id)
        else []

end Variable

namespace Formula

/-- A contribution for every token, as a customer's answers might give it. -/
def sampleContributions (f : Formula) : OrderedMap Contribution :=
  OrderedMap.ofList <| f.questions.flatMap fun v => v.tokens.map fun t =>
    (t, if v.kind == .checkbox then .text v.checked else .number (.whole 1))

/-- What is probably not meant in the expression of a formula. -/
def expressionAdvice (f : Formula) : List Advice :=
  if Text.isBlankText f.expression then [.emptyExpression]
  else
    let sample := Expression.substitute f.expression.toList
      (Expression.replacements f.sampleContributions)
    let names := sample.unknown.map fun name =>
      if f.questions.any fun v => v.isMultiSelect && v.id == name then .wholeSelection name
      else .unknownName name
    match evaluateText sample.text defaultDepth with
    | .ok _ => names
    | .error fault => names ++ [.unevaluable fault]

/-- What is wrong with the range of prices. -/
def rangeDefects (f : Formula) : List Defect :=
  match f.range.min?, f.range.max? with
  | some least, some greatest =>
    if greatest < least then [.emptyPriceRange least greatest] else []
  | _, _ => []

/-- What is wrong with the variable at a place, alone and among the others. -/
def variableErrors (f : Formula) (unitLimit : Int) (v : Variable) (place : Nat) :
    Except UnmeasuredUnit (List DefinitionError) := do
  let own ← v.validate (f.questions.eraseIdx place) unitLimit
  return own ++ (v.ruleDefects f.questions place).map (⟨v.id, ·⟩)

/-- Checks a formula. -/
def validate (f : Formula) (unitLimit : Int) : Except UnmeasuredUnit Report := do
  let errors ← f.questions.zipIdx.mapM fun (v, place) => f.variableErrors unitLimit v place
  let advice := f.questions.zipIdx.flatMap fun (v, place) => v.ruleAdvice f.questions place
  return .of (errors.flatten ++ f.rangeDefects.map (⟨"", ·⟩)) (advice ++ f.expressionAdvice)

/-- The longest unit where nothing else is said. -/
def defaultUnitLimit : Int := 15

end Formula

end Tariff
