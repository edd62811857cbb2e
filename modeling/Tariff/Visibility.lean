import Tariff.Coercion

/-!
# Visibility

`Comparison.holds` tests the value of an earlier variable as its kind demands: boxes by whether they
are checked, numbers by their values, options by what they name. `Variable.isVisible` joins the
conditions of a variable over the values of the variables before it; a condition on any other
variable is false and reported.
-/

namespace Tariff

/-- A text as it stands within another one. -/
def occursIn (part : List Char) : List Char → Bool
  | [] => part.isEmpty
  | c :: cs => part.isPrefixOf (c :: cs) || occursIn part cs

/-- A condition on a variable that is unknown or does not come earlier. -/
structure ResolutionIssue where
  /-- The id of the variable that has the condition. -/
  variableId : String
  /-- The id that the condition names. -/
  dependsOn : String
  deriving DecidableEq, Repr

/-- The issue in words. -/
def ResolutionIssue.message (i : ResolutionIssue) : String :=
  "Condition on '" ++ i.variableId ++ "' references unknown or later variable '"
    ++ i.dependsOn ++ "'"

namespace Variable

/-- The options that an answer selects, by their ids; what names no option stands for itself. -/
def canonicalSelection (v : Variable) (answer : Value) : List String :=
  (Answer.selection answer).map fun s => ((v.choiceNamed? s).map (·.id)).getD s

/-- The number that an answer to the variable counts as in a comparison. -/
def comparableNumber? (v : Variable) (answer : Value) : Option Number :=
  if v.kind.isNumeric || v.kind == .text then Answer.number? answer
  else if v.isMultiSelect then none
  else ((v.contributions answer).contributions.find? v.id).bind fun c => Answer.number? c.toValue

/-- Whether two selections hold the same texts. -/
def sameSelection (xs ys : List String) : Bool :=
  xs.all ys.contains && ys.all xs.contains

/-- Whether an answer to the variable is the expected one. -/
def answerEquals (v : Variable) (answer expected : Value) : Bool :=
  if v.kind == .checkbox then Answer.isChecked answer == Answer.isChecked expected
  else if v.kind.isNumeric then
    match Answer.number? answer, Answer.number? expected with
    | some a, some b => a.equals b
    | _, _ => answer.plain == expected.plain
  else if v.isMultiSelect then
    sameSelection (v.canonicalSelection answer) (v.canonicalSelection expected)
  else
    match answer, Answer.first answer with
    | .list _, .null => false
    | _, single =>
      match if v.kind.hasOptions then v.choiceFor? single else none with
      | some c => expected.plain == c.value.plain || expected.plain == c.id
      | none => single.plain == expected.plain

/-- Whether an answer to the variable holds the expected value, or is one of several. -/
def answerContains (v : Variable) (answer expected : Value) : Bool :=
  let common := (v.canonicalSelection answer).any (v.canonicalSelection expected).contains
  match answer, expected with
  | _, .null => false
  | .list _, _ => common
  | _, .list _ => common
  | _, _ => occursIn (Text.toLower expected.plain).toList (Text.toLower answer.plain).toList

end Variable

/-- Whether the value of a variable passes a test. A missing value passes none but emptiness. -/
def Comparison.holds (c : Comparison) (v : Variable) (answer expected : Value) : Bool :=
  let ordered (test : Ordering → Bool) : Bool :=
    match v.comparableNumber? answer, Answer.number? expected with
    | some a, some b => (a.compare? b).any test
    | _, _ => false
  match c, answer with
  | .isEmpty, _ => Answer.isEmpty answer
  | .isNotEmpty, _ => !Answer.isEmpty answer
  | _, .null => false
  | .equals, _ => v.answerEquals answer expected
  | .notEquals, _ => !v.answerEquals answer expected
  | .contains, _ => v.answerContains answer expected
  | .greaterThan, _ => ordered (· == .gt)
  | .lessThan, _ => ordered (· == .lt)
  | .greaterOrEqual, _ => ordered (· != .lt)
  | .lessOrEqual, _ => ordered (· != .gt)

/-- The variables that have been resolved, with their effective values. -/
abbrev Resolved := OrderedMap (Variable × Value)

namespace Variable

/-- Whether a condition holds over the resolved variables; `none` if it names none of them. -/
def conditionHolds? (resolved : Resolved) (c : Condition) : Option Bool :=
  (resolved.find? c.dependsOn).map fun (v, value) => c.comparison.holds v value c.expected

/-- The conditions of a rule joined. A single condition stands for itself. -/
def joinConditions (connective : Connective) (results : List Bool) : Bool :=
  match connective, results with
  | _, [single] => single
  | _, [] => true
  | .or, _ => results.any fun b => b
  | .and, _ => results.all fun b => b

/-- The conditions in force. -/
def conditions (v : Variable) : List Condition :=
  (v.activeRule?.map (·.conditions)).getD []

/-- Whether the variable is shown, given the variables resolved before it. -/
def isVisible (v : Variable) (resolved : Resolved) : Bool :=
  match v.activeRule? with
  | none => true
  | some rule => joinConditions rule.connective
      (rule.conditions.map fun c => (conditionHolds? resolved c).getD false)

/-- The conditions that name no resolved variable. -/
def resolutionIssues (v : Variable) (resolved : Resolved) : List ResolutionIssue :=
  (v.conditions.filter fun c => !resolved.contains c.dependsOn).map fun c => ⟨v.id, c.dependsOn⟩

end Variable

/-- The variables that a condition of `v` may name: those before it that are always shown. -/
def availableDependencies (v : Variable) (questions : List Variable) : List Variable :=
  match questions.findIdx? (·.id == v.id) with
  | none => []
  | some place => (questions.take place).filter fun d => !d.isConditional

end Tariff
