import Tariff.Kind

/-!
# Conditions

A variable may be shown only under conditions on earlier ones. A `Comparison` says how the value
of the earlier variable is tested; a `VisibilityRule` joins the conditions and says what a hidden
variable counts as.
-/

namespace Tariff

/-- How a value is tested. -/
inductive Comparison where
  /-- The value is the expected one. -/
  | equals
  /-- The value is not the expected one. -/
  | notEquals
  /-- The number is greater. -/
  | greaterThan
  /-- The number is smaller. -/
  | lessThan
  /-- The number is at least the expected one. -/
  | greaterOrEqual
  /-- The number is at most the expected one. -/
  | lessOrEqual
  /-- The value holds the expected one, or is one of those expected. -/
  | contains
  /-- Nothing is given. -/
  | isEmpty
  /-- Something is given. -/
  | isNotEmpty
  deriving DecidableEq, Repr

namespace Comparison

/-- All comparisons. -/
def all : List Comparison :=
  [equals, notEquals, greaterThan, lessThan, greaterOrEqual, lessOrEqual, contains, isEmpty,
    isNotEmpty]

/-- The stored name of a comparison. -/
def name : Comparison → String
  | equals => "equals"
  | notEquals => "not_equals"
  | greaterThan => "greater_than"
  | lessThan => "less_than"
  | greaterOrEqual => "greater_or_equal"
  | lessOrEqual => "less_or_equal"
  | contains => "contains"
  | isEmpty => "is_empty"
  | isNotEmpty => "is_not_empty"

/-- The comparison as a designer sees it. -/
def label : Comparison → String
  | equals => "Equals"
  | notEquals => "Does not equal"
  | greaterThan => "Greater than"
  | lessThan => "Less than"
  | greaterOrEqual => "Greater than or equal to"
  | lessOrEqual => "Less than or equal to"
  | contains => "Contains/Is one of"
  | isEmpty => "Is empty"
  | isNotEmpty => "Is not empty"

/-- The comparison that a value names. -/
def ofValue? : Value → Option Comparison
  | .text s => all.find? (·.name == s)
  | _ => none

/-- The comparisons that are offered for a number. -/
def forNumbers : List Comparison :=
  [equals, notEquals, greaterThan, lessThan, greaterOrEqual, lessOrEqual, isEmpty, isNotEmpty]

/-- The comparisons that are offered for a choice or a text. -/
def forChoices : List Comparison :=
  [equals, notEquals, contains, isEmpty, isNotEmpty]

/-- The comparisons that are offered for a variable of a kind. -/
def offered : Kind → List Comparison
  | .number | .stepper | .slider => forNumbers
  | .dropdown | .multipleChoice | .select | .text => forChoices
  | .checkbox => [equals, notEquals]

end Comparison

/-- A test of an earlier variable. -/
structure Condition where
  /-- The id of the earlier variable. -/
  dependsOn : String
  /-- How its value is tested. -/
  comparison : Comparison
  /-- What it is tested against. -/
  expected : Value
  deriving Repr

/-- How several conditions are joined. -/
inductive Connective where
  /-- All of them have to hold. -/
  | and
  /-- One of them has to hold. -/
  | or
  deriving DecidableEq, Repr

/-- The stored name of a connective. -/
def Connective.name : Connective → String
  | .and => "AND"
  | .or => "OR"

/-- The connective with a stored name. -/
def Connective.ofName? (s : String) : Option Connective :=
  [Connective.and, .or].find? (·.name == s)

/-- When a variable is shown, and what it counts as when it is not. -/
structure VisibilityRule where
  /-- Whether the rule is in force. -/
  enabled : Bool
  /-- How the conditions are joined. -/
  connective : Connective
  /-- The conditions. -/
  conditions : List Condition
  /-- The value of the variable while it is hidden. -/
  fallback : Value
  deriving Repr

end Tariff
