import Tariff.Visibility

/-!
# Resolution

The variables of a formula are resolved in their order. A visible one takes the answer that is
given for it, or its prefilled answer; a hidden one takes the fallback of its rule, whatever was
answered. The trace tells what was decided for every variable with a rule.
-/

namespace Tariff

/-- Answers by the ids of their variables. -/
abbrev Answers := OrderedMap Value

/-- A step of a computation as it is reported. -/
structure TraceStep where
  /-- The stage of the computation. -/
  stage : String
  /-- What was done. -/
  description : String
  /-- What came of it. -/
  value : String
  deriving DecidableEq, Repr

/-- The variables of a formula with their effective values. -/
structure Resolution where
  /-- Each id with its variable and effective value, in order. -/
  resolved : Resolved
  /-- Whether each variable is shown. -/
  visibility : OrderedMap Bool
  /-- What was decided. -/
  trace : List TraceStep
  /-- The conditions that name no earlier variable. -/
  issues : List ResolutionIssue
  deriving Repr

namespace Resolution

/-- Nothing is resolved yet. -/
def start : Resolution := ⟨[], [], [], []⟩

/-- The effective values. -/
def effective (r : Resolution) : OrderedMap Value :=
  r.resolved.map fun e => (e.1, e.2.2)

/-- The answer to a variable before it is known whether it is shown. -/
def rawAnswer (v : Variable) (answers : Answers) : Value :=
  (answers.find? v.id).getD v.prefilled

/-- The value of a variable while it is hidden. -/
def fallback (v : Variable) : Value :=
  (v.rule?.map (·.fallback)).getD .null

/-- What is reported of a decision; nothing for a variable that is always shown. -/
def decisionTrace (v : Variable) (visible : Bool) (value : Value) : List TraceStep :=
  if !visible then [⟨"Visibility", v.id ++ " hidden, using default", value.quoted⟩]
  else if v.isConditional then
    [⟨"Visibility", v.id ++ " conditions met, using input", value.quoted⟩]
  else []

/-- The resolution after one more variable. -/
def step (answers : Answers) (r : Resolution) (v : Variable) : Resolution :=
  let visible := v.isVisible r.resolved
  let value := if visible then rawAnswer v answers else fallback v
  { resolved := r.resolved.insert v.id (v, value)
    visibility := r.visibility.insert v.id visible
    trace := r.trace ++ decisionTrace v visible value
    issues := r.issues ++ v.resolutionIssues r.resolved }

/-- What is reported at the end: how many variables there are and how many of them are hidden. -/
def summary (r : Resolution) : TraceStep :=
  ⟨"Resolution", "Resolved " ++ toString r.resolved.length ++ " variables",
    toString (r.visibility.countP fun e => !e.2) ++ " hidden"⟩

end Resolution

/-- The variables with their effective values under some answers. -/
def resolve (questions : List Variable) (answers : Answers) : Resolution :=
  let r := questions.foldl (Resolution.step answers) .start
  { r with trace := r.trace ++ [r.summary] }

end Tariff
