import Tariff.Answer
import Tariff.Formula

/-!
# Coercion

`Variable.contributions` turns the answer to a question into what its tokens contribute. Nothing is
refused: an answer that does not fit counts as zero and is reported as an issue. `tokenMap` joins
the contributions of all variables of a formula.
-/

namespace Tariff

/-- Why an answer does not fit its question. -/
inductive Misfit where
  /-- A number is asked for. -/
  | notANumber
  /-- No option has this value or id. -/
  | noMatchingOption
  /-- One option is asked for; the first of those given counts. -/
  | severalSelections
  deriving DecidableEq, Repr

/-- The reason in words. -/
def Misfit.message : Misfit → String
  | notANumber => "not a number"
  | noMatchingOption => "no matching option"
  | severalSelections => "several selections for a single-select question, using the first"

/-- An answer that does not fit. -/
structure CoercionIssue where
  /-- The id of the question. -/
  variableId : String
  /-- The answer, or the part of it that does not fit. -/
  answer : Value
  /-- Why it does not fit. -/
  misfit : Misfit
  deriving Repr

/-- The issue in words. -/
def CoercionIssue.message (i : CoercionIssue) : String :=
  "Could not coerce " ++ i.answer.quoted ++ " for '" ++ i.variableId ++ "': " ++ i.misfit.message

/-- What the tokens of a question contribute, and what did not fit. -/
structure Coerced where
  /-- The contribution of each token. -/
  contributions : OrderedMap Contribution
  /-- The answers that did not fit. -/
  issues : List CoercionIssue
  deriving Repr

/-- The number of an option in the older shape: its multiplier unless that is missing or zero. -/
def Choice.amount (c : Choice) : Number :=
  (c.multiplier?.filter fun m => !m.isZero).getD c.number

/-- Whether a selection names an option, by its value or by its id. -/
def Choice.isIn (c : Choice) (selected : List String) : Bool :=
  selected.contains c.value.plain || selected.contains c.id

namespace Variable

/-- A single contribution under the id of the variable. -/
def contributing (v : Variable) (c : Contribution) (issues : List CoercionIssue) : Coerced :=
  ⟨[(v.id, c)], issues⟩

/-- The number that is typed or set. -/
def numericContribution (v : Variable) (answer : Value) : Coerced :=
  if Answer.isEmpty answer then v.contributing (.number .zero) []
  else match Answer.number? answer with
    | some n => v.contributing (.number n) []
    | none => v.contributing (.number .zero) [⟨v.id, answer, .notANumber⟩]

/-- The number of the option that is chosen. -/
def choiceContribution (v : Variable) (amount : Choice → Number) (answer : Value)
    (issues : List CoercionIssue) : Coerced :=
  if Answer.isEmpty answer then v.contributing (.number .zero) issues
  else match v.choiceFor? answer with
    | some c => v.contributing (.number (amount c)) issues
    | none => v.contributing (.number .zero) (issues ++ [⟨v.id, answer, .noMatchingOption⟩])

/-- The numbers of all options, each by whether it is chosen. -/
def selectionContributions (v : Variable) (answer : Value) : Coerced :=
  let selected := Answer.selection answer
  let unknown := selected.filter fun s => !v.choices.any fun c => c.value.plain == s || c.id == s
  let issues :=
    if unknown.isEmpty then []
    else [⟨v.id, .list ((Answer.sortTexts unknown).map .text), .noMatchingOption⟩]
  let entries := v.choices.map fun c =>
    (v.choiceToken c, Contribution.number (if c.isIn selected then c.number else c.unselected))
  ⟨OrderedMap.ofList entries, issues⟩

/-- What the tokens of a variable contribute for an answer. -/
def contributions (v : Variable) (answer : Value) : Coerced :=
  match v.kind with
  | .number | .stepper | .slider => v.numericContribution answer
  | .text => v.contributing (.number .zero) []
  | .checkbox => v.contributing
      (.text (if Answer.isChecked answer then v.checked else v.unchecked)) []
  | .dropdown => v.choiceContribution Choice.number answer []
  | .select => v.choiceContribution Choice.amount answer []
  | .multipleChoice =>
    if v.allowsSeveral then v.selectionContributions answer
    else
      let issues := match answer with
        | .list (_ :: _ :: _) => [⟨v.id, answer, .severalSelections⟩]
        | _ => []
      v.choiceContribution Choice.number (Answer.first answer) issues

end Variable

/-- What all tokens of some variables contribute. Of a token that several variables have, the last
contribution counts. -/
def tokenMap (questions : List Variable) (effective : OrderedMap Value) : Coerced :=
  let coerced := questions.map fun v => v.contributions ((effective.find? v.id).getD .null)
  ⟨OrderedMap.ofList (coerced.flatMap Coerced.contributions), coerced.flatMap Coerced.issues⟩

end Tariff
