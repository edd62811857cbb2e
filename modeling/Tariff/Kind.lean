import Tariff.Text.Blank
import Tariff.Text.LetterCase
import Tariff.Value

/-!
# Kinds of variables

The kinds of questions that a designer can put into a formula, and the groups of kinds that behave
alike.
-/

namespace Tariff

/-- The kind of a variable. -/
inductive Kind where
  /-- A typed number. -/
  | number
  /-- A number changed in steps. -/
  | stepper
  /-- A text that does not count for the price. -/
  | text
  /-- A box that is checked or not. -/
  | checkbox
  /-- A number on a scale. -/
  | slider
  /-- One option of a list. -/
  | dropdown
  /-- One or more options of a list. -/
  | multipleChoice
  /-- One option of a list, in the older shape. -/
  | select
  deriving DecidableEq, Repr

namespace Kind

/-- All kinds. -/
def all : List Kind :=
  [number, stepper, text, checkbox, slider, dropdown, multipleChoice, select]

/-- The stored name of a kind. -/
def name : Kind → String
  | number => "number"
  | stepper => "stepper"
  | text => "text"
  | checkbox => "checkbox"
  | slider => "slider"
  | dropdown => "dropdown"
  | multipleChoice => "multiple-choice"
  | select => "select"

/-- Another name that is read for a kind. -/
def otherName : Kind → String
  | select => "select-legacy"
  | k => k.name

/-- The kind with a name, whatever its case, blanks around it, and underscores for hyphens. -/
def ofName? (s : String) : Option Kind :=
  let small := Text.toLower (Text.strip s)
  let wanted := String.ofList (small.toList.map fun c => if c = '_' then '-' else c)
  all.find? fun k => k.name == wanted || k.otherName == wanted

/-- Whether the answer is a number. -/
def isNumeric : Kind → Bool
  | number | stepper | slider => true
  | _ => false

/-- Whether the answer is chosen from a list. -/
def hasOptions : Kind → Bool
  | dropdown | multipleChoice | select => true
  | _ => false

/-- Whether the answer lies in a range. -/
def hasRange : Kind → Bool
  | stepper | slider => true
  | _ => false

end Kind

end Tariff
