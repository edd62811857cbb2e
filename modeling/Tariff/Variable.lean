import Tariff.Condition
import Tariff.Contribution

/-!
# Variables

A variable is one question of a formula. Its tokens are the words that stand for it in the
expression: its id, or, if several options may be chosen at once, one word for each option.
-/

namespace Tariff

/-- One of the options of a variable. -/
structure Choice where
  /-- The id of the option within its variable. -/
  id : String
  /-- The option as it is shown. -/
  label : String
  /-- The value that an answer gives for it. -/
  value : Value
  /-- The number it counts as when it is chosen. -/
  number : Number
  /-- The number it counts as when others may be chosen and it is not. -/
  unselected : Number
  /-- A number that goes before `number` in the older shape. -/
  multiplier? : Option Number
  /-- A picture of the option. -/
  image : Value
  deriving Repr

/-- One question of a formula. -/
structure Variable where
  /-- The id. -/
  id : String
  /-- The question as it is shown. -/
  name : String
  /-- Its kind. -/
  kind : Kind
  /-- The unit of the answer. -/
  unit : Value
  /-- The options to choose from. -/
  choices : List Choice
  /-- The least number. -/
  min? : Option Number
  /-- The greatest number. -/
  max? : Option Number
  /-- The step between numbers. -/
  step? : Option Number
  /-- What a checked box contributes. -/
  checked : String
  /-- What an unchecked box contributes. -/
  unchecked : String
  /-- Whether several options may be chosen. -/
  allowsSeveral : Bool
  /-- When the variable is shown. -/
  rule? : Option VisibilityRule
  /-- The answer that counts where none is given. -/
  prefilled : Value
  /-- The key under which formulas share the answer. -/
  connection : Value
  deriving Repr

namespace Variable

/-- Whether several options may be chosen at once. -/
def isMultiSelect (v : Variable) : Bool :=
  v.kind == .multipleChoice && v.allowsSeveral

/-- The rule that decides whether the variable is shown, if one is in force. -/
def activeRule? (v : Variable) : Option VisibilityRule :=
  v.rule?.filter (·.enabled)

/-- Whether a rule that may hide the variable is in force. -/
def isConditional (v : Variable) : Bool :=
  v.activeRule?.isSome

/-- The token of one option of a variable with several choices. -/
def choiceToken (v : Variable) (c : Choice) : String :=
  v.id ++ "_" ++ c.id

/-- The words that stand for the variable in an expression. -/
def tokens (v : Variable) : List String :=
  if v.isMultiSelect then v.choices.map v.choiceToken else [v.id]

/-- The option that a text names: the first with that value, or else the first with that id. -/
def choiceNamed? (v : Variable) (name : String) : Option Choice :=
  (v.choices.find? fun c => c.value.plain == name).or (v.choices.find? fun c => c.id == name)

/-- The option that an answer names. -/
def choiceFor? (v : Variable) : Value → Option Choice
  | .null => none
  | answer => v.choiceNamed? answer.plain

end Variable

end Tariff
