import Tariff.Price
import Tariff.Variable

/-!
# Formulas

A formula prices one service: an expression over the tokens of its variables, and the range that
the price is kept in.
-/

namespace Tariff

/-- A priced service. -/
structure Formula where
  /-- The id. -/
  id : String
  /-- The name as it is shown. -/
  name : String
  /-- The expression over the tokens of the variables. -/
  expression : String
  /-- The questions, in the order in which they are asked. -/
  questions : List Variable
  /-- The range of prices. -/
  range : PriceRange
  deriving Repr

namespace Formula

/-- The first variable with an id. -/
def variableWithId? (f : Formula) (id : String) : Option Variable :=
  f.questions.find? (·.id == id)

/-- The tokens of all variables, in their order. -/
def tokens (f : Formula) : List String :=
  f.questions.flatMap Variable.tokens

end Formula

end Tariff
