import Tariff.Expression.Parser
import Tariff.Expression.Substitution
import Tariff.Numeral.Extended

/-!
# Prices

A price is a whole number: the value of an expression, rounded with halves away from zero and kept
between the bounds of its formula. `evaluate` is the whole way from an expression and a map of
contributions to a price; `EvaluationFault` lists all the ways in which it can fail.
-/

namespace Tariff

open Expression

/-- Why an expression has no price. -/
inductive EvaluationFault where
  /-- The text is not an expression. -/
  | malformed (fault : SyntaxFault)
  /-- A divisor is zero. -/
  | divisionByZero
  /-- An intermediate result is too large. -/
  | overflow
  /-- The result is too large to be rounded. -/
  | unroundable
  /-- The result is no number. -/
  | notFinite (value : String)
  deriving DecidableEq, Repr

namespace EvaluationFault

/-- The fault in words. -/
def message : EvaluationFault → String
  | malformed fault => fault.message
  | divisionByZero => "Division by zero"
  | overflow => "Arithmetic error: Overflow([<class 'decimal.Overflow'>])"
  | unroundable => "Arithmetic error: InvalidOperation([<class 'decimal.InvalidOperation'>])"
  | notFinite value => "Result is not a finite number: " ++ value

/-- A fault of arithmetic as a reason for having no price. -/
def ofArithmetic : ArithmeticFault → EvaluationFault
  | .divisionByZero => divisionByZero
  | .overflow => overflow

end EvaluationFault

/-- How many parentheses and minus signs may be open at once where nothing else is said. -/
def defaultDepth : Nat := 100

/-- The value of an expression without tokens. -/
def evaluateText (cs : List Char) (depth : Nat) : Except EvaluationFault Decimal := do
  let tree ← (Tree.ofText cs depth).mapError .malformed
  tree.evaluate.mapError .ofArithmetic

/-- The value of an expression without tokens, on a stack with `levels` left: the text is read and
the tree is evaluated one level further up. -/
def evaluateTextWithin (cs : List Char) (depth levels : Nat) :
    Except (Halt EvaluationFault) Decimal := do
  let tree ← (Tree.ofTextWithin cs depth (levels - 1)).mapError (.map .malformed)
  (tree.evaluateWithin (levels - 1)).mapError (.map .ofArithmetic)

/-- A value rounded to a price. Results of more than a million digits are refused. -/
def Decimal.toPrice (d : Decimal) : Except EvaluationFault Int :=
  (d.toInteger? d.widePrecision).elim (.error .unroundable) .ok

/-- Why a number is not rounded. -/
inductive RoundingFault where
  /-- There is no price for it. -/
  | evaluation (fault : EvaluationFault)
  /-- More digits would be kept than an operation can be asked for. -/
  | precision
  deriving DecidableEq, Repr

/-- The fault in words. -/
def RoundingFault.message : RoundingFault → String
  | evaluation fault => fault.message
  | precision => "valid range for prec is [1, MAX_PREC]"

/-- Any decimal rounded to a price. Unlike the value of an expression it may have an exponent so
large that the digits to keep are too many to ask for, and so may a zero. -/
def Decimal.roundToPrice (d : Decimal) : Except RoundingFault Int :=
  if greatestPrecision < d.widePrecision then .error .precision
  else d.toPrice.mapError .evaluation

/-- A number that may not be finite, rounded to a price. -/
def Extended.toPrice : Extended → Except RoundingFault Int
  | .finite d => d.roundToPrice
  | x => .error (.evaluation (.notFinite x.text))

/-- One of the two ends of a price range. -/
inductive Bound where
  /-- The lower end. -/
  | min
  /-- The upper end. -/
  | max
  deriving DecidableEq, Repr

/-- The name of an end. -/
def Bound.name : Bound → String
  | .min => "min"
  | .max => "max"

/-- The range that a price is kept in; either end may be open. -/
structure PriceRange where
  /-- The least price. -/
  min? : Option Int
  /-- The greatest price. -/
  max? : Option Int
  deriving DecidableEq, Repr

/-- A price kept in a range, and the end that it was moved to. The lower end is looked at first. -/
def PriceRange.clamp (r : PriceRange) (price : Int) : Int × Option Bound :=
  match r.min?.filter (price < ·) with
  | some least => (least, some .min)
  | none =>
    match r.max?.filter (· < price) with
    | some greatest => (greatest, some .max)
    | none => (price, none)

/-- The price of an expression under a map of contributions. -/
def evaluate (expression : String) (tokens : OrderedMap Contribution) (range : PriceRange)
    (depth : Nat) : Except EvaluationFault Int := do
  let substituted := substitute expression.toList (replacements tokens)
  let value ← evaluateText substituted.text depth
  let price ← value.toPrice
  .ok (range.clamp price).1

/-- The price of an expression under a map of contributions, on a stack with `levels` left. -/
def evaluateWithin (expression : String) (tokens : OrderedMap Contribution) (range : PriceRange)
    (depth levels : Nat) : Except (Halt EvaluationFault) Int := do
  let substituted := substitute expression.toList (replacements tokens)
  let value ← evaluateTextWithin substituted.text depth (levels - 1)
  let price ← value.toPrice.mapError .fault
  .ok (range.clamp price).1

end Tariff
