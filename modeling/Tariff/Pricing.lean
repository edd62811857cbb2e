import Tariff.Json.Fault
import Tariff.Resolution
import Tariff.Validation

/-!
# Pricing

`Formula.calculate` takes a formula and answers all the way to a price: it resolves the variables,
coerces their values into contributions, substitutes these for the tokens, evaluates what is left,
rounds and clamps. The result tells what came of every stage. `Formula.calculateWithin` does so
where numbers are written with so many digits only and the call stack is of limited height.
-/

namespace Tariff

/-- What a customer may be told about a price that was found. -/
inductive Notice where
  /-- A condition names no earlier variable. -/
  | unresolved (issue : ResolutionIssue)
  /-- An answer does not fit its question. -/
  | misfit (issue : CoercionIssue)
  /-- The expression has a name that no token stands for. -/
  | unknownName (name : String)
  deriving Repr

/-- The notice in words. -/
def Notice.message : Notice → String
  | unresolved issue => issue.message
  | misfit issue => issue.message
  | unknownName name => "Unknown token '" ++ name ++ "' evaluated as 0"

/-- Why no price is given. -/
inductive PricingFault where
  /-- The expression has no price. -/
  | evaluation (fault : EvaluationFault)
  /-- The price, or a number on the way to it, has more digits than are written. -/
  | longPrice
  deriving DecidableEq, Repr

/-- The fault in words. -/
def PricingFault.message : PricingFault → String
  | evaluation fault => fault.message
  | longPrice => Json.longNumberMessage

/-- A price and how it was found. -/
structure PriceResult where
  /-- The id of the formula. -/
  formulaId : String
  /-- The price. -/
  price : Int
  /-- The variables with their effective values. -/
  resolution : Resolution
  /-- What each token contributes. -/
  tokens : OrderedMap Contribution
  /-- The expression with its tokens replaced. -/
  substituted : String
  /-- The value of the expression. -/
  value : Decimal
  /-- The value as a whole number. -/
  rounded : Int
  /-- The end of the price range that the price was moved to. -/
  clamped : Option Bound
  /-- What the customer may be told. -/
  notices : List Notice
  /-- The stages of the computation. -/
  trace : List TraceStep
  deriving Repr

namespace PriceResult

/-- The words of the notices, each once. -/
def warnings (r : PriceResult) : List String :=
  (onceBy Notice.message [] r.notices).map Notice.message

/-- The effective values. -/
def effective (r : PriceResult) : OrderedMap Value :=
  r.resolution.effective

/-- The value of the expression in binary64. -/
def unrounded (r : PriceResult) : Binary64 :=
  Binary64.ofDecimal r.value

end PriceResult

/-- A step on a line of its own. -/
def TraceStep.text (s : TraceStep) : String :=
  "→ " ++ s.stage ++ ": " ++ s.description
    ++ if s.value.isEmpty then "" else " = " ++ s.value

/-- All steps, a line each. -/
def traceText (steps : List TraceStep) : String :=
  "\n".intercalate (steps.map TraceStep.text)

/-- The contributions in a line. -/
def tokensText (tokens : OrderedMap Contribution) : String :=
  ", ".intercalate (tokens.map fun t => t.1 ++ "=" ++ String.ofList t.2.factor)

/-- Whether an integer has no more digits than are written. -/
def isWritable (n : Int) : Bool :=
  Numeral.digitCount n.natAbs ≤ Json.maxIntegerDigits

/-- Whether a contribution has no more digits than are written. -/
def Contribution.isWritable : Contribution → Bool
  | number (.whole n) => Tariff.isWritable n
  | _ => true

/-- The report of a price that was moved into its range. -/
def clampTrace (range : PriceRange) (price : Int) : Option Bound → List TraceStep
  | none => []
  | some .min =>
    [⟨"Clamp", "Below minimum price " ++ Numeral.integerText (range.min?.getD price),
      Numeral.integerText price⟩]
  | some .max =>
    [⟨"Clamp", "Above maximum price " ++ Numeral.integerText (range.max?.getD price),
      Numeral.integerText price⟩]

namespace Formula

/-- The name of a formula, or its id if it has none. -/
def title (f : Formula) : String :=
  if f.name.isEmpty then f.id else f.name

/-- The price of a formula for some answers. -/
def calculate (f : Formula) (answers : Answers) (depth : Nat) :
    Except PricingFault PriceResult := do
  let resolution := resolve f.questions answers
  let coerced := tokenMap f.questions resolution.effective
  let tokens := coerced.contributions
  let sub := Expression.substitute f.expression.toList (Expression.replacements tokens)
  let value ← (evaluateText sub.text depth).mapError .evaluation
  let rounded ← value.toPrice.mapError .evaluation
  let (price, clamped) := f.range.clamp rounded
  if !isWritable rounded || !isWritable price then throw .longPrice
  let substituted := String.ofList sub.text
  let trace :=
    [⟨"Formula", "Pricing '" ++ f.title ++ "'", f.expression⟩]
      ++ resolution.trace
      ++ [⟨"Token Map", "Coerced " ++ toString tokens.length ++ " tokens", tokensText tokens⟩,
        ⟨"Substitution", "Expression after substitution", substituted⟩,
        ⟨"Evaluation", "Raw result", String.ofList value.factor⟩,
        ⟨"Rounding", "Rounded half away from zero", Numeral.integerText rounded⟩]
      ++ clampTrace f.range price clamped
      ++ [⟨"Price", "Final price", Numeral.integerText price⟩]
  let notices :=
    resolution.issues.map .unresolved ++ coerced.issues.map .misfit
      ++ sub.unknown.map .unknownName
  return { formulaId := f.id, price, resolution, tokens, substituted, value, rounded, clamped,
           notices, trace }

/-- The price of a formula for some answers, on a stack with `levels` left. What the variables
contribute is written down before the expression is evaluated, and only the evaluation nests calls
as deep as it is told to. -/
def calculateWithin (f : Formula) (answers : Answers) (depth levels : Nat) :
    Except (Halt PricingFault) PriceResult :=
  let tokens := (tokenMap f.questions (resolve f.questions answers).effective).contributions
  let sub := Expression.substitute f.expression.toList (Expression.replacements tokens)
  if !tokens.all fun t => t.2.isWritable then .error (.fault .longPrice)
  else if evaluateTextWithin sub.text depth (levels - 1) matches .error .stack then .error .stack
  else (f.calculate answers depth).mapError .fault

end Formula

end Tariff
