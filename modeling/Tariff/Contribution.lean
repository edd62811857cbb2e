import Tariff.Numeral.DecimalText
import Tariff.Number
import Tariff.Value
import Tariff.Text.Blank

/-!
# Contributions

What a variable puts in the place of its token: a number, or the text of a sub-expression.
`Contribution.factor` writes it so that it binds as one factor wherever the token stands: texts
and negative numbers go between parentheses, and no number has an exponent.
-/

namespace Tariff

/-- What stands for a token in an expression. -/
inductive Contribution where
  /-- A number. -/
  | number (n : Number)
  /-- The text of a sub-expression. -/
  | text (s : String)
  deriving DecidableEq, Repr, Inhabited

/-- A text that starts with a minus goes between parentheses. -/
def guardMinus (cs : List Char) : List Char :=
  match cs with
  | '-' :: _ => '(' :: (cs ++ [')'])
  | _ => cs

/-- A decimal as one factor of an expression. -/
def Decimal.factor (d : Decimal) : List Char :=
  guardMinus d.fixedText.toList

/-- The decimal that a finite binary64 number is written as. -/
def Binary64.decimal? : Binary64 → Option Decimal
  | .finite neg m e =>
    if m = 0 then some ⟨neg, 0, 0⟩
    else
      let (c, k) := shortest m e
      some ⟨neg, c, k⟩
  | _ => none

/-- A number as one factor of an expression: a whole value by its digits, any other by the
shortest digits that read back. -/
def Number.factor : Number → List Char
  | .whole n => guardMinus (Numeral.integerText n).toList
  | .real x =>
    match x.toInt?, x.decimal? with
    | some n, _ => guardMinus (Numeral.integerText n).toList
    | none, some d => d.factor
    | none, none =>
      match x with
      | .infinite neg => guardMinus (if neg then "-Infinity" else "Infinity").toList
      | _ => "NaN".toList

namespace Contribution

/-- The contribution as one factor of an expression; a blank text counts as zero. -/
def factor : Contribution → List Char
  | number n => n.factor
  | text s =>
    let cs := Text.trim s.toList
    if cs.isEmpty then ['0'] else '(' :: (cs ++ [')'])

/-- The contribution as a value. -/
def toValue : Contribution → Value
  | number n => .ofNumber n
  | text s => .text s

/-- The contribution that a value is; a truth value counts as one or zero. -/
def ofValue? : Value → Option Contribution
  | .bool b => some (.number (.whole (if b then 1 else 0)))
  | .int n => some (.number (.whole n))
  | .float x => some (.number (.real x))
  | .text s => some (.text s)
  | _ => none

end Contribution

end Tariff
