import Tariff.Numeral.DecimalText
import Tariff.Text.Blank

/-!
# Extended decimals

Decimal numbers together with the infinities and the undefined values that a text may name. Only
finite ones take part in arithmetic; the others are read and written.
-/

namespace Tariff

open Numeral Text

/-- A decimal number, an infinity, or an undefined value. -/
inductive Extended where
  /-- A decimal number. -/
  | finite (d : Decimal)
  /-- An infinity. -/
  | infinite (neg : Bool)
  /-- An undefined value, which may be a signalling one and may carry a number. -/
  | undefined (neg signaling : Bool) (payload : Nat)
  deriving DecidableEq, Repr

namespace Extended

private def minus (neg : Bool) (s : String) : String :=
  if neg then "-" ++ s else s

/-- The text of what is not a number. -/
private def specialText (neg : Bool) : Option (Bool × Nat) → String
  | none => minus neg "Infinity"
  | some (signaling, payload) =>
    minus neg ((if signaling then "sNaN" else "NaN")
      ++ if payload = 0 then "" else String.ofList (digits payload))

/-- The number as it is written, with its coefficient and exponent. -/
def text : Extended → String
  | finite d => d.text
  | infinite neg => specialText neg none
  | undefined neg signaling payload => specialText neg (some (signaling, payload))

/-- The number as it is written without an exponent. -/
def fixedText : Extended → String
  | finite d => d.fixedText
  | x => x.text

/-- The largest exponent of the leading digit of a number that is read. -/
def greatestExponent : Int := Int.pow 10 18 - 1

/-- The smallest exponent of the last digit of a number that is read. -/
def leastExponent : Int := 3 - 2 * Int.pow 10 18

/-- Whether a decimal has an exponent that is read. -/
def isReadable (d : Decimal) : Bool :=
  leastExponent ≤ d.exp && d.leadingExponent ≤ greatestExponent

/-- The number that a text spells, with blanks around it and underscores anywhere, or `none`. -/
def read? (s : String) : Option Extended :=
  let cs := (trim s.toList).filter (· != '_')
  match Decimal.read? cs with
  | some d => if isReadable d then some (.finite d) else none
  | none =>
    let (neg, word) := Decimal.readSign cs
    let word := word.map Char.toLower
    if word = "inf".toList ∨ word = "infinity".toList then some (.infinite neg)
    else
      let (signaling, word) : Bool × List Char :=
        match word with
        | 's' :: more => (true, more)
        | _ => (false, word)
      match word with
      | 'n' :: 'a' :: 'n' :: ds =>
        if ds.all isDigit then some (.undefined neg signaling (ofDigits ds)) else none
      | _ => none

end Extended

end Tariff
