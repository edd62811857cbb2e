import Tariff.Json.Fault
import Tariff.Numeral.DecimalText
import Tariff.Text.Blank
import Tariff.Text.Quoted

/-!
# Integer texts

`readInteger` reads a sign and digits of any script, with single underscores between the digits and
white space around them. Rows of more than 4300 digits are refused.
-/

namespace Tariff.Numeral

open Text

/-- Why a text is not read as an integer. -/
inductive IntegerFault where
  /-- The text is not an integer. -/
  | malformed
  /-- The text has more digits than are read. -/
  | tooLong (digits : Nat)
  deriving DecidableEq, Repr

/-- The fault of a text in words. The text is quoted up to its first 200 characters. -/
def IntegerFault.message (fault : IntegerFault) (s : String) : String :=
  match fault with
  | .malformed =>
    "invalid literal for int() with base 10: "
      ++ String.ofList ((quotedChars s.toList).take 200)
  | .tooLong digits => Json.longIntegerMessage digits

/-- The digits of a text in which single underscores may stand between digits; `none` if anything
else stands there. -/
def separatedDigits? : List Char → Option (List Char)
  | [] => none
  | [c] => if isDigit c then some [c] else none
  | c :: '_' :: cs => if isDigit c then (separatedDigits? cs).map (c :: ·) else none
  | c :: cs => if isDigit c then (separatedDigits? cs).map (c :: ·) else none

/-- How many digits start a text, not counting the underscores among them. -/
def leadingDigits (cs : List Char) : Nat :=
  ((cs.takeWhile fun c => isDigit c || c == '_').filter isDigit).length

/-- The integer that a text spells. -/
def readInteger (s : String) : Except IntegerFault Int :=
  let (neg, cs) := Decimal.readSign (unpad s.toList)
  let count := leadingDigits cs
  if Json.maxIntegerDigits < count then .error (.tooLong count)
  else match separatedDigits? cs with
    | none => .error .malformed
    | some ds => .ok (if neg then -(ofDigits ds : Int) else ofDigits ds)

end Tariff.Numeral
