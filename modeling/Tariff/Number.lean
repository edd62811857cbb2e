import Tariff.Numeral.Binary64Text

/-!
# Numbers

The numbers of definitions and answers: whole numbers of any size, and binary64 numbers. The two
are told apart when they are written (`2` and `2.0`), and compared by their exact values.
-/

namespace Tariff

/-- A whole number or a binary64 number. -/
inductive Number where
  /-- A whole number of any size. -/
  | whole (n : Int)
  /-- A binary64 number. -/
  | real (x : Binary64)
  deriving DecidableEq, Repr, Inhabited

namespace Number

/-- The number zero. -/
def zero : Number := .whole 0

/-- The number as it is written. -/
def text : Number → String
  | .whole n => Numeral.integerText n
  | .real x => x.text

/-- Whether the number is neither infinite nor undefined. -/
def isFinite : Number → Bool
  | .whole _ => true
  | .real x => x.isFinite

/-- Whether the number is a zero. -/
def isZero : Number → Bool
  | .whole n => n == 0
  | .real x => x.isZero

/-- A place on the extended line: minus infinity, a quotient, or infinity; `none` for what is not
a number. -/
def place? : Number → Option (Int × Int × Nat)
  | .whole n => some (0, n, 1)
  | .real (.finite neg m e) => (Binary64.finite neg m e).ratio?.map fun (n, d) => (0, n, d)
  | .real (.infinite neg) => some (if neg then -1 else 1, 0, 1)
  | .real .nan => none

/-- The order of two numbers by their exact values; `none` if one of them is not a number. -/
def compare? (a b : Number) : Option Ordering :=
  match a.place?, b.place? with
  | some (i, n, d), some (j, m, e) =>
    some ((compare i j).then (compare (n * e) (m * d)))
  | _, _ => none

/-- Whether two numbers have the same value. -/
def equals (a b : Number) : Bool :=
  a.compare? b == some .eq

/-- Whether the first number is the smaller one. -/
def isBelow (a b : Number) : Bool :=
  a.compare? b == some .lt

end Number

end Tariff
