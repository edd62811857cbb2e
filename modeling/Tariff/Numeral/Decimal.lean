import Tariff.Numeral.Digits
import Tariff.Numeral.Rounding

/-!
# Decimal arithmetic

A `Decimal` is `(-1)^neg * coeff * 10^exp`; its trailing zeros and the sign of zero are part of it.
Every operation computes the exact result and then fits it to 28 digits, half to even, with
exponents up to 999999: `fit?` is the only place that rounds, and it is `none` on overflow.
Numbers that are only read are exact, however long.
-/

namespace Tariff

open Numeral

/-- A decimal number with its exponent; equal values may have several spellings. -/
structure Decimal where
  /-- Whether a minus sign stands in front. -/
  neg : Bool
  /-- The digits. -/
  coeff : Nat
  /-- The power of ten that the last digit counts. -/
  exp : Int
  deriving DecidableEq, Repr, Inhabited

namespace Decimal

/-- The number of digits that an operation keeps. -/
def precision : Nat := 28

/-- The largest number of digits that an operation can be asked to keep. -/
def greatestPrecision : Int := Int.pow 10 18 - 1

/-- The largest exponent of the leading digit. -/
def maxExponent : Int := 999999

/-- The largest exponent of the last of `precision` digits. -/
def topExponent : Int := maxExponent - (precision - 1)

/-- The smallest exponent of a last digit. -/
def tinyExponent : Int := -maxExponent - (precision - 1)

/-- An integer as a decimal. -/
def ofInt (n : Int) : Decimal :=
  ⟨n < 0, n.natAbs, 0⟩

/-- The exponent of the leading digit. -/
def leadingExponent (d : Decimal) : Int :=
  d.exp + digitCount d.coeff - 1

/-- Whether the value is zero, of either sign. -/
def isZero (d : Decimal) : Bool :=
  d.coeff == 0

/-- The number with its coefficient kept to `precision` digits; `none` if its leading digit is
beyond `maxExponent`. Zero keeps its sign and takes the nearest exponent allowed. -/
def fit? (d : Decimal) : Option Decimal :=
  if d.coeff = 0 then
    some { d with exp := min (max d.exp tinyExponent) maxExponent }
  else
    let wanted := d.exp + digitCount d.coeff - precision
    if topExponent < wanted then none
    else
      let e := max wanted tinyExponent
      if d.exp < e then
        let c := divHalfEven d.coeff (Nat.pow 10 (e - d.exp).toNat)
        if c < Nat.pow 10 precision then some ⟨d.neg, c, e⟩
        else if topExponent < e + 1 then none
        else some ⟨d.neg, c / 10, e + 1⟩
      else some d

/-- The coefficient with its sign, counted in units of `10 ^ e` for some `e ≤ d.exp`. -/
def scaled (d : Decimal) (e : Int) : Int :=
  let c : Int := d.coeff * Int.pow 10 (d.exp - e).toNat
  if d.neg then -c else c

/-- The sum; a zero sum is negative only if both numbers are. -/
def add? (a b : Decimal) : Option Decimal :=
  let e := min a.exp b.exp
  let s := a.scaled e + b.scaled e
  fit? ⟨if s = 0 then a.neg && b.neg else s < 0, s.natAbs, e⟩

/-- The difference. -/
def sub? (a b : Decimal) : Option Decimal :=
  add? a { b with neg := !b.neg }

/-- The product. -/
def mul? (a b : Decimal) : Option Decimal :=
  fit? ⟨a.neg ^^ b.neg, a.coeff * b.coeff, a.exp + b.exp⟩

/-- The number with the other sign, fitted as every result is; zero loses its sign. -/
def neg? (d : Decimal) : Option Decimal :=
  fit? { d with neg := !d.neg && d.coeff != 0 }

/-- At most `limit` trailing zeros of a coefficient moved into the exponent. -/
def dropZeros : Nat → Nat → Int → Nat × Int
  | 0, c, e => (c, e)
  | limit + 1, c, e => if c % 10 = 0 then dropZeros limit (c / 10) (e + 1) else (c, e)

/-- The quotient by a number other than zero. One digit more than `precision` is computed; if the
division leaves a remainder that last digit is kept off the two values that could look like a tie,
otherwise the exponent goes back as near to the difference of the exponents as it can. -/
def div? (a b : Decimal) : Option Decimal :=
  let sign := a.neg ^^ b.neg
  let ideal := a.exp - b.exp
  if a.coeff = 0 then fit? ⟨sign, 0, ideal⟩
  else
    let shift : Int := digitCount b.coeff - digitCount a.coeff + precision + 1
    let num := a.coeff * Nat.pow 10 shift.toNat
    let den := b.coeff * Nat.pow 10 (-shift).toNat
    let q := num / den
    if num % den = 0 then
      let (c, e) := dropZeros shift.toNat q (ideal - shift)
      fit? ⟨sign, c, e⟩
    else fit? ⟨sign, if q % 5 = 0 then q + 1 else q, ideal - shift⟩

/-- The nearest integer, halves away from zero. -/
def roundHalfAway (d : Decimal) : Int :=
  let n :=
    if d.coeff = 0 then 0
    else if 0 ≤ d.exp then d.coeff * Nat.pow 10 d.exp.toNat
    else if d.leadingExponent < -1 then 0
    else divHalfUp d.coeff (Nat.pow 10 (-d.exp).toNat)
  if d.neg then -n else n

/-- The nearest integer, halves away from zero, if `limit` digits are enough for it and its leading
digit is not beyond `maxExponent`. The digits before the point are counted first, and those of the
integer, which may be one more, afterwards. -/
def toInteger? (d : Decimal) (limit : Int) : Option Int :=
  if d.coeff = 0 then some 0
  else if maxExponent < d.leadingExponent ∨ limit < d.leadingExponent + 1 then none
  else
    let n := d.roundHalfAway
    let count : Int := digitCount n.natAbs
    if maxExponent < count - 1 ∨ limit < count then none else some n

/-- The number of digits that are kept while the number is rounded to an integer: at least
`precision`, and enough for those before the point and a carry. -/
def widePrecision (d : Decimal) : Int :=
  max precision (d.leadingExponent + 2)

end Decimal

end Tariff
