import Tariff.Numeral.Decimal

/-!
# Decimal texts

`Decimal.read?` reads a sign, digits with an optional point and an optional exponent, exactly.
`Decimal.text` writes the digits with a point where that takes few zeros and with an exponent
otherwise; `Decimal.fixedText` never writes an exponent.
-/

namespace Tariff.Decimal

open Numeral Text

/-- An optional sign in front of a text: whether it is a minus, and the rest. -/
def readSign : List Char → Bool × List Char
  | '-' :: cs => (true, cs)
  | '+' :: cs => (false, cs)
  | cs => (false, cs)

/-- The exponent part that may end a number: empty, or `e`, a sign and digits. -/
def readExponent? : List Char → Option Int
  | [] => some 0
  | c :: cs =>
    if c = 'e' ∨ c = 'E' then
      let (neg, ds) := readSign cs
      if ds.isEmpty || !ds.all isDigit then none
      else some (if neg then -(ofDigits ds : Int) else ofDigits ds)
    else none

/-- The exact value of a written number; `none` if the text is not one. At least one digit stands
before or after the point. -/
def read? (cs : List Char) : Option Decimal :=
  let (neg, cs) := readSign cs
  let whole := cs.takeWhile isDigit
  let rest := cs.dropWhile isDigit
  let (fraction, rest) : List Char × List Char :=
    match rest with
    | '.' :: more => (more.takeWhile isDigit, more.dropWhile isDigit)
    | _ => ([], rest)
  if whole.isEmpty && fraction.isEmpty then none
  else (readExponent? rest).map fun e =>
    ⟨neg, ofDigits (whole ++ fraction), e - fraction.length⟩

/-- Digits with the point after the first `places` of them; zeros fill the gap on either side. -/
def placePoint (ds : List Char) (places : Int) : List Char :=
  if places ≤ 0 then '0' :: '.' :: (List.replicate (-places).toNat '0' ++ ds)
  else
    let k := places.toNat
    if ds.length ≤ k then ds ++ List.replicate (k - ds.length) '0'
    else ds.take k ++ '.' :: ds.drop k

private def signed (neg : Bool) (cs : List Char) : String :=
  String.ofList (if neg then '-' :: cs else cs)

/-- An exponent with its sign always written. -/
def signedExponent (e : Int) : List Char :=
  (if e < 0 then '-' else '+') :: digits e.natAbs

/-- The text that keeps coefficient and exponent: positional for an exponent of at most zero whose
leading digit stands at most six places after the point, scientific otherwise. -/
def text (d : Decimal) : String :=
  let ds := digits d.coeff
  let places := d.exp + ds.length
  signed d.neg <|
    if d.exp ≤ 0 ∧ -6 < places then placePoint ds places
    else placePoint ds 1 ++ (if places = 1 then [] else 'E' :: signedExponent (places - 1))

/-- The text without an exponent; a zero drops the power of ten it counts. -/
def fixedText (d : Decimal) : String :=
  let ds := digits d.coeff
  signed d.neg <|
    if d.coeff = 0 ∧ 0 < d.exp then ds else placePoint ds (d.exp + ds.length)

end Tariff.Decimal
