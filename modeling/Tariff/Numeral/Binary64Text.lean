import Tariff.Numeral.Binary64
import Tariff.Numeral.DecimalText
import Tariff.Text.Blank
import Tariff.Text.LetterCase

/-!
# Binary64 texts

`shortest` finds the fewest decimal digits that read back as the same number, and of those the
nearest. `text` writes them positionally for numbers from `0.0001` up to below `10^16`, with an
exponent of at least two digits otherwise, and always with a point or an exponent.
`read?` reads every spelling of a number: digits of any script with single underscores between
them, infinities and not-a-number.
-/

namespace Tariff.Binary64

open Numeral Text

/-- The exponent `k` with `10^(k-1) ≤ num / den < 10^k`. -/
def decimalPlaces (num den : Nat) : Int :=
  let k : Int := (digitCount num : Int) - digitCount den
  if den * Nat.pow 10 k.toNat ≤ num * Nat.pow 10 (-k).toNat then k + 1 else k

/-- The range of quotients that round to `mant * 2^exp`, in units of `2^(exp-2)`: its lower end,
its upper end, and whether the ends belong to it. -/
def roundingRange (mant : Nat) (exp : Int) : Nat × Nat × Bool :=
  let below := if mant = Nat.pow 2 52 ∧ minExponent < exp then 1 else 2
  (4 * mant - below, 4 * mant + 2, mant % 2 = 0)

/-- Whether `c * 10^k` lies in the range of `mant * 2^exp`. -/
def readsBack (mant : Nat) (exp : Int) (c : Nat) (k : Int) : Bool :=
  let (low, high, closed) := roundingRange mant exp
  let unit := exp - 2
  let value := c * Nat.pow 10 k.toNat * Nat.pow 2 (-unit).toNat
  let scale := Nat.pow 10 (-k).toNat * Nat.pow 2 unit.toNat
  if closed then low * scale ≤ value && value ≤ high * scale
  else low * scale < value && value < high * scale

/-- The first of the grids with `count`, `count + 1`, … digits that has a point in the range, and
the nearest such point; `fuel` grids are tried. -/
def shortestFrom (mant : Nat) (exp places : Int) (count : Nat) : Nat → Nat × Int
  | 0 => (mant, exp)
  | fuel + 1 =>
    let k := places - count
    let num := mant * Nat.pow 2 exp.toNat * Nat.pow 10 (-k).toNat
    let den := Nat.pow 2 (-exp).toNat * Nat.pow 10 k.toNat
    let c := num / den
    let below := readsBack mant exp c k
    let above := readsBack mant exp (c + 1) k
    if below && above then (divHalfEven num den, k)
    else if below then (c, k)
    else if above then (c + 1, k)
    else shortestFrom mant exp places (count + 1) fuel

/-- The fewest digits, and their power of ten, that read back as `mant * 2^exp`. -/
def shortest (mant : Nat) (exp : Int) : Nat × Int :=
  let places := decimalPlaces (mant * Nat.pow 2 exp.toNat) (Nat.pow 2 (-exp).toNat)
  let (c, k) := shortestFrom mant exp places 1 17
  Decimal.dropZeros 17 c k

/-- The digits of a magnitude: positional from `0.0001` up to below `10^16`, scientific beyond. -/
def magnitudeText (mant : Nat) (exp : Int) : List Char :=
  if mant = 0 then ['0', '.', '0']
  else
    let (c, k) := shortest mant exp
    let ds := digits c
    let places := k + ds.length
    if -4 < places ∧ places ≤ 16 then
      Decimal.placePoint ds places ++ (if 0 ≤ k then ['.', '0'] else [])
    else
      let e := places - 1
      Decimal.placePoint ds 1 ++ ['e', if e < 0 then '-' else '+'] ++ paddedDigits 2 e.natAbs

/-- The shortest text that reads back as the number. -/
def text : Binary64 → String
  | .finite neg m e =>
    String.ofList (if neg then '-' :: magnitudeText m e else magnitudeText m e)
  | .infinite neg => if neg then "-inf" else "inf"
  | .nan => "nan"

/-- The text without its underscores, each of which stands between two digits. -/
def dropUnderscores? : Option Char → List Char → Option (List Char)
  | _, [] => some []
  | before, '_' :: c :: cs =>
    if before.any isDigit && isDigit c then
      (dropUnderscores? (some c) cs).map (c :: ·)
    else none
  | _, c :: cs => if c = '_' then none else (dropUnderscores? (some c) cs).map (c :: ·)

/-- The number that a text spells, with white space around it, or `none`. -/
def read? (s : String) : Option Binary64 := do
  let cs ← dropUnderscores? none (unpad s.toList)
  match Decimal.read? cs with
  | some d => some (ofDecimal d)
  | none =>
    let (neg, word) := Decimal.readSign cs
    let word := String.ofList (word.map Char.toLower)
    if word = "inf" ∨ word = "infinity" then some (.infinite neg)
    else if word = "nan" then some .nan
    else none

end Tariff.Binary64
