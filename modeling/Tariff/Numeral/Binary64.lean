import Tariff.Numeral.Decimal

/-!
# Binary64 numbers

A binary64 number is written as `(-1)^neg * mant * 2^exp`, or is an infinity, or is not a number.
All of it is exact arithmetic on integers: `nearest` rounds a quotient to 53 bits, half to even,
and is the only way a number is made; comparison is that of the exact values.
-/

namespace Tariff

open Numeral

/-- A number of the binary64 format. -/
inductive Binary64 where
  /-- The number `(-1)^neg * mant * 2^exp`. -/
  | finite (neg : Bool) (mant : Nat) (exp : Int)
  /-- An infinity. -/
  | infinite (neg : Bool)
  /-- Not a number. -/
  | nan
  deriving DecidableEq, Repr, Inhabited

namespace Binary64

/-- The smallest exponent of the last bit. -/
def minExponent : Int := -1074

/-- The largest exponent of the last of 53 bits. -/
def maxExponent : Int := 971

/-- The positive zero. -/
def zero : Binary64 := .finite false 0 minExponent

/-- Numerator and denominator of `num / den` counted in units of `2 ^ e`. -/
def inUnits (num den : Nat) (e : Int) : Nat × Nat :=
  (num * Nat.pow 2 (-e).toNat, den * Nat.pow 2 e.toNat)

/-- The exponent of the last bit that a quotient keeps: 53 bits, fewer for the smallest numbers. -/
def lastBit (num den : Nat) : Int :=
  let e : Int := (Nat.log2 num : Int) - Nat.log2 den - 52
  let (n, d) := inUnits num den e
  max (if n < d * Nat.pow 2 52 then e - 1 else e) minExponent

/-- The binary64 number nearest to `num / den`, half to even; beyond the largest one, infinity. -/
def nearest (neg : Bool) (num den : Nat) : Binary64 :=
  if num = 0 then .finite neg 0 minExponent
  else
    let e := lastBit num den
    let (n, d) := inUnits num den e
    let m := divHalfEven n d
    let (m, e) := if m = Nat.pow 2 53 then (Nat.pow 2 52, e + 1) else (m, e)
    if maxExponent < e then .infinite neg else .finite neg m e

/-- The nearest binary64 number to a decimal. Far beyond the range the power of ten is not formed.
-/
def ofDecimal (d : Decimal) : Binary64 :=
  if d.coeff = 0 then nearest d.neg 0 1
  else if 400 < d.leadingExponent then .infinite d.neg
  else if d.leadingExponent < -400 then nearest d.neg 0 1
  else nearest d.neg (d.coeff * Nat.pow 10 d.exp.toNat) (Nat.pow 10 (-d.exp).toNat)

/-- The nearest binary64 number to an integer. -/
def ofInt (n : Int) : Binary64 :=
  nearest (n < 0) n.natAbs 1

/-- Whether the number is neither infinite nor undefined. -/
def isFinite : Binary64 → Bool
  | .finite .. => true
  | _ => false

/-- The exact value as a signed numerator over a power of two. -/
def ratio? : Binary64 → Option (Int × Nat)
  | .finite neg m e =>
    let n : Int := m * Int.pow 2 e.toNat
    some (if neg then -n else n, Nat.pow 2 (-e).toNat)
  | _ => none

/-- The value as an integer, if it is one. -/
def toInt? (x : Binary64) : Option Int :=
  x.ratio?.bind fun (n, d) => if n % d = 0 then some (n / d) else none

/-- The integer part of a finite number. -/
def truncate? (x : Binary64) : Option Int :=
  x.ratio?.map fun (n, d) => n.tdiv d

/-- Whether the number is a zero of either sign. -/
def isZero : Binary64 → Bool
  | .finite _ m _ => m == 0
  | _ => false

end Binary64

end Tariff
