import Tariff.Text.Digit

/-!
# Digit strings

How many decimal digits a natural number has, the number that a row of digits spells, and the
row of digits of a number.
-/

namespace Tariff.Numeral

open Tariff.Text

/-- The digits of a number below `10 ^ 2 ^ k`, counted by halving the row `k` times. -/
def digitCountBelow : Nat → Nat → Nat
  | 0, _ => 1
  | k + 1, n =>
    if n < Nat.pow 10 (Nat.pow 2 k) then digitCountBelow k n
    else Nat.pow 2 k + digitCountBelow k (n / Nat.pow 10 (Nat.pow 2 k))

/-- How many decimal digits a number has; zero has one. -/
def digitCount (n : Nat) : Nat :=
  digitCountBelow (Nat.log2 (Nat.log2 n + 1) + 1) n

/-- A number that is being read: the digits of `part` follow those of `whole`, and `scale` is ten to
the power of their count. -/
structure Reading where
  /-- The digits that were read first. -/
  whole : Nat
  /-- The last digits. -/
  part : Nat
  /-- The power of ten that `whole` counts. -/
  scale : Nat

/-- The number that has been read. -/
def Reading.value (r : Reading) : Nat :=
  r.whole * r.scale + r.part

/-- The number after one more digit. The last digits are kept apart, a hundred of them at most, so
that a long number is not multiplied at every digit. -/
def Reading.add (r : Reading) (c : Char) : Reading :=
  let digit := (digitValue? c).getD 0
  if r.scale < Nat.pow 10 100 then { r with part := 10 * r.part + digit, scale := 10 * r.scale }
  else ⟨r.value, digit, 10⟩

/-- The number that a row of decimal digits spells, whatever their script. -/
def ofDigits (cs : List Char) : Nat :=
  (cs.foldl Reading.add ⟨0, 0, 1⟩).value

/-- The decimal digits of a number. -/
def digits (n : Nat) : List Char :=
  Nat.toDigits 10 n

/-- The decimal text of an integer. -/
def integerText (n : Int) : String :=
  if n < 0 then String.ofList ('-' :: digits n.natAbs) else String.ofList (digits n.natAbs)

/-- At least `width` digits of a number, filled with zeros on the left. -/
def paddedDigits (width n : Nat) : List Char :=
  let ds := digits n
  List.replicate (width - ds.length) '0' ++ ds

end Tariff.Numeral
