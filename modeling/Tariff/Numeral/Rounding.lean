/-!
# Rounding quotients

The two ways a quotient of natural numbers becomes an integer: to the nearest one with ties to the
even neighbour, and to the nearest one with ties away from zero.
-/

namespace Tariff.Numeral

/-- The integer nearest to `num / den`; of two equally near ones the even one. -/
def divHalfEven (num den : Nat) : Nat :=
  let q := num / den
  let twice := 2 * (num % den)
  if den < twice ∨ (twice = den ∧ q % 2 = 1) then q + 1 else q

/-- The integer nearest to `num / den`; of two equally near ones the larger one. -/
def divHalfUp (num den : Nat) : Nat :=
  (2 * num + den) / (2 * den)

end Tariff.Numeral
