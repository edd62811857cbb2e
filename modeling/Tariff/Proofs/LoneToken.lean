import Tariff.Coercion
import Tariff.Proofs.Operands

/-!
# A token on its own

A formula that is a single token is computed from the factor of its contribution alone, whatever the
token looks like (`substitute_lone`). `Variable.valueFor` and `Variable.priceFor` are the value and
the price that a variable has in such a formula; an answer matters for them only by the contribution
that it makes.
-/

namespace Tariff

open Expression

namespace Expression

/-- The only token is cut from its own text. It may even be empty, or no word. -/
theorem segments_lone (t : List Char) : segments [t] t = [.token t] := by
  by_cases ht : t = []
  · subst ht
    rfl
  · have hlongest : longestAt? [t] (t ++ []) = some t := by
      rw [List.append_nil, longestAt?_self (List.mem_singleton.mpr rfl)]
    have hcut := segmentsFrom_token ht hlongest
    have hend : longestAt? [t] [] = none := by
      refine longestAt?_eq_none fun s hs => ?_
      rw [List.mem_singleton.mp hs, ← Bool.not_eq_true]
      intro hstands
      exact ht (List.prefix_nil.mp (prefix_of_standsAt hstands))
    rw [List.append_nil] at hcut
    rw [segments, hcut, segmentsFrom, hend]
    simp

theorem replaceTokens_lone (t factor : List Char) : replaceTokens [(t, factor)] t = factor := by
  show (segments [t] t).flatMap (Segment.render [(t, factor)]) = factor
  rw [segments_lone, List.flatMap_singleton, Segment.render, List.lookup_cons_self]
  rfl

/-- Only names in the factor itself can be left over. -/
theorem substitute_lone (t factor : List Char) :
    substitute t [(t, factor)]
      = ⟨zeroed factor, (namesIn false (pieces factor)).eraseDups.map String.ofList⟩ := by
  rw [substitute, replaceTokens_lone]
  rfl

end Expression

/-- The text that a single contribution leaves to compute. -/
def Contribution.writtenOut (c : Contribution) : List Char :=
  zeroed c.factor

/-- A finite number leaves its own factor: there is no name in it. -/
theorem Contribution.writtenOut_number {n : Number} (h : n.isFinite = true) :
    (Contribution.number n).writtenOut = n.factor :=
  (Number.factor_cases h).zeroed_eq_self

theorem text_lone (id : String) (c : Contribution) :
    (substitute id.toList (replacements [(id, c)])).text = c.writtenOut := by
  rw [replacements, List.map_singleton, substitute_lone]
  rfl

theorem evaluate_lone (id : String) (c : Contribution) (depth : ℕ) :
    evaluate id [(id, c)] ⟨none, none⟩ depth
      = evaluateText c.writtenOut depth >>= Decimal.toPrice := by
  unfold evaluate
  rw [← text_lone id c]
  refine bind_congr fun d => ?_
  -- without bounds the price is left as it is
  cases d.toPrice <;> rfl

namespace Variable

/-- The value of the formula that is the token of the variable. -/
def valueFor (v : Variable) (answer : Value) (depth : ℕ) : Except EvaluationFault Decimal :=
  evaluateText (substitute v.id.toList (replacements (v.contributions answer).contributions)).text
    depth

/-- The price of the formula that is the token of the variable. -/
def priceFor (v : Variable) (answer : Value) (depth : ℕ) : Except EvaluationFault ℤ :=
  evaluate v.id (v.contributions answer).contributions ⟨none, none⟩ depth

variable {v : Variable} {answer : Value} {c : Contribution} {issues : List CoercionIssue}

theorem valueFor_contributing (h : v.contributions answer = v.contributing c issues) (depth : ℕ) :
    v.valueFor answer depth = evaluateText c.writtenOut depth := by
  rw [valueFor, h, ← text_lone v.id]
  rfl

theorem priceFor_contributing (h : v.contributions answer = v.contributing c issues) (depth : ℕ) :
    v.priceFor answer depth = evaluateText c.writtenOut depth >>= Decimal.toPrice := by
  rw [priceFor, h, ← evaluate_lone v.id]
  rfl

end Variable

end Tariff
