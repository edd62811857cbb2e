import Tariff.Text.LetterCase
import Tariff.Value

/-!
# Answers

An answer is whatever value a customer's form holds for a question. The functions here read it as
the questions need it: as a number, as nothing, as a checked box, or as a selection of options.
-/

namespace Tariff.Answer

open Text

/-- The finite number that an answer states. A text states one by digits with an optional point and
exponent; lists, records and missing answers state none. -/
def number? : Value → Option Number
  | .bool b => some (.whole (if b then 1 else 0))
  | .int n => some (.whole n)
  | .float x => if x.isFinite then some (.real x) else none
  | .text s =>
    ((Decimal.read? (trim s.toList)).map Binary64.ofDecimal).bind fun x =>
      if x.isFinite then some (.real x) else none
  | _ => none

/-- Whether an answer says nothing: it is missing, a blank text or an empty list. -/
def isEmpty : Value → Bool
  | .null => true
  | .text s => isBlankText s
  | .list items => items.isEmpty
  | _ => false

/-- The words that check a box. -/
def checkWords : List String :=
  ["true", "1", "yes", "on"]

/-- Whether an answer checks a box. -/
def isChecked : Value → Bool
  | .text s => checkWords.contains (toLower (strip s))
  | .list items => !items.isEmpty
  | v => !v.isVoid

/-- The texts that an answer selects: those of a list that say something, or the answer itself. -/
def selection (v : Value) : List String :=
  if isEmpty v then []
  else match v with
    | .list items => ((items.filter fun i => !isEmpty i).map Value.plain).eraseDups
    | v => [v.plain]

/-- The first of several answers, or the only one. -/
def first : Value → Value
  | .list items => items.headD .null
  | v => v

/-- Texts in the order of their characters. -/
def sortTexts (xs : List String) : List String :=
  xs.mergeSort fun a b => decide (a ≤ b)

end Tariff.Answer
