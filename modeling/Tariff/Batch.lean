import Tariff.Pricing
import Tariff.Table
import Tariff.Text.Split

/-!
# Batches

A formula priced for every row of a table. A column whose name is the id of a variable holds the
answers to it; all other columns are left alone. A row without a price tells why, and a price has
to fit into a signed word of 64 bits.
-/

namespace Tariff

/-- Why a row has no price. -/
inductive RowFault where
  /-- The expression has no price. -/
  | evaluation (fault : EvaluationFault)
  /-- The price does not fit into a word. -/
  | outOfRange (price : Int)
  deriving DecidableEq, Repr

/-- The fault in words. -/
def RowFault.message : RowFault → String
  | evaluation fault => fault.message
  | outOfRange price => "Price " ++ Numeral.integerText price ++ " is out of range"

/-- Why no row of a table is priced. -/
inductive BatchFault where
  /-- Nothing separates the options of a cell. -/
  | emptySeparator
  /-- A price, or a number on the way to it, has more digits than are written. -/
  | longPrice
  deriving DecidableEq, Repr

/-- The fault in words. -/
def BatchFault.message : BatchFault → String
  | emptySeparator => "empty separator"
  | longPrice => PricingFault.longPrice.message

/-- What comes of a row. -/
inductive RowOutcome where
  /-- The row has a price; what the customer may be told about it. -/
  | priced (price : Int) (warnings : List String)
  /-- The row has no price. -/
  | failed (fault : RowFault)
  deriving DecidableEq, Repr

namespace RowOutcome

/-- The price, if there is one. -/
def price? : RowOutcome → Option Int
  | priced price _ => some price
  | failed _ => none

/-- Whether there is no price. -/
def isFailed : RowOutcome → Bool
  | priced .. => false
  | failed _ => true

/-- The price as a cell. -/
def priceCell : RowOutcome → Value
  | priced price _ => .int price
  | failed _ => .null

/-- The reason for having no price, as a cell. -/
def errorCell : RowOutcome → Value
  | priced .. => .null
  | failed fault => .text fault.message

/-- What the customer may be told, as a cell. -/
def warningsCell : RowOutcome → Value
  | failed _ | priced _ [] => .null
  | priced _ warnings => .text ("; ".intercalate warnings)

end RowOutcome

/-- The mark between the options of a cell where nothing else is said. -/
def defaultSeparator : Text.Separator := ⟨'|', []⟩

/-- The options that a text lists, without the blanks around them. -/
def listedOptions (separator : Text.Separator) (s : String) : List String :=
  (((separator.split s.toList).map Text.trim).filter (!·.isEmpty)).map String.ofList

/-- The answer that a cell gives to a variable, if it is not blank. -/
def Variable.cellAnswer? (v : Variable) (separator? : Option Text.Separator) (cell : Value) :
    Except BatchFault (Option Value) :=
  if Table.isBlankCell cell then .ok none
  else match cell, v.isMultiSelect, separator? with
    | .list items, _, _ => .ok (some (.list items))
    | cell, false, _ => .ok (some cell)
    | cell, true, some separator =>
      .ok (some (.list ((listedOptions separator cell.plain).map .text)))
    | _, true, none => .error .emptySeparator

/-- Whether a price fits into a signed word of 64 bits. -/
def fitsWord (price : Int) : Bool :=
  -Int.pow 2 63 ≤ price && price < Int.pow 2 63

namespace Formula

/-- The answers that a row gives to a formula. -/
def rowAnswers (f : Formula) (separator? : Option Text.Separator) (row : OrderedMap Value) :
    Except BatchFault Answers :=
  f.questions.foldlM (fun answers v =>
    match row.find? v.id with
    | none => .ok answers
    | some cell => do
      match ← v.cellAnswer? separator? cell with
      | none => return answers
      | some answer => return answers.insert v.id answer) []

/-- What comes of some answers. -/
def rowOutcome (f : Formula) (answers : Answers) (depth : Nat) : Except BatchFault RowOutcome :=
  match f.calculate answers depth with
  | .error .longPrice => .error .longPrice
  | .error (.evaluation fault) => .ok (.failed (.evaluation fault))
  | .ok result =>
    .ok (if fitsWord result.price then .priced result.price result.warnings
      else .failed (.outOfRange result.price))

/-- What comes of the rows of a table, in their order. -/
def priceRows (f : Formula) (t : Table) (separator? : Option Text.Separator) (depth : Nat) :
    Except BatchFault (List RowOutcome) :=
  t.rows.mapM fun row => do
    f.rowOutcome (← f.rowAnswers separator? (t.namedRow row)) depth

/-- What comes of some answers, on a stack with `levels` left to the calculation. -/
def rowOutcomeWithin (f : Formula) (answers : Answers) (depth levels : Nat) :
    Except (Halt BatchFault) RowOutcome :=
  match f.calculateWithin answers depth levels with
  | .error .stack => .error .stack
  | .error (.fault .longPrice) => .error (.fault .longPrice)
  | _ => (f.rowOutcome answers depth).mapError .fault

/-- What comes of the rows of a table, in their order, on a stack with `levels` left. -/
def priceRowsWithin (f : Formula) (t : Table) (separator? : Option Text.Separator)
    (depth levels : Nat) : Except (Halt BatchFault) (List RowOutcome) :=
  t.rows.mapM fun row => do
    let answers ← (f.rowAnswers separator? (t.namedRow row)).mapError .fault
    f.rowOutcomeWithin answers depth (levels - 1)

end Formula

/-- A table with what came of its rows in the columns for prices, errors and warnings. -/
def Table.withOutcomes (t : Table) (outcomes : List RowOutcome) : Table :=
  ((t.setColumn "price" (outcomes.map RowOutcome.priceCell)).setColumn "error"
    (outcomes.map RowOutcome.errorCell)).setColumn "warnings"
    (outcomes.map RowOutcome.warningsCell)

/-- The sum of the prices in a signed word of 64 bits. -/
def batchTotal (outcomes : List RowOutcome) : Int :=
  ((outcomes.filterMap RowOutcome.price?).foldl (fun total price => total + price) 0).bmod
    (Nat.pow 2 64)

end Tariff
