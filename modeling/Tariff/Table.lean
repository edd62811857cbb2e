import Tariff.Value

/-!
# Tables

A table has named columns and rows with a cell for each of them. `Table.setColumn` replaces the
cells of a column in its place, or adds a column at the end.
-/

namespace Tariff

/-- What the cells of a table may hold. -/
inductive CellKind where
  /-- Any value. -/
  | any
  /-- Binary64 numbers. -/
  | real
  /-- Whole numbers. -/
  | whole
  /-- Truth values. -/
  | truth
  deriving DecidableEq, Repr

namespace CellKind

/-- The kind of cells that a name stands for. -/
def ofName : String → CellKind
  | "float64" => real
  | "int64" => whole
  | "bool" => truth
  | _ => any

/-- A value as a cell of a kind. -/
def cell : CellKind → Value → Value
  | real, .bool b => .float (.ofInt (if b then 1 else 0))
  | real, .int n => .float (.ofInt n)
  | real, .null => .float .nan
  | whole, .bool b => .int (if b then 1 else 0)
  | truth, v => .bool !v.isVoid
  | _, v => v

end CellKind

/-- A table of values. -/
structure Table where
  /-- The names of the columns. -/
  columns : List String
  /-- The rows, each with one cell for every column. -/
  rows : List (List Value)
  deriving Repr

namespace Table

/-- Whether a cell holds nothing. -/
def isBlankCell : Value → Bool
  | .null | .float .nan => true
  | _ => false

/-- A row by the names of its columns. -/
def namedRow (t : Table) (row : List Value) : OrderedMap Value :=
  t.columns.zip row

/-- The names of the columns once there is a column of some name. -/
def columnsWith (t : Table) (name : String) : List String :=
  if t.columns.contains name then t.columns else t.columns ++ [name]

/-- The table with the cells of one column set. -/
def setColumn (t : Table) (name : String) (cells : List Value) : Table where
  columns := t.columnsWith name
  rows := t.rows.zipWith (fun row cell => ((t.namedRow row).insert name cell).map (·.2)) cells

end Table

end Tariff
