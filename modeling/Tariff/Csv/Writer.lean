import Tariff.Table

/-!
# Writing comma-separated records

The header and the rows of a table, a line each. A field is put between quotes only where it holds
a comma, a quote or an end of line.
-/

namespace Tariff.Csv

/-- Whether a field with this character is put between quotes. -/
def needsQuotes (c : Char) : Bool :=
  c == ',' || c == '"' || c == '\n' || c == '\r'

/-- A field as it is written. -/
def writeField (field : String) : String :=
  let cs := field.toList
  if cs.any needsQuotes then
    String.ofList ('"' :: (cs.flatMap fun c => if c = '"' then ['"', '"'] else [c]) ++ ['"'])
  else field

/-- A cell as a field; nothing is written for a blank cell. -/
def fieldOf (cell : Value) : String :=
  if Table.isBlankCell cell then "" else cell.plain

/-- Fields as a line. -/
def writeRecord (fields : List String) : String :=
  ",".intercalate (fields.map writeField) ++ "\n"

/-- A table as text. -/
def writeTable (t : Table) : String :=
  String.join (writeRecord t.columns :: t.rows.map fun row => writeRecord (row.map fieldOf))

end Tariff.Csv
