import Tariff.Csv.Reader
import Tariff.Table

/-!
# Tables of comma-separated records

The first record names the columns, and every other one is a row of texts. An empty field is a
blank cell, and fields that a short row lacks are blank too. Where the rows are wider than the
header, their first fields have no column and are left out.
-/

namespace Tariff.Csv

/-- The name of a column; one without a name is named for its place. -/
def columnName (name : String) (place : Nat) : String :=
  if name.isEmpty then "Unnamed: " ++ toString place else name

/-- A name with a number at its end. -/
def numberedColumn (base : String) (k : Nat) : String :=
  base ++ "." ++ toString k

/-- The least number from `k` on that makes a name unlike all others, trying at most `fuel`. -/
def freeNumber (names : List String) (base : String) (k : Nat) : Nat → Nat
  | 0 => k
  | fuel + 1 =>
    if names.contains (numberedColumn base k) then freeNumber names base (k + 1) fuel else k

/-- Column names, and the number that a further column of each name gets. -/
structure Naming where
  /-- The names so far. -/
  names : List String
  /-- The next number of each name that is taken. -/
  next : OrderedMap Nat
  deriving Repr

/-- Makes the name at a place unlike those that are taken. -/
def Naming.settle (n : Naming) (place : Nat) : Naming :=
  let base := n.names.getD place ""
  match n.next.find? base with
  | none => { n with next := n.next.insert base 1 }
  | some k =>
    let free := freeNumber n.names base k n.names.length
    let name := numberedColumn base free
    ⟨n.names.set place name, (n.next.insert base (free + 1)).insert name 1⟩

/-- The names of the columns under a header, no two alike. Columns that the header names keep their
names before those that it does not. -/
def columnNames (header : List String) : List String :=
  let names := header.zipIdx.map fun (name, place) => columnName name place
  let places := header.zipIdx.filter (!·.1.isEmpty) ++ header.zipIdx.filter (·.1.isEmpty)
  ((places.map (·.2)).foldl Naming.settle ⟨names, []⟩).names

/-- A field as a cell. -/
def cell (field : String) : Value :=
  if field.isEmpty then .null else .text field

/-- A record as a row of cells between two columns of a table. -/
def row (first width : Nat) (r : Record) : List Value :=
  ((r.fields ++ List.replicate (width - r.fields.length) "").drop first).map cell

/-- The table that a text holds. -/
def readTable (cs : List Char) : Except Fault Table := do
  match ← read cs with
  | [] => throw .noColumns
  | header :: rows =>
    let width := widthOf (header :: rows)
    return ⟨columnNames header.fields, rows.map (row (width - header.fields.length) width)⟩

end Tariff.Csv
