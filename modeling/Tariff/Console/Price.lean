import Tariff.Console.Session
import Tariff.Csv.Table
import Tariff.Csv.Writer

/-!
# The command that prices a table

`price` prices every row of a file of comma-separated records and writes them, with their prices,
to another file.
-/

namespace Tariff.Console

/-- How the command is used. -/
def priceUsage : List String :=
  ["", "Price a CSV of customer inputs against one stored formula.", "",
    "Columns named after variable ids are used as inputs; multi-select columns",
    "hold option values joined by \"|\".", "", "Usage:",
    "    python scripts/price_batch.py <formula_id> <inputs.csv> [output.csv]", ""]

/-- The names of the levels of logging. -/
def logLevels : List String :=
  ["CRITICAL", "FATAL", "ERROR", "WARN", "WARNING", "INFO", "DEBUG", "NOTSET"]

/-- Where the priced rows go if that is not said: beside the input. -/
def defaultOutput (input : Path) : Session Path :=
  match input.name? with
  | some name => pure (input.withName (Path.stemOf name ++ "_priced.csv"))
  | none => throw (.failure (.namelessPath input))

/-- Reads the table in a file. -/
def readTable (input : Path) : Session Table := do
  let octets ← orFail .file ((← get).place.read input)
  let cs ← orFail .undecodable (Text.Utf8.decode octets)
  orFail .table (Csv.readTable cs)

/-- Writes a table to a file. -/
def writeTable (output : Path) (t : Table) : Session Unit := do
  let place := (← get).place
  if !place.hasDirectory output.parent then
    throw (.failure (.missingDirectory output.parent))
  let place ← orFail .file (place.writeFile output (Csv.writeTable t).toUTF8.toList)
  modify fun s => { s with place, written := s.written ++ [output] }

/-- A fault of a batch as the failure of a command. -/
def Failure.ofBatch : Halt BatchFault → Failure
  | .fault .emptySeparator => .emptySeparator
  | .fault .longPrice => .longPrice
  | .stack => .stack

/-- The lines about outcomes that were written to a file. -/
def outcomeLines (output : Path) (outcomes : List RowOutcome) : List String :=
  let failed := outcomes.countP RowOutcome.isFailed
  ["✅ Wrote " ++ output.text, "  Priced: " ++ toString (outcomes.length - failed)]
    ++ (if failed = 0 then [] else ["  ❌ Failed: " ++ toString failed])
    ++ ["  Total: " ++ Numeral.integerText (batchTotal outcomes)]

/-- Prices the table in a file with the formula of an id. -/
def priceFile (i : Invocation) (id : String) (input : Path) (output? : Option Path) :
    Session Unit := do
  let settings ← i.settings
  if !logLevels.contains settings.logLevel then
    throw (.failure (.unknownLevel settings.logLevel))
  let output ← match output? with
    | some output => pure output
    | none => defaultOutput input
  let f ← i.formula settings id
  let table ← readTable input
  say ("Pricing " ++ toString table.rows.length ++ " rows with " ++ f.id ++ "...")
  let outcomes ← orFail Failure.ofBatch
    (f.priceRowsWithin table (some defaultSeparator) settings.nesting defaultLevels)
  writeTable output (table.withOutcomes outcomes)
  sayAll (outcomeLines output outcomes)

/-- Prices the table in the file of the second argument with the formula of the first. -/
def price (i : Invocation) : Session Unit :=
  match i.args with
  | id :: input :: more => priceFile i id (Path.ofText input) (more.head?.map Path.ofText)
  | _ => do
    sayAll priceUsage
    exit 1

end Tariff.Console
