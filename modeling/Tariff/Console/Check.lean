import Tariff.Console.Session

/-!
# The commands that check the catalog

`check` reports on every definition. `pipeline` does so too and then starts the regression tests;
it ends with a summary of the formulas.
-/

namespace Tariff.Console

/-- Checks the catalog and reports on it. -/
def checkCatalog (c : Catalog) : Session CatalogCheck := do
  let check := c.check Formula.defaultUnitLimit
  sayAll check.lines
  match check.stopped? with
  | none => return check
  | some (.listing fault) => throw (.failure (.listing fault))
  | some (.unit fault) => throw (.failure (.unit fault))

/-- Checks the catalog; exits with 1 unless it is sound. -/
def check (i : Invocation) : Session Unit := do
  let settings ← i.settings
  say "Checking formula definitions..."
  let found ← checkCatalog (← i.catalog settings)
  if !found.isSound then
    say ("\n❌ Check failed with " ++ toString found.errors.length ++ " errors")
    exit 1

/-- A title between two rules. -/
def titled (title : String) : List String :=
  let rule := String.ofList (List.replicate 60 '=')
  [rule, title, rule, ""]

/-- The regression tests as a program. -/
def goldenTests (i : Installation) : Launch where
  command := [i.interpreter, "-m", "pytest", "tests/test_golden_cases.py", "-v", "--tb=short"]
  directory := i.root
  searchPath? := none

/-- The line of a formula in the summary. -/
def summaryLine (f : Formula) : String :=
  "  " ++ f.id ++ ": " ++ ", ".intercalate f.tokens

/-- The summary of formulas. -/
def summary (formulas : List Formula) : List String :=
  ["Summary:", "  Formulas: " ++ toString formulas.length,
    "  Variables: " ++ toString (formulas.flatMap (·.questions)).length]
    ++ formulas.map summaryLine

/-- Checks the catalog and runs the regression tests; exits with 1 unless both succeed. -/
def pipeline (i : Invocation) : Session Unit := do
  let settings ← i.settings
  sayAll (titled "FORMULA PRICING CHECK PIPELINE")
  say "[1/2] Checking formula definitions..."
  let found ← checkCatalog (← i.catalog settings)
  if !found.isSound then
    say "\n❌ CHECK FAILED"
    sayAll (found.errors.map ("  ERROR: " ++ ·))
    exit 1
  sayAll ["", "[2/2] Running golden tests..."]
  match ← launch (goldenTests i.installation) with
  | .interrupted => throw (.failure .interrupted)
  | .returned code =>
    if code != 0 then
      say "\n❌ TESTS FAILED"
      exit 1
  sayAll ("" :: titled "✅ CHECK COMPLETE")
  sayAll (summary found.formulas)

end Tariff.Console
