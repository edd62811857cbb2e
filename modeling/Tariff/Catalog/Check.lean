import Tariff.Catalog

/-!
# Checking a catalog

A catalog is sound if every definition in it loads, no two formulas have one id, and no formula has
an error. A check lists all that stands in the way, and the lines in which it is reported.
-/

namespace Tariff

/-- What breaks a check off. -/
inductive CheckFault where
  /-- The listing of the catalog ended early. -/
  | listing (fault : LoadFault)
  /-- A unit has no length. -/
  | unit (fault : UnmeasuredUnit)
  deriving Repr

/-- What a check of a catalog finds. -/
structure CatalogCheck where
  /-- The formulas. -/
  formulas : List Formula
  /-- The formulas that were looked at, with what was found. -/
  reports : List (Formula × Report)
  /-- All that stands in the way. -/
  errors : List String
  /-- What broke the check off. -/
  stopped? : Option CheckFault
  /-- The lines of the report. -/
  lines : List String
  deriving Repr

namespace CatalogCheck

/-- Whether the catalog is sound. -/
def isSound (c : CatalogCheck) : Bool :=
  c.errors.isEmpty

/-- Validates formulas in order, up to one that cannot be. -/
def validateAll (unitLimit : Int) : List Formula → List (Formula × Report) × Option UnmeasuredUnit
  | [] => ([], none)
  | f :: fs =>
    match f.validate unitLimit with
    | .error fault => ([], some fault)
    | .ok report =>
      let (reports, stopped) := validateAll unitLimit fs
      ((f, report) :: reports, stopped)

/-- What stands in the way in validated formulas, after formulas of some ids. -/
def formulaErrors (seen : List String) : List (Formula × Report) → List String
  | [] => []
  | (f, report) :: rest =>
    (if seen.contains f.id then [f.id ++ ": formula id is used by more than one file"] else [])
      ++ report.messages.map (fun message => f.id ++ ": " ++ message)
      ++ formulaErrors (f.id :: seen) rest

/-- The lines for one formula. -/
def formulaLines (f : Formula) (report : Report) : List String :=
  ((if report.valid then "✅ " else "❌ ") ++ f.id ++ " ("
      ++ toString f.questions.length ++ " variables)")
    :: report.warnings.map fun warning => "   ⚠️  " ++ warning

/-- The lines at the end. -/
def closingLines (path : Path) (formulas : Nat) (errors : List String) : List String :=
  if errors.isEmpty then
    ["✅ Checked " ++ toString formulas ++ " formulas", "   Source: " ++ path.text]
  else "Validation errors:" :: errors.map fun e => "  ❌ " ++ e

end CatalogCheck

open CatalogCheck

/-- Checks a catalog. -/
def Catalog.check (c : Catalog) (unitLimit : Int) : CatalogCheck :=
  if c.entries?.isNone then
    ⟨[], [], ["Formulas directory not found: " ++ c.path.text], none, []⟩
  else
    let listing := c.list
    match listing.stopped? with
    | some fault => ⟨[], [], [], some (.listing fault), []⟩
    | none =>
      let (reports, unmeasured?) := validateAll unitLimit listing.formulas
      let errors :=
        listing.skipped.map (fun e => e.1 ++ ": " ++ e.2.message) ++ formulaErrors [] reports
      let lines := reports.flatMap fun (f, report) => formulaLines f report
      match unmeasured? with
      | some fault => ⟨listing.formulas, reports, errors, some (.unit fault), lines⟩
      | none =>
        ⟨listing.formulas, reports, errors, none,
          lines ++ closingLines c.path listing.formulas.length errors⟩

end Tariff
