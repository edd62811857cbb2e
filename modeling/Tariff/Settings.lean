import Tariff.Formula
import Tariff.Identifier
import Tariff.Numeral.IntegerText
import Tariff.Path
import Tariff.Validation

/-!
# Settings

What can be set from outside: where the definitions are, how deep an expression may be nested, and
how much is logged. `Settings.load` reads the settings from the variables of an environment.
-/

namespace Tariff

/-- What can be set from outside, and the limits that cannot. -/
structure Settings where
  /-- The directory of the definitions, if one is set. -/
  formulasDir? : Option Path
  /-- The file of the cases that prices are compared with. -/
  goldenCases : Path
  /-- The longest suggested id. -/
  slugLimit : Int
  /-- The longest unit. -/
  unitLimit : Int
  /-- How many parentheses and minus signs may be open at once. -/
  depth : Int
  /-- The name of the level from which on messages are logged. -/
  logLevel : String
  deriving Repr

/-- The depth that is set is no integer. -/
structure SettingsFault where
  /-- The text in its place. -/
  depth : String
  /-- What is wrong with it. -/
  fault : Numeral.IntegerFault
  deriving DecidableEq, Repr

/-- The fault in words. -/
def SettingsFault.message (f : SettingsFault) : String := f.fault.message f.depth

namespace Settings

/-- The variable that sets the directory of the definitions. -/
def formulasDirVariable : String := "FORMULA_PRICING_FORMULAS_DIR"

/-- The variable that sets the depth. -/
def depthVariable : String := "FORMULA_PRICING_MAX_DEPTH"

/-- The variable that sets the level of logging. -/
def logLevelVariable : String := "FORMULA_PRICING_LOG_LEVEL"

/-- The settings of a project under an environment. -/
def load (root : Path) (env : OrderedMap String) : Except SettingsFault Settings := do
  let depth ← match env.find? depthVariable with
    | none => pure (defaultDepth : Int)
    | some s => (Numeral.readInteger s).mapError (⟨s, ·⟩)
  return {
    formulasDir? :=
      ((env.find? formulasDirVariable).filter (!·.isEmpty)).map Path.ofText
    goldenCases := (root.join "tests").join "golden_cases.csv"
    slugLimit := Identifier.defaultLength
    unitLimit := Formula.defaultUnitLimit
    depth
    logLevel := Text.toUpper ((env.find? logLevelVariable).getD "INFO") }

/-- How many parentheses and minus signs may be open at once; none if the depth is negative. -/
def nesting (s : Settings) : Nat := s.depth.toNat

end Settings

end Tariff
