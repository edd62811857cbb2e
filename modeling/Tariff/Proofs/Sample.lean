import Tariff.Quote

/-!
# A sample formula

A fence is priced by its length. Extras may be chosen for a fence that has one. General theorems are
applied to this formula, and to some that differ from it, to show that their hypotheses can be met.
-/

namespace Tariff.Sample

/-- How long the fence is. -/
def length : Variable where
  id := "length"
  name := "Length"
  kind := .number
  unit := .text "m"
  choices := []
  min? := none
  max? := none
  step? := none
  checked := "1"
  unchecked := "0"
  allowsSeveral := false
  rule? := none
  prefilled := .null
  connection := .null

/-- An option that costs something when it is chosen, and nothing otherwise. -/
def extra (id : String) (price : Int) : Choice where
  id := id
  label := id
  value := .text id
  number := .whole price
  unselected := .zero
  multiplier? := none
  image := .null

/-- What is added to a fence of some length. -/
def extras : Variable where
  id := "extra"
  name := "Extras"
  kind := .multipleChoice
  unit := .null
  choices := [extra "gate" 120, extra "paint" 35]
  min? := none
  max? := none
  step? := none
  checked := "1"
  unchecked := "0"
  allowsSeveral := true
  rule? := some ⟨true, .and, [⟨"length", .greaterThan, .int 0⟩], .list []⟩
  prefilled := .null
  connection := .null

/-- The price of a fence. -/
def fence : Formula where
  id := "fence"
  name := "Fence"
  expression := "length * 12 + extra_gate + extra_paint"
  questions := [length, extras]
  range := ⟨none, none⟩

/-- A fence that costs a hundred at least and five hundred at most. -/
def boundedFence : Formula :=
  { fence with range := ⟨some 100, some 500⟩ }

/-- Extras that are a gate where they are not asked for. -/
def gateOrExtras : Variable :=
  { extras with
    rule? := some ⟨true, .and, [⟨"length", .greaterThan, .int 0⟩], .list [.text "gate"]⟩ }

/-- A fence that has a gate at least. -/
def gatedFence : Formula :=
  { fence with questions := [length, gateOrExtras] }

/-- Other ids for the variables of a fence. -/
def otherId : String → String
  | "length" => "extra"
  | "extra" => "addition"
  | id => id

/-- How high the fence is. -/
def height : Variable :=
  { length with id := "height", name := "Height" }

/-- A fence that is priced by its area: nobody depends on its height. -/
def wall : Formula where
  id := "wall"
  name := "Wall"
  expression := "length * height * 12 + extra_gate + extra_paint"
  questions := [length, height, extras]
  range := ⟨none, none⟩

/-- The same wall, with its height asked first. -/
def turnedWall : Formula :=
  { wall with questions := [height, length, extras] }

/-- A formula over some variables, with any price allowed. -/
def priced (expression : String) (questions : List Variable) : Formula :=
  { fence with expression, questions }

/-- A number that is asked for. -/
def count (id : String) : Variable :=
  { length with id }

/-- A box, with what it contributes. -/
def box (id checked unchecked : String) : Variable :=
  { length with id, kind := .checkbox, checked, unchecked }

/-- A list with one option. -/
def menu (id : String) (number : Number) : Variable :=
  { length with id, kind := .dropdown, choices := [{ extra "one" 1 with number }] }

/-- A fence that may be interrupted by a garage. -/
def drive : Formula :=
  priced "length * 12 - garage + extra_gate" [length, box "garage" "6 * 12" "0", extras]

/-- A number that is asked for once, for all services that need it. -/
def sharedCount (id key : String) : Variable :=
  { count id with connection := .text key }

/-- Painting a house, by its area. -/
def painting : Formula :=
  { priced "sqft * 2" [sharedCount "sqft" "house_sqft"] with id := "painting" }

/-- Gutters for a house, by its area and the number of its corners. -/
def gutters : Formula :=
  { priced "area / 10 + corners" [sharedCount "area" "house_sqft", sharedCount "corners" "corners"]
    with id := "gutters" }

/-- A roof, which has no price as long as nobody has said how steep it is. -/
def roof : Formula :=
  { priced "area / slope" [sharedCount "area" "house_sqft", count "slope"] with id := "roof" }

/-- All that is done on a house, where the corners are known and the painter is told the area. -/
def house : QuoteRequest where
  formulas := [painting, roof, gutters]
  answers := [("painting", [("sqft", .int 100)])]
  shared := [("corners", .int 4)]

/-- A variable that is only shown if another one is positive. -/
def onlyIf (other : String) (v : Variable) : Variable :=
  { v with rule? := some ⟨true, .and, [⟨other, .greaterThan, .int 0⟩], .int 0⟩ }

/-- Painting with several coats, where nobody asks for the area if there are none. -/
def coating : Formula :=
  { priced "sqft * coats" [count "coats", onlyIf "coats" (sharedCount "sqft" "house_sqft")]
    with id := "painting" }

/-- A house that gets gutters and no paint. -/
def unpainted : QuoteRequest where
  formulas := [coating, { gutters with expression := "area / 10" }]
  answers := [("painting", [("coats", .int 0), ("sqft", .int 100)])]
  shared := []

/-- The same house, where the area is known. -/
def surveyed : QuoteRequest :=
  { unpainted with shared := [("house_sqft", .int 90)] }

/-- A house whose painter asks for the coats and then decides that nobody is asked for them. -/
def askedTwice : QuoteRequest where
  formulas := [{ coating with
    expression := "sqft"
    questions := coating.questions ++ [onlyIf "nothing" (count "coats")] }]
  answers := [("painting", [("coats", .int 1), ("sqft", .int 100)])]
  shared := []

/-- A house that two painters see, who are told the same. -/
def paintedTwice : QuoteRequest :=
  { unpainted with formulas := [coating, painting] }

/-- An option that means some coats of paint and counts as many. -/
def coatsOf (id : String) (coats : Int) : Choice :=
  { extra id coats with value := .int coats }

/-- How many coats there are, where the options are numbered and the first one means two coats. -/
def numbered : Variable :=
  { length with
    id := "coats"
    name := "Coats"
    kind := .dropdown
    choices := [coatsOf "1" 2, coatsOf "2" 3] }

/-- The same options with words for ids. -/
def spelled : Variable :=
  { numbered with choices := [coatsOf "two" 2, coatsOf "three" 3] }

/-- The numbered options, where several of them may be chosen. -/
def numberedSeveral : Variable :=
  { numbered with kind := .multipleChoice, allowsSeveral := true }

/-- Gates of two sorts under one id, which no check would let pass. -/
def twoGates : Variable :=
  { extras with
    choices := [{ extra "gate" 120 with value := .text "oak" },
      { extra "gate" 150 with value := .text "steel" }]
    rule? := none }

/-- A car wash, where waxing is offered alone and together with a wash. -/
def carWash : Formula :=
  priced "extra_wax+wash"
    [count "wash", { extras with choices := [extra "wax" 10, extra "wax+wash" 14], rule? := none }]

/-- A service whose options are named by how their numbers are written. -/
def written : Formula :=
  { priced "n" [{ sharedCount "n" "count" with
      kind := .dropdown
      choices := [{ extra "whole" 9 with value := .text "1" },
        { extra "pointed" 2 with value := .text "1.0" }] }]
    with id := "written" }

end Tariff.Sample
