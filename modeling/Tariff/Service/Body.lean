import Tariff.Service.Shape

/-!
# Request bodies

The layouts of the bodies that the service accepts. A definition that is sent along has the shape
of a stored one.
-/

namespace Tariff.Service

open Presence Shape

/-- An option. -/
def optionLayout : Layout := .ofList [
  ("id", optional, text),
  ("label", defaulting (.text ""), text),
  ("value", optional, scalar),
  ("numericValue", optional, real),
  ("defaultUnselectedValue", optional, real),
  ("multiplier", optional, real),
  ("image", optional, text)]

/-- A condition. -/
def conditionLayout : Layout := .ofList [
  ("dependsOnVariableId", optional, text),
  ("kind", optional, text),
  ("expectedValue", optional, anything),
  ("expectedValues", optional, list anything)]

/-- A rule of visibility, in the present and in the older shape. -/
def ruleLayout : Layout := .ofList [
  ("enabled", defaulting (.bool false), flag),
  ("operator", defaulting (.text "AND"), text),
  ("conditions", optional, list (record conditionLayout)),
  ("defaultValue", optional, anything),
  ("dependsOnVariable", optional, text),
  ("condition", optional, text),
  ("expectedValue", optional, anything),
  ("expectedValues", optional, list anything)]

/-- A variable. -/
def variableLayout : Layout := .ofList [
  ("id", required, text),
  ("name", required, text),
  ("type", required, text),
  ("unit", optional, text),
  ("options", optional, list (record optionLayout)),
  ("min", optional, real),
  ("max", optional, real),
  ("step", optional, real),
  ("checkedValue", optional, scalar),
  ("uncheckedValue", optional, scalar),
  ("allowMultipleSelection", defaulting (.bool false), flag),
  ("conditionalLogic", optional, record ruleLayout),
  ("defaultValue", optional, anything),
  ("connectionKey", optional, text)]

/-- A formula. -/
def formulaLayout : Layout := .ofList [
  ("id", defaulting (.text "inline"), text),
  ("name", defaulting (.text ""), text),
  ("formula", required, text),
  ("variables", defaulting (.list []), list (record variableLayout)),
  ("minPrice", optional, whole),
  ("maxPrice", optional, whole)]

/-- The answers to a stored formula. -/
def answersLayout : Layout := .ofList [
  ("inputs", defaulting (.record []), map anything)]

/-- A formula and the answers to it. -/
def inlineLayout : Layout := .ofList [
  ("formula", required, record formulaLayout),
  ("inputs", defaulting (.record []), map anything)]

/-- Several stored formulas and the answers to them. -/
def quoteLayout : Layout := .ofList [
  ("formula_ids", required, list text),
  ("inputs", defaulting (.record []), map (map anything)),
  ("shared_inputs", defaulting (.record []), map anything)]

/-- Labels for which ids are asked. -/
def labelsLayout : Layout := .ofList [
  ("labels", required, list text),
  ("kind", defaulting (.text "option"), word ["option", "variable"]),
  ("existing", defaulting (.list []), list text)]

end Tariff.Service
