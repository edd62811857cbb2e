import Tariff.Console.Session

/-!
# The command that explains a price

`explain` prices one formula of the catalog for answers in JSON and prints how the price comes
about.
-/

namespace Tariff.Console

/-- How the command is used. -/
def explainUsage : List String :=
  ["", "Print the full resolution trace for one stored formula.", "", "Usage:",
    "    python scripts/debug_formula.py house_painting "
      ++ "'\x7b\"house_sqft\": 2000, \"property_height\": \"two\"\x7d'", ""]

/-- The answers that a value gives to variables. A value other than a record gives none, as long as
no variable is looked up in it: a list or a text must not hold an id, and no other value can be
searched at all. -/
def answersIn (questions : List Variable) : Value → Option Answers
  | .record fields => some fields
  | .list items =>
    let holds (v : Variable) : Bool := items.any fun item =>
      match item with
      | .text s => s == v.id
      | _ => false
    if questions.any holds then none else some []
  | .text s => if questions.any (occursIn ·.id.toList s.toList) then none else some []
  | _ => if questions.isEmpty then some [] else none

/-- The lines about a validation. -/
def validationLines (r : Report) : List String :=
  ("\nValidation: " ++ if r.valid then "valid" else "INVALID")
    :: r.messages.map ("  ❌ " ++ ·) ++ r.warnings.map ("  ⚠️  " ++ ·)

/-- The lines about a price. -/
def priceLines (r : PriceResult) : List String :=
  let warnings := if r.warnings.isEmpty then ["(none)"] else r.warnings
  traceText r.trace :: "\nWarnings:" :: warnings.map ("  " ++ ·)
    ++ ["\nFinal price: " ++ Numeral.integerText r.price]

/-- Explains the price of the formula that is the first argument, for the answers in the second. -/
def explain (i : Invocation) : Session Unit := do
  match i.args with
  | [] =>
    sayAll explainUsage
    exit 1
  | id :: more =>
    let settings ← i.settings
    let f ← i.formula settings id
    let given ← match more with
      | [] => pure (.record [])
      | json :: _ => orFail .malformedAnswers (Json.read json.toList)
    sayAll ["Insertable tokens:", "  " ++ ", ".intercalate f.tokens]
    sayAll (validationLines (← orFail .unit (f.validate Formula.defaultUnitLimit)))
    say ("\n--- Pricing " ++ f.id ++ " with " ++ given.plain ++ " ---")
    match answersIn f.questions given with
    | none => throw (.failure (.unfitAnswers given))
    | some answers =>
      match f.calculateWithin answers settings.nesting defaultLevels with
      | .ok result => sayAll (priceLines result)
      | .error .stack => throw (.failure .stack)
      | .error (.fault .longPrice) => throw (.failure .longPrice)
      | .error (.fault (.evaluation fault)) =>
        say ("❌ Unable to calculate price: " ++ fault.message)
        exit 1

end Tariff.Console
