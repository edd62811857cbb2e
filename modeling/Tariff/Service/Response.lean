import Tariff.Catalog
import Tariff.Quote

/-!
# Responses

A response has a status and a value as its body. A value with a number that is infinite or
undefined, or with an integer of more digits than are written, cannot be sent; the request has
failed then. A request for the head of a response gets the status alone.

A result is copied before it is sent, and the copy of a value goes as deep as the value: `copyCalls`
counts the levels of the call stack that it takes.
-/

namespace Tariff.Service

/-- What is sent back. -/
inductive Response where
  /-- A value. -/
  | answer (status : Nat) (body : Value)
  /-- The body of the request does not have the shape that is asked for. -/
  | rejected
  /-- The request has failed. -/
  | failed
  /-- A status alone. -/
  | bare (status : Nat)
  deriving Repr

/-- The status of a response. -/
def Response.status : Response → Nat
  | answer status _ | bare status => status
  | rejected => 422
  | failed => 500

mutual

/-- Whether every number in a value can be written. -/
def isSendable : Value → Bool
  | .float x => x.isFinite
  | .int n => isWritable n
  | .list items => allSendable items
  | .record fields => fieldsSendable fields
  | _ => true

/-- Whether every number in some values can be written. -/
def allSendable : List Value → Bool
  | [] => true
  | v :: vs => isSendable v && allSendable vs

/-- Whether every number in some fields can be written. -/
def fieldsSendable : List (String × Value) → Bool
  | [] => true
  | (_, v) :: rest => isSendable v && fieldsSendable rest

end

/-- Whether a field is kept back whatever its value. -/
def isInternal (name : String) : Bool :=
  "_sa".toList.isPrefixOf name.toList

mutual

/-- A value without the fields that are kept back. -/
def publicPart : Value → Value
  | .list items => .list (publicParts items)
  | .record fields => .record (publicFields fields)
  | v => v

/-- Values without the fields that are kept back. -/
def publicParts : List Value → List Value
  | [] => []
  | v :: vs => publicPart v :: publicParts vs

/-- Fields without those that are kept back. -/
def publicFields : List (String × Value) → List (String × Value)
  | [] => []
  | (name, v) :: rest =>
    if isInternal name then publicFields rest else (name, publicPart v) :: publicFields rest

end

mutual

/-- How many calls are nested while a value is copied. A list or a record takes two, its members
come on top, and so do the names of fields, which take as many as any other value. -/
def copyCalls : Value → Nat
  | .list items => 2 + itemsCopyCalls items
  | .record fields => 2 + fieldsCopyCalls fields
  | _ => 3

/-- How many calls are nested while values are copied one by one. -/
def itemsCopyCalls : List Value → Nat
  | [] => 0
  | v :: vs => max (copyCalls v) (itemsCopyCalls vs)

/-- How many calls are nested while fields are copied one by one. -/
def fieldsCopyCalls : List (String × Value) → Nat
  | [] => 0
  | (_, v) :: rest => max (max 3 (copyCalls v)) (fieldsCopyCalls rest)

end

/-- Sends a value. -/
def Response.send (status : Nat) (body : Value) : Response :=
  if isSendable body then .answer status body else .failed

/-- Sends what is public of a value. -/
def Response.ok (body : Value) : Response :=
  .send 200 (publicPart body)

/-- Sends the reason why a request is refused. -/
def Response.refuse (status : Nat) (detail : Value) : Response :=
  .answer status (.record [("detail", detail)])

/-- The response to a body that does not have its shape; the parts at fault are sent along. -/
def Response.reject (parts : List Value) : Response :=
  if allSendable (publicParts parts) then .rejected else .failed

/-! ## Values that are sent -/

/-- Texts as a value. -/
def textsValue (xs : List String) : Value := .list (xs.map .text)

/-- A number that may be missing. -/
def numberValue? (n : Option Number) : Value := (n.map Value.ofNumber).getD .null

/-- A whole number that may be missing. -/
def wholeValue? (n : Option Int) : Value := (n.map Value.int).getD .null

/-- An option. -/
def choiceValue (c : Choice) : Value := .record [
  ("id", .text c.id), ("label", .text c.label), ("value", c.value),
  ("numeric_value", .ofNumber c.number), ("default_unselected_value", .ofNumber c.unselected),
  ("multiplier", numberValue? c.multiplier?), ("image", c.image)]

/-- A condition. -/
def conditionValue (c : Condition) : Value := .record [
  ("depends_on_variable_id", .text c.dependsOn), ("kind", .text c.comparison.name),
  ("expected_value", c.expected)]

/-- A rule of visibility. -/
def ruleValue (r : VisibilityRule) : Value := .record [
  ("enabled", .bool r.enabled), ("operator", .text r.connective.name),
  ("conditions", .list (r.conditions.map conditionValue)), ("default_value", r.fallback)]

/-- A variable. -/
def variableValue (v : Variable) : Value := .record [
  ("id", .text v.id), ("name", .text v.name), ("kind", .text v.kind.name), ("unit", v.unit),
  ("options", .list (v.choices.map choiceValue)), ("min", numberValue? v.min?),
  ("max", numberValue? v.max?), ("step", numberValue? v.step?),
  ("checked_value", .text v.checked), ("unchecked_value", .text v.unchecked),
  ("allow_multiple_selection", .bool v.allowsSeveral),
  ("conditional_logic", (v.rule?.map ruleValue).getD .null), ("default_value", v.prefilled),
  ("connection_key", v.connection)]

/-- A formula. -/
def formulaValue (f : Formula) : Value := .record [
  ("id", .text f.id), ("expression", .text f.expression),
  ("variables", .list (f.questions.map variableValue)),
  ("min_price", wholeValue? f.range.min?), ("max_price", wholeValue? f.range.max?),
  ("name", .text f.name)]

/-- A step of a computation. -/
def traceStepValue (s : TraceStep) : Value := .record [
  ("step", .text s.stage), ("description", .text s.description), ("value", .text s.value)]

/-- A price and how it was found. -/
def resultValue (r : PriceResult) : Value := .record [
  ("formula_id", .text r.formulaId), ("price", .int r.price),
  ("effective_values", .record r.effective),
  ("visibility", .record (r.resolution.visibility.map fun e => (e.1, .bool e.2))),
  ("token_map", .record (r.tokens.map fun e => (e.1, e.2.toValue))),
  ("substituted_expression", .text r.substituted), ("unrounded", .float r.unrounded),
  ("rounded", .int r.rounded), ("clamped", (r.clamped.map fun b => .text b.name).getD .null),
  ("warnings", textsValue r.warnings), ("trace", .list (r.trace.map traceStepValue))]

/-- Several formulas priced together. -/
def quoteValue (q : Quote) : Value := .record [
  ("total", .int q.total), ("lines", .list (q.lines.map resultValue)),
  ("warnings", textsValue q.warnings)]

/-- How many calls are nested while a result is copied: three, and those for its effective values.
What else it holds is never nested. -/
def resultCalls (r : PriceResult) : Nat :=
  3 + copyCalls (.record r.effective)

/-- How many calls are nested while a quote is copied: three, and those for its lines. -/
def quoteCalls (q : Quote) : Nat :=
  q.lines.foldr (fun line calls => max (3 + resultCalls line) calls) 3

/-- The files that a listing skipped. -/
def skippedValue (skipped : OrderedMap LoadFault) : Value :=
  .record (skipped.map fun e => (e.1, .text e.2.message))

/-- What can be counted in a catalog. -/
def statsValue (s : CatalogStats) : Value := .record [
  ("total", .int s.total), ("variables", .int s.questions),
  ("by_kind", .record (s.byKind.map fun e => (e.1, .int e.2))),
  ("conditional", .int s.conditional), ("invalid", textsValue s.invalid),
  ("load_errors", skippedValue s.skipped)]

end Tariff.Service
