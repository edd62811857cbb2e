import Tariff.Service.Body
import Tariff.Service.Response
import Tariff.Service.Route

/-!
# The pricing service

`Service.respond` answers one request over a catalog of stored formulas. The service keeps nothing
between two requests.
-/

namespace Tariff

/-- A service over a catalog. -/
structure Service where
  /-- The stored formulas. -/
  catalog : Catalog
  /-- The longest suggested id. -/
  slugLimit : Int
  /-- The longest unit. -/
  unitLimit : Int
  /-- How many parentheses and minus signs may be open at once. -/
  depth : Int
  /-- How many calls may be nested to find a price and to copy it. -/
  levels : Nat := defaultLevels
  deriving Repr

namespace Service

/-- What is asked of the service. -/
structure Request where
  /-- The method. -/
  method : String
  /-- The address. -/
  address : String
  /-- The body, if there is one. -/
  body? : Option String
  deriving Repr

/-- A result, or the response that is sent instead. -/
abbrev Handled (α : Type) := Except Response α

/-- A value on the way, or failure of the request. -/
def orFailed {ε α : Type} (e : Except ε α) : Handled α :=
  e.mapError fun _ => .failed

/-- How many parentheses and minus signs may be open at once. -/
def nesting (s : Service) : Nat := s.depth.toNat

/-- The stored formulas. -/
def formulas (s : Service) : Handled (List Formula) :=
  orFailed s.catalog.list.result

/-- The stored formula with an id. -/
def stored (s : Service) (id : String) : Handled Formula := do
  match ← orFailed (s.catalog.formula? id) with
  | some f => return f
  | none => throw (.refuse 404 (.text (missingFormulaMessage id)))

/-! ## Bodies -/

/-- Reads the body of a request in the shape of a layout. Something stands for half of a character.
-/
def readBody (layout : Layout) (body? : Option String) (half : Char := Json.defaultHalf) :
    Handled (OrderedMap Value) := do
  let cs := (body?.getD "").toList
  if cs.isEmpty then throw (.reject [])
  match Json.read (if cs.head? = some '\ufeff' then cs.tail else cs) defaultLevels half with
  | .error (.malformed ..) => throw .rejected
  | .error (.longInteger _) | .error (.tooDeep _) =>
    throw (.refuse 400 (.text "There was an error parsing the body"))
  | .ok (.record fs) => (layout.conform fs).mapError .reject
  | .ok v => throw (.reject [v])

/-- The texts of a field. -/
def textItems (r : OrderedMap Value) (name : String) : List String :=
  match Definition.field r name with
  | .list items => items.map Value.plain
  | _ => []

/-- The record in a field. -/
def recordField (r : OrderedMap Value) (name : String) : OrderedMap Value :=
  match Definition.field r name with
  | .record fields => fields
  | _ => []

/-- A reason and its details. -/
def problem (message error : String) : Response :=
  .refuse 422 (.record [("message", .text message), ("error", .text error)])

/-- The formula in a body. -/
def formulaIn (v : Value) : Handled Formula :=
  (Formula.ofValue v).mapError fun fault =>
    match fault with
    | .unfitBound _ | .notAList _ | .notARecord _ | .infiniteBound => .failed
    | fault => problem "Invalid formula definition" fault.message

/-! ## Answers -/

/-- The price of a formula. -/
def priced (s : Service) (f : Formula) (answers : Answers) : Handled Response :=
  match f.calculateWithin answers s.nesting s.levels with
  | .ok result =>
    if resultCalls result ≤ s.levels then .ok (.ok (resultValue result)) else .error .failed
  | .error (.fault (.evaluation fault)) =>
    .error (problem "Unable to calculate price" fault.message)
  | .error (.fault .longPrice) | .error .stack => .error .failed

/-- A stored formula in a list of them. -/
def listed (s : Service) (f : Formula) : Handled Value := do
  let report ← orFailed (f.validate s.unitLimit)
  return .record [
    ("id", .text f.id), ("name", .text f.name), ("expression", .text f.expression),
    ("variables", .int f.questions.length), ("tokens", textsValue f.tokens),
    ("valid", .bool report.valid)]

/-- Ids for the variables of some names, none of which is among those that are taken. -/
def variableIds (slugLimit : Int) (taken : List String) : List String → List String
  | [] => []
  | name :: names =>
    let id := Identifier.forVariable name taken.length taken slugLimit
    id :: variableIds slugLimit (taken ++ [id]) names

/-- Ids for labels. Labels of options do not look at the ids in use. -/
def suggestedIds (slugLimit : Int) (kind : String) (labels existing : List String) :
    List String :=
  if kind = "option" then Identifier.forOptions labels slugLimit
  else variableIds slugLimit existing labels

/-- The prices of several stored formulas. -/
def quoted (s : Service) (body : OrderedMap Value) : Handled Response := do
  let formulas ← (textItems body "formula_ids").mapM s.stored
  let answers := (recordField body "inputs").map fun e =>
    (e.1, match e.2 with
      | .record fields => fields
      | _ => [])
  let request : QuoteRequest := ⟨formulas, answers, recordField body "shared_inputs"⟩
  let quote ← orFailed (request.quoteWithin s.nesting s.levels)
  if quoteCalls quote ≤ s.levels then return .ok (quoteValue quote) else throw .failed

/-- Answers what a request asks for. -/
def handle (s : Service) (body? : Option String) : Endpoint → Handled Response
  | .greeting => return .ok (.record [
      ("status", .text "online"), ("message", .text "Formula Pricing API Active")])
  | .status => do
    let listing := s.catalog.list
    let formulas ← orFailed listing.result
    return .ok (.record [
      ("engine_active", .bool true), ("formulas_dir", .text s.catalog.path.text),
      ("formulas_count", .int formulas.length), ("load_errors", skippedValue listing.skipped),
      ("max_nesting_depth", .int s.depth)])
  | .formulas => do
    return .ok (.list (← (← s.formulas).mapM s.listed))
  | .stats => do
    let listing := s.catalog.list
    let _ ← orFailed listing.result
    return .ok (statsValue (← orFailed (listing.stats s.unitLimit)))
  | .identifiers => do
    let body ← readBody labelsLayout body?
    return .ok (.record [("ids", textsValue (suggestedIds s.slugLimit
      (Definition.textField body "kind") (textItems body "labels") (textItems body "existing")))])
  | .formula id => do
    return .ok (formulaValue (← s.stored id))
  | .tokens id => do
    return .ok (textsValue (← s.stored id).tokens)
  | .report id => do
    let report ← orFailed ((← s.stored id).validate s.unitLimit)
    return .ok (.record [("valid", .bool report.valid), ("errors", textsValue report.messages),
      ("warnings", textsValue report.warnings)])
  | .price id => do
    let body ← readBody answersLayout body?
    s.priced (← s.stored id) (recordField body "inputs")
  | .inlinePrice => do
    let body ← readBody inlineLayout body?
    s.priced (← formulaIn (Definition.field body "formula")) (recordField body "inputs")
  | .inlineReport => do
    let f ← formulaIn (.record (← readBody formulaLayout body?))
    let report ← orFailed (f.validate s.unitLimit)
    return .ok (.record [("valid", .bool report.valid), ("errors", textsValue report.messages),
      ("warnings", textsValue report.warnings), ("tokens", textsValue f.tokens)])
  | .quote => do
    s.quoted (← readBody quoteLayout body?)

/-- The response to a request, with its body. -/
def reply (s : Service) (r : Request) : Response :=
  match route r.method r.address with
  | .error .notFound => .refuse 404 (.text "Not Found")
  | .error .methodNotAllowed => .refuse 405 (.text "Method Not Allowed")
  | .ok endpoint =>
    match s.handle r.body? endpoint with
    | .ok response => response
    | .error response => response

/-- Answers a request. -/
def respond (s : Service) (r : Request) : Response :=
  let response := s.reply r
  if Text.toUpper r.method = "HEAD" then .bare response.status else response

end Service

end Tariff
