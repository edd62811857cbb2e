import Tariff.Pricing

/-!
# Quotes

Several formulas priced together. Variables with one connection key share one answer: the shared
answer that is given for the key, or else the first own answer in the order of the formulas. A
formula without a price is left out of the total and reported.
-/

namespace Tariff

/-- A key under which formulas share answers. Numbers are the same key if their values are equal. -/
inductive ConnectionKey where
  /-- A text. -/
  | text (s : String)
  /-- A number. -/
  | number (n : Number)
  deriving Repr

/-- Whether two keys are the same. -/
def ConnectionKey.same : ConnectionKey → ConnectionKey → Bool
  | text s, text t => s == t
  | number m, number n => m.equals n
  | _, _ => false

/-- Why no quote is given. -/
inductive QuoteFault where
  /-- A connection key is a list or a record. -/
  | unfitKey (key : Value)
  /-- A price, or a number on the way to it, has more digits than are written. -/
  | longPrice
  deriving Repr

/-- The shared answers by their keys. -/
abbrev SharedAnswers := List (ConnectionKey × Value)

namespace SharedAnswers

/-- The answer that is shared under a key. -/
def find? (shared : SharedAnswers) (key : ConnectionKey) : Option Value :=
  (List.find? (fun e => e.1.same key) shared).map (·.2)

/-- The shared answers with one more, unless its key has one already. -/
def offer (shared : SharedAnswers) (key : ConnectionKey) (answer : Value) : SharedAnswers :=
  if (find? shared key).isSome then shared else shared ++ [(key, answer)]

end SharedAnswers

/-- The connection key of a variable, if it has one. -/
def Variable.connectionKey? (v : Variable) : Except QuoteFault (Option ConnectionKey) :=
  if v.connection.isVoid then .ok none
  else match v.connection with
    | .text s => .ok (some (.text s))
    | .bool b => .ok (some (.number (.whole (if b then 1 else 0))))
    | .int n => .ok (some (.number (.whole n)))
    | .float x => .ok (some (.number (.real x)))
    | key => .error (.unfitKey key)

/-- What a customer asks to have priced together. -/
structure QuoteRequest where
  /-- The formulas. -/
  formulas : List Formula
  /-- The answers to each formula, by its id. -/
  answers : OrderedMap Answers
  /-- The shared answers, by their keys. -/
  shared : OrderedMap Value
  deriving Repr

/-- The prices of several formulas. -/
structure Quote where
  /-- The sum of the prices. -/
  total : Int
  /-- The results of the formulas that have a price. -/
  lines : List PriceResult
  /-- What the customer may be told, each once. -/
  warnings : List String
  deriving Repr

/-- The quote that is made of the results of formulas and of what is told about them. -/
def Quote.ofOutcomes (outcomes : List (Option PriceResult × List String)) : Quote :=
  let lines := outcomes.filterMap (·.1)
  { total := lines.foldl (fun total line => total + line.price) 0
    lines
    warnings := (outcomes.flatMap (·.2)).eraseDups }

namespace QuoteRequest

/-- The answers to a formula. -/
def answersTo (q : QuoteRequest) (f : Formula) : Answers :=
  (q.answers.find? f.id).getD []

/-- The shared answers after the own answers of one formula. -/
def shareAnswers (answers : Answers) (shared : SharedAnswers) (v : Variable) :
    Except QuoteFault SharedAnswers :=
  match answers.find? v.id with
  | none => .ok shared
  | some answer => do
    match ← v.connectionKey? with
    | some key => return shared.offer key answer
    | none => return shared

/-- All shared answers: the ones that are given, and the first own answer of every other key. -/
def sharedAnswers (q : QuoteRequest) : Except QuoteFault SharedAnswers :=
  let given : SharedAnswers := q.shared.map fun e => (.text e.1, e.2)
  q.formulas.foldlM (fun shared f => f.questions.foldlM (shareAnswers (q.answersTo f)) shared) given

/-- The answers to a formula with those it is given by others, and the variables these are for. -/
def connect (shared : SharedAnswers) (state : Answers × List String) (v : Variable) :
    Except QuoteFault (Answers × List String) :=
  if state.1.contains v.id then .ok state
  else do
    match ← v.connectionKey? with
    | none => return state
    | some key =>
      match shared.find? key with
      | some answer => return (state.1.insert v.id answer, state.2 ++ [v.id])
      | none => return state

/-- The result of one formula with what is told about it. -/
def line (q : QuoteRequest) (shared : SharedAnswers) (depth : Nat) (f : Formula) :
    Except QuoteFault (Option PriceResult × List String) := do
  let (answers, connected) ← f.questions.foldlM (connect shared) (q.answersTo f, [])
  match f.calculate answers depth with
  | .error .longPrice => throw .longPrice
  | .error (.evaluation fault) =>
    return (none, [f.id ++ ": unable to calculate price (" ++ fault.message ++ ")"])
  | .ok result =>
    let step : TraceStep :=
      ⟨"Connected", "Answers shared from other services", ", ".intercalate connected⟩
    let trace := if connected.isEmpty then result.trace else result.trace ++ [step]
    return (some { result with trace }, result.warnings.map fun w => f.id ++ ": " ++ w)

/-- Prices several formulas together. -/
def quote (q : QuoteRequest) (depth : Nat) : Except QuoteFault Quote := do
  let shared ← q.sharedAnswers
  return .ofOutcomes (← q.formulas.mapM (q.line shared depth))

/-- The result of one formula with what is told about it, on a stack with `levels` left to its
calculation. -/
def lineWithin (q : QuoteRequest) (shared : SharedAnswers) (depth levels : Nat) (f : Formula) :
    Except (Halt QuoteFault) (Option PriceResult × List String) := do
  let (answers, _) ← (f.questions.foldlM (connect shared) (q.answersTo f, [])).mapError .fault
  match f.calculateWithin answers depth levels with
  | .error .stack => throw .stack
  | .error (.fault .longPrice) => throw (.fault .longPrice)
  | _ => (q.line shared depth f).mapError .fault

/-- Prices several formulas together, on a stack with `levels` left. -/
def quoteWithin (q : QuoteRequest) (depth levels : Nat) : Except (Halt QuoteFault) Quote := do
  let shared ← q.sharedAnswers.mapError .fault
  return .ofOutcomes (← q.formulas.mapM (q.lineWithin shared depth (levels - 1)))

end QuoteRequest

end Tariff
