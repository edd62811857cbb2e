import Tariff.Expression.Lexeme

/-!
# Parsing

The grammar is

    sum     := product (('+' | '-') product)*
    product := factor (('*' | '/') factor)*
    factor  := number | '(' sum ')' | '-' factor

The parser reads one symbol at a time and keeps what is still open on a stack: minus signs and
parentheses, and the left operands of operations that wait for their right one. A minus or a
parenthesis may be opened only while fewer than `limit` of them are open.

A parser by recursive descent has its stack in its calls: one for a minus that is open, and one each
for the factor, the sum and the product of a parenthesis. `parseWithin` counts these.
-/

namespace Tariff.Expression

/-- Something that is open while an expression is read. -/
inductive Pending where
  /-- A minus that waits for its factor. -/
  | negation
  /-- An opening parenthesis, with its place. -/
  | group (place : Nat)
  /-- A product that waits for its right factor. -/
  | product (left : Tree) (op : Operator)
  /-- A sum that waits for its right product. -/
  | sum (left : Tree) (op : Operator)
  deriving DecidableEq, Repr

/-- Where the parser stands: before an operand, or after one. -/
inductive ParseState where
  /-- An operand is needed next. -/
  | before (stack : List Pending)
  /-- The operand that was read last, as far as it is complete. -/
  | after (stack : List Pending) (tree : Tree)
  deriving DecidableEq, Repr

/-- What is open in a state. -/
def ParseState.stack : ParseState → List Pending
  | before stack | after stack _ => stack

namespace Parser

/-- How many minus signs and parentheses are open. -/
def openCount (stack : List Pending) : Nat :=
  stack.countP fun
    | .negation | .group _ => true
    | _ => false

/-- The place of the innermost open parenthesis. -/
def innermostGroup? (stack : List Pending) : Option Nat :=
  stack.findSome? fun
    | .group place => some place
    | _ => none

/-- A factor that is complete closes the minus signs before it and the product it ends. -/
def closeFactor : List Pending → Tree → List Pending × Tree
  | .negation :: stack, t => closeFactor stack (.negate t)
  | .product left op :: stack, t => (stack, .binary op left t)
  | stack, t => (stack, t)

/-- A product that is complete closes the sum it ends. -/
def closeProduct : List Pending → Tree → List Pending × Tree
  | .sum left op :: stack, t => (stack, .binary op left t)
  | stack, t => (stack, t)

/-- The state after a complete factor. -/
def afterFactor (stack : List Pending) (t : Tree) : ParseState :=
  let (stack, t) := closeFactor stack t
  .after stack t

/-- The number that the characters of a number symbol spell. -/
def literal (cs : List Char) : Tree :=
  .literal ((Decimal.read? cs).getD default)

/-- The state after something is opened at `place`. -/
def enter (limit : Nat) (stack : List Pending) (pending : Pending) (place : Nat) :
    Except SyntaxFault ParseState :=
  if openCount stack < limit then .ok (.before (pending :: stack)) else .error (.tooDeep place)

/-- The state after one more symbol. -/
def step (limit : Nat) : ParseState → Lexeme → Except SyntaxFault ParseState
  | .before stack, ⟨symbol, place⟩ =>
    match symbol with
    | .number cs => .ok (afterFactor stack (literal cs))
    | .opening => enter limit stack (.group place) place
    | .operator .sub => enter limit stack .negation place
    | .closing => .error (.unbalanced place)
    | .operator op => .error (.unexpected [op.sign] place)
  | .after stack t, ⟨symbol, place⟩ =>
    match symbol with
    | .operator .mul => .ok (.before (.product t .mul :: stack))
    | .operator .div => .ok (.before (.product t .div :: stack))
    | .operator op =>
      let (stack, t) := closeProduct stack t
      .ok (.before (.sum t op :: stack))
    | .closing =>
      match closeProduct stack t with
      | (.group _ :: stack, t) => .ok (afterFactor stack (.group t))
      | _ => .error (.unbalanced place)
    | .number _ | .opening =>
      match innermostGroup? stack with
      | some opened => .error (.unbalanced opened)
      | none => .error (.unexpected symbol.chars place)

/-- The tree of a state in which the text may end. -/
def finish : ParseState → Except SyntaxFault Tree
  | .before _ => .error .unexpectedEnd
  | .after stack t =>
    match innermostGroup? stack with
    | some opened => .error (.unbalanced opened)
    | none => .ok (closeProduct stack t).2

/-- The tree of a row of lexemes. -/
def parse (limit : Nat) (lexemes : List Lexeme) : Except SyntaxFault Tree :=
  if lexemes.isEmpty then .error .empty
  else lexemes.foldlM (step limit) (.before []) >>= finish

/-! ## On a stack of limited height -/

/-- How many calls are nested while something is open. -/
def pendingCalls : Pending → Nat
  | .negation => 1
  | .group _ => 3
  | .product .. | .sum .. => 0

/-- How many calls are nested while nothing is open: to read a text, a row of lexemes, a sum, a
product and a factor, and to look at a lexeme. -/
def groundCalls : Nat := 6

/-- How many calls are nested while a lexeme is looked at. -/
def calls (stack : List Pending) : Nat :=
  stack.foldr (fun p levels => pendingCalls p + levels) groundCalls

/-- The state after one more symbol, if there are levels for what is open then. -/
def stepWithin (limit levels : Nat) (s : ParseState) (l : Lexeme) :
    Except (Halt SyntaxFault) ParseState := do
  let s ← (step limit s l).mapError .fault
  if calls s.stack ≤ levels then .ok s else .error .stack

/-- The tree of a row of lexemes, on a stack with `levels` left. -/
def parseWithin (limit levels : Nat) (lexemes : List Lexeme) : Except (Halt SyntaxFault) Tree :=
  if lexemes.isEmpty then .error (.fault .empty)
  else if levels < calls [] then .error .stack
  else lexemes.foldlM (stepWithin limit levels) (.before []) >>= fun s =>
    (finish s).mapError .fault

end Parser

/-- The tree of a text, with at most `limit` parentheses and minus signs open at once. -/
def Tree.ofText (cs : List Char) (limit : Nat) : Except SyntaxFault Tree :=
  Lexeme.scan cs >>= Parser.parse limit

/-- The tree of a text, on a stack with `levels` left. -/
def Tree.ofTextWithin (cs : List Char) (limit levels : Nat) : Except (Halt SyntaxFault) Tree :=
  (Lexeme.scan cs).mapError .fault >>= Parser.parseWithin limit levels

end Tariff.Expression
