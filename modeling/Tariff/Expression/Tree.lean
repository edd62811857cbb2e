import Tariff.Numeral.DecimalText
import Tariff.Stack

/-!
# Expression trees

The arithmetic that a price formula is made of. Groups keep the parentheses they were written
with, so that a tree determines its symbols; `evaluate` computes every operation in decimal
arithmetic and fails in two ways only. `evaluateWithin` does so on a stack of limited height.
-/

namespace Tariff.Expression

/-- The four operations. -/
inductive Operator where
  /-- Addition. -/
  | add
  /-- Subtraction. -/
  | sub
  /-- Multiplication. -/
  | mul
  /-- Division. -/
  | div
  deriving DecidableEq, Repr

/-- The sign of an operation. -/
def Operator.sign : Operator → Char
  | .add => '+'
  | .sub => '-'
  | .mul => '*'
  | .div => '/'

/-- An arithmetic expression. -/
inductive Tree where
  /-- A number as it was written. -/
  | literal (value : Decimal)
  /-- A minus in front of an expression. -/
  | negate (inner : Tree)
  /-- An expression between parentheses. -/
  | group (inner : Tree)
  /-- An operation on two expressions. -/
  | binary (op : Operator) (left right : Tree)
  deriving DecidableEq, Repr

/-- Why a well-formed expression has no value. -/
inductive ArithmeticFault where
  /-- A divisor is zero. -/
  | divisionByZero
  /-- A result is too large. -/
  | overflow
  deriving DecidableEq, Repr

/-- The result of an operation on two numbers. -/
def Operator.apply : Operator → Decimal → Decimal → Except ArithmeticFault Decimal
  | .add, a, b => (a.add? b).elim (.error .overflow) .ok
  | .sub, a, b => (a.sub? b).elim (.error .overflow) .ok
  | .mul, a, b => (a.mul? b).elim (.error .overflow) .ok
  | .div, a, b =>
    if b.isZero then .error .divisionByZero else (a.div? b).elim (.error .overflow) .ok

namespace Tree

/-- The value of an expression, on a stack that is high enough. A divisor is computed, and found to
be zero, before its dividend. -/
def evaluate : Tree → Except ArithmeticFault Decimal
  | literal d => .ok d
  | group t => t.evaluate
  | negate t => do
    let d ← t.evaluate
    d.neg?.elim (.error .overflow) .ok
  | binary .div l r => do
    let b ← r.evaluate
    if b.isZero then .error .divisionByZero
    else
      let a ← l.evaluate
      Operator.div.apply a b
  | binary op l r => do
    let a ← l.evaluate
    let b ← r.evaluate
    op.apply a b

/-- The value of an expression on a stack with `levels` left: every expression is computed on a
level of its own. -/
def evaluateWithin : Nat → Tree → Except (Halt ArithmeticFault) Decimal
  | 0, _ => .error .stack
  | _ + 1, literal d => .ok d
  | levels + 1, group t => t.evaluateWithin levels
  | levels + 1, negate t => do
    let d ← t.evaluateWithin levels
    d.neg?.elim (.error (.fault .overflow)) .ok
  | levels + 1, binary .div l r => do
    let b ← r.evaluateWithin levels
    if b.isZero then .error (.fault .divisionByZero)
    else
      let a ← l.evaluateWithin levels
      (Operator.div.apply a b).mapError .fault
  | levels + 1, binary op l r => do
    let a ← l.evaluateWithin levels
    let b ← r.evaluateWithin levels
    (op.apply a b).mapError .fault

end Tree

end Tariff.Expression
