import Tariff.Expression.Tree
import Tariff.Text.Blank
import Tariff.Text.Quoted

/-!
# Lexemes

A formula text is a row of numbers, operator signs and parentheses with blanks between them.
`Lexeme.scan` cuts a text into lexemes from left to right, each as long as it can be, and reports
the first character that belongs to none.
-/

namespace Tariff.Expression

open Text

/-- What a lexeme says. -/
inductive Symbol where
  /-- A number, with its characters. -/
  | number (cs : List Char)
  /-- The sign of an operation. -/
  | operator (op : Operator)
  /-- An opening parenthesis. -/
  | opening
  /-- A closing parenthesis. -/
  | closing
  deriving DecidableEq, Repr

/-- The characters of a symbol. -/
def Symbol.chars : Symbol → List Char
  | .number cs => cs
  | .operator op => [op.sign]
  | .opening => ['(']
  | .closing => [')']

/-- A symbol and the place where it starts. -/
structure Lexeme where
  /-- What is written. -/
  symbol : Symbol
  /-- How many characters stand before it. -/
  place : Nat
  deriving DecidableEq, Repr

/-- Why a text is not an expression. -/
inductive SyntaxFault where
  /-- A character that no expression holds. -/
  | invalidCharacter (c : Char) (place : Nat)
  /-- A point without a digit beside it. -/
  | malformedNumber (c : Char) (place : Nat)
  /-- Nothing is written. -/
  | empty
  /-- A parenthesis without its partner. -/
  | unbalanced (place : Nat)
  /-- A symbol where another kind of symbol is needed. -/
  | unexpected (symbol : List Char) (place : Nat)
  /-- The text ends where an operand is needed. -/
  | unexpectedEnd
  /-- Too many parentheses and minus signs are open at once. -/
  | tooDeep (place : Nat)
  deriving DecidableEq, Repr

private def located (what : String) (place : Nat) : String :=
  what ++ " (at position " ++ toString place ++ ")"

/-- The fault in words. -/
def SyntaxFault.message : SyntaxFault → String
  | .invalidCharacter c place =>
    located ("Invalid character " ++ String.ofList (quotedChars [c])) place
  | .malformedNumber c place =>
    located ("Malformed number " ++ String.ofList (quotedChars [c])) place
  | .empty => "Empty expression"
  | .unbalanced place => located "Unbalanced parentheses" place
  | .unexpected cs place => located ("Unexpected " ++ String.ofList (quotedChars cs)) place
  | .unexpectedEnd => "Unexpected end of expression"
  | .tooDeep place => located "Expression nested too deeply" place

/-- The symbol that a single character is. -/
def Symbol.ofChar? : Char → Option Symbol
  | '+' => some (.operator .add)
  | '-' => some (.operator .sub)
  | '*' => some (.operator .mul)
  | '/' => some (.operator .div)
  | '(' => some .opening
  | ')' => some .closing
  | _ => none

/-- Whether an expression may hold the character at all. -/
def isExpressionChar (c : Char) : Bool :=
  isAsciiDigit c || c == '.' || (Symbol.ofChar? c).isSome || isBlank c

/-- The longest number that starts a text: digits with an optional point after or among them, or
a point with digits after it. -/
def numberPrefix? (cs : List Char) : Option (List Char) :=
  let whole := cs.takeWhile isAsciiDigit
  match cs.dropWhile isAsciiDigit with
  | '.' :: rest =>
    let fraction := rest.takeWhile isAsciiDigit
    if whole.isEmpty && fraction.isEmpty then none else some (whole ++ '.' :: fraction)
  | _ => if whole.isEmpty then none else some whole

namespace Lexeme

/-- The lexemes of the characters from `place` on, of which the first `skip` belong to a number
already read. -/
def scanFrom (place : Nat) : Nat → List Char → Except SyntaxFault (List Lexeme)
  | _, [] => .ok []
  | skip + 1, _ :: cs => scanFrom (place + 1) skip cs
  | 0, c :: cs =>
    if isBlank c then scanFrom (place + 1) 0 cs
    else match Symbol.ofChar? c with
      | some symbol => (scanFrom (place + 1) 0 cs).map (⟨symbol, place⟩ :: ·)
      | none =>
        match numberPrefix? (c :: cs) with
        | some ds => (scanFrom (place + 1) (ds.length - 1) cs).map (⟨.number ds, place⟩ :: ·)
        | none => .error (.malformedNumber c place)

/-- The first character that no expression holds, and its place. -/
def firstInvalid? (place : Nat) : List Char → Option (Char × Nat)
  | [] => none
  | c :: cs => if isExpressionChar c then firstInvalid? (place + 1) cs else some (c, place)

/-- The lexemes of a text. A character that no expression holds is reported first, wherever it
stands. -/
def scan (cs : List Char) : Except SyntaxFault (List Lexeme) :=
  match firstInvalid? 0 cs with
  | some (c, place) => .error (.invalidCharacter c place)
  | none => scanFrom 0 0 cs

end Lexeme

end Tariff.Expression
