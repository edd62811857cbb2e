/-!
# Lines

Every way to end a line (a line feed, a carriage return, or both) read as a line feed, and the
line and column of a place in a text.
-/

namespace Tariff.Text

/-- A text with every end of line written as a line feed. -/
def plainLines : List Char → List Char
  | [] => []
  | '\r' :: '\n' :: cs => '\n' :: plainLines cs
  | '\r' :: cs => '\n' :: plainLines cs
  | c :: cs => c :: plainLines cs

/-- The line and the column, both counted from one, of a place in a text. -/
def lineAndColumn (cs : List Char) (place : Nat) : Nat × Nat :=
  let before := cs.take place
  (before.count '\n' + 1, (before.reverse.takeWhile (· != '\n')).length + 1)

end Tariff.Text
