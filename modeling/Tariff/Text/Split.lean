/-!
# Splitting at a separator

The parts of a text between the occurrences of a separator, which are looked for from the left and
do not overlap. A separator has at least one character.
-/

namespace Tariff.Text

/-- A text of at least one character that stands between parts. -/
structure Separator where
  /-- The first character. -/
  first : Char
  /-- The characters after it. -/
  rest : List Char
  deriving DecidableEq, Repr

namespace Separator

/-- The separator that a text spells; an empty text separates nothing. -/
def ofText? (s : String) : Option Separator :=
  match s.toList with
  | [] => none
  | c :: cs => some ⟨c, cs⟩

/-- The parts of a text after `skip` more characters of an occurrence. -/
def splitAfter (sep : Separator) : Nat → List Char → List (List Char)
  | _, [] => [[]]
  | skip + 1, _ :: cs => splitAfter sep skip cs
  | 0, c :: cs =>
    if c = sep.first ∧ sep.rest.isPrefixOf cs then [] :: splitAfter sep sep.rest.length cs
    else match splitAfter sep 0 cs with
      | [] => [[c]]
      | part :: parts => (c :: part) :: parts

/-- The parts of a text. -/
def split (sep : Separator) (cs : List Char) : List (List Char) :=
  sep.splitAfter 0 cs

end Separator

end Tariff.Text
