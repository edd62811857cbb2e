import Tariff.Text.Blank
import Tariff.Text.LetterCase
import Tariff.Numeral.Digits

/-!
# Identifiers

Ids that are derived from what a designer types: `slug` turns a label into small letters, digits
and underscores, and `fresh` makes an id different from the ones in use by a counter at its end.
-/

namespace Tariff.Identifier

open Text

/-- The longest slug where nothing else is said. -/
def defaultLength : Int := 30

/-- The first `limit` elements of a list; a negative limit counts from its end. -/
def takeUpTo {α : Type u} (limit : Int) (xs : List α) : List α :=
  if 0 ≤ limit then xs.take limit.toNat else xs.take (xs.length - (-limit).toNat)

/-- A text with every run of blanks written as one underscore; `inRun` tells whether a blank
stands before it. -/
def joinBlanks (inRun : Bool) : List Char → List Char
  | [] => []
  | c :: cs =>
    if isBlank c then (if inRun then joinBlanks true cs else '_' :: joinBlanks true cs)
    else c :: joinBlanks false cs

/-- The characters that a slug is made of. -/
def isSlugChar (c : Char) : Bool :=
  c.isLower || c.isDigit || c == '_'

/-- A label as an id of at most `limit` characters; it may be empty. -/
def slug (label : String) (limit : Int := defaultLength) : String :=
  let small := toLower (strip label)
  String.ofList (takeUpTo limit ((joinBlanks false small.toList).filter isSlugChar))

/-- An id with a number at its end. -/
def numbered (base : String) (k : Int) : String :=
  base ++ "_" ++ Numeral.integerText k

/-- The first counter from `k` on whose id is not taken, trying at most `fuel` of them. -/
def firstFree (base : String) (taken : List String) (k : Nat) : Nat → Nat
  | 0 => k
  | fuel + 1 => if taken.contains (numbered base k) then firstFree base taken (k + 1) fuel else k

/-- An id that is not taken: the base itself, or the base with the least counter from two on. -/
def fresh (base : String) (taken : List String) : String :=
  if taken.contains base then numbered base (firstFree base taken 2 taken.length) else base

/-- An id for a label; `fallback` and the place of the label name one that has no slug. -/
def forLabel (fallback label : String) (place : Int) (taken : List String)
    (limit : Int := defaultLength) : String :=
  let s := slug label limit
  fresh (if s.isEmpty then numbered fallback place else s) taken

/-- An id for an option. -/
def forOption (label : String) (place : Int) (taken : List String)
    (limit : Int := defaultLength) : String :=
  forLabel "option" label place taken limit

/-- An id for a variable. -/
def forVariable (name : String) (place : Int) (taken : List String)
    (limit : Int := defaultLength) : String :=
  forLabel "variable" name place taken limit

/-- Ids for the options that follow the ones in `done`, each different from all before it. -/
def forOptionsAfter (limit : Int) (done : List String) : List String → List String
  | [] => done
  | label :: labels =>
    forOptionsAfter limit (done ++ [forOption label done.length done limit]) labels

/-- Ids for a list of options, each different from all before it. -/
def forOptions (labels : List String) (limit : Int := defaultLength) : List String :=
  forOptionsAfter limit [] labels

end Tariff.Identifier
