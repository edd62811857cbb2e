import Tariff.Contribution

/-!
# Substitution

The tokens of an expression are replaced by what they contribute, in one pass from left to right:
a token counts only where no word character stands on either side of it, and of several tokens
that match at one place the longest counts (`segments`). Names that are left over are then written
as zero and reported.
-/

namespace Tariff.Expression

/-- A character of a word: an ASCII letter, a digit or an underscore. -/
def isWordChar (c : Char) : Bool :=
  c.isAlphanum || c == '_'

/-- Whether a word goes on at the start of a text. -/
def startsInWord : List Char → Bool
  | [] => false
  | c :: _ => isWordChar c

/-- Whether a token stands at the start of a text and no word goes on after it. -/
def standsAt (token cs : List Char) : Bool :=
  token.isPrefixOf cs && !startsInWord (cs.drop token.length)

/-- The longest token that stands at the start of a text. -/
def longestAt? (tokens : List (List Char)) (cs : List Char) : Option (List Char) :=
  tokens.foldl (fun best t =>
    if standsAt t cs && best.all (fun b => b.length < t.length) then some t else best) none

/-- A stretch of an expression: a token, or a character that belongs to none. -/
inductive Segment where
  /-- A token that stands as a word of its own. -/
  | token (name : List Char)
  /-- Any other character. -/
  | plain (c : Char)
  deriving DecidableEq, Repr

/-- An expression cut into its tokens and other characters. `inWord` tells whether a word character
stands before it, and the first `skip` characters belong to a token already cut. -/
def segmentsFrom (tokens : List (List Char)) : Bool → Nat → List Char → List Segment
  | inWord, skip, [] =>
    if inWord || skip != 0 then [] else ((longestAt? tokens []).map Segment.token).toList
  | _, skip + 1, c :: cs => segmentsFrom tokens (isWordChar c) skip cs
  | inWord, 0, c :: cs =>
    match if inWord then none else longestAt? tokens (c :: cs) with
    | none => .plain c :: segmentsFrom tokens (isWordChar c) 0 cs
    | some [] => .token [] :: .plain c :: segmentsFrom tokens (isWordChar c) 0 cs
    | some (t :: ts) => .token (t :: ts) :: segmentsFrom tokens (isWordChar c) ts.length cs

/-- An expression cut into its tokens and other characters. -/
def segments (tokens : List (List Char)) (cs : List Char) : List Segment :=
  segmentsFrom tokens false 0 cs

/-- Tokens as characters, with the factors that stand for them. -/
abbrev Replacements := List (List Char × List Char)

/-- What is written for a segment. -/
def Segment.render (tokens : Replacements) : Segment → List Char
  | token name => (tokens.lookup name).getD []
  | plain c => [c]

/-- An expression with its tokens replaced. -/
def replaceTokens (tokens : Replacements) (cs : List Char) : List Char :=
  (segments (tokens.map (·.1)) cs).flatMap (Segment.render tokens)

/-- A stretch of a text without tokens: a word that cannot be made longer, or a character outside
words. -/
inductive Piece where
  /-- A whole word. -/
  | word (cs : List Char)
  /-- A character that belongs to no word. -/
  | gap (c : Char)
  deriving DecidableEq, Repr

/-- A text as whole words and the characters between them. -/
def pieces : List Char → List Piece
  | [] => []
  | c :: cs =>
    if isWordChar c then
      match pieces cs with
      | .word w :: ps => .word (c :: w) :: ps
      | ps => .word [c] :: ps
    else .gap c :: pieces cs

/-- Whether a word is a name: it does not start with a digit. -/
def isName (word : List Char) : Bool :=
  word.head?.any fun c => !c.isDigit

/-- A text with every name written as zero, except where a point stands before it. -/
def zeroNames (afterPoint : Bool) : List Piece → List Char
  | [] => []
  | .word w :: ps => (if isName w && !afterPoint then ['0'] else w) ++ zeroNames false ps
  | .gap c :: ps => c :: zeroNames (c == '.') ps

/-- The names that `zeroNames` writes as zero. -/
def namesIn (afterPoint : Bool) : List Piece → List (List Char)
  | [] => []
  | .word w :: ps => if isName w && !afterPoint then w :: namesIn false ps else namesIn false ps
  | .gap c :: ps => namesIn (c == '.') ps

/-- A text without tokens, and the names that were left over. -/
structure Substituted where
  /-- The text that is left to compute. -/
  text : List Char
  /-- The names that no token stands for, each once, in the order of their first use. -/
  unknown : List String
  deriving DecidableEq, Repr

/-- A text with its tokens replaced by their factors and all other names by zero. -/
def substitute (cs : List Char) (tokens : Replacements) : Substituted :=
  let ps := pieces (replaceTokens tokens cs)
  ⟨zeroNames false ps, (namesIn false ps).eraseDups.map String.ofList⟩

/-- The factors of a map of contributions. -/
def replacements (tokens : OrderedMap Contribution) : Replacements :=
  tokens.map fun t => (t.1.toList, t.2.factor)

end Tariff.Expression
