import Tariff.Text.CaseTable

/-!
# Letter case

`toLower` and `toUpper` write a text in small and in capital letters, by the case mappings of all
scripts. Two small forms are special: a capital I with a dot becomes an `i` with a dot above, and a
capital sigma becomes a final sigma at the end of a word.
-/

namespace Tariff.Text

private def isIn (ranges : List (Nat × Nat)) (c : Char) : Bool :=
  ranges.any fun r => r.1 ≤ c.toNat && c.toNat ≤ r.2

/-- Whether a character has a case and takes part in the search for the end of a word. -/
def isCased (c : Char) : Bool :=
  isIn casedRanges c

/-- Whether a character is passed over in the search for the end of a word. -/
def isPassed (c : Char) : Bool :=
  isIn passedRanges c

private def reachesCased (cs : List Char) : Bool :=
  match cs.dropWhile isPassed with
  | [] => false
  | c :: _ => isCased c

/-- The small form of a character that does not look at its neighbours. -/
def lowerChar (c : Char) : List Char :=
  let n := c.toNat
  if n < 0x80 then
    if 65 ≤ n ∧ n ≤ 90 then [Char.ofNat (n + 32)] else [c]
  else if n = 0x130 then ['i', Char.ofNat 0x307]
  else match lowerRuns.findSome? (·.image? n) with
    | some m => [Char.ofNat m]
    | none => [c]

/-- The capital form of a character. -/
def upperChar (c : Char) : List Char :=
  let n := c.toNat
  if n < 0x80 then
    if 97 ≤ n ∧ n ≤ 122 then [Char.ofNat (n - 32)] else [c]
  else match upperExpansions.lookup n with
    | some ms => ms.map Char.ofNat
    | none => match upperRuns.findSome? (·.image? n) with
      | some m => [Char.ofNat m]
      | none => [c]

/-- Small letters of a text; `before` holds the characters already read, the nearest first. -/
def lowerAfter (before : List Char) : List Char → List Char
  | [] => []
  | c :: cs =>
    let image :=
      if c.toNat = 0x3A3 then
        if reachesCased before && !reachesCased cs then [Char.ofNat 0x3C2] else [Char.ofNat 0x3C3]
      else lowerChar c
    image ++ lowerAfter (c :: before) cs

/-- A text in small letters. -/
def toLower (s : String) : String :=
  String.ofList (lowerAfter [] s.toList)

/-- A text in capital letters. -/
def toUpper (s : String) : String :=
  String.ofList (s.toList.flatMap upperChar)

end Tariff.Text
