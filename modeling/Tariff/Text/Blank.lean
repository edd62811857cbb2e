/-!
# Blank characters

`isBlank` is the class of characters that count as white space in every text the library reads:
labels, answers, expressions and stored definitions. `strip` cuts them from both ends. Around a
bare number fewer of them may stand; `unpad` cuts these.
-/

namespace Tariff.Text

/-- White space of every script, with the four ASCII separators and the next-line control. -/
def isBlank (c : Char) : Bool :=
  let n := c.toNat
  (9 ≤ n && n ≤ 13) || (28 ≤ n && n ≤ 32) || n == 0x85 || n == 0xA0 || n == 0x1680
    || (0x2000 ≤ n && n ≤ 0x200A) || n == 0x2028 || n == 0x2029 || n == 0x202F || n == 0x205F
    || n == 0x3000

/-- A text without the characters of a class at its end. -/
def trimEnd (p : Char → Bool) : List Char → List Char
  | [] => []
  | c :: cs =>
    match trimEnd p cs with
    | [] => if p c then [] else [c]
    | rest => c :: rest

/-- A text without the blanks at its two ends. -/
def trim (cs : List Char) : List Char :=
  trimEnd isBlank (cs.dropWhile isBlank)

/-- A string without the blanks at its two ends. -/
def strip (s : String) : String :=
  String.ofList (trim s.toList)

/-- Whether nothing but blanks is written. -/
def isBlankText (s : String) : Bool :=
  (trim s.toList).isEmpty

/-- White space as it may stand around a bare number: all but the four ASCII separators. -/
def isPadding (c : Char) : Bool :=
  isBlank c && !(28 ≤ c.toNat && c.toNat ≤ 31)

/-- A text without the padding at its two ends. -/
def unpad (cs : List Char) : List Char :=
  trimEnd isPadding (cs.dropWhile isPadding)

theorem trimEnd_eq_nil {p : Char → Bool} {cs : List Char} (h : ∀ c ∈ cs, p c = true) :
    trimEnd p cs = [] := by
  induction cs with
  | nil => rfl
  | cons c cs ih =>
    simp [trimEnd, ih fun d hd => h d (List.mem_cons_of_mem _ hd), h c List.mem_cons_self]

end Tariff.Text
