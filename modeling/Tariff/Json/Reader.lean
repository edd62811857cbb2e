import Tariff.Json.Fault
import Tariff.Value

/-!
# Reading JSON

`Json.read` gives the value that a text holds, or the first fault met from left to right. Names
keep their order, and a repeated name its first place with its last value. A number with a point or
an exponent is a binary64 number, any other a whole number; `NaN`, `Infinity` and `-Infinity` are
numbers too. Every list and every record that is open takes a level of the call stack.

An escape may name half of a character, with no other half beside it. A text holds whole characters
only, so another character stands for it; which one, the reader is told.
-/

namespace Tariff.Json

open Text

/-- A place in a text: how many characters have been read, and the rest. -/
structure Cursor where
  /-- How many characters have been read. -/
  place : Nat
  /-- The characters that follow. -/
  rest : List Char

/-- The cursor after `k` more characters. -/
def Cursor.advance (c : Cursor) (k : Nat) : Cursor :=
  ⟨c.place + k, c.rest.drop k⟩

/-- The four characters that may stand between the parts of a JSON text. -/
def isSpace (c : Char) : Bool :=
  c == ' ' || c == '\t' || c == '\n' || c == '\r'

/-- The cursor after any space. -/
def Cursor.skipSpace (c : Cursor) : Cursor :=
  c.advance (c.rest.takeWhile isSpace).length

/-- A fault before its place is counted in lines. -/
inductive Stop where
  /-- Something is wrong at a place. -/
  | at (reason : Reason) (place : Nat)
  /-- An integer is too long. -/
  | longInteger (digits : Nat)
  /-- No level is left for a list or a record. -/
  | tooDeep (record : Bool)

/-- The number that four hexadecimal digits spell, if at least one character follows them. -/
def hexFour? : List Char → Option Nat
  | a :: b :: c :: d :: _ :: _ => do
    some ((((← hexValue? a) * 16 + (← hexValue? b)) * 16 + (← hexValue? c)) * 16 + (← hexValue? d))
  | _ => none

/-- The character that an escape of one letter stands for. -/
def shortEscape? : Char → Option Char
  | '"' => some '"'
  | '\\' => some '\\'
  | '/' => some '/'
  | 'b' => some (Char.ofNat 8)
  | 'f' => some (Char.ofNat 12)
  | 'n' => some '\n'
  | 'r' => some '\r'
  | 't' => some '\t'
  | _ => none

/-- What stands for half of a character where nothing else is said. -/
def defaultHalf : Char := '\ufffd'

/-- The rest of a text after its opening quote at `start`; `skip` characters belong to an escape
already read, and `half` stands for half of a character. -/
def readText (half : Char) (start place : Nat) : Nat → List Char → Except Stop (List Char × Nat)
  | _, [] => .error (.at .unterminatedText start)
  | skip + 1, _ :: cs => readText half start (place + 1) skip cs
  | 0, c :: cs =>
    if c = '"' then .ok ([], place + 1)
    else if c = '\\' then
      match cs with
      | [] => .error (.at .unterminatedText start)
      | e :: more =>
        if e = 'u' then
          match hexFour? more with
          | none => .error (.at .unicodeEscape (place + 1))
          | some high =>
            let follow := more.drop 4
            if 0xD800 ≤ high ∧ high < 0xDC00 ∧ follow.take 2 = ['\\', 'u'] ∧ 7 ≤ follow.length then
              match hexFour? (follow.drop 2) with
              | none => .error (.at .unicodeEscape (place + 7))
              | some low =>
                if 0xDC00 ≤ low ∧ low < 0xE000 then do
                  let c := Char.ofNat (0x10000 + (high - 0xD800) * 0x400 + (low - 0xDC00))
                  let (t, q) ← readText half start (place + 1) 11 cs
                  .ok (c :: t, q)
                else do
                  let (t, q) ← readText half start (place + 1) 5 cs
                  .ok (half :: t, q)
            else do
              let (t, q) ← readText half start (place + 1) 5 cs
              .ok ((if 0xD800 ≤ high ∧ high < 0xE000 then half else Char.ofNat high) :: t, q)
        else
          match shortEscape? e with
          | none => .error (.at .unknownEscape place)
          | some d => do
            let (t, q) ← readText half start (place + 1) 1 cs
            .ok (d :: t, q)
    else if c.toNat < 0x20 then .error (.at .controlCharacter place)
    else do
      let (t, q) ← readText half start (place + 1) 0 cs
      .ok (c :: t, q)

/-- The text whose opening quote stands just before the cursor. -/
def Cursor.readText (half : Char) (c : Cursor) : Except Stop (String × Cursor) := do
  let (t, q) ← Json.readText half (c.place - 1) c.place 0 c.rest
  .ok (String.ofList t, c.advance (q - c.place))

/-- The characters of the number that starts a text, and whether it has a point or an exponent. -/
def numberChars? (cs : List Char) : Option (List Char × Bool) :=
  let (sign, cs) : List Char × List Char :=
    match cs with
    | '-' :: r => (['-'], r)
    | _ => ([], cs)
  let whole? : Option (List Char) :=
    match cs with
    | '0' :: _ => some ['0']
    | c :: _ => if isAsciiDigit c then some (cs.takeWhile isAsciiDigit) else none
    | [] => none
  whole?.map fun whole =>
    let rest := cs.drop whole.length
    let fraction : List Char :=
      match rest with
      | '.' :: r =>
        let ds := r.takeWhile isAsciiDigit
        if ds.isEmpty then [] else '.' :: ds
      | _ => []
    let rest := rest.drop fraction.length
    let exponent : List Char :=
      match rest with
      | e :: r =>
        if e = 'e' ∨ e = 'E' then
          let (s, r) : List Char × List Char :=
            match r with
            | '-' :: r => (['-'], r)
            | '+' :: r => (['+'], r)
            | _ => ([], r)
          let ds := r.takeWhile isAsciiDigit
          if ds.isEmpty then [] else e :: (s ++ ds)
        else []
      | [] => []
    (sign ++ whole ++ fraction ++ exponent, !fraction.isEmpty || !exponent.isEmpty)

/-- The value that the characters of a number spell. -/
def numberValue (cs : List Char) (fractional : Bool) : Except Stop Value :=
  match Decimal.read? cs with
  | none => .ok .null
  | some d =>
    if fractional then .ok (.float (Binary64.ofDecimal d))
    else
      let count := (cs.filter isAsciiDigit).length
      if maxIntegerDigits < count then .error (.longInteger count)
      else .ok (.int (d.scaled 0))

/-- The words that stand for a value of their own. -/
def literals : List (String × Value) :=
  [("null", .null), ("true", .bool true), ("false", .bool false), ("NaN", .float .nan),
    ("Infinity", .float (.infinite false)), ("-Infinity", .float (.infinite true))]

/-- The value that starts the text, unless it has members. -/
def Cursor.readScalar (c : Cursor) : Except Stop (Value × Cursor) :=
  match literals.find? fun l => l.1.toList.isPrefixOf c.rest with
  | some (word, v) => .ok (v, c.advance word.length)
  | none =>
    match numberChars? c.rest with
    | some (cs, fractional) => do
      let v ← numberValue cs fractional
      .ok (v, c.advance cs.length)
    | none => .error (.at .expectedValue c.place)

mutual

/-- The value at the cursor. Two units of `fuel` are enough for every character that is left; at
most `levels` lists and records may be open in it. -/
def readValue (half : Char) : Nat → Nat → Cursor → Except Stop (Value × Cursor)
  | 0, _, c => .error (.at .expectedValue c.place)
  | fuel + 1, levels, c =>
    match c.rest, levels with
    | '"' :: _, _ => do
      let (s, c) ← (c.advance 1).readText half
      .ok (.text s, c)
    | '\x7b' :: _, 0 => .error (.tooDeep true)
    | '\x7b' :: _, levels + 1 =>
      let c := (c.advance 1).skipSpace
      match c.rest with
      | '\x7d' :: _ => .ok (.record [], c.advance 1)
      | _ => do
        let (fields, c) ← readFields half fuel levels c []
        .ok (.record fields, c)
    | '[' :: _, 0 => .error (.tooDeep false)
    | '[' :: _, levels + 1 =>
      let c := (c.advance 1).skipSpace
      match c.rest with
      | ']' :: _ => .ok (.list [], c.advance 1)
      | _ => do
        let (items, c) ← readItems half fuel levels c
        .ok (.list items, c)
    | _, _ => c.readScalar

/-- The values of a list from the cursor to the closing bracket. -/
def readItems (half : Char) : Nat → Nat → Cursor → Except Stop (List Value × Cursor)
  | 0, _, c => .error (.at .expectedValue c.place)
  | fuel + 1, levels, c => do
    let (v, c) ← readValue half fuel levels c
    let c := c.skipSpace
    match c.rest with
    | ']' :: _ => .ok ([v], c.advance 1)
    | ',' :: _ => do
      let (vs, c) ← readItems half fuel levels (c.advance 1).skipSpace
      .ok (v :: vs, c)
    | _ => .error (.at .expectedComma c.place)

/-- The fields of a record from the cursor to the closing brace, after the fields already read. -/
def readFields (half : Char) :
    Nat → Nat → Cursor → List (String × Value) → Except Stop (List (String × Value) × Cursor)
  | 0, _, c, _ => .error (.at .expectedName c.place)
  | fuel + 1, levels, c, fields =>
    match c.rest with
    | '"' :: _ => do
      let (name, c) ← (c.advance 1).readText half
      let c := c.skipSpace
      match c.rest with
      | ':' :: _ => do
        let (v, c) ← readValue half fuel levels (c.advance 1).skipSpace
        let fields := OrderedMap.insert fields name v
        let c := c.skipSpace
        match c.rest with
        | '\x7d' :: _ => .ok (fields, c.advance 1)
        | ',' :: _ => readFields half fuel levels (c.advance 1).skipSpace fields
        | _ => .error (.at .expectedComma c.place)
      | _ => .error (.at .expectedColon c.place)
    | _ => .error (.at .expectedName c.place)

end

/-- The fault with the line and column of its place. -/
def Stop.fault (cs : List Char) : Stop → Fault
  | .at reason place =>
    let (line, column) := lineAndColumn cs place
    .malformed reason place line column
  | .longInteger n => .longInteger n
  | .tooDeep record => .tooDeep record

/-- The value that a text holds, if at most `levels` lists and records are open in it at once. -/
def read (cs : List Char) (levels : Nat := defaultLevels) (half : Char := defaultHalf) :
    Except Fault Value :=
  let result : Except Stop Value :=
    if cs.head? = some (Char.ofNat 0xFEFF) then .error (.at .byteOrderMark 0)
    else do
      let (v, c) ← readValue half (2 * cs.length + 2) levels (Cursor.skipSpace ⟨0, cs⟩)
      let c := c.skipSpace
      if c.rest.isEmpty then .ok v else .error (.at .extraData c.place)
  result.mapError (Stop.fault cs)

end Tariff.Json
