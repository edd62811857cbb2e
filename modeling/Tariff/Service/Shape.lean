import Tariff.Answer
import Tariff.Definition

/-!
# Shapes of request bodies

A shape says which values a service accepts. It is lenient: a text that spells a number counts as
that number where a number is asked for, and a few words count as truth values. `Shape.conform`
gives a value its shape, fills in what is missing and leaves out what no field asks for; if the
value does not fit, all offending parts of it are given back.
-/

namespace Tariff.Service

/-- What is said about a field that is missing. -/
inductive Presence where
  /-- The field has to be given. -/
  | required
  /-- A value takes the place of a missing field. -/
  | defaulting (value : Value)
  /-- The field may be missing or have no value. -/
  | optional
  deriving Repr

mutual

/-- Which values are accepted. -/
inductive Shape where
  /-- Any value. -/
  | anything
  /-- A text. -/
  | text
  /-- One of some words. -/
  | word (choices : List String)
  /-- A truth value. -/
  | flag
  /-- A whole number. -/
  | whole
  /-- A binary64 number. -/
  | real
  /-- A text or a number, which stays what it is. -/
  | scalar
  /-- A list. -/
  | list (item : Shape)
  /-- A record with any names. -/
  | map (value : Shape)
  /-- A record with the fields of a layout. -/
  | record (fields : Layout)

/-- The fields of a record. -/
inductive Layout where
  /-- No field. -/
  | nil
  /-- A field before the others. -/
  | cons (name : String) (presence : Presence) (shape : Shape) (rest : Layout)

end

/-- A value, or the parts of it that do not fit. -/
abbrev Checked (α : Type) := Except (List Value) α

namespace Checked

/-- Two values; the parts that do not fit of both. -/
def both {α β γ : Type} (f : α → β → γ) : Checked α → Checked β → Checked γ
  | .ok a, .ok b => .ok (f a b)
  | .error xs, .ok _ => .error xs
  | .ok _, .error ys => .error ys
  | .error xs, .error ys => .error (xs ++ ys)

/-- Values in order; the parts that do not fit of all of them. -/
def all {α β : Type} (f : α → Checked β) : List α → Checked (List β)
  | [] => .ok []
  | a :: as => both List.cons (f a) (all f as)

end Checked

/-! ## Lenient scalars -/

/-- Characters without the underscores that group digits: single ones, not at either end. -/
def ungrouped (cs : List Char) : List Char :=
  let doubled := (cs.zip cs.tail).any fun (a, b) => a == '_' && b == '_'
  if cs.head? == some '_' || cs.getLast? == some '_' || doubled then cs else cs.filter (· != '_')

/-- Whether only printing characters of ASCII are used. -/
def isGraphic (c : Char) : Bool :=
  33 ≤ c.toNat && c.toNat < 127

/-- The binary64 number that a text spells. -/
def realOfText? (s : String) : Option Binary64 :=
  let cs := ungrouped (Text.unpad s.toList)
  if cs.all isGraphic && !cs.contains '_' then Binary64.read? (String.ofList cs) else none

/-- The value as a binary64 number. -/
def real? : Value → Option Binary64
  | .float x => some x
  | .int n => some (Binary64.ofInt n) |>.filter Binary64.isFinite
  | .bool b => some (Binary64.ofInt (if b then 1 else 0))
  | .text s => realOfText? s
  | _ => none

/-- The digits of a whole number without a sign; zeros after a point are left out. -/
def wholeDigits? (cs : List Char) : Option Nat :=
  let digits := cs.takeWhile (· != '.')
  let zeros := (cs.dropWhile (· != '.')).drop 1
  let plain := ungrouped digits
  if zeros.all (· == '0') && !plain.isEmpty && plain.all Char.isDigit
      && digits.head?.any Char.isDigit then some (Numeral.ofDigits plain)
  else none

/-- The whole number that a text spells. A negative one has no zeros in front. -/
def wholeOfText? (s : String) : Option Int :=
  match Text.unpad s.toList with
  | '-' :: cs =>
    if cs.head? == some '0' && 1 < (cs.takeWhile (· != '.')).length then none
    else (wholeDigits? cs).map fun n => -(n : Int)
  | '+' :: cs => (wholeDigits? cs).map fun n => (n : Int)
  | cs => (wholeDigits? cs).map fun n => (n : Int)

/-- The whole number that a binary64 number is, if it lies strictly between the ends of a signed
word of 64 bits. -/
def wholeOfReal? (x : Binary64) : Option Int :=
  match x.toInt? with
  | some n => if -Int.pow 2 63 < n && n < Int.pow 2 63 then some n else none
  | none => none

/-- The value as a whole number. -/
def whole? : Value → Option Int
  | .int n => some n
  | .bool b => some (if b then 1 else 0)
  | .float x => wholeOfReal? x
  | .text s => if s.length ≤ Json.maxIntegerDigits then wholeOfText? s else none
  | _ => none

/-- The words that count as true. -/
def trueWords : List String := ["1", "t", "y", "on", "yes", "true"]

/-- The words that count as false. -/
def falseWords : List String := ["0", "f", "n", "no", "off", "false"]

/-- The value as a truth value. -/
def flag? : Value → Option Bool
  | .bool b => some b
  | .text s =>
    let word := String.ofList (s.toList.map Char.toLower)
    if trueWords.contains word then some true
    else if falseWords.contains word then some false
    else none
  | v =>
    match whole? v with
    | some 0 => some false
    | some 1 => some true
    | _ => none

/-- The value as a text or a number. -/
def scalar? : Value → Option Value
  | .text s => some (.text s)
  | .int n => some (.int n)
  | .float x => some (.float x)
  | .bool b => some (.int (if b then 1 else 0))
  | _ => none

/-- A value that was found, or the value in its place. -/
def found (v : Value) : Option Value → Checked Value
  | some w => .ok w
  | none => .error [v]

/-! ## Conforming -/

mutual

/-- The value in a shape. -/
def Shape.conform : Shape → Value → Checked Value
  | .anything, v => .ok v
  | .text, .text s => .ok (.text s)
  | .word choices, .text s => if choices.contains s then .ok (.text s) else .error [.text s]
  | .flag, v => found v ((flag? v).map .bool)
  | .whole, v => found v ((whole? v).map .int)
  | .real, v => found v ((real? v).map .float)
  | .scalar, v => found v (scalar? v)
  | .list item, .list vs => (Checked.all item.conform vs).map .list
  | .map value, .record fs =>
    (Checked.all (fun f => (value.conform f.2).map (f.1, ·)) fs).map .record
  | .record fields, .record fs => (fields.conform fs).map .record
  | _, v => .error [v]

/-- The fields of a layout out of those of a record. A field without a value is left out. -/
def Layout.conform (given : OrderedMap Value) : Layout → Checked (OrderedMap Value)
  | .nil => .ok []
  | .cons name presence shape rest =>
    let field : Checked Value := match given.find? name, presence with
      | none, .required => .error [.record given]
      | none, .defaulting v => .ok v
      | none, .optional => .ok .null
      | some .null, .optional => .ok .null
      | some v, _ => shape.conform v
    Checked.both (fun v fs => if v.isNull then fs else (name, v) :: fs) field (rest.conform given)

end

/-- A layout of fields in order. -/
def Layout.ofList : List (String × Presence × Shape) → Layout
  | [] => .nil
  | (name, presence, shape) :: rest => .cons name presence shape (ofList rest)

end Tariff.Service
