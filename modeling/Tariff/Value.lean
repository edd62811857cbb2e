import Tariff.Number
import Tariff.OrderedMap
import Tariff.Text.Quoted

/-!
# Values

A `Value` is what a stored definition or an answer holds before it is given a meaning: nothing, a
truth value, a number, a text, a list, or a record of named values. `plain` and `quoted` write a
value; they differ only in whether a text on its own is put between quotes.
-/

namespace Tariff

/-- A value of a stored definition or an answer. -/
inductive Value where
  /-- No value. -/
  | null
  /-- A truth value. -/
  | bool (b : Bool)
  /-- A whole number of any size. -/
  | int (n : Int)
  /-- A binary64 number. -/
  | float (x : Binary64)
  /-- A text. -/
  | text (s : String)
  /-- Values in order. -/
  | list (items : List Value)
  /-- Named values in order. -/
  | record (fields : List (String × Value))
  deriving Inhabited, Repr

namespace Value

/-- A number as a value. -/
def ofNumber : Number → Value
  | .whole n => .int n
  | .real x => .float x

mutual

/-- The value with every text between quotes. -/
def quoted : Value → String
  | null => "None"
  | bool b => if b then "True" else "False"
  | int n => Numeral.integerText n
  | float x => x.text
  | text s => Text.quoted s
  | list items => "[" ++ quotedItems items ++ "]"
  | record fields => "\x7b" ++ quotedFields fields ++ "\x7d"

/-- The values of a list, quoted, with commas between them. -/
def quotedItems : List Value → String
  | [] => ""
  | [v] => quoted v
  | v :: vs => quoted v ++ ", " ++ quotedItems vs

/-- The fields of a record, quoted, with commas between them. -/
def quotedFields : List (String × Value) → String
  | [] => ""
  | [(k, v)] => Text.quoted k ++ ": " ++ quoted v
  | (k, v) :: rest => Text.quoted k ++ ": " ++ quoted v ++ ", " ++ quotedFields rest

end

/-- The value as it reads in a sentence: a text as it is, all else quoted. -/
def plain : Value → String
  | text s => s
  | v => v.quoted

/-- Whether there is no value. -/
def isNull : Value → Bool
  | null => true
  | _ => false

/-- Whether the value says nothing: no value, false, zero, or an empty text, list or record. -/
def isVoid : Value → Bool
  | null => true
  | bool b => !b
  | int n => n == 0
  | float x => x.isZero
  | text s => s.isEmpty
  | list items => items.isEmpty
  | record fields => fields.isEmpty

/-- Whether the value is missing or an empty text. -/
def isMissing : Value → Bool
  | null => true
  | text s => s.isEmpty
  | _ => false

/-- The value as it reads in a sentence; nothing for a value that says nothing. -/
def plainOrEmpty (v : Value) : String :=
  if v.isVoid then "" else v.plain

/-- The value unless it says nothing. -/
def given? (v : Value) : Option Value :=
  if v.isVoid then none else some v

/-- The word for the sort of value in messages. -/
def typeName : Value → String
  | null => "NoneType"
  | bool _ => "bool"
  | int _ => "int"
  | float _ => "float"
  | text _ => "str"
  | list _ => "list"
  | record _ => "dict"

end Value

end Tariff
