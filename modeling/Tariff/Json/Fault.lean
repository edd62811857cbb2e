import Tariff.Text.Line
import Tariff.Numeral.Digits
import Tariff.Stack

/-!
# Faults of JSON texts

What a reader of JSON expected, the place where it expected it, and the words for both.
-/

namespace Tariff.Json

/-- What is wrong at a place of a JSON text. -/
inductive Reason where
  /-- The text starts with a byte order mark. -/
  | byteOrderMark
  /-- Something follows the value. -/
  | extraData
  /-- A value should start here. -/
  | expectedValue
  /-- A name between double quotes should start here. -/
  | expectedName
  /-- A colon should stand between a name and its value. -/
  | expectedColon
  /-- A comma should stand between two members. -/
  | expectedComma
  /-- The text that starts here does not end. -/
  | unterminatedText
  /-- A control character stands in a text. -/
  | controlCharacter
  /-- A backslash starts no known escape. -/
  | unknownEscape
  /-- An escape lacks its four hexadecimal digits. -/
  | unicodeEscape
  deriving DecidableEq, Repr

/-- The reason in words. -/
def Reason.message : Reason → String
  | .byteOrderMark => "Unexpected UTF-8 BOM (decode using utf-8-sig)"
  | .extraData => "Extra data"
  | .expectedValue => "Expecting value"
  | .expectedName => "Expecting property name enclosed in double quotes"
  | .expectedColon => "Expecting ':' delimiter"
  | .expectedComma => "Expecting ',' delimiter"
  | .unterminatedText => "Unterminated string starting at"
  | .controlCharacter => "Invalid control character at"
  | .unknownEscape => "Invalid \\escape"
  | .unicodeEscape => "Invalid \\uXXXX escape"

/-- Why a text is not read as JSON. -/
inductive Fault where
  /-- The text is not JSON: the reason, the place, and its line and column. -/
  | malformed (reason : Reason) (place line column : Nat)
  /-- An integer has more digits than are read. -/
  | longInteger (digits : Nat)
  /-- A list or a record stands deeper than is read. -/
  | tooDeep (record : Bool)
  deriving DecidableEq, Repr

/-- The most digits of an integer that are read or written. -/
def maxIntegerDigits : Nat := 4300

/-- The words for an integer that is too long to read. -/
def longIntegerMessage (digits : Nat) : String :=
  "Exceeds the limit (4300 digits) for integer string conversion: value has " ++ toString digits
    ++ " digits; use sys.set_int_max_str_digits() to increase the limit"

/-- The words for an integer that is too long to write. -/
def longNumberMessage : String :=
  "Exceeds the limit (4300 digits) for integer string conversion; "
    ++ "use sys.set_int_max_str_digits() to increase the limit"

/-- The fault in words. -/
def Fault.message : Fault → String
  | .malformed reason place line column =>
    reason.message ++ ": line " ++ toString line ++ " column " ++ toString column
      ++ " (char " ++ toString place ++ ")"
  | .longInteger digits => longIntegerMessage digits
  | .tooDeep record =>
    stackMessage ++ " while decoding a JSON " ++ (if record then "object" else "array")
      ++ " from a unicode string"

end Tariff.Json
