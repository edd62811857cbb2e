import Tariff.Text.Utf8

/-!
# Percent signs in addresses

A percent sign and two hexadecimal digits stand for an octet of UTF-8. A percent sign that no such
digits follow stands for itself.
-/

namespace Tariff.Text

/-- The octets of a text in which percent signs stand for octets. -/
def percentOctets : List Char → List UInt8
  | '%' :: a :: b :: cs =>
    match hexValue? a, hexValue? b with
    | some m, some n => UInt8.ofNat (16 * m + n) :: percentOctets cs
    | _, _ => 0x25 :: percentOctets (a :: b :: cs)
  | c :: cs => c.toString.toUTF8.toList ++ percentOctets cs
  | [] => []

/-- A text with the octets decoded that percent signs stand for. -/
def percentDecode (s : String) : String :=
  let octets := percentOctets s.toList
  String.ofList (Utf8.decodeReplacing octets (octets.length + 1))

end Tariff.Text
