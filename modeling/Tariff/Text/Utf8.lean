import Tariff.Text.Quoted

/-!
# UTF-8

Decoding of octets to characters. An octet that cannot start a character, one that cannot continue
it, and an end inside a character are told apart, and the octets at fault are counted.
-/

namespace Tariff.Text.Utf8

/-- Why octets are not UTF-8. -/
inductive Reason where
  /-- The octet starts no character. -/
  | invalidStart
  /-- The octet after the ones at fault does not continue their character. -/
  | invalidContinuation
  /-- The text ends inside a character. -/
  | unexpectedEnd
  deriving DecidableEq, Repr

/-- The octets at fault: the first of them, its place, and how many there are. -/
structure Fault where
  /-- Why they are refused. -/
  reason : Reason
  /-- The first octet at fault. -/
  octet : UInt8
  /-- Its place in the text. -/
  start : Nat
  /-- How many octets are at fault. -/
  count : Nat
  deriving DecidableEq, Repr

/-- The fault in words. -/
def Fault.message (f : Fault) : String :=
  let why := match f.reason with
    | .invalidStart => "invalid start byte"
    | .invalidContinuation => "invalid continuation byte"
    | .unexpectedEnd => "unexpected end of data"
  if f.count = 1 then
    "'utf-8' codec can't decode byte 0x" ++ String.ofList (hexDigits 2 f.octet.toNat)
      ++ " in position " ++ toString f.start ++ ": " ++ why
  else
    "'utf-8' codec can't decode bytes in position " ++ toString f.start ++ "-"
      ++ toString (f.start + f.count - 1) ++ ": " ++ why

/-- What the first octet of a character says: how many octets follow, the bits it carries, and
the range of the second octet. -/
def lead? (b : Nat) : Option (Nat × Nat × Nat × Nat) :=
  if b < 0x80 then some (0, b, 0x80, 0xBF)
  else if b < 0xC2 then none
  else if b < 0xE0 then some (1, b - 0xC0, 0x80, 0xBF)
  else if b = 0xE0 then some (2, 0, 0xA0, 0xBF)
  else if b = 0xED then some (2, 0xD, 0x80, 0x9F)
  else if b < 0xF0 then some (2, b - 0xE0, 0x80, 0xBF)
  else if b = 0xF0 then some (3, 0, 0x90, 0xBF)
  else if b < 0xF4 then some (3, b - 0xF0, 0x80, 0xBF)
  else if b = 0xF4 then some (3, 4, 0x80, 0x8F)
  else none

/-- Where the decoder stands inside a character: its first octet and place, the octets read, the
octets owed, the bits so far, and the range of the next octet. -/
structure Partial where
  /-- The first octet of the character. -/
  octet : UInt8
  /-- Its place. -/
  start : Nat
  /-- How many octets have been read. -/
  read : Nat
  /-- How many octets are still owed. -/
  owed : Nat
  /-- The bits read so far. -/
  bits : Nat
  /-- The least value of the next octet. -/
  low : Nat
  /-- The greatest value of the next octet. -/
  high : Nat

/-- The fault of a character that is broken off. -/
def Partial.fault (p : Partial) (reason : Reason) : Fault :=
  ⟨reason, p.octet, p.start, p.read⟩

/-- The characters of octets, from a place of the text on. -/
def decodeFrom (place : Nat) : Option Partial → List UInt8 → Except Fault (List Char)
  | none, [] => .ok []
  | some p, [] => .error (p.fault .unexpectedEnd)
  | none, b :: bs =>
    match lead? b.toNat with
    | none => .error ⟨.invalidStart, b, place, 1⟩
    | some (0, bits, _, _) => (decodeFrom (place + 1) none bs).map (Char.ofNat bits :: ·)
    | some (owed, bits, low, high) =>
      decodeFrom (place + 1) (some ⟨b, place, 1, owed, bits, low, high⟩) bs
  | some p, b :: bs =>
    let n := b.toNat
    if p.low ≤ n ∧ n ≤ p.high then
      let bits := p.bits * 64 + (n - 0x80)
      if p.owed ≤ 1 then (decodeFrom (place + 1) none bs).map (Char.ofNat bits :: ·)
      else
        let more :=
          { p with read := p.read + 1, owed := p.owed - 1, bits, low := 0x80, high := 0xBF }
        decodeFrom (place + 1) (some more) bs
    else .error (p.fault .invalidContinuation)

/-- The characters that octets spell. -/
def decode (bs : List UInt8) : Except Fault (List Char) :=
  decodeFrom 0 none bs

/-- The characters that octets spell, with U+FFFD in the place of octets at fault. At most `fuel`
faults are replaced. -/
def decodeReplacing (bs : List UInt8) : Nat → List Char
  | 0 => []
  | fuel + 1 =>
    match decode bs with
    | .ok cs => cs
    | .error f =>
      let before := (decode (bs.take f.start)).toOption.getD []
      before ++ '\ufffd' :: decodeReplacing (bs.drop (f.start + f.count)) fuel

end Tariff.Text.Utf8
