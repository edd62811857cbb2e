import Tariff.Numeral.Digits

/-!
# Reading comma-separated records

A record is a line of fields with commas between them. A field between double quotes may hold
commas and ends of line, and a quote in it is written twice. A line of blanks is no record.
-/

namespace Tariff.Csv

/-- A record and the line it is on, counted from one over all ends of line outside of quotes. -/
structure Record where
  /-- The line. -/
  line : Nat
  /-- The fields. -/
  fields : List String
  deriving DecidableEq, Repr

/-- Where the reader stands in a record. -/
inductive Stage where
  /-- At the start. -/
  | start
  /-- After nothing but blanks. -/
  | blank
  /-- At the start of a field. -/
  | field
  /-- In a field, outside of quotes. -/
  | plain
  /-- Between quotes. -/
  | quoted
  /-- After a quote that closes a field, unless another one follows. -/
  | closing
  /-- At the start, after a carriage return. -/
  | returned
  deriving DecidableEq, Repr

/-- What the reader has read; the latest comes first everywhere. -/
structure Progress where
  /-- Where the reader stands. -/
  stage : Stage
  /-- The characters of the field. -/
  field : List Char
  /-- The fields before it in the record. -/
  fields : List String
  /-- The records before it. -/
  records : List Record
  /-- How many lines have ended. -/
  lines : Nat
  deriving Repr

namespace Progress

/-- Nothing is read yet. -/
def initial : Progress := ⟨.start, [], [], [], 0⟩

/-- One more character of a field. -/
def push (p : Progress) (stage : Stage) (c : Char) : Progress :=
  { p with stage, field := c :: p.field }

/-- The field is over. -/
def endField (p : Progress) : Progress :=
  { p with stage := .field, field := [], fields := String.ofList p.field.reverse :: p.fields }

/-- The record is over. -/
def endRecord (p : Progress) (stage : Stage) : Progress :=
  let done := p.endField
  { stage, field := [], fields := [], lines := p.lines + 1,
    records := ⟨p.lines + 1, done.fields.reverse⟩ :: p.records }

/-- A line without a record is over. -/
def skipLine (p : Progress) (stage : Stage) : Progress :=
  { p with stage, field := [], lines := p.lines + 1 }

/-- A character at the start of a field. -/
def atField (p : Progress) (c : Char) : Progress :=
  if c = '\n' then p.endRecord .start
  else if c = '\r' then p.endRecord .returned
  else if c = '"' then { p with stage := .quoted }
  else if c = ',' then p.endField
  else p.push .plain c

/-- A character in a field, outside of quotes. -/
def inField (p : Progress) (c : Char) : Progress :=
  if c = '\n' then p.endRecord .start
  else if c = '\r' then p.endRecord .returned
  else if c = ',' then p.endField
  else p.push .plain c

/-- A character at the start of a record. -/
def atStart (p : Progress) (c : Char) : Progress :=
  if c = '\n' then p.skipLine .start
  else if c = '\r' then p.skipLine .returned
  else if c = ' ' ∨ c = '\t' then p.push .blank c
  else p.atField c

/-- A character after nothing but blanks. They belong to the field if anything follows them. -/
def afterBlanks (p : Progress) (c : Char) : Progress :=
  if c = '\n' then p.skipLine .start
  else if c = '\r' then p.skipLine .returned
  else if c = ' ' ∨ c = '\t' then p.push .blank c
  else p.inField c

/-- What is read after one more character. -/
def step (p : Progress) (c : Char) : Progress :=
  match p.stage with
  | .start => p.atStart c
  | .blank => p.afterBlanks c
  | .field => p.atField c
  | .plain => p.inField c
  | .quoted => if c = '"' then { p with stage := .closing } else p.push .quoted c
  | .closing => if c = '"' then p.push .quoted c else p.inField c
  | .returned => if c = '\n' then { p with stage := .start } else p.atStart c

/-- What is read at the end of the text. -/
def finish (p : Progress) : Progress :=
  match p.stage with
  | .start | .blank | .returned | .quoted => p
  | .field | .plain | .closing => p.endRecord .start

end Progress

/-- Why a text is no table. -/
inductive Fault where
  /-- There is no record. -/
  | noColumns
  /-- A record has more fields than the one before it. -/
  | tooManyFields (expected line found : Nat)
  /-- The text ends between quotes, in the record after some lines. -/
  | openQuote (lines : Nat)
  deriving DecidableEq, Repr

/-- The fault in words. -/
def Fault.message : Fault → String
  | noColumns => "No columns to parse from file"
  | tooManyFields expected line found =>
    "Error tokenizing data. C error: Expected " ++ toString expected ++ " fields in line "
      ++ toString line ++ ", saw " ++ toString found ++ "\n"
  | openQuote lines =>
    "Error tokenizing data. C error: EOF inside string starting at row " ++ toString lines

/-- All records of a text, and whether it ends between quotes after some lines. -/
def records (cs : List Char) : List Record × Option Nat :=
  let p := (cs.foldl Progress.step .initial).finish
  (p.records.reverse, if p.stage = .quoted then some p.lines else none)

/-- The first record with more fields than a width. -/
def wide? (width : Nat) (rs : List Record) : Option Record :=
  rs.find? fun r => width < r.fields.length

/-- The widest that a record may be: as wide as the first two. -/
def widthOf : List Record → Nat
  | [] => 0
  | [header] => header.fields.length
  | header :: first :: _ => max header.fields.length first.fields.length

/-- The records of a text, of which none after the first two is wider than these. A byte order mark
before them is left out. -/
def read (cs : List Char) : Except Fault (List Record) :=
  let text := if cs.head? = some '\ufeff' then cs.tail else cs
  let (rs, open?) := records text
  let width := widthOf rs
  match wide? width (rs.drop 2), open? with
  | some r, _ => .error (.tooManyFields width r.line r.fields.length)
  | none, some lines => .error (.openQuote lines)
  | none, none => if rs.isEmpty then .error .noColumns else .ok rs

end Tariff.Csv
