import Tariff.Answer
import Tariff.Definition
import Tariff.FileTree
import Tariff.Json.Reader
import Tariff.Text.Line
import Tariff.Text.Utf8
import Tariff.Validation

/-!
# Catalogs

A catalog is a directory of definitions, one formula a file. A listing loads every file whose name
ends in `.json`, in the order of the names. A file that holds no definition is skipped and kept
with its fault; a few faults are no matter of one file and end the listing.
-/

namespace Tariff

/-- Why a file gives no formula. -/
inductive LoadFault where
  /-- The file cannot be opened. -/
  | unreadable (fault : FileFault)
  /-- The file is not text. -/
  | undecodable (fault : Text.Utf8.Fault)
  /-- The text is not JSON. -/
  | malformed (fault : Json.Fault)
  /-- The value is not a definition. -/
  | unfit (fault : Definition.Fault)
  deriving Repr

namespace LoadFault

/-- The fault in words. -/
def message : LoadFault → String
  | unreadable fault => fault.message
  | undecodable fault => fault.message
  | malformed fault => fault.message
  | unfit fault => fault.message

/-- Whether a listing goes on without the file. It does not where a record is needed and there is
none, where a price bound is infinite, or where lists and records are nested too deep. -/
def isSkipped : LoadFault → Bool
  | unfit (.notARecord _) | unfit .infiniteBound | malformed (.tooDeep _) => false
  | _ => true

end LoadFault

/-- The formula in the value of a file. A formula without an id takes the name of its file for one.
-/
def definitionIn (name : String) (value : Value) : Except Definition.Fault Formula := do
  let fields ← Definition.fields value
  let named :=
    if (Definition.field fields "id").isVoid then
      .record (fields.insert "id" (.text (Path.stemOf name)))
    else value
  Formula.ofValue named

/-- Reads the definition in a file, with at most `levels` lists and records open at once. Something
stands for half of a character. -/
def readDefinition (name : String) (octets : List UInt8) (levels : Nat) (half : Char) :
    Except LoadFault Formula := do
  let cs ← (Text.Utf8.decode octets).mapError .undecodable
  let value ← (Json.read (Text.plainLines cs) levels half).mapError .malformed
  (definitionIn name value).mapError .unfit

/-- A directory of definitions. -/
structure Catalog where
  /-- Where it is. -/
  path : Path
  /-- What it holds; nothing if there is no such directory. -/
  entries? : Option (OrderedMap Entry)
  /-- How many lists and records may be open at once while a definition is read. -/
  levels : Nat := defaultLevels
  /-- What stands for half of a character in a definition. -/
  half : Char := Json.defaultHalf
  deriving Repr

/-- What a listing of a catalog finds. -/
structure Listing where
  /-- The formulas, in the order of their files. -/
  formulas : List Formula
  /-- The files that are skipped. -/
  skipped : OrderedMap LoadFault
  /-- What ended the listing before its end. -/
  stopped? : Option LoadFault
  deriving Repr

namespace Listing

/-- The formulas, if the listing came to its end. -/
def result (l : Listing) : Except LoadFault (List Formula) :=
  match l.stopped? with
  | none => .ok l.formulas
  | some fault => .error fault

/-- A listing that found one more file before all else. -/
def prepend (name : String) (found : Except LoadFault Formula) (rest : Listing) : Listing :=
  match found with
  | .ok f => { rest with formulas := f :: rest.formulas }
  | .error fault =>
    if fault.isSkipped then { rest with skipped := (name, fault) :: rest.skipped }
    else ⟨[], [], some fault⟩

end Listing

namespace Catalog

/-- The catalog at a path below some place. A file in its place holds no definitions. -/
def below (place : Entry) (path : Path) : Catalog where
  path := path
  entries? :=
    match place.follow? path with
    | .ok (.directory entries) => some entries
    | .ok (.file _) => some []
    | .error _ => none

/-- Loads the file of a name. -/
def load (c : Catalog) (name : String) : Except LoadFault Formula := do
  let path := c.path.join name
  let octets ← match (c.entries?.getD []).lookup name with
    | none => throw (.unreadable ⟨.missing, path⟩)
    | some e => e.octets.mapError fun cause => .unreadable ⟨cause, path⟩
  readDefinition name octets c.levels c.half

/-- Whether a name is that of a definition. -/
def isDefinitionName (name : String) : Bool :=
  ".json".toList.isSuffixOf name.toList

/-- The names of the definitions, in order. -/
def names (c : Catalog) : List String :=
  Answer.sortTexts (((c.entries?.getD []).map (·.1)).filter isDefinitionName)

/-- Loads all definitions. -/
def list (c : Catalog) : Listing :=
  c.names.foldr (fun name rest => rest.prepend name (c.load name)) ⟨[], [], none⟩

/-- The formula with an id: the first in the order of the files. -/
def formula? (c : Catalog) (id : String) : Except LoadFault (Option Formula) :=
  c.list.result.map (·.find? (·.id == id))

end Catalog

/-- An id for a new variable, different from those of the formula it is for. -/
def suggestVariableId (name : String) (f? : Option Formula) (slugLimit : Int) : String :=
  let taken := (f?.map fun f => f.questions.map (·.id)).getD []
  Identifier.forVariable name taken.length taken slugLimit

/-- The formula that is missing, in words. -/
def missingFormulaMessage (id : String) : String :=
  "Formula '" ++ id ++ "' not found"

/-- What can be counted in a catalog. -/
structure CatalogStats where
  /-- How many formulas there are. -/
  total : Nat
  /-- How many variables they have. -/
  questions : Nat
  /-- How many variables of each kind there are. -/
  byKind : OrderedMap Nat
  /-- How many variables a rule may hide. -/
  conditional : Nat
  /-- The ids of the formulas with errors. -/
  invalid : List String
  /-- The files that were skipped. -/
  skipped : OrderedMap LoadFault
  deriving Repr

namespace Listing

/-- Counts what a listing found. -/
def stats (l : Listing) (unitLimit : Int) : Except UnmeasuredUnit CatalogStats := do
  let questions := l.formulas.flatMap (·.questions)
  let kinds := questions.map (·.kind.name)
  let invalid ← l.formulas.filterM fun f => do return !(← f.validate unitLimit).valid
  return {
    total := l.formulas.length
    questions := questions.length
    byKind := kinds.eraseDups.map fun kind => (kind, kinds.count kind)
    conditional := questions.countP (·.isConditional)
    invalid := invalid.map (·.id)
    skipped := l.skipped }

end Listing

end Tariff
