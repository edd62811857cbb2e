import Tariff.OrderedMap
import Tariff.Path
import Tariff.Text.Quoted

/-!
# File trees

Files and directories below one place. A path is followed name by name; what stops it on the way
is told apart.
-/

namespace Tariff

/-- A file or a directory. -/
inductive Entry where
  /-- A file and its octets. -/
  | file (octets : List UInt8)
  /-- A directory and what it holds. -/
  | directory (entries : List (String × Entry))
  deriving Repr, Inhabited

/-- Why a path does not lead to a file. -/
inductive FileFault.Cause where
  /-- There is nothing at the path. -/
  | missing
  /-- There is a file where a directory is needed. -/
  | notADirectory
  /-- There is a directory where a file is needed. -/
  | isADirectory
  deriving DecidableEq, Repr

/-- A path that does not lead to a file. -/
structure FileFault where
  /-- Why it does not. -/
  cause : FileFault.Cause
  /-- The path. -/
  path : Path
  deriving DecidableEq, Repr

/-- The cause in words. -/
def FileFault.Cause.message : FileFault.Cause → String
  | missing => "[Errno 2] No such file or directory"
  | notADirectory => "[Errno 20] Not a directory"
  | isADirectory => "[Errno 21] Is a directory"

/-- The fault in words. -/
def FileFault.message (f : FileFault) : String :=
  f.cause.message ++ ": " ++ Text.quoted f.path.text

namespace Entry

open FileFault (Cause)

/-- What is at the end of a row of names. -/
def follow : Entry → List String → Except Cause Entry
  | e, [] => .ok e
  | file _, _ :: _ => .error .notADirectory
  | directory entries, name :: names =>
    match entries.lookup name with
    | none => .error .missing
    | some e => e.follow names

/-- The octets of a file. -/
def octets : Entry → Except Cause (List UInt8)
  | file bs => .ok bs
  | directory _ => .error .isADirectory

/-- The entry with a file written at the end of a row of names. -/
def write (bs : List UInt8) : Entry → List String → Except Cause Entry
  | directory entries, [name] =>
    match entries.lookup name with
    | some (directory _) => .error .isADirectory
    | _ => .ok (directory (OrderedMap.insert entries name (file bs)))
  | directory entries, name :: names =>
    match entries.lookup name with
    | none => .error .missing
    | some e => (e.write bs names).map fun e => directory (OrderedMap.insert entries name e)
  | file _, _ :: _ => .error .notADirectory
  | _, [] => .error .isADirectory

/-- The entry with another one put at the end of a row of names, below directories where there are
none yet. -/
def put : Entry → List String → Entry → Entry
  | _, [], found => found
  | directory entries, name :: names, found =>
    directory (OrderedMap.insert entries name
      (put ((entries.lookup name).getD (directory [])) names found))
  | file _, name :: names, found => directory [(name, put (directory []) names found)]

/-- The entry without the file at the end of a row of names. -/
def erase : Entry → List String → Except Cause Entry
  | directory entries, [name] =>
    match entries.lookup name with
    | none => .error .missing
    | some (directory _) => .error .isADirectory
    | some (file _) => .ok (directory (entries.filter (·.1 != name)))
  | directory entries, name :: names =>
    match entries.lookup name with
    | none => .error .missing
    | some e => (e.erase names).map fun e => directory (OrderedMap.insert entries name e)
  | file _, _ :: _ => .error .notADirectory
  | _, [] => .error .isADirectory

/-- What is at a path below this place; a path from a root leads elsewhere. -/
def follow? (e : Entry) (p : Path) : Except FileFault Entry :=
  if p.root.isEmpty then (e.follow p.names).mapError (⟨·, p⟩) else .error ⟨.missing, p⟩

/-- The octets of the file at a path. -/
def read (e : Entry) (p : Path) : Except FileFault (List UInt8) := do
  ((← e.follow? p).octets).mapError (⟨·, p⟩)

/-- The entry with a file written at a path. -/
def writeFile (e : Entry) (p : Path) (bs : List UInt8) : Except FileFault Entry :=
  if p.root.isEmpty then (e.write bs p.names).mapError (⟨·, p⟩) else .error ⟨.missing, p⟩

/-- The entry without the file at a path. -/
def eraseFile (e : Entry) (p : Path) : Except FileFault Entry :=
  (e.erase p.names).mapError (⟨·, p⟩)

/-- Whether there is a directory at a path. -/
def hasDirectory (e : Entry) (p : Path) : Bool :=
  match e.follow? p with
  | .ok (directory _) => true
  | _ => false

end Entry

end Tariff
