import Tariff.Text.Split

/-!
# Paths

A path is a row of names, below a root or relative to where one stands. Empty names and names of
the same place (`.`) are left out when a path is read, so `a//b/./c/` is written `a/b/c`.
-/

namespace Tariff

/-- The place of a file or a directory. -/
structure Path where
  /-- The root: nothing for a relative path. -/
  root : String
  /-- The names from the root on. -/
  names : List String
  deriving DecidableEq, Repr, Inhabited

namespace Path

/-- The root of a path as it is written. Two slashes at the start are a root of their own. -/
def rootOf : List Char → String
  | '/' :: '/' :: '/' :: _ => "/"
  | '/' :: '/' :: _ => "//"
  | '/' :: _ => "/"
  | _ => ""

/-- The names between the slashes of a text. -/
def namesOf (s : String) : List String :=
  ((Text.Separator.split ⟨'/', []⟩ s.toList).map String.ofList).filter fun name =>
    !name.isEmpty && name != "."

/-- The path that a text spells. -/
def ofText (s : String) : Path := ⟨rootOf s.toList, namesOf s⟩

/-- The path as it is written. -/
def text (p : Path) : String :=
  if p.root.isEmpty && p.names.isEmpty then "." else p.root ++ "/".intercalate p.names

/-- The place of a name in a directory. -/
def join (p : Path) (name : String) : Path := { p with names := p.names ++ [name] }

/-- The directory that a path is in. -/
def parent (p : Path) : Path := { p with names := p.names.dropLast }

/-- The last name, if there is one. -/
def name? (p : Path) : Option String := p.names.getLast?

/-- A name without its last extension. A point at either end of a name starts none. -/
def stemOf (name : String) : String :=
  let cs := name.toList
  let extension := cs.reverse.takeWhile (· != '.')
  let before := cs.length - extension.length - 1
  if 0 < before && !extension.isEmpty then String.ofList (cs.take before) else name

/-- The path with another last name. -/
def withName (p : Path) (name : String) : Path := p.parent.join name

end Path

end Tariff
