import Tariff.Batch
import Tariff.Catalog.Check
import Tariff.Csv.Reader
import Tariff.Settings

/-!
# Sessions at the console

A session is what a command does in the sight of its user: what it prints, the files that it
changes, and the programs that it starts. It goes on until the command returns, until it exits with
a code, or until it fails.
-/

namespace Tariff.Console

/-- A program that a command starts. -/
structure Launch where
  /-- The program and its arguments. -/
  command : List String
  /-- The directory that it starts in. -/
  directory : String
  /-- Where it looks for modules, if that is said. -/
  searchPath? : Option String
  deriving DecidableEq, Repr

/-- How a program that was started ends. -/
inductive LaunchEnd where
  /-- It returns a code, a negative one if a signal ends it. -/
  | returned (code : Int)
  /-- The user interrupts it. -/
  | interrupted
  deriving DecidableEq, Repr

/-- Why a command fails. -/
inductive Failure where
  /-- The settings cannot be read. -/
  | settings (fault : SettingsFault)
  /-- No level of logging has this name. -/
  | unknownLevel (name : String)
  /-- A definition ends the listing of the catalog. -/
  | listing (fault : LoadFault)
  /-- A unit has no length. -/
  | unit (fault : UnmeasuredUnit)
  /-- The answers are not JSON. -/
  | malformedAnswers (fault : Json.Fault)
  /-- The answers are a value that has no answers in it. -/
  | unfitAnswers (found : Value)
  /-- A price, or a number on the way to it, has more digits than are written. -/
  | longPrice
  /-- No level is left on the call stack. -/
  | stack
  /-- A path has no last name that could be changed. -/
  | namelessPath (path : Path)
  /-- A file cannot be opened. -/
  | file (fault : FileFault)
  /-- A file is not text. -/
  | undecodable (fault : Text.Utf8.Fault)
  /-- A text is no table. -/
  | table (fault : Csv.Fault)
  /-- A directory to write to is missing. -/
  | missingDirectory (path : Path)
  /-- Nothing separates the options of a cell. -/
  | emptySeparator
  /-- The user interrupts a program that was started. -/
  | interrupted
  deriving Repr

/-- The failure in words. -/
def Failure.message : Failure → String
  | settings fault => fault.message
  | unknownLevel name => "Unknown level: " ++ Text.quoted name
  | listing fault => fault.message
  | unit _ => ""
  | malformedAnswers fault => fault.message
  | unfitAnswers _ => ""
  | longPrice => PricingFault.longPrice.message
  | stack => stackMessage
  | namelessPath path => "PosixPath(" ++ Text.quoted path.text ++ ") has an empty name"
  | file fault => fault.message
  | undecodable fault => fault.message
  | table fault => fault.message
  | missingDirectory path =>
    "Cannot save file into a non-existent directory: '" ++ path.text ++ "'"
  | emptySeparator => BatchFault.emptySeparator.message
  | interrupted => ""

/-- What ends a session early. -/
inductive Stop where
  /-- The command exits with a code. -/
  | exit (code : Int)
  /-- The command fails. -/
  | failure (f : Failure)
  deriving Repr

/-- What a command has done so far, and how a program that it starts will end. -/
structure State where
  /-- What has been printed. -/
  printed : String
  /-- The files and directories. -/
  place : Entry
  /-- The files that have been written. -/
  written : List Path
  /-- The programs that have been started. -/
  launches : List Launch
  /-- How the next program will end. -/
  launchEnd : LaunchEnd
  deriving Repr

/-- What a command does in the sight of its user. -/
abbrev Session := ExceptT Stop (StateM State)

/-- Prints a line. -/
def say (line : String) : Session Unit :=
  modify fun s => { s with printed := s.printed ++ line ++ "\n" }

/-- Prints lines. -/
def sayAll (lines : List String) : Session Unit :=
  lines.forM say

/-- Exits with a code. -/
def exit {α : Type} (code : Int) : Session α :=
  throw (.exit code)

/-- Goes on with a result, or fails. -/
def orFail {α ε : Type} (failure : ε → Failure) : Except ε α → Session α
  | .ok a => pure a
  | .error e => throw (.failure (failure e))

/-- Starts a program. -/
def launch (l : Launch) : Session LaunchEnd := do
  modify fun s => { s with launches := s.launches ++ [l] }
  return (← get).launchEnd

/-- Where the parts of the program are installed. -/
structure Installation where
  /-- The interpreter of the programs that are started. -/
  interpreter : String
  /-- The root of the project. -/
  root : String
  /-- The directory of the definitions where none is set. -/
  formulasDir : Path
  deriving Repr

/-- What a command is started with. -/
structure Invocation where
  /-- Where the parts of the program are installed. -/
  installation : Installation
  /-- The environment. -/
  env : OrderedMap String
  /-- The arguments. -/
  args : List String
  deriving Repr

namespace Invocation

/-- The settings. -/
def settings (i : Invocation) : Session Settings :=
  orFail .settings (Settings.load (Path.ofText i.installation.root) i.env)

/-- The catalog that the settings name. -/
def catalog (i : Invocation) (s : Settings) : Session Catalog := do
  return .below (← get).place (s.formulasDir?.getD i.installation.formulasDir)

/-- The formula with an id; the command exits if there is none. -/
def formula (i : Invocation) (s : Settings) (id : String) : Session Formula := do
  let c ← i.catalog s
  match ← orFail .listing (c.formula? id) with
  | some f => return f
  | none =>
    say ("❌ " ++ missingFormulaMessage id ++ " in " ++ c.path.text)
    exit 1

end Invocation

/-- What a session comes to. -/
structure Outcome where
  /-- The code that the command exits with. -/
  code : Int
  /-- The failure that ended it. -/
  failure? : Option Failure
  /-- What was done. -/
  state : State
  deriving Repr

/-- Runs a session from some files. -/
def Session.run (session : Session Unit) (place : Entry) (launchEnd : LaunchEnd) : Outcome :=
  match (ExceptT.run session).run ⟨"", place, [], [], launchEnd⟩ with
  | (.ok (), s) => ⟨0, none, s⟩
  | (.error (.exit code), s) => ⟨code, none, s⟩
  | (.error (.failure f), s) => ⟨0, some f, s⟩

end Tariff.Console
