import Tariff.Console.Check
import Tariff.Console.Explain
import Tariff.Console.Price
import Tariff.Console.Serve

/-!
# The command line

The first argument names a command, the others are handed to it. The files that it may look at are
read before it runs, and the files that it has written are written after it; all paths are relative
to the directory where it starts. A program that a command would start is not started: its command
line is printed, and it counts as ended well.
-/

namespace Tariff.Console

/-- A command by its name. -/
def session? (name : String) (i : Invocation) : Option (Session Unit) :=
  match name with
  | "check" => some (check i)
  | "explain" => some (explain i)
  | "price" => some (price i)
  | "pipeline" => some (pipeline i)
  | "serve" => some (serve i)
  | "preview" => some (preview i)
  | _ => none

/-- The names of the commands. -/
def usage : String :=
  "tariff check | explain | price | pipeline | serve | preview [argument ...]"

/-- The variables of the environment that a command looks at. -/
def variableNames : List String :=
  [Settings.formulasDirVariable, Settings.depthVariable, Settings.logLevelVariable,
    "FORMULA_PRICING_HOST", "FORMULA_PRICING_PORT", "PYTHONPATH"]

/-- The environment of a command. -/
def environment : IO (OrderedMap String) := do
  let mut env := []
  for name in variableNames do
    if let some value ← IO.getEnv name then env := env ++ [(name, value)]
  return env

/-- Reads the file at a path, if there is one. -/
def readEntry? (path : String) : IO (Option Entry) := do
  let place := (← IO.currentDir) / path
  if ← place.isDir then return some (.directory [])
  if ← place.pathExists then return some (.file (← IO.FS.readBinFile place).toList)
  return none

/-- Reads a directory and the files in it. -/
def readDirectory? (path : String) : IO (Option Entry) := do
  let place := (← IO.currentDir) / path
  if !(← place.isDir) then return none
  let mut entries := []
  for found in ← place.readDir do
    if let some e ← readEntry? (path ++ "/" ++ found.fileName) then
      entries := entries ++ [(found.fileName, e)]
  return some (.directory entries)

/-- Reads what the arguments of a command may name, and the definitions. -/
def readPlace (i : Invocation) (formulasDir : Path) : IO Entry := do
  let mut place : Entry := .directory []
  for argument in i.args do
    let path := Path.ofText argument
    if path.root.isEmpty then
      for p in [path.parent, path] do
        if let some e ← readEntry? p.text then
          if !p.names.isEmpty then place := place.put p.names e
  if let some e ← readDirectory? formulasDir.text then
    place := place.put formulasDir.names e
  return place

/-- Runs a command and tells how it ended. -/
def runCommand (session : Session Unit) (place : Entry) : IO UInt32 := do
  let o := session.run place (.returned 0)
  IO.print o.state.printed
  for l in o.state.launches do
    IO.println (" ".intercalate l.command)
  for path in o.state.written do
    if let .ok octets := o.state.place.read path then
      IO.FS.writeBinFile path.text ⟨octets.toArray⟩
  match o.failure? with
  | some f =>
    IO.eprintln f.message
    return 1
  | none => return UInt32.ofNat (o.code.emod 256).toNat

end Tariff.Console

open Tariff Tariff.Console in
/-- The command line. -/
def main (args : List String) : IO UInt32 := do
  let env ← environment
  let formulasDir :=
    match (env.find? Settings.formulasDirVariable).filter (!·.isEmpty) with
    | some path => Path.ofText path
    | none => Path.ofText "formulas"
  let i : Invocation := ⟨⟨"python3", ".", formulasDir⟩, env, args.drop 1⟩
  match session? (args.headD "") i with
  | some session => runCommand session (← readPlace i formulasDir)
  | none =>
    IO.eprintln usage
    return 1
