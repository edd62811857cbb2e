import Tariff.Console.Session

/-!
# The commands that start a server

`serve` starts the pricing service, and `preview` starts the page on which prices can be tried out.
Both end as the program does that they start.
-/

namespace Tariff.Console

/-- The application that serves prices. -/
def application : String := "formula_pricing.api.main:app"

/-- A place below the root of the project. -/
def Installation.placeOf (i : Installation) (names : List String) : String :=
  "/".intercalate (i.root :: names)

/-- The server as a program. -/
def serverCommand (i : Installation) (host port : String) (reload : Bool) : List String :=
  [i.interpreter, "-m", "uvicorn", application, "--host", host, "--port", port]
    ++ if reload then ["--reload", "--reload-dir", i.placeOf ["src"]] else []

/-- Ends as a program did; an interruption is a normal end. -/
def endAs (note : Option String) : LaunchEnd → Session Unit
  | .returned code => exit code
  | .interrupted => do
    sayAll note.toList
    exit 0

/-- Serves prices. -/
def serve (i : Invocation) : Session Unit := do
  let host := (i.env.find? "FORMULA_PRICING_HOST").getD "127.0.0.1"
  let port := (i.env.find? "FORMULA_PRICING_PORT").getD "8000"
  let sources := i.installation.placeOf ["src"]
  let searchPath :=
    match (i.env.find? "PYTHONPATH").filter (!·.isEmpty) with
    | some path => sources ++ ":" ++ path
    | none => sources
  say ("Serving " ++ application ++ " at http://" ++ host ++ ":" ++ port)
  let reload := !i.args.contains "--no-reload"
  endAs (some "\nAPI stopped.") (← launch
    ⟨serverCommand i.installation host port reload, i.installation.root, some searchPath⟩)

/-- Opens the page on which prices can be tried out. -/
def preview (i : Invocation) : Session Unit := do
  let page := i.installation.placeOf ["src", "formula_pricing", "ui", "app_streamlit.py"]
  let command := [i.installation.interpreter, "-m", "streamlit", "run", page] ++ i.args
  endAs none (← launch ⟨command, i.installation.root, none⟩)

end Tariff.Console
