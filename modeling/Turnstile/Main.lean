import Turnstile.Settings.CommandLine

/-!
The program. It reads the settings of a service from the command line, the environment and the routes file,
and says whether a service can be run with them.
-/

namespace Turnstile

/-- The variables of the options, as far as they are set. -/
def environment : IO (List (String × String)) :=
  Settings.choices.filterMapM fun c => do
    return (← IO.getEnv c.variableName).map fun value => (c.variableName, value)

/-- Reads the text of a file, or says why it can not be read. -/
def fileText (path : String) : IO (Except String String) := do
  try return .ok (← IO.FS.readFile path)
  catch fault => return .error (toString fault)

/-- The files that settings name. -/
def filesOf (s : Settings) : IO Settings.Files := do
  match s.routesFile with
  | some path =>
    let text ← fileText path
    return fun _ => text
  | none => return fun _ => .error "no file is named"

/-- Checks settings. -/
def checked (s : Settings) : IO UInt32 := do
  match s.check (← filesOf s) with
  | .ok _ =>
    IO.println ("ready to listen at " ++ s.address.text)
    return 0
  | .error (.failed failure) =>
    IO.eprintln failure.message
    return 1
  | .error (.broke why) =>
    IO.eprintln why.message
    return 1

end Turnstile

open Turnstile in
def main (arguments : List String) : IO UInt32 := do
  match Settings.read arguments (← environment) with
  | .ok settings => checked settings
  | .error fault =>
    if fault.isAnswer then
      IO.print fault.message
      return 0
    else
      IO.eprint fault.message
      return 2
