import Runbook.Command.Desk

/-!
The command line: it takes the settings from the environment and from the file that holds more of
them, runs one command and prints what comes of it.
-/
namespace Runbook.Main

/-- The variables that hold settings, as far as they are set. -/
def readEnvironment : IO Environment :=
  Settings.names.filterMapM fun name => do
    let key := Settings.variableOf name
    return (← IO.getEnv key).map fun value => (key, value)

/-- A file of the working directory, if it can be read. -/
def readText? (path : String) : IO (Option String) := do
  try
    return some (← IO.FS.readFile path)
  catch _ =>
    return none

/-- The working directory as far as a command looks at it. -/
def readFolder (args : List String) : IO Folder := do
  let named := match CommandLine.read args with
    | .ok line => line.file.toList
    | .error _ => []
  (named ++ [".env"]).foldlM (fun folder path => do
    match ← readText? path with
    | some text => return folder.write path text
    | none => return folder) {}

end Runbook.Main

open Runbook in
/-- Runs a command. -/
def main (args : List String) : IO UInt32 := do
  let desk : Desk := { environment := ← Main.readEnvironment, folder := ← Main.readFolder args }
  let (outcome, _) := desk.run Clock.epoch args
  outcome.printed.forM IO.println
  if let some options := outcome.served then IO.println (Value.record options).json
  return outcome.exit.toUInt32
