import Runbook.Command.Arguments
import Runbook.Settings.Basic

/-!
The command line of the service: options that change settings, and the command with its own
options.
-/
namespace Runbook

inductive DatabaseTask where
  | init | migrate | reset
  deriving DecidableEq, Repr

inductive DelaysTask where
  | list
  /-- With the seconds to wait for each execution, if there is a limit. -/
  | resume (timeout : Option Float)

inductive SettingsTask where
  | show | validate
  deriving DecidableEq, Repr

/-- What is to be done. Some commands need a further word to say what; without it they are
incomplete. -/
inductive Command where
  | run
  | database (task : Option DatabaseTask)
  | delays (task : Option DelaysTask)
  | health (detailed : Bool)
  | settings (task : Option SettingsTask)

/-- A whole command line. -/
structure CommandLine where
  /-- The preset that takes the place of the environment. -/
  preset : Option String := none
  /-- The file to load into the environment. -/
  file : Option String := none
  /-- Settings that win over all others. -/
  overrides : Dict := []
  command : Command := .run

namespace CommandLine

open Arguments

/-- The whole number that a text spells. -/
def whole? (s : String) : Option Int :=
  let cs := Text.trimOf Text.isBlank s.toList
  if cs.length > 4300 then none else Decimal.readWhole cs

def isWhole (s : String) : Bool := (whole? s).isSome

def isNumber (s : String) : Bool := (Decimal.read s).isSome

def anyText (_ : String) : Bool := true

def oneOf (choices : List String) (s : String) : Bool := choices.contains s

/-- A word that nothing follows. -/
def last : Grammar := .mk [] []

def grammar : Grammar :=
  .mk [
      { name := "--host", accepts := some anyText },
      { name := "--port", accepts := some isWhole },
      { name := "--reload" },
      { name := "--env", accepts := some (oneOf ["development", "production", "testing"]) },
      { name := "--config", accepts := some anyText },
      { name := "--database-url", accepts := some anyText },
      { name := "--log-level", accepts := some (oneOf (Level.all.map (·.name))) },
      { name := "--log-file", accepts := some anyText },
      { name := "--debug" },
      { name := "--max-concurrent-executions", accepts := some isWhole }]
    [("run", last),
      ("db", .mk [] [("init", last), ("migrate", last), ("reset", last)]),
      ("delays", .mk [] [("list", last),
        ("resume", .mk [{ name := "--timeout", accepts := some isNumber }] [])]),
      ("health", .mk [{ name := "--detailed" }] []),
      ("config", .mk [] [("show", last), ("validate", last)])]

/-- The command that the words stand for. -/
def commandOf (g : Given) : Command :=
  match g.words with
  | "db" :: rest => .database (match rest with
      | ["init"] => some .init
      | ["migrate"] => some .migrate
      | ["reset"] => some .reset
      | _ => none)
  | "delays" :: rest => .delays (match rest with
      | ["list"] => some .list
      | ["resume"] => some (.resume ((g.value? "--timeout").bind Decimal.read))
      | _ => none)
  | "health" :: _ => .health (g.has "--detailed")
  | "config" :: rest => .settings (match rest with
      | ["show"] => some .show
      | ["validate"] => some .validate
      | _ => none)
  | _ => .run

/-- The settings that the options ask for. Empty texts and zeros ask for nothing. -/
def overridesOf (g : Given) : Dict :=
  let text (name : String) : Value := .ofText? (g.value? name)
  let whole (name : String) : Value := match (g.value? name).bind whole? with
    | some n => .int n
    | none => .null
  let switch (name : String) : Value := .bool (g.has name)
  let wanted : List (String × Value) := [
    ("host", text "--host"), ("port", whole "--port"), ("reload", switch "--reload"),
    ("database_url", text "--database-url"), ("log_level", text "--log-level"),
    ("log_file", text "--log-file"), ("debug", switch "--debug"),
    ("max_concurrent_executions", whole "--max-concurrent-executions")]
  (wanted.filter (·.2.isTruthy)).map fun (k, v) => (.text k, v)

/-- Reads the arguments of a command. -/
def read (args : List String) : Except Stop CommandLine := do
  let g ← Arguments.read grammar args
  return {
    preset := g.value? "--env", file := g.value? "--config", overrides := overridesOf g
    command := commandOf g }

end CommandLine

end Runbook
