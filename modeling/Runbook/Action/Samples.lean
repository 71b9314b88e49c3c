import Runbook.Action.Registry

/-!
Small handlers for trying out workflows: a counter, an action that fails, one that answers a given
summary, and ones that cancel or start executions.
-/
namespace Runbook.Action.Samples

/-- A configured value that must be there. -/
def configured (config : Dict) (name : String) : Script Value :=
  match Dict.get? config name with
  | some v => .done v
  | none => .fail (.missingKey (.text name))

/-- One more than a value. -/
def increased : Value → Except Failure Value
  | .bool b => .ok (.int (if b then 2 else 1))
  | .int n => .ok (.int (n + 1))
  | .float x => .ok (.float (x + 1.0))
  | v@(.text _) | v@(.list _) =>
    let kind := Http.kindName v
    .error (.plain .type ("can only concatenate " ++ kind ++ " (not \"int\") to " ++ kind))
  | v => .error (.plain .type
      ("unsupported operand type(s) for +: '" ++ Http.kindName v ++ "' and 'int'"))

/-- Adds one to the variable named in the configuration, which starts from zero. -/
def increment : Handler := fun config caller => do
  let key ← Script.ofExcept (Builtin.variableKey (← configured config "name"))
  let v ← Script.ofExcept (increased ((Dict.find? caller.vars key).getD (.int 0)))
  Script.assign key v
  return .null

/-- The failure of a given class with a message. -/
def failureOf (kind message : String) : Failure :=
  match kind with
  | "KeyError" => .missingKey (.text message)
  | "ValueError" => .plain .value message
  | _ =>
    match ErrorClass.ofName? kind with
    | none => .plain .runtime message
    | some .recordNotFound => .program (.recordNotFound "Thing" message)
    | some .workflowNotFound => .program (.workflowNotFound message)
    | some .executionNotFound => .program (.executionNotFound message)
    | some .loopLimit =>
      .plain .type "LoopLimitExceeded.__init__() missing 1 required positional argument: 'limit'"
    | some k => .program (.make k message [])

/-- Fails. -/
def explode (kind message : String) : Handler := fun _ _ => .fail (failureOf kind message)

/-- Answers the configured text. -/
def summary : Handler := fun config _ => return Dict.getD config "text"

/-- Cancels the configured execution, or else its own. -/
def cancel : Handler := fun config caller => do
  let target := (Dict.getD config "execution_id").orElse (.text caller.execution)
  let cancelled : Bool ← Script.call (.cancel target)
  return .text ("cancelled=" ++ (Value.bool cancelled).literal)

/-- Starts the configured workflow with the configured payload. -/
def execute : Handler := fun config _ => do
  let workflow ← configured config "workflow_id"
  let child : String ← Script.call (.start workflow (Dict.getD config "payload"))
  Script.assign (.text "child") (.text child)
  return .null

/-- Answers a fixed summary. -/
def fixed (text : String) : Handler := fun _ _ => return .text text

/-- The sample of a kind, as it is offered for registration. -/
def candidate? (kind : String) (settings : Dict) : Option Candidate :=
  let text (name default : String) : String :=
    match Dict.get? settings name with
    | some (.text s) => s
    | _ => default
  match kind with
  | "increment" => some (.callable 2 false increment)
  | "explode" => some (.callable 2 false
      (explode (text "error" "RuntimeError") (text "message" "boom")))
  | "summary" => some (.callable 2 false summary)
  | "cancel" => some (.callable 2 false cancel)
  | "execute" => some (.callable 2 false execute)
  | "one_arg" => some (.callable 1 false (fixed ""))
  | "no_args" => some (.callable 0 false (fixed ""))
  | "keywords" => some (.callable 1 false (fixed ""))
  | "three_args" => some (.callable 3 false (fixed "d"))
  | "variadic" => some (.callable 1 true (fixed "2 args"))
  | "not_callable" => some .notCallable
  | "uninspectable" => some (.uninspectable
      "no signature found for builtin type <class 'dict'>")
  | _ => none

end Runbook.Action.Samples
