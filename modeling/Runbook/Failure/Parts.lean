import Runbook.Failure

/-!
Errors made from loosely typed parts, some in order and some by name. Each class has parameters of
its own; what it does not fix can be given by name besides. A part that is missing, unknown or
given twice is refused.
-/
namespace Runbook

namespace ErrorClass

/-- The parameters of a class, in order; the flag says that one must be given. -/
def parameters : ErrorClass → List (String × Bool)
  | .general => [("message", true), ("error_code", false), ("severity", false),
      ("category", false), ("details", false), ("recoverable", false), ("retry_after", false),
      ("context", false)]
  | .definition => [("message", true), ("workflow_id", false), ("validation_errors", false)]
  | .workflowNotFound => [("workflow_id", true)]
  | .executionNotFound => [("execution_id", true)]
  | .action => [("message", true), ("action_type", false), ("node_id", false)]
  | .registry => [("message", true), ("action_type", false)]
  | .condition | .delay => [("message", true), ("node_id", false)]
  | .loopLimit => [("node_id", true), ("limit", true)]
  | .storage => [("message", true), ("operation", false), ("table", false)]
  | .recordNotFound => [("record_type", true), ("record_id", true)]
  | .transient => [("message", true)]
  | .configuration => [("message", true), ("config_key", false)]
  | .api => [("message", true), ("status_code", false), ("endpoint", false)]

/-- The further parts that can be given by name. -/
def options (k : ErrorClass) : List String :=
  let free := ["error_code", "details", "context"]
  match k with
  | .general => []
  | .storage => free
  | .transient => free ++ ["category"]
  | _ => free ++ ["recoverable", "retry_after"]

/-- The parameters that go into the context of an error; the flag says that they do so even when
they count as false. -/
def contextParts : ErrorClass → List (String × Bool)
  | .general | .transient => []
  | .definition => [("workflow_id", false)]
  | .workflowNotFound => [("workflow_id", true)]
  | .executionNotFound => [("execution_id", true)]
  | .action => [("action_type", false), ("node_id", false)]
  | .registry => [("action_type", false)]
  | .condition | .delay => [("node_id", false)]
  | .loopLimit => [("node_id", true)]
  | .storage => [("operation", false), ("table", false)]
  | .recordNotFound => [("record_type", true), ("record_id", true)]
  | .configuration => [("config_key", false)]
  | .api => [("endpoint", false)]

/-- The message of an error with some parts. -/
def messageOf (k : ErrorClass) (parts : Dict) : Value :=
  let shown (name : String) : String := (Dict.getD parts name).display
  match k with
  | .workflowNotFound => .text ("Workflow not found: " ++ shown "workflow_id")
  | .executionNotFound => .text ("Execution not found: " ++ shown "execution_id")
  | .loopLimit => .text ("Loop node " ++ shown "node_id" ++ " exceeded the safety limit of " ++
      shown "limit" ++ " iterations")
  | .recordNotFound => .text (shown "record_type" ++ " " ++ shown "record_id" ++ " not found")
  | _ => Dict.getD parts "message"

end ErrorClass

/-- The parts of an error under their names. -/
def ErrorClass.bind (k : ErrorClass) (ordered : List Value) (named : Dict) :
    Except Failure Dict := do
  let names := k.parameters.map (·.1)
  if ordered.length > names.length then .error .wrongType
  let first : Dict := (names.zip ordered).map fun (name, v) => (.text name, v)
  let known := names ++ k.options
  let allowed := named.all fun (key, _) =>
    match key with
    | .text name => known.contains name && !Dict.contains first name
    | _ => false
  if !allowed then .error .wrongType
  let parts := first ++ named
  if k.parameters.all fun (name, must) => !must || Dict.contains parts name then return parts
  else .error .wrongType

/-- A severity given by its name. -/
def Severity.read (v : Value) : Except Failure Severity :=
  match all.find? fun s => v.same (.text s.name) with
  | some s => .ok s
  | none => .error (.plain .value (v.literal ++ " is not a valid ErrorSeverity"))

/-- A category given by its name. -/
def Category.read (v : Value) : Except Failure Category :=
  match all.find? fun c => v.same (.text c.name) with
  | some c => .ok c
  | none => .error (.plain .value (v.literal ++ " is not a valid ErrorCategory"))

namespace ProgramError

/-- A dictionary among the parts; one that counts as false is empty. -/
def dictPart (parts : Dict) (name : String) : Except Failure Dict :=
  match (Dict.getD parts name).orElse (.dict []) with
  | .dict d => .ok d
  | _ => .error .noAttribute

/-- Adds to the context. -/
def addContext (e : ProgramError) (d : Dict) : ProgramError :=
  { e with context := Dict.merge e.context d }

/-- Adds to the details. -/
def addDetails (e : ProgramError) (d : Dict) : ProgramError :=
  { e with details := Dict.merge e.details d }

/-- The details that a class adds to those given. -/
def ownDetails (k : ErrorClass) (parts : Dict) : Dict :=
  match k with
  | .definition =>
    let errors := Dict.getD parts "validation_errors"
    if errors.isTruthy then [(.text "validation_errors", errors)] else []
  | .loopLimit => [(.text "limit", Dict.getD parts "limit")]
  | .api => [(.text "status_code", (Dict.get? parts "status_code").getD (.int 500))]
  | _ => []

/-- An error from its parts. -/
def ofParts (k : ErrorClass) (ordered : List Value) (named : Dict) : Except Failure ProgramError := do
  let severity ← match Dict.get? named "severity" with
    | some v => Severity.read v
    | none => .ok k.severity
  let category ← match Dict.get? named "category" with
    | some v => Category.read v
    | none => .ok k.category
  let parts ← k.bind ordered named
  -- Severity and category are given by name or not at all.
  if ordered.length > 2 && k = .general then .error .noAttribute
  let context ← dictPart parts "context"
  let details ← dictPart parts "details"
  let code := (Dict.getD parts "error_code").orElse (.text k.name)
  let own := k.contextParts.filterMap fun (name, always) =>
    let v := Dict.getD parts name
    if always || v.isTruthy then some (Key.text name, v) else none
  return {
    kind := k, message := k.messageOf parts, code := code.display, severity, category
    details := Dict.merge details (ownDetails k parts)
    recoverable := ((Dict.get? parts "recoverable").getD (.bool k.recoverable)).isTruthy
    retryAfter := (Dict.get? parts "retry_after").getD k.retryAfter
    context := Dict.merge context own
    status := (Dict.get? parts "status_code").getD (.int 500) }

end ProgramError

end Runbook
