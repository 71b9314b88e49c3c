import Runbook.Store.Session
import Runbook.Workflow.Read
import Runbook.Workflow.Record

/-!
Stored workflows. A definition is written in its compact form and read again when it is loaded;
a row may also be stored as it is, and may then turn out to be malformed.
-/
namespace Runbook

namespace Store

/-- A cell that has a default: null gives the default. -/
def cellOr (default : String) (v : Value) : Except Refusal (Option String) :=
  if v.isNull then .ok (some default) else textCell v

/-- The row of a definition. -/
def WorkflowRow.ofWorkflow (id : String) (w : Workflow) (version : Value) : WorkflowRow where
  id := id
  tenant := w.tenant
  name := w.name
  description := w.description
  module := w.module
  status := w.status.name
  nodes := (Value.list (w.nodes.map (Node.record true))).stored
  connections := (Value.list (w.connections.map (Connection.record true))).stored
  vars := (Value.list (w.vars.map Declaration.record)).stored
  version := version

/-- A cell for a version; null is refused. -/
def versionCell (v : Value) : Except Refusal Value := do
  let cell ← wholeCell v
  if cell.isNull then .error .rejected else .ok cell

/-- A field of a row given as data. -/
def rawField (d : Dict) (name : String) (default : Value) : Value := (Dict.get? d name).getD default

/-- A row given as data, with defaults for what is missing. Where a new row takes a default for
null, an old one refuses it. -/
def WorkflowRow.ofRaw (id : Value) (d : Dict) (isNew : Bool) : Except Refusal WorkflowRow := do
  let id ← textCell id
  let tenant ← textCell (rawField d "tenant_id" (.text ""))
  let name ← textCell (rawField d "name" (.text ""))
  let description ← textCell (rawField d "description" .null)
  let module ← textCell (rawField d "module_type" (.text ""))
  let draft := Value.text WorkflowStatus.draft.name
  let status ← (if isNew then cellOr WorkflowStatus.draft.name else textCell)
    (rawField d "status" draft)
  let version := rawField d "version" (.int 1)
  let version ← if isNew ∧ version.isNull then .ok (.int 1) else versionCell version
  return {
    id := ← notNull id
    tenant := ← notNull tenant
    name := ← notNull name
    description := description
    module := ← notNull module
    status := ← notNull status
    nodes := (rawField d "nodes" (.list [])).stored
    connections := (rawField d "connections" (.list [])).stored
    vars := (rawField d "variables" (.list [])).stored
    version := version }

/-- The number of nodes that a row seems to have. -/
def WorkflowRow.nodeCount (r : WorkflowRow) : Except Refusal Nat :=
  if !r.nodes.isTruthy then .ok 0
  else
    match r.nodes with
    | .list vs => .ok vs.length
    | .dict d => .ok d.length
    | .text s => .ok s.length
    | _ => .error (.raised .wrongType)

/-- The row as a listing shows it. -/
def WorkflowRow.summary (r : WorkflowRow) : Except Refusal Value := do
  return .record [
    ("id", .text r.id), ("tenant_id", .text r.tenant), ("name", .text r.name),
    ("module_type", .text r.module), ("status", .text r.status),
    ("node_count", .int (← r.nodeCount))]

/-- The version after a stored one. -/
def nextVersion (v : Value) : Except Refusal Value :=
  match v.orElse (.int 1) with
  | .int n => .ok (.int (n + 1))
  | .bool b => .ok (.int (if b then 2 else 1))
  | .float x => .ok (.float (x + 1.0))
  | _ => .error (.raised .wrongType)

end Store

namespace Storage

open Store

/-- Inserts a definition, or replaces the one with its id; answers the id. -/
def saveWorkflow (w : Workflow) : StorageM String := do
  let id ← match w.id with
    | some id => if id = "" then freshId else pure id
    | none => freshId
  session "save workflow" "workflows" fun s => do
    let version ← versionCell (.int w.version)
    return ((), s.putWorkflow (.ofWorkflow id w version))
  note .info logger ("Saved workflow " ++ id ++ " (" ++ w.name ++ ")")
  return id

/-- Replaces a stored definition; answers its new version. -/
def updateWorkflow (id : String) (w : Workflow) : StorageM Value := do
  let version ← session "update workflow" "workflows" fun s => do
    match s.workflow? id with
    | none => .error (.raised (.program (.workflowNotFound id)))
    | some row =>
      let version ← nextVersion row.version
      let cell ← versionCell version
      return (version, s.updateWorkflow id fun _ => .ofWorkflow id w cell)
  note .info logger ("Updated workflow " ++ id ++ " to version " ++ version.display)
  return version

/-- Deletes a workflow with all that belongs to it; answers the number of its executions. -/
def deleteWorkflow (id : String) : StorageM Nat := do
  let count ← session "delete workflow" "workflows" fun s =>
    if (s.workflow? id).isSome then
      .ok ((s.executions.filter (·.workflow == id)).length, s.deleteWorkflow id)
    else .error (.raised (.program (.workflowNotFound id)))
  note .info logger
    ("Deleted workflow " ++ id ++ " and " ++ toString count ++ " execution(s)")
  return count

/-- The stored definition with an id. -/
def loadWorkflow (id : String) : StorageM Workflow := do
  let row ← query "load workflow" "workflows" fun s =>
    match s.workflow? id with
    | some row => .ok row
    | none => .error (.raised (.program (.workflowNotFound id)))
  match Workflow.parse row.record with
  | .ok w => return w
  | .error f => throw f

/-- Stores a draft copy under a new id, and under a new name when one is given. -/
def cloneWorkflow (id : String) (name : Option String) : StorageM String := do
  let w ← loadWorkflow id
  let copyName := match name with
    | some n => if n = "" then w.name ++ " (Copy)" else n
    | none => w.name ++ " (Copy)"
  saveWorkflow { w with id := none, name := copyName, status := .draft, version := 1 }

def workflowExists (id : String) : StorageM Bool :=
  query "check workflow" "workflows" fun s => .ok (s.workflow? id).isSome

/-- Stores a row without reading it as a definition. -/
def saveRaw (d : Dict) : StorageM Value := do
  let given := Dict.getD d "id"
  let id ← if given.isTruthy then pure given else Value.text <$> freshId
  session "save workflow" "workflows" fun s => do
    let isNew := match textCell id with
      | .ok (some key) => (s.workflow? key).isNone
      | _ => true
    return ((), s.putWorkflow (← WorkflowRow.ofRaw id d isNew))
  return id

/-- The rows of all active workflows of a module, not yet read as definitions. -/
def activeWorkflows (module : String) : StorageM (List WorkflowRow) :=
  query "find active workflows" "workflows" fun s =>
    .ok (s.workflows.filter fun r => r.module == module && r.status == WorkflowStatus.active.name)

/-- All workflows, or those of a module or a tenant. -/
def listWorkflows (module tenant : Option String) : StorageM (List Value) :=
  let matching (wanted : Option String) (s : String) : Bool :=
    wanted == none || wanted == some "" || wanted == some s
  query "list workflows" "workflows" fun s =>
    (s.workflows.filter fun r => matching module r.module && matching tenant r.tenant).mapM
      WorkflowRow.summary

/-- A value that is no name of a status. -/
def notAStatus (v : Value) (kind : String) : Failure :=
  .plain .value (v.literal ++ " is not a valid " ++ kind)

/-- Sets the status of a stored workflow. -/
def setWorkflowStatus (id : String) (status : Value) : StorageM Unit := do
  let name ← session "update workflow status" "workflows" fun s =>
    match s.workflow? id with
    | none => .error (.raised (.program (.workflowNotFound id)))
    | some _ =>
      match status with
      | .text name =>
        if (WorkflowStatus.ofName? name).isSome then
          .ok (name, s.updateWorkflow id fun r => { r with status := name })
        else .error (.raised (notAStatus status "WorkflowStatus"))
      | _ => .error (.raised (notAStatus status "WorkflowStatus"))
  note .info logger ("Workflow " ++ id ++ " status set to " ++ name)

end Storage

end Runbook
