import Runbook.Service.Answer

/-!
Answers about executions: starting them, directly or by an event, looking at them and their logs,
and cancelling them.
-/
namespace Runbook.Service

/-- An execution as it is answered. The times of its start and of its end are left open. -/
def executionRecord (x : Store.ExecutionRecord) : Value :=
  let r := x.row
  sendable (.record [
    ("id", .text r.id), ("workflow_id", .text r.workflow), ("tenant_id", .text r.tenant),
    ("status", .text r.status.name), ("trigger_data", .dict x.triggerData),
    ("module_type", .text r.module), ("module_item_id", .ofText? r.item),
    ("error_message", .ofText? r.error), ("execution_time_ms", r.time), ("started_at", .untold),
    ("completed_at", if r.ended then .untold else .null)])

/-- An entry of a log as it is answered. -/
def entryRecord (l : LogEntry) : Value :=
  .record [
    ("timestamp", .untold), ("level", .text l.level.name), ("message", .text l.message),
    ("node_id", .text l.node), ("execution_path", Value.texts l.path)]

/-- A page of a list: how many items it has at most, and how many come before it. -/
structure Page where
  limit : Int
  offset : Int

/-- A whole number within bounds. -/
def bounded (least : Int) (most : Option Int) (n : Int) : Reading Int :=
  if n < least then .refuse .atLeast
  else
    match most with
    | some m => if n > m then .refuse .atMost else .accepted n
    | none => .accepted n

/-- Reads a parameter of the query. -/
def queryNumber (r : Request) (name : String) (default least : Int) (most : Option Int) :
    Reading Int :=
  let reading : Reading Int := match r.parameter? name with
    | some s => (Read.whole (.text s)).check (bounded least most)
    | none => .accepted default
  (reading.within (.name name)).within (.name "query")

def Page.read (r : Request) : Reading Page :=
  Page.mk <$> queryNumber r "limit" 10 1 (some 100) <*> queryNumber r "offset" 0 0 none

/-- Lists a page of the executions of a workflow, newest first. -/
def listExecutions (id : String) (r : Request) : Run Answer :=
  reading (Page.read r) fun page => reporting do
    if !(← Storage.workflowExists id) then throw (.program (.workflowNotFound id))
    let (rows, total) ← Storage.listExecutions id page.limit page.offset
    return .ok (.record [("executions", .list (rows.map executionRecord)), ("total", .int total),
      ("limit", .int page.limit), ("offset", .int page.offset)])

/-- What an execution is started with. -/
structure Start where
  payload : Dict
  module : Option String
  item : Option String

def Start.read (d : Dict) : Reading Start :=
  Start.mk
    <$> Read.optional d ["payload"] [] Read.dict
    <*> Read.optional d ["module_type"] none (Read.nullable Read.text)
    <*> Read.optional d ["module_item_id"] none (Read.nullable Read.text)

/-- Starts an execution, in the workflow's own module when none is given. -/
def execute (id : String) (body : Body) : Run Answer :=
  reading (body.required (fields Start.read)) fun start => reporting do
    let module ← match start.module.filter (· ≠ "") with
      | some m => pure m
      | none => Workflow.module <$> (Storage.loadWorkflow id : Run Workflow)
    let execution ← Engine.execute id (.dict start.payload) (.text module) (.ofText? start.item)
    return .accepted (.record [("execution_id", .text execution), ("status", .text "running")])

/-- Something that happened, for which workflows may wait. -/
structure Event where
  module : String
  kind : String
  payload : Dict
  item : Option String

def Event.read (d : Dict) : Reading Event :=
  Event.mk
    <$> Read.required d ["module_type"] Read.text
    <*> Read.required d ["trigger_type"] Read.text
    <*> Read.optional d ["payload"] [] Read.dict
    <*> Read.optional d ["module_item_id"] none (Read.nullable Read.text)

/-- Starts every workflow that waits for an event. -/
def trigger (body : Body) : Run Answer :=
  reading (body.required (fields Event.read)) fun event => do
    let ids ← Engine.trigger event.module (some event.kind) (.dict event.payload)
      (.ofText? event.item)
    return .accepted (.record [("execution_ids", Value.texts ids)])

def loadExecution (id : String) : Run Answer := reporting do
  return .ok (executionRecord (← Storage.loadExecution id))

def executionLog (id : String) : Run Answer := reporting do
  return .ok (.list ((← Engine.logsOf id).map entryRecord))

/-- An execution together with its log. -/
def executionDetails (id : String) : Run Answer := reporting do
  let x ← Storage.loadExecution id
  let log ← Engine.logsOf id
  return .ok (.record [("execution", executionRecord x), ("logs", .list (log.map entryRecord))])

/-- Cancels an execution. Only looking for it is part of what is reported. -/
def cancelExecution (id : String) : Run Answer := do
  let found : Run (Option Answer) :=
    Engine.onProgramError (do
      let _ ← Storage.loadExecution id
      return none)
      fun e => return some (.reported e)
  match ← found with
  | some answer => return answer
  | none =>
    let cancelled ← Engine.cancel id
    return .ok (.record [("execution_id", .text id), ("cancelled", .bool cancelled),
      ("message", .text (if cancelled then "Execution cancelled" else "Execution is not running"))])

end Runbook.Service
