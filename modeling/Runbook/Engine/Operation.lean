import Runbook.Engine.Resume

/-!
The operations of the engine as data, and what each of them answers.
-/
namespace Runbook

/-- Everything that can be asked of the engine and of its storage. -/
inductive Operation where
  | save (definition : Value)
  | saveRaw (row : Dict)
  | load (id : String)
  | update (id : String) (definition : Value)
  | delete (id : String)
  | clone (id : String) (name : Option String)
  | exists (id : String)
  | activeWorkflows (module : String)
  | listWorkflows (module tenant : Option String)
  | setStatus (id : String) (status : Value)
  | createExecution (workflow tenant module triggerData item : Value)
  | loadExecution (id : String)
  | listExecutions (workflow : String) (limit offset : Int)
  | setExecutionStatus (id : String) (status error time : Value)
  | saveMarker (id node : String) (resumeAt : Instant) (context : Value)
  | clearMarker (id : Int)
  | clearMarkers (id : String)
  | listMarkers (id : Option String)
  | appendLog (id : String) (tenant : Value) (entry : Dict)
  | listLogs (id : String)
  | logs (id : String)
  | createTicket (fields : Dict)
  | findTicket (id : String)
  | updateTicket (id : String) (updates : Dict)
  | assignTicket (id : String) (assignee : Value)
  | notify (fields : Dict)
  | createArticle (fields : Dict)
  | register (name : Value) (candidate : Action.Candidate) (description : Value)
  | actionTypes
  | dispatch (execution actionType : String) (config : Dict)
  | execute (workflow : String) (payload module item : Value)
  | trigger (module : String) (event : Option String) (payload item : Value)
  | cancel (id : String)
  | cancelAll (workflow : String)
  | status (id : String)
  | active
  | advance (seconds : Float)
  | restart (now : Float)
  | resume
  | shutdown
  | outage (o : Store.Outage)

def LogEntry.record (l : LogEntry) : Value :=
  .list [.text l.level.name, .text l.message, .text l.node, Value.texts l.path]

namespace Store

/-- The record of an execution, without the times themselves. -/
def ExecutionRow.record (r : ExecutionRow) (triggerData : Value) : Value :=
  .record [
    ("id", .text r.id), ("workflow_id", .text r.workflow), ("tenant_id", .text r.tenant),
    ("status", .text r.status.name), ("trigger_data", triggerData), ("module_type", .text r.module),
    ("module_item_id", .ofText? r.item), ("error_message", .ofText? r.error),
    ("timed", .bool (!r.time.isNull)), ("ended", .bool r.ended)]

def MarkerRow.record (m : MarkerRow) : Value :=
  .list [.int m.id, .text m.execution, .text m.node, .text m.resumeAt.text, m.context]

def Marker.record (m : Marker) : Value :=
  .list [.int m.id, .text m.execution, .text m.node, .text m.resumeAt.text, .dict m.context]

end Store

namespace Engine

/-- The log of an execution that is stored, or else that of a live one. -/
def logsOf (id : String) : Run (List LogEntry) := do
  let _ ← Storage.loadExecution id
  let e ← get
  if e.storesLog then Storage.listLogs id
  else return ((e.liveExecution? id).map (·.logs)).getD []

/-- The status of a live execution, or else the stored one. -/
def statusOf (id : String) : Run ExecutionStatus := do
  match (← get).liveExecution? id with
  | some x => return x.status
  | none => return (← Storage.loadExecution id).row.status

/-- The live executions that are running. -/
def activeIds (e : Engine) : List String :=
  e.live.filter fun id => (e.execution? id).any Execution.isActive

/-- Sends a notification that is described by fields. -/
def notifyFields (fields : Dict) : Run (List String) := do
  let a ← ofExcept (Announcement.ofFields fields [])
  match Announcement.items? (Dict.getD fields "recipients") with
  | some recipients => Storage.notify { a with recipients }
  | none =>
    Storage.openSession "send notification" "notifications"
    throw .wrongType

/-- Registers a handler. -/
def register (name : Value) (candidate : Action.Candidate) (description : Value) : Run Unit := do
  let (outcome, registry) := (← get).registry.register name candidate description
  modify fun e => { e with registry }
  ofExcept outcome

/-- Carries out an operation; answers what it shows. -/
def carryOut (op : Operation) : Run Value :=
  match op with
  | .save definition => do return .text (← Storage.saveWorkflow (← ofExcept (Workflow.parse definition)))
  | .saveRaw row => Storage.saveRaw row
  | .load id => do return (← Storage.loadWorkflow id).record
  | .update id definition => do
    Storage.updateWorkflow id (← ofExcept (Workflow.parse definition))
  | .delete id => do return .int (← Storage.deleteWorkflow id)
  | .clone id name => do return .text (← Storage.cloneWorkflow id name)
  | .exists id => do return .bool (← Storage.workflowExists id)
  | .activeWorkflows module => do
    return .list ((← Storage.activeWorkflows module).map Store.WorkflowRow.record)
  | .listWorkflows module tenant => do return .list (← Storage.listWorkflows module tenant)
  | .setStatus id status => do
    Storage.setWorkflowStatus id status
    return .null
  | .createExecution workflow tenant module triggerData item => do
    return .text (← Storage.createExecution workflow tenant triggerData module item)
  | .loadExecution id => do
    let record ← Storage.loadExecution id
    return record.row.record (.dict record.triggerData)
  | .listExecutions workflow limit offset => do
    let (page, total) ← Storage.listExecutions workflow limit offset
    return .record [("ids", Value.texts (page.map (·.row.id))), ("total", .int total)]
  | .setExecutionStatus id status error time => do
    Storage.setExecutionStatus id status error time
    return .null
  | .saveMarker id node resumeAt context => do
    return .int (← Storage.saveMarker id node resumeAt context)
  | .clearMarker id => do
    Storage.clearMarker id
    return .null
  | .clearMarkers id => do return .int (← Storage.clearMarkers id)
  | .listMarkers id => do
    return .list ((← Storage.listMarkers id).map Store.Marker.record)
  | .appendLog id tenant entry => do
    Storage.appendLog id tenant (← ofExcept (LogEntry.read entry).orFail)
    return .null
  | .listLogs id => do return .list ((← Storage.listLogs id).map LogEntry.record)
  | .logs id => do return .list ((← logsOf id).map LogEntry.record)
  | .createTicket fields => do
    return .text (← Storage.createTicket (← ofExcept (TicketDraft.ofFields fields)))
  | .findTicket id => Storage.findTicket id
  | .updateTicket id updates => do
    Storage.updateTicket id updates
    return .null
  | .assignTicket id assignee => do
    Storage.assignTicket id assignee
    return .null
  | .notify fields => do return Value.texts (← notifyFields fields)
  | .createArticle fields => do
    return .text (← Storage.createArticle (← ofExcept (ArticleDraft.ofFields fields)))
  | .register name candidate description => do
    register name candidate description
    return .null
  | .actionTypes => do
    return .list ((← get).registry.descriptions.map fun (n, d) => .list [.text n, .text d])
  | .dispatch execution actionType config => dispatch launch execution actionType config
  | .execute workflow payload module item => do
    return .text (← execute workflow payload module item)
  | .trigger module event payload item => do
    return Value.texts (← trigger module event payload item)
  | .cancel id => do return .bool (← cancel id)
  | .cancelAll workflow => do return .int (← cancelAll workflow)
  | .status id => do return .text (← statusOf id).name
  | .active => do return Value.texts (← get).activeIds
  | .advance seconds => do
    advance seconds
    return .null
  | .restart now => do
    restart now
    return .null
  | .resume => do return .int (← resume)
  | .shutdown => do
    shutdown
    return .null
  | .outage o => do
    modify fun e => { e with storage := { e.storage with outages := o.plan e.storage.outages } }
    return .null

end Engine

end Runbook
