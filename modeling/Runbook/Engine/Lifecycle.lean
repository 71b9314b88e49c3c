import Runbook.Engine.State

/-!
How executions end. An execution is completed when its last branch is, and failed or cancelled at
once; then its timers and markers are removed, its final status is stored, and it is no longer
live. What it does is told in its own log, in the process log and in storage.
-/
namespace Runbook.Engine

/-- The level of an entry's record in the process log. -/
def processLevel : LogLevel → Level
  | .info => .info
  | .warning => .warning
  | .error => .error

/-- Adds an entry to the log of an execution. The node is the one given, or the last on the path.
An entry that cannot be stored is reported and lost. -/
def log (level : LogLevel) (id message node : String) : Run Unit := do
  let x ← execution id
  let node := if node = "" then x.path.getLast?.getD "" else node
  let entry : LogEntry := ⟨level, message, node, x.path⟩
  modifyExecution id fun x => { x with logs := x.logs ++ [entry] }
  note (processLevel level) "deskflow.execution" message [
    (.text "execution_id", .text id), (.text "workflow_id", .ofText? x.workflow.id),
    (.text "tenant_id", .text x.workflow.tenant), (.text "node_id", .text node)]
  if (← get).storesLog then
    onStorageError (Storage.appendLog id (.text x.workflow.tenant) entry) fun e =>
      note .error "deskflow.core.context"
        ("Failed to persist log entry for execution " ++ id ++ ": " ++ e.text) []

def logInfo (id message node : String) : Run Unit := log .info id message node

def logWarning (id message node : String) : Run Unit := log .warning id message node

def logError (id message node : String) : Run Unit := log .error id message node

/-- Stores the final status; whatever comes of that, the execution is over. -/
def finalize (id : String) : Run Unit := do
  let x ← execution id
  let error := if x.status = .completed then .null else .ofText? x.error
  andAlways
    (onStorageError (Storage.setExecutionStatus id (.text x.status.name) error (.int 0)) fun e =>
      note .error logger
        ("Failed to persist status of execution " ++ id ++ ": " ++ e.text) [])
    do
      modifyExecution id fun x => { x with done := true }
      modify fun e => { e with live := e.live.filter (· != id) }
      note .info logger
        ("Execution " ++ id ++ " finished with status " ++ x.status.name) []

/-- Cancels the timers of an execution. -/
def dropTimers (id : String) : Run Unit := do
  let x ← execution id
  modifyExecution id fun x => { x with timers := [] }
  modify fun e => { e with clock := e.clock.cancel (x.timers.flatMap (·.2)) }

/-- Cancels the timers of an execution and deletes its markers. -/
def dropPending (id : String) : Run Unit := do
  dropTimers id
  onStorageError (do let _ ← Storage.clearMarkers id) fun e =>
    note .error logger
      ("Failed to clear delay markers of execution " ++ id ++ ": " ++ e.text) []

/-- A running execution fails; one that is over stays as it is. -/
def fail (id message : String) : Run Unit := do
  if (← isActive id) then
    modifyExecution id fun x => { x with status := .failed, error := some message }
    dropPending id
    finalize id

/-- A branch has come to its end. The last one completes a running execution. -/
def branchFinished (id : String) : Run Unit := do
  let x ← execution id
  let completed : Bool := x.branches - 1 ≤ 0 && x.isActive
  modifyExecution id fun x => { x with
    branches := x.branches - 1, status := if completed then .completed else x.status }
  if completed then
    logInfo id "Workflow execution completed" ""
    finalize id

/-- Cancels a live, running execution; true when there was one. -/
def cancel (id : String) : Run Bool := do
  match (← get).liveExecution? id with
  | none =>
    note .warning logger ("Attempted to cancel non-active execution: " ++ id) []
    return false
  | some x =>
    if !x.isActive then return false
    modifyExecution id fun x => { x with status := .cancelled, error := some "Execution cancelled" }
    dropPending id
    logWarning id "Workflow execution cancelled" ""
    finalize id
    note .info logger ("Cancelled workflow execution: " ++ id) []
    return true

/-- Cancels the live executions of a workflow; answers how many were running. -/
def cancelAll (workflow : String) : Run Nat := do
  let e ← get
  let ids := e.live.filter fun id => (e.execution? id).any (·.workflow.id == some workflow)
  let outcomes ← ids.mapM cancel
  return outcomes.countP (· == true)

end Runbook.Engine
