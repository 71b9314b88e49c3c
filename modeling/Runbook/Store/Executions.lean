import Runbook.Store.Session
import Runbook.Reading

/-!
Stored executions, their log and their delay markers. Creating an execution, setting its status,
saving a marker and appending to the log are tried again when storage fails.
-/
namespace Runbook

namespace Store

/-- The record of an execution as it is loaded. -/
structure ExecutionRecord where
  row : ExecutionRow
  triggerData : Dict

/-- The row of an execution that has just begun. -/
def ExecutionRow.opening (id : String) (workflow tenant triggerData module item : Value) :
    Except Refusal ExecutionRow := do
  let workflow ← textCell workflow
  let tenant ← textCell tenant
  let module ← textCell module
  let item ← textCell item
  return {
    id, workflow := ← notNull workflow, tenant := ← notNull tenant, status := .running
    triggerData := (triggerData.orElse (.dict [])).stored, module := ← notNull module
    item, error := none, time := .null, ended := false }

/-- Loads a row, unless its data or its time is not of the right kind. -/
def ExecutionRow.load (r : ExecutionRow) : Except Refusal ExecutionRecord :=
  let data := (Read.dict (r.triggerData.orElse (.dict []))).within (.name "trigger_data")
  let time := (Read.nullable Read.whole r.time).within (.name "execution_time_ms")
  match (fun d _ => ExecutionRecord.mk r d) <$> data <*> time with
  | .accepted record => .ok record
  | .refused issues => .error (.raised (.invalid issues))
  | .broken m => .error (.raised (.ofMismatch m))

/-- A marker as it is loaded. -/
structure Marker where
  id : Nat
  execution : String
  node : String
  resumeAt : Instant
  context : Dict

/-- Loads a marker; a context that counts as false is the empty one. -/
def MarkerRow.load (r : MarkerRow) : Except Refusal Marker :=
  match r.context.orElse (.dict []) with
  | .dict d => .ok ⟨r.id, r.execution, r.node, r.resumeAt, d⟩
  | _ => .error (.raised (.invalid [⟨[.name "context"], .dictType⟩]))

end Store

namespace ExecutionStatus

def read : Value → Except Failure ExecutionStatus
  | v@(.text s) =>
    match ofName? s with
    | some status => .ok status
    | none => .error (.plain .value (v.literal ++ " is not a valid ExecutionStatusEnum"))
  | v => .error (.plain .value (v.literal ++ " is not a valid ExecutionStatusEnum"))

end ExecutionStatus

namespace Storage

open Store

/-- Creates a running execution; answers its id. Each attempt takes a new id. -/
def createExecution (workflow tenant triggerData module item : Value) : StorageM String :=
  retrying "ExecutionRepository.create" do
    let id ← freshId
    session "create execution" "workflow_executions" fun s => do
      let row ← ExecutionRow.opening id workflow tenant triggerData module item
      return ((), { s with executions := s.executions ++ [row] })
    return id

/-- The execution with an id. -/
def loadExecution (id : String) : StorageM ExecutionRecord :=
  query "load execution" "workflow_executions" fun s =>
    match s.execution? id with
    | some row => row.load
    | none => .error (.raised (.program (.executionNotFound id)))

/-- One page of a workflow's executions, newest first, and the number of all. A negative limit is
no limit. -/
def listExecutions (workflow : String) (limit offset : Int) :
    StorageM (List ExecutionRecord × Nat) :=
  query "list workflow executions" "workflow_executions" fun s => do
    if !fits limit || !fits offset then .error tooLarge
    let rows := (s.executions.filter (·.workflow == workflow)).reverse
    let page := rows.drop offset.toNat
    let page := if limit < 0 then page else page.take limit.toNat
    return (← page.mapM ExecutionRow.load, rows.length)

/-- Sets a status, with an error message and the time it took when they are given. A final status
also sets the time of the end. -/
def setExecutionStatus (id : String) (status : Value) (error time : Value) : StorageM Unit :=
  retrying "ExecutionRepository.set_status" do
    let status ← match ExecutionStatus.read status with
      | .ok status => pure status
      | .error f => throw f
    session "update execution status" "workflow_executions" fun s =>
      match s.execution? id with
      | none => .error (.raised (.program (.executionNotFound id)))
      | some row => do
        let error ← if error.isNull then .ok row.error else textCell error
        let time ← if time.isNull then .ok row.time else wholeCell time
        return ((), s.updateExecution id fun r => { r with
          status, error, time, ended := r.ended || status.isTerminal })

/-- Saves a marker for a continuation; answers its id. -/
def saveMarker (execution node : String) (resumeAt : Instant) (context : Value) : StorageM Nat :=
  retrying "ExecutionRepository.save_delay_marker" do
    session "save delay marker" "workflow_execution_state" fun s =>
      let id := s.nextMarker
      .ok (id, { s with markers := s.markers ++ [⟨id, execution, node, resumeAt, context.stored⟩] })

def clearMarker (id : Int) : StorageM Unit :=
  session "clear delay marker" "workflow_execution_state" fun s =>
    if !fits id then .error tooLarge
    else .ok ((), { s with markers := s.markers.filter fun m => (m.id : Int) != id })

/-- Deletes the markers of an execution; answers how many there were. -/
def clearMarkers (execution : String) : StorageM Nat :=
  session "clear delay markers" "workflow_execution_state" fun s =>
    .ok ((s.markers.filter (·.execution == execution)).length,
      { s with markers := s.markers.filter (·.execution != execution) })

/-- Pending markers, soonest first: of one execution, or of all. -/
def listMarkers (execution : Option String) : StorageM (List Marker) :=
  query "list delay markers" "workflow_execution_state" fun s =>
    let wanted (m : MarkerRow) : Bool :=
      match execution with
      | some id => id == "" || m.execution == id
      | none => true
    (sortedMarkers (s.markers.filter wanted)).mapM MarkerRow.load

/-- Appends an entry to the log of an execution. -/
def appendLog (execution : String) (tenant : Value) (entry : LogEntry) : StorageM Unit :=
  retrying "LogRepository.append" do
    session "append execution log" "workflow_execution_logs" fun s => do
      let tenant ← notNull (← textCell tenant)
      return ((), { s with logs := s.logs ++ [⟨execution, tenant, entry⟩] })

/-- The stored log of an execution, oldest first. -/
def listLogs (execution : String) : StorageM (List LogEntry) :=
  query "list execution logs" "workflow_execution_logs" fun s =>
    .ok ((s.logs.filter (·.execution == execution)).map (·.entry))

end Storage

/-- Reads a log entry given as data. -/
def LogEntry.read (d : Dict) : Reading LogEntry :=
  LogEntry.mk
    <$> Read.required d ["level"] (Read.choice LogLevel.ofName?)
    <*> Read.required d ["message"] Read.text
    <*> Read.optional d ["node_id"] "" Read.text
    <*> Read.optional d ["execution_path"] [] (Read.list Read.text)

end Runbook
