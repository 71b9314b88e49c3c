import Runbook.Clock
import Runbook.Value.Text
import Runbook.Workflow.Definition

/-!
The tables. Rows keep the order in which they were inserted, which is also the order of their
creation times.
-/
namespace Runbook

inductive ExecutionStatus where
  | running | completed | failed | cancelled
  deriving DecidableEq, Repr

namespace ExecutionStatus

def all : List ExecutionStatus := [.running, .completed, .failed, .cancelled]

def name : ExecutionStatus → String
  | .running => "running"
  | .completed => "completed"
  | .failed => "failed"
  | .cancelled => "cancelled"

def ofName? (s : String) : Option ExecutionStatus := all.find? (·.name == s)

/-- Every status but running is final. -/
def isTerminal (s : ExecutionStatus) : Bool := s != .running

end ExecutionStatus

/-- How grave an entry of an execution's log is. -/
inductive LogLevel where
  | info | warning | error
  deriving DecidableEq, Repr

def LogLevel.name : LogLevel → String
  | .info => "info"
  | .warning => "warning"
  | .error => "error"

def LogLevel.ofName? (s : String) : Option LogLevel := [.info, .warning, .error].find? (·.name == s)

/-- An entry of an execution's log: what was said, at which node, and the way there. -/
structure LogEntry where
  level : LogLevel
  message : String
  node : String
  path : List String
  deriving DecidableEq, Repr

namespace Store

/-- A stored definition, parsed only when it is loaded. -/
structure WorkflowRow where
  id : String
  tenant : String
  name : String
  description : Option String
  module : String
  status : String
  nodes : Value
  connections : Value
  vars : Value
  version : Value

/-- The row as data that can be read as a definition. -/
def WorkflowRow.record (r : WorkflowRow) : Value :=
  .record [
    ("id", .text r.id), ("tenant_id", .text r.tenant), ("name", .text r.name),
    ("description", .ofText? r.description), ("module_type", .text r.module),
    ("status", .text r.status), ("nodes", r.nodes), ("connections", r.connections),
    ("variables", r.vars), ("version", r.version)]

structure ExecutionRow where
  id : String
  workflow : String
  tenant : String
  status : ExecutionStatus
  triggerData : Value
  module : String
  item : Option String
  error : Option String
  /-- The milliseconds it took, once they have been written. -/
  time : Value
  /-- The time of its end has been written. -/
  ended : Bool

structure LogRow where
  execution : String
  tenant : String
  entry : LogEntry

/-- A pending continuation that outlives a restart. -/
structure MarkerRow where
  id : Nat
  execution : String
  node : String
  resumeAt : Instant
  context : Value

structure TicketRow where
  id : String
  tenant : String
  title : String
  description : Option String
  status : String
  priority : String
  category : Option String
  assignedTo : Option String
  createdBy : Option String

structure NotificationRow where
  id : String
  tenant : String
  user : String
  title : String
  message : Option String
  type : String
  module : Option String
  item : Option String

structure ArticleRow where
  id : String
  tenant : String
  title : String
  content : Option String
  category : Option String
  status : String
  createdBy : Option String

end Store

/-- All tables. -/
structure Store where
  workflows : List Store.WorkflowRow := []
  executions : List Store.ExecutionRow := []
  logs : List Store.LogRow := []
  markers : List Store.MarkerRow := []
  tickets : List Store.TicketRow := []
  notifications : List Store.NotificationRow := []
  articles : List Store.ArticleRow := []

namespace Store

def workflow? (s : Store) (id : String) : Option WorkflowRow := s.workflows.find? (·.id == id)

def execution? (s : Store) (id : String) : Option ExecutionRow := s.executions.find? (·.id == id)

def ticket? (s : Store) (id : String) : Option TicketRow := s.tickets.find? (·.id == id)

/-- Replaces the row with the same id, or adds a row at the end. -/
def putWorkflow (s : Store) (r : WorkflowRow) : Store :=
  { s with workflows :=
      if s.workflows.any (·.id == r.id) then s.workflows.map fun w => if w.id == r.id then r else w
      else s.workflows ++ [r] }

def updateWorkflow (s : Store) (id : String) (f : WorkflowRow → WorkflowRow) : Store :=
  { s with workflows := s.workflows.map fun w => if w.id == id then f w else w }

def updateExecution (s : Store) (id : String) (f : ExecutionRow → ExecutionRow) : Store :=
  { s with executions := s.executions.map fun e => if e.id == id then f e else e }

def updateTicket (s : Store) (id : String) (f : TicketRow → TicketRow) : Store :=
  { s with tickets := s.tickets.map fun t => if t.id == id then f t else t }

/-- One more than the greatest id in use, one when there is none. -/
def nextMarker (s : Store) : Nat := s.markers.foldl (fun n m => max n m.id) 0 + 1

/-- Removes a workflow with its executions, their logs and their markers. -/
def deleteWorkflow (s : Store) (id : String) : Store :=
  let gone := (s.executions.filter (·.workflow == id)).map (·.id)
  { s with
    workflows := s.workflows.filter (·.id != id)
    executions := s.executions.filter (·.workflow != id)
    logs := s.logs.filter fun l => !gone.contains l.execution
    markers := s.markers.filter fun m => !gone.contains m.execution }

/-- Markers in the order in which they are due, then by id. -/
def sortedMarkers (ms : List MarkerRow) : List MarkerRow :=
  sortBy (fun a b =>
    decide (a.resumeAt.micros < b.resumeAt.micros) ||
      (a.resumeAt.micros == b.resumeAt.micros && decide (a.id ≤ b.id))) ms

theorem workflow?_putWorkflow_self (s : Store) (r : WorkflowRow) :
    (s.putWorkflow r).workflow? r.id = some r := by
  unfold putWorkflow workflow?
  generalize s.workflows = ws
  split
  · rename_i h
    simp only
    induction ws with
    | nil => simp at h
    | cons w rest ih =>
      rw [List.map_cons, List.find?_cons]
      by_cases hw : w.id = r.id
      · simp [hw]
      · have later : rest.any (·.id == r.id) = true := by simpa [hw] using h
        have other : (w.id == r.id) = false := by simpa using hw
        simp only [other, Bool.false_eq_true, if_false]
        exact ih later
  · rename_i h
    have absent : ws.find? (·.id == r.id) = none := by
      simpa [List.find?_eq_none] using h
    simp [List.find?_append, absent]

theorem workflow?_putWorkflow_of_ne (s : Store) {r : WorkflowRow} {id : String} (h : id ≠ r.id) :
    (s.putWorkflow r).workflow? id = s.workflow? id := by
  unfold putWorkflow workflow?
  split
  · generalize s.workflows = ws
    induction ws with
    | nil => rfl
    | cons w rest ih =>
      by_cases hw : w.id = r.id <;> simp_all [List.find?_cons, h.symm]
  · simp [List.find?_append, h.symm]

theorem le_foldl_max (ms : List MarkerRow) (n : Nat) :
    n ≤ ms.foldl (fun n m => max n m.id) n ∧
      ∀ m ∈ ms, m.id ≤ ms.foldl (fun n m => max n m.id) n := by
  induction ms generalizing n with
  | nil => simp
  | cons m rest ih =>
    obtain ⟨least, each⟩ := ih (max n m.id)
    refine ⟨by simp only [List.foldl_cons]; omega, fun x hx => ?_⟩
    rcases List.mem_cons.1 hx with rfl | hx
    · simp only [List.foldl_cons]; omega
    · exact each x hx

/-- The next marker has an id of its own. -/
theorem lt_nextMarker {s : Store} {m : MarkerRow} (h : m ∈ s.markers) : m.id < s.nextMarker :=
  Nat.lt_succ_of_le ((le_foldl_max s.markers 0).2 m h)

/-- Nothing is left of the executions of a workflow that was deleted. -/
theorem workflow_ne_of_mem_deleteWorkflow {s : Store} {id : String} {r : ExecutionRow}
    (h : r ∈ (s.deleteWorkflow id).executions) : r.workflow ≠ id := by
  simpa [deleteWorkflow] using (List.mem_filter.1 h).2

end Store

end Runbook
