import Runbook.Engine.Operation

/-!
Reports: what can be seen of the engine after an operation, less what was seen before it.
-/
namespace Runbook

/-- What has been shown so far. -/
structure Seen where
  /-- The last text of each section. -/
  sections : List (String × String) := []
  /-- For each execution: how many log entries, and the record and the context. -/
  executions : List (String × Nat × String) := []
  sent : Nat := 0
  records : Nat := 0

namespace Engine

/-- The sections that are shown whole whenever they change. `observed` names the execution whose
variables are shown. -/
def sections (e : Engine) (observed : Option String) : List (String × Value) :=
  let t := e.storage.tables
  [("tickets", .list (t.tickets.map fun r => .list [
      .text r.id, .text r.tenant, .text r.title, .ofText? r.description, .text r.status,
      .text r.priority, .ofText? r.category, .ofText? r.assignedTo, .ofText? r.createdBy])),
    ("notifications", .list (t.notifications.map fun r => .list [
      .text r.tenant, .text r.user, .text r.title, .ofText? r.message, .text r.type,
      .ofText? r.module, .ofText? r.item])),
    ("articles", .list (t.articles.map fun r => .list [
      .text r.id, .text r.tenant, .text r.title, .ofText? r.content, .ofText? r.category,
      .text r.status, .ofText? r.createdBy])),
    ("markers", .list ((t.markers.mergeSort fun a b => a.id ≤ b.id).map Store.MarkerRow.record)),
    ("timers", .list (e.clock.timers.map fun t => .float (t.due - Clock.epoch))),
    ("active", Value.texts e.activeIds),
    ("sleeps", .list e.storage.slept)] ++
  match observed.bind e.execution? with
  | some x => [("variables", .dict x.vars)]
  | none => []

/-- The execution as it is in memory. -/
def contextRecord (x : Execution) : Value :=
  .record [
    ("status", .text x.status.name), ("variables", .dict x.vars), ("path", Value.texts x.path),
    ("visited", Value.texts (x.visited.mergeSort fun a b => decide (a ≤ b))),
    ("loop_counters", .dict (x.counters.map fun (k, n) => (.text k, .int n))),
    ("error", .ofText? x.error), ("branches", .int x.branches), ("item", x.item),
    ("module", x.module), ("done", .bool x.done),
    ("timers", .dict (x.timers.map fun (k, ts) => (.text k, .int ts.length)))]

/-- The log of an execution as far as it can be read. -/
def visibleLog (e : Engine) (id : String) : List LogEntry :=
  if e.storesLog then (e.storage.tables.logs.filter (·.execution == id)).map (·.entry)
  else ((e.liveExecution? id).map (·.logs)).getD []

/-- What is new about an execution, and what has been shown of it then. -/
def executionNews (e : Engine) (seen : List (String × Nat × String)) (r : Store.ExecutionRow) :
    Option Value × (String × Nat × String) :=
  let log := e.visibleLog r.id
  let record := r.record (r.triggerData.orElse (.dict []))
  let context := (e.execution? r.id).map contextRecord
  let shown := record.json ++ ((context.map Value.json).getD "")
  let (count, before) := ((seen.find? (·.1 == r.id)).map (·.2)).getD (0, "")
  (if log.length > count || shown != before then
      some (.record ([("id", .text r.id),
        ("logs", .list ((log.drop count).map LogEntry.record)), ("record", record)] ++
        match context with
        | some c => [("context", c)]
        | none => []))
    else none,
    (r.id, log.length, shown))

/-- The record of the process log as it is shown. -/
def recordLine (r : Record) : Value :=
  .list [.text r.level.name, .text r.logger, .text r.message, .dict r.context]

/-- Everything that was not seen before, and what has been seen then. The process log is shown only
when it is asked for. -/
def news (e : Engine) (observed : Option String) (withProcessLog : Bool) (seen : Seen) :
    List (String × Value) × Seen :=
  let now := e.sections observed
  let changed := now.filter fun (name, v) =>
    match seen.sections.find? (·.1 == name) with
    | some (_, before) => v.json != before
    | none => v.json != "[]"
  let executions := e.storage.tables.executions.map (e.executionNews seen.executions)
  let executionPart := executions.filterMap (·.1)
  let sent := (e.network.sent.toList.drop seen.sent).map Http.Request.record
  let records := (e.storage.journal.records.toList.drop seen.records).filter (20 ≤ ·.level.rank)
  let optional (name : String) (vs : List Value) : List (String × Value) :=
    if vs.isEmpty then [] else [(name, .list vs)]
  (changed ++ optional "executions" executionPart ++ optional "http" sent ++
      (if withProcessLog then optional "process_log" (records.map recordLine) else []),
    { sections := now.map fun (name, v) => (name, v.json)
      executions := executions.map (·.2)
      sent := e.network.sent.size
      records := e.storage.journal.records.size })

end Engine

end Runbook
