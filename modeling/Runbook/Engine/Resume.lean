import Runbook.Engine.Start

/-!
Time and restarts. When a timer is due its continuation runs: the marker is deleted and the
connections of the delay are followed. Markers outlive the engine; resuming rebuilds the
executions that they belong to and sets their timers again.
-/
namespace Runbook.Engine

/-- The continuation after a delay. -/
def continueAfter (t : Timer) : Run Unit := do
  modifyExecution t.execution fun x =>
    { x with timers := Execution.dropTimer x.timers t.node t.id }
  if (← isActive t.execution) then
    logInfo t.execution "Delay completed" t.node
    onStorageError (Storage.clearMarker t.marker) fun e =>
      note .error logger ("Failed to clear delay marker " ++ toString t.marker ++
        " of execution " ++ t.execution ++ ": " ++ e.text) []
    follow (walk launch t.execution (depthOf (← execution t.execution))) t.execution t.node

/-- A timer fires. -/
def fire (t : Timer) : Run Unit := do
  if (← get).accepting then
    runBranch t.execution
      ("Unexpected error resuming delay " ++ t.node ++ " of execution " ++ t.execution)
      (continueAfter t)
  else
    note .warning logger ("Engine stopped before delay " ++ t.node ++ " of execution " ++
      t.execution ++ " fired") []

/-- Moves the clock, and fires the timers that are due by then. -/
def moveTo (now : Float) : Run Unit := do
  let (due, clock) := (← get).clock.moveTo now
  modify fun e => { e with clock }
  due.forM fire

/-- Moves the clock on by some seconds. -/
def advance (seconds : Float) : Run Unit := do moveTo ((← get).clock.now + seconds)

/-- Markers in groups of one execution, in the order in which the executions first occur. -/
def groupMarkers : List Store.Marker → List (String × List Store.Marker)
  | [] => []
  | m :: rest =>
    let groups := groupMarkers rest
    match groups.find? (·.1 == m.execution) with
    | some (_, ms) => (m.execution, m :: ms) :: groups.filter (·.1 != m.execution)
    | none => (m.execution, [m]) :: groups

/-- The marker with the greatest id, of equal ones the first. -/
def latest (m : Store.Marker) (ms : List Store.Marker) : Store.Marker :=
  ms.foldl (fun best m => if best.id < m.id then m else best) m

/-- The record of an execution, none when there is no such execution. -/
def findRecord (id : String) : Run (Option Store.ExecutionRecord) :=
  onProgramError (some <$> (Storage.loadExecution id : Run _)) fun e =>
    if e.kind = .executionNotFound then return none else throw (.program e)

/-- Makes an execution live again from its markers. Markers of executions that are missing, over
or without a workflow are deleted. -/
def rebuild (id : String) (first : Store.Marker) (markers : List Store.Marker) :
    Run (Option Execution) := do
  let discard : Run (Option Execution) := do
    let _ ← Storage.clearMarkers id
    return none
  match ← findRecord id with
  | none => discard
  | some record =>
    if record.row.status != .running then discard
    else
      let w ← onProgramError (Except.ok <$> (Storage.loadWorkflow record.row.workflow : Run _))
        fun e => pure (.error e)
      match w with
      | .error e =>
        note .error logger ("Cannot resume execution " ++ id ++ ": " ++ e.text) []
        let _ ← discard
        Storage.setExecutionStatus id (.text ExecutionStatus.failed.name) (.text e.text) .null
        return none
      | .ok w =>
        let s ← ofExcept (Snapshot.read w.module (latest first markers).context)
        let x ← ofExcept (markers.foldlM (fun x m => x.absorb m.context) (.ofSnapshot id w s))
        modify fun e => e.putExecution x
        modify fun e => { e with live := e.live.filter (· != id) ++ [id] }
        return some x

/-- Sets the timer of a marker again. -/
def reschedule (now : Instant) (m : Store.Marker) : Run Unit := do
  let left := m.resumeAt.secondsSince now
  let remaining := if left > 0.0 then left else 0.0
  logInfo m.execution ("Resuming delay after restart: " ++ Decimal.wholeText remaining ++
    "s remaining") m.node
  scheduleContinuation m.execution m.node remaining m.id

/-- Resumes the markers of one execution; answers how many. -/
def resumeGroup (now : Instant) : String × List Store.Marker → Run Nat
  | (_, []) => return 0
  | (id, first :: rest) => do
    match ← rebuild id first (first :: rest) with
    | none => return 0
    | some _ =>
      (first :: rest).forM (reschedule now)
      branchFinished id
      return rest.length + 1

/-- Takes up every marker of an execution that is not live; answers how many continuations are
pending again. -/
def resume : Run Nat := do
  let live := (← get).live
  let markers ← Storage.listMarkers none
  let pending := groupMarkers (markers.filter fun m => !live.contains m.execution)
  let now ← ofExcept (Instant.ofSeconds (← get).clock.now)
  let counts ← pending.mapM (resumeGroup now)
  let total := counts.foldl Nat.add 0
  if total > 0 then
    note .info logger ("Resumed " ++ toString total ++ " pending delay(s)") []
  return total

/-- Stops the timers and takes on no more work; markers stay. -/
def shutdown : Run Unit := do
  (← get).live.forM dropTimers
  modify fun e => { e with accepting := false }
  note .info logger "WorkflowExecutionEngine shutdown completed" []

/-- How many executions may run at once. -/
def concurrency : Nat := 4

/-- Tells that an engine has begun its work. -/
def announce : Run Unit :=
  note .info logger ("WorkflowExecutionEngine initialized with max_concurrent_executions=" ++
    toString concurrency) []

/-- Shuts down, and goes on as a new engine on the same storage, at a given time. -/
def restart (now : Float) : Run Unit := do
  shutdown
  modify fun e => { e with clock := Clock.starting now, live := [], accepting := true }
  announce

end Runbook.Engine
