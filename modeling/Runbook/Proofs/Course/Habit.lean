import Runbook.Proofs.Course.Manner

/-!
Habits. What the engine does on behalf of executions is made of few elementary steps. An invariant
that each of them keeps is kept wherever executions are told about, wait, and come to their end.
-/
namespace Runbook

/-- A change of an execution that leaves what it belongs to, what it carries and where it has been. -/
def Execution.Outward (f : Execution → Execution) : Prop := ∀ x, { f x with
  activeLoops := x.activeLoops, timers := x.timers, logs := x.logs, status := x.status, error := x.error
  branches := x.branches, done := x.done } = x

namespace Execution.Outward

variable {f : Execution → Execution} (outward : Outward f) (x : Execution)

include outward

theorem id : (f x).id = x.id := (congrArg Execution.id (outward x) :)

theorem workflow : (f x).workflow = x.workflow := (congrArg Execution.workflow (outward x) :)

end Execution.Outward

namespace Engine

/-- An invariant that each elementary step keeps; entries and markers are stored on behalf of attended
executions only, and markers keep what is carried by the executions that they are stored for. -/
structure Habit (I : Engine → Prop) (attended : String → Prop) : Prop where
  alter {id : String} {f : Execution → Execution} (outward : Execution.Outward f) : Keeps I (modifyExecution id f)
  clock (f : Engine → Clock) : Keeps I (modify fun e => { e with clock := f e })
  network (f : Engine → Network) : Keeps I (modify fun e => { e with network := f e })
  retire (id : String) : Keeps I (modify fun e => { e with live := e.live.filter (· != id) })
  stop (f : Engine → Clock) (accepting : Bool) :
    Keeps I (modify fun e => { e with clock := f e, live := [], accepting })
  close : Keeps I (modify fun e => { e with accepting := false })
  journal (f : Engine → Journal) :
    Keeps I (modify fun e => { e with storage := { e.storage with journal := f e } })
  appendLog {id : String} (known : attended id) (tenant : Value) (entry : LogEntry) :
    Keeps I (liftM (Storage.appendLog id tenant entry) : Run Unit)
  saveMarker {id : String} (known : attended id) {e : Engine} {x : Execution} (holds : I e)
    (there : e.execution? id = some x) (node : String) (resumeAt : Instant) :
    Ends (liftM (Storage.saveMarker id node resumeAt x.snapshot) : Run Nat) e (fun _ t => I t) fun _ t => I t
  clearMarker (id : Int) : Keeps I (liftM (Storage.clearMarker id) : Run Unit)
  clearMarkers (id : String) : Keeps I (liftM (Storage.clearMarkers id) : Run Nat)
  setStatus (id : String) (status error time : Value) :
    Keeps I (liftM (Storage.setExecutionStatus id status error time) : Run Unit)

namespace Habit

variable {I : Engine → Prop} {attended : String → Prop} (habit : Habit I attended) {id : String}

include habit

theorem note {level : Level} {logger message : String} {context : Dict} :
    Keeps I (note level logger message context) :=
  habit.journal fun e => e.storage.journal.write level logger message context none

theorem log (known : attended id) (level : LogLevel) (message node : String) :
    Keeps I (log level id message node) := by
  refine .bind (.execution id) fun x => .bind (habit.alter (by intro; rfl)) fun _ =>
    .bind habit.note fun _ => .get fun _ => .ite (fun _ => ?_) fun _ => .pure _
  exact .onStorageError (habit.appendLog known _ _) fun _ => habit.note

theorem manner : Manner I attended where
  alter outer := habit.alter fun x =>
    congrArg (fun y : Execution => { y with activeLoops := x.activeLoops, logs := x.logs }) (outer x)
  clock := habit.clock
  retire := habit.retire
  close := habit.close
  note _ := habit.note
  bind fields := habit.journal fun e => { e.storage.journal with bound := fields }
  say known _ _ := habit.log known _ _ _
  saveMarker := habit.saveMarker
  clearMarkers := habit.clearMarkers
  setStatus := habit.setStatus

/-! Executions wait and come to their end. -/

theorem fail (id message : String) : Keeps I (fail id message) := habit.manner.fail id message

theorem branchFinished (known : attended id) : Keeps I (branchFinished id) :=
  habit.manner.branchFinished known

/-- What is cancelled is told about as well. -/
theorem cancelled (known : attended id) (x : Execution) : Keeps I (do
    if !x.isActive then return false
    modifyExecution id fun x => { x with status := .cancelled, error := some "Execution cancelled" }
    Engine.dropPending id
    logWarning id "Workflow execution cancelled" ""
    Engine.finalize id
    Engine.note .info logger ("Cancelled workflow execution: " ++ id) []
    return true) := habit.manner.cancelled known x

theorem scheduleContinuation (id node : String) (seconds : Float) (marker : Nat) :
    Keeps I (scheduleContinuation id node seconds marker) :=
  habit.manner.scheduleContinuation id node seconds marker

theorem runDelay (known : attended id) (n : Node) (amount : Value) (unit : String) :
    Keeps I (runDelay id n amount unit) := habit.manner.runDelay known n amount unit

theorem runBranch (known : attended id) {branch : Run Unit} (run : Keeps I branch) (report : String) :
    Keeps I (runBranch id report branch) := habit.manner.runBranch known run report

/-! The engine stops, and a new one takes its place. -/

theorem shutdown : Keeps I shutdown := habit.manner.shutdown

theorem restart (now : Float) : Keeps I (restart now) :=
  .bind habit.shutdown fun _ => .bind (habit.stop (fun _ => Clock.starting now) true) fun _ => habit.note

end Habit

end Engine

end Runbook
