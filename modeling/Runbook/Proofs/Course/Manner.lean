import Runbook.Proofs.Course.Births

/-!
In which manner executions wait and come to their end. It takes few elementary steps: an execution
changes beside the way that it has taken, a timer is set or taken off, the storage is asked for
something, and something is said. An invariant that each of them keeps is kept by all of it.
-/
namespace Runbook

namespace Keeps

variable {I : Engine → Prop}

theorem onStorageError {x : Run Unit} {handle : ProgramError → Run Unit} (first : Keeps I x)
    (next : ∀ p, Keeps I (handle p)) : Keeps I (Engine.onStorageError x handle) :=
  .tryCatch first fun f => by
    cases f with
    | program p => exact .ite (fun _ => next p) fun _ => .throw _
    | _ => exact .throw _

/-- Looking up changes nothing. -/
theorem execution (id : String) : Keeps I (Engine.execution id) :=
  .get fun e => by
    cases e.execution? id with
    | some x => exact .pure x
    | none => exact .throw _

/-- What is looked up is known. -/
theorem lookUp {α : Type} {id : String} {k : Execution → Run α}
    (next : ∀ e x, I e → e.execution? id = some x → Ends (k x) e (fun _ t => I t) fun _ t => I t) :
    Keeps I (Engine.execution id >>= k) := by
  intro e kept
  refine Ends.bind (Ends.bind (Ends.get_iff.2 ?_))
  cases known : e.execution? id with
  | none => exact Ends.throw_iff.2 kept
  | some x => exact Ends.pure_iff.2 (next e x kept known)

theorem isActive (id : String) : Keeps I (Engine.isActive id) :=
  .bind (execution id) fun _ => .pure _

end Keeps

/-- A change of an execution beside the way that it takes and what it says and carries on it. -/
def Execution.Outer (f : Execution → Execution) : Prop := ∀ x, { f x with
  timers := x.timers, status := x.status, error := x.error, branches := x.branches, done := x.done } = x

/-- A remark that tells of no node that is entered, and is no summary of an action. -/
def Remark.isAside : Remark → Bool
  | .processing _ _ | .missing _ | .summary _ _ => false
  | _ => true

namespace Engine

/-- An invariant that each elementary step keeps by which executions wait and come to their end. Only
attended executions have something said, and markers keep what is carried by the executions that they
are stored for. -/
structure Manner (I : Engine → Prop) (attended : String → Prop) : Prop where
  alter {id : String} {f : Execution → Execution} (outer : Execution.Outer f) : Keeps I (modifyExecution id f)
  clock (f : Engine → Clock) : Keeps I (modify fun e => { e with clock := f e })
  retire (id : String) : Keeps I (modify fun e => { e with live := e.live.filter (· != id) })
  close : Keeps I (modify fun e => { e with accepting := false })
  note {level : Level} {logger message : String} {context : Dict} (other : logger ≠ "deskflow.execution") :
    Keeps I (note level logger message context)
  bind (fields : Dict) : Keeps I (modify fun e => { e with
    storage := { e.storage with journal := { e.storage.journal with bound := fields } } })
  say {id : String} (known : attended id) {r : Remark} (aside : r.isAside = true) :
    Keeps I (log r.level id r.message r.node)
  saveMarker {id : String} (known : attended id) {e : Engine} {x : Execution} (holds : I e)
    (there : e.execution? id = some x) (node : String) (resumeAt : Instant) :
    Ends (liftM (Storage.saveMarker id node resumeAt x.snapshot) : Run Nat) e (fun _ t => I t) fun _ t => I t
  clearMarkers (id : String) : Keeps I (liftM (Storage.clearMarkers id) : Run Nat)
  setStatus (id : String) (status error time : Value) :
    Keeps I (liftM (Storage.setExecutionStatus id status error time) : Run Unit)

namespace Manner

variable {I : Engine → Prop} {attended : String → Prop} (manner : Manner I attended) {id : String}

include manner

/-- What the engine notes about itself. -/
theorem noted {level : Level} {message : String} : Keeps I (Engine.note level logger message []) :=
  manner.note (by decide)

/-! Executions come to their end. -/

theorem finalize (id : String) : Keeps I (finalize id) := by
  refine .bind (.execution id) fun x => .andAlways ?_ ?_
  · exact .onStorageError (manner.setStatus _ _ _ _) fun _ => manner.noted
  · exact .bind (manner.alter (by intro; rfl)) fun _ => .bind (manner.retire id) fun _ => manner.noted

theorem dropTimers (id : String) : Keeps I (dropTimers id) :=
  .bind (.execution id) fun x => .bind (manner.alter (by intro; rfl)) fun _ =>
    manner.clock fun e => e.clock.cancel (x.timers.flatMap (·.2))

theorem dropPending (id : String) : Keeps I (dropPending id) :=
  .bind (manner.dropTimers id) fun _ => .onStorageError
    (.bind (manner.clearMarkers id) fun _ => .pure _) fun _ => manner.noted

theorem fail (id message : String) : Keeps I (fail id message) :=
  .bind (.isActive id) fun _ => .ite (fun _ => .bind (manner.alter (by intro; rfl))
    fun _ => .bind (manner.dropPending id) fun _ => manner.finalize id) fun _ => .pure _

theorem branchFinished (known : attended id) : Keeps I (branchFinished id) :=
  .bind (.execution id) fun _ => .bind (manner.alter (by intro; rfl)) fun _ =>
    .ite (fun _ => .bind (manner.say known (r := .completed) rfl) fun _ => manner.finalize id) fun _ => .pure _

/-- What is cancelled is told about as well. -/
theorem cancelled (known : attended id) (x : Execution) : Keeps I (do
    if !x.isActive then return false
    modifyExecution id fun x => { x with status := .cancelled, error := some "Execution cancelled" }
    Engine.dropPending id
    logWarning id "Workflow execution cancelled" ""
    Engine.finalize id
    Engine.note .info logger ("Cancelled workflow execution: " ++ id) []
    return true) := by
  refine .ite (fun _ => .pure _) fun _ => .bind (manner.alter (by intro; rfl)) fun _ =>
    .bind (manner.dropPending id) fun _ => ?_
  exact .bind (manner.say known (r := .cancelled) rfl) fun _ => .bind (manner.finalize id) fun _ =>
    .bind manner.noted fun _ => .pure _

/-! Delays and branches. -/

theorem scheduleContinuation (id node : String) (seconds : Float) (marker : Nat) :
    Keeps I (scheduleContinuation id node seconds marker) := by
  refine .bind (.isActive id) fun _ => .ite (fun _ => .get fun e => ?_) fun _ => .pure _
  exact .bind (manner.clock fun _ => (e.clock.schedule seconds id node marker).2) fun _ =>
    manner.alter (by intro; rfl)

theorem runDelay (known : attended id) (n : Node) (amount : Value) (unit : String) :
    Keeps I (runDelay id n amount unit) := by
  refine .lookUp fun e x holds there => ?_
  refine Ends.bind (ends_ofExcept.2 ⟨fun seconds _ => ?_, fun _ _ => holds⟩)
  refine Ends.bind (Ends.get_iff.2 (Ends.bind (ends_ofExcept.2 ⟨fun resumeAt _ => ?_, fun _ _ => holds⟩)))
  have saved := manner.saveMarker known holds there n.id resumeAt
  refine Ends.bind (saved.imp (fun marker t holds => ?_) fun _ _ h => h)
  exact Keeps.bind (manner.say known (r := .delaying n.id seconds) rfl)
    (fun _ => manner.scheduleContinuation _ _ _ _) t holds

theorem runBranch (known : attended id) {branch : Run Unit} (run : Keeps I branch) (report : String) :
    Keeps I (runBranch id report branch) := by
  refine .bind (.execution id) fun x => .bind (.observe (.andAlways (.tryCatch ?_ fun f => ?_)
    (manner.branchFinished known))) fun _ => .pure _
  · exact .get fun e => .bind (manner.bind _) fun _ => .andAlways run (manner.bind _)
  · exact .bind manner.noted fun _ => manner.fail id f.text

/-! The engine stops. -/

theorem shutdown : Keeps I shutdown :=
  .get fun _ => .bind (.forM _ manner.dropTimers) fun _ => .bind manner.close fun _ => manner.noted

end Manner

end Engine

end Runbook
