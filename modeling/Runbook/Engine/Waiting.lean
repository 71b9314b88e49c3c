import Runbook.Engine.Operation

/-!
Waiting for executions. While an execution is live the clock moves from one timer to the next; at
the deadline the wait ends, whatever the status is then.
-/
namespace Runbook.Engine

/-- Fires the timers that are due already. -/
def settle : Run Unit := do moveTo (← get).clock.now

/-- Waits until an execution is over, or until a deadline. At most `fuel` points in time are passed
on the way. -/
def waitUntil (deadline : Option Float) (id : String) : Nat → Run Unit
  | 0 => return
  | fuel + 1 => do
    let e ← get
    match e.liveExecution? id, e.clock.nextDue? with
    | some _, some due =>
      match deadline with
      | some t => if due ≤ t then do moveTo due; waitUntil deadline id fuel else return
      | none => do moveTo due; waitUntil deadline id fuel
    | _, _ => return

/-- The most points in time that are passed in one wait. -/
def patience : Nat := 100000

/-- Waits for an execution, not longer than some seconds when there is a limit; answers its status
then. -/
def waitFor (id : String) (seconds : Option Float) : Run ExecutionStatus := do
  settle
  waitUntil (seconds.map ((← get).clock.now + ·)) id patience
  statusOf id

end Runbook.Engine
