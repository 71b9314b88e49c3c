import Runbook.Store.Cell
import Runbook.Store.Outage
import Runbook.Store.Tables
import Runbook.Retry

/-!
Sessions. A session works on a copy of the tables and puts it in place when all went well, so an
operation that fails leaves the tables as they were. Writes that matter are tried again.
-/
namespace Runbook

/-- The tables, and what their operations use besides: fresh ids, planned outages, the seconds
slept between attempts, and the process log. -/
structure Storage where
  tables : Store := {}
  nextId : Nat := 1
  outages : List Store.Outage := []
  slept : List Value := []
  journal : Journal := Journal.empty

/-- An operation on the storage; it may fail after it has had effects. -/
abbrev StorageM := EStateM Failure Storage

namespace Storage

/-- A new id. -/
def freshId : StorageM String := do
  let n := (← get).nextId
  modify fun s => { s with nextId := n + 1 }
  return "id-" ++ toString n

def freshIds : Nat → StorageM (List String)
  | 0 => return []
  | n + 1 => do return (← freshId) :: (← freshIds n)

/-- Writes a record to the process log. -/
def note (level : Level) (logger message : String) : StorageM Unit :=
  modify fun s => { s with journal := s.journal.write level logger message [] none }

/-- The logger of this part. -/
def logger : String := "deskflow.storage.repositories"

/-- Opens a session, unless an outage refuses it. -/
def openSession (operation table : String) : StorageM Unit := do
  let (hit, rest) := Store.Outage.strike operation (← get).outages
  modify fun s => { s with outages := rest }
  match hit with
  | some o => throw (o.failure table)
  | none => return

/-- The work of an open session. What the database rejects becomes a storage error. -/
def transact {α : Type} (operation table : String)
    (work : Store → Except Store.Refusal (α × Store)) : StorageM α := do
  match work (← get).tables with
  | .ok (a, tables) =>
    modify fun s => { s with tables }
    return a
  | .error .rejected =>
    note .error logger ("Database error during " ++ operation)
    throw (.program (.storage operation table none))
  | .error (.raised f) => throw f

/-- A whole session. -/
def session {α : Type} (operation table : String)
    (work : Store → Except Store.Refusal (α × Store)) : StorageM α := do
  openSession operation table
  transact operation table work

/-- A session that only reads. -/
def query {α : Type} (operation table : String) (read : Store → Except Store.Refusal α) :
    StorageM α :=
  session operation table fun s => do return (← read s, s)

/-- Writes are tried three times, with a short wait between the attempts. -/
def writePolicy : RetryPolicy where
  maxAttempts := 3
  baseDelay := .real 0.2
  maxDelay := .real 2.0
  retryable := ["StorageError", "TransientError"]

/-- Reports a failed attempt and waits. -/
def awaitRetry (name : String) (attempt : Nat) (f : Failure) : StorageM Unit := do
  modify fun s => { s with
    journal := Retry.reportFailed s.journal name name attempt writePolicy.maxAttempts f }
  match writePolicy.delay 0.0 attempt with
  | .ok d => modify fun s => { s with slept := s.slept ++ [d.value] }
  | .error g => throw g

/-- Runs an operation as often as the policy for writes allows. -/
def retrying {α : Type} (name : String) (call : StorageM α) : StorageM α :=
  writePolicy.run {
    failed := awaitRetry name
    gaveUp := fun used f => modify fun s => { s with
      journal := Retry.reportGaveUp s.journal name name used f } } call

end Storage

end Runbook
