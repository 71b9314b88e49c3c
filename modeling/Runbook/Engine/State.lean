import Runbook.Action.Registry
import Runbook.Store.Workflows
import Runbook.Store.Executions

/-!
The state of the engine. An execution carries its variables, the way it has taken and the branches
that it still waits for; the engine holds all executions it has known, and says which are live.
-/
namespace Runbook

/-- An execution as the engine holds it in memory. -/
structure Execution where
  id : String
  workflow : Workflow
  module : Value
  item : Value
  triggerData : Dict
  vars : Dict
  /-- The ids of the nodes that are not entered again. -/
  visited : List String := []
  /-- The ids of the nodes entered so far. -/
  path : List String := []
  /-- How many iterations each loop has begun. -/
  counters : List (String × Int) := []
  /-- The loops that are iterating at the moment. -/
  activeLoops : List String := []
  /-- The pending timers of each delay. -/
  timers : List (String × List Nat) := []
  logs : List LogEntry := []
  status : ExecutionStatus := .running
  error : Option String := none
  /-- The main branch, while it runs, and the delays it waits for. -/
  branches : Int := 1
  /-- Its end has been made known. -/
  done : Bool := false

namespace Execution

/-- Nodes are entered only while it is running. -/
def isActive (e : Execution) : Bool := e.status == .running

/-- How many iterations a loop has begun. -/
def counter (e : Execution) (node : String) : Int :=
  ((e.counters.find? (·.1 == node)).map (·.2)).getD 0

def putCounter : List (String × Int) → String → Int → List (String × Int)
  | [], node, n => [(node, n)]
  | (k, m) :: rest, node, n => if k == node then (k, n) :: rest else (k, m) :: putCounter rest node n

/-- Notes that a loop has begun so many iterations. -/
def setCounter (e : Execution) (node : String) (n : Int) : Execution :=
  { e with counters := putCounter e.counters node n }

/-- Enters a node: it counts as visited and goes to the end of the path. -/
def enter (e : Execution) (node : String) : Execution :=
  { e with
    visited := if e.visited.contains node then e.visited else e.visited ++ [node]
    path := e.path ++ [node] }

def addTimer : List (String × List Nat) → String → Nat → List (String × List Nat)
  | [], node, t => [(node, [t])]
  | (k, ts) :: rest, node, t =>
    if k == node then (k, ts ++ [t]) :: rest else (k, ts) :: addTimer rest node t

/-- Takes a timer off the list; a delay with no timer left is dropped. -/
def dropTimer (timers : List (String × List Nat)) (node : String) (t : Nat) :
    List (String × List Nat) :=
  timers.filterMap fun (k, ts) =>
    if k == node then
      let left := ts.filter (· != t)
      if left.isEmpty then none else some (k, left)
    else some (k, ts)

theorem counter_setCounter_self (e : Execution) (node : String) (n : Int) :
    (e.setCounter node n).counter node = n := by
  simp only [setCounter, counter]
  induction e.counters with
  | nil => simp [putCounter]
  | cons c rest ih =>
    obtain ⟨k, m⟩ := c
    by_cases h : k = node <;> simp_all [putCounter]

theorem counter_setCounter_of_ne (e : Execution) {node other : String} (n : Int) (h : other ≠ node) :
    (e.setCounter node n).counter other = e.counter other := by
  simp only [setCounter, counter]
  induction e.counters with
  | nil => simp [putCounter, h.symm]
  | cons c rest ih =>
    obtain ⟨k, m⟩ := c
    by_cases hk : k = node
    · subst hk; simp [putCounter, h.symm]
    · by_cases ho : k = other <;> simp_all [putCounter]

theorem path_enter (e : Execution) (node : String) : (e.enter node).path = e.path ++ [node] := rfl

theorem mem_visited_enter {e : Execution} {node other : String} :
    other ∈ (e.enter node).visited ↔ other = node ∨ other ∈ e.visited := by
  simp only [enter]
  split
  · rename_i h
    simp only [List.contains_eq_mem, decide_eq_true_eq] at h
    exact ⟨.inr, fun h' => h'.elim (· ▸ h) fun h' => h'⟩
  · simp [or_comm]

/-- What actions are told about it. -/
def caller (e : Execution) : Action.Caller where
  execution := e.id
  tenant := e.workflow.tenant
  module := e.module
  item := e.item
  triggerData := e.triggerData
  vars := e.vars

end Execution

/-- An execution of nothing, on behalf of which single actions can be run. -/
def Execution.bench (tenant : String) (module item : Value) (triggerData vars : Dict) :
    Execution where
  id := "bench"
  workflow := ⟨none, tenant, "", none, "", .draft, [], [], [], 1⟩
  module := module
  item := item
  triggerData := triggerData
  vars := vars

/-- The engine with everything it works on. -/
structure Engine where
  storage : Storage := {}
  clock : Clock := Clock.starting Clock.epoch
  network : Network := {}
  registry : Action.Registry
  /-- Every execution it has known; of two lives of one, the last. -/
  executions : List Execution := []
  /-- The executions that are not over, in the order in which they became live. -/
  live : List String := []
  /-- Work is taken on until the engine shuts down. -/
  accepting : Bool := true
  /-- The most iterations that a loop may begin. -/
  loopLimit : Option Int := some 10000
  /-- Log entries are stored as well. -/
  storesLog : Bool := true

/-- An operation of the engine. -/
abbrev Run := EStateM Failure Engine

namespace Engine

/-- A storage operation touches only the storage. -/
def onStorage {α : Type} (x : StorageM α) : Run α := fun e =>
  match x e.storage with
  | .ok a s => .ok a { e with storage := s }
  | .error f s => .error f { e with storage := s }

instance : MonadLift StorageM Run := ⟨onStorage⟩

/-- The outcome of an operation, as a value. -/
def observe {α : Type} (x : Run α) : Run (Except Failure α) :=
  tryCatch (Except.ok <$> x) fun f => pure (.error f)

def ofExcept {α : Type} : Except Failure α → Run α
  | .ok a => pure a
  | .error f => throw f

/-- Does something more, whether an operation succeeds or fails. -/
def andAlways {α : Type} (x : Run α) (last : Run Unit) : Run α := do
  let outcome ← observe x
  last
  ofExcept outcome

/-- Handles storage errors, and no others. -/
def onStorageError (x : Run Unit) (handle : ProgramError → Run Unit) : Run Unit :=
  tryCatch x fun f =>
    match f with
    | .program e => if e.kind = .storage then handle e else throw f
    | f => throw f

/-- Writes a record to the process log. -/
def note (level : Level) (logger message : String) (context : Dict) : Run Unit :=
  modify fun e => { e with storage := { e.storage with
    journal := e.storage.journal.write level logger message context none } }

/-- The logger of the engine. -/
def logger : String := "deskflow.core.execution_engine"

/-- Binds fields of the process log while an operation runs. -/
def withFields {α : Type} (fields : Dict) (x : Run α) : Run α := do
  let old := (← get).storage.journal.bound
  let setBound (d : Dict) : Run Unit := modify fun e =>
    { e with storage := { e.storage with journal := { e.storage.journal with bound := d } } }
  setBound (Dict.merge old fields)
  andAlways x (setBound old)

def execution? (e : Engine) (id : String) : Option Execution := e.executions.find? (·.id == id)

/-- The execution with an id, when it is live. -/
def liveExecution? (e : Engine) (id : String) : Option Execution :=
  if e.live.contains id then e.execution? id else none

/-- Replaces the execution with the same id, or adds one. -/
def putExecution (e : Engine) (x : Execution) : Engine :=
  { e with executions :=
      if e.executions.any (·.id == x.id) then e.executions.map fun y => if y.id == x.id then x else y
      else e.executions ++ [x] }

def unknownExecution : Failure := .plain .runtime "execution is not known"

/-- The execution with an id. -/
def execution (id : String) : Run Execution := do
  match (← get).execution? id with
  | some x => return x
  | none => throw unknownExecution

def modifyExecution (id : String) (f : Execution → Execution) : Run Unit :=
  modify fun e => { e with executions := e.executions.map fun x => if x.id == id then f x else x }

def isActive (id : String) : Run Bool := do return (← execution id).isActive

end Engine

end Runbook
