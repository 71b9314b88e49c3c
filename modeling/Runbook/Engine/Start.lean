import Runbook.Engine.Traversal

/-!
How executions begin. An execution is created and stored, becomes live and walks from its
trigger. An event starts every active workflow of its module that waits for it. Actions may start
further executions, which run before the action goes on.
-/
namespace Runbook.Engine

/-- Runs the main branch of an execution, unless no more work is taken on. -/
def submit (launch : Launch) (id node : String) : Run Unit := do
  if (← get).accepting then
    runBranch id ("Unexpected error in execution " ++ id) do
      walk launch id (depthOf (← execution id)) node
  else
    let message := "Execution could not be scheduled: cannot schedule new futures after shutdown"
    logError id message ""
    fail id message

/-- Starts an execution of a definition; answers its id. -/
def startExecution (launch : Launch) (w : Workflow) (payload : Value) (module item : Value) :
    Run String := do
  let payload ← ofExcept payload.toDict
  let id ← Storage.createExecution (.ofText? w.id) (.text w.tenant) (.dict payload) module item
  modify fun e => (e.putExecution {
    id, workflow := w, module, item, triggerData := payload
    vars := initialVariables payload w.vars })
  modify fun e => { e with live := e.live ++ [id] }
  note .info logger ("Started execution " ++ id ++ " of workflow " ++ w.id.getD "") []
  logInfo id ("Workflow execution started: " ++ w.name) ""
  match w.trigger? with
  | none =>
    logError id "No trigger node found in workflow" ""
    fail id "No trigger node found in workflow"
  | some trigger => submit launch id trigger.id
  return id

/-- Starts an execution of a stored workflow. -/
def executeWith (launch : Launch) (workflow : Value) (payload module item : Value) : Run String := do
  let w ← Storage.loadWorkflow workflow.display
  startExecution launch w payload module item

/-- The module of executions that actions start. -/
def childModule : Value := .text "tickets"

/-- Starts for actions, at most so deep inside one another. -/
def launchAt : Nat → Launch
  | 0 => fun _ _ => throw exhausted
  | depth + 1 => fun workflow payload =>
    executeWith (launchAt depth) workflow payload childModule .null

/-- Actions may start executions whose actions start executions, and so on, this deep. -/
def nesting : Nat := 100

def launch : Launch := launchAt nesting

/-- Starts an execution of a stored workflow. -/
def execute (workflow : String) (payload module item : Value) : Run String :=
  executeWith launch (.text workflow) payload module item

/-- The logger of events. -/
def routerLogger : String := "deskflow.core.trigger_router"

/-- Handles failures of the program, and no others. -/
def onProgramError {α : Type} (x : Run α) (handle : ProgramError → Run α) : Run α :=
  tryCatch x fun f =>
    match f with
    | .program e => handle e
    | f => throw f

/-- Starts the workflow in a row if it waits for the event. -/
def routeRow (event : Option String) (payload module item : Value) (row : Store.WorkflowRow) :
    Run (Option String) := do
  let parsed ← onProgramError (some <$> ofExcept (Workflow.parse row.record)) fun e => do
    note .warning routerLogger ("Skipping malformed workflow " ++ row.id ++ ": " ++ e.text) []
    return none
  match parsed with
  | none => return none
  | some w =>
    let waiting := match event with
      | some event => w.triggerFor? event
      | none => w.trigger?
    if waiting.isNone then return none
    onProgramError (some <$> startExecution launch w payload module item) fun e => do
      note .error routerLogger ("Failed to start workflow " ++ row.id ++ ": " ++ e.text) []
      return none

/-- Starts every active workflow of a module that waits for an event; answers the ids. -/
def trigger (module : String) (event : Option String) (payload item : Value) :
    Run (List String) := do
  let rows ← onProgramError (some <$> Storage.activeWorkflows module) fun e => do
    note .error routerLogger
      ("Failed to load active workflows for " ++ module ++ ": " ++ e.text) []
    return none
  match rows with
  | none => return []
  | some rows =>
    let started ← rows.mapM (routeRow event payload (.text module) item)
    let ids := started.filterMap fun x => x
    note .info routerLogger ("Trigger " ++ module ++ "/" ++ (event.getD "None") ++ " started " ++
      toString ids.length ++ " execution(s)") []
    return ids

end Runbook.Engine
