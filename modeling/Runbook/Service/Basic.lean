import Runbook.Engine.Operation
import Runbook.Health
import Runbook.Journal.Logbook
import Runbook.Service.Endpoint
import Runbook.Service.Executions
import Runbook.Service.Workflows
import Runbook.Settings.Basic

/-!
The service: an engine with settings and health checks that answers requests.
-/
namespace Runbook

/-- A running service. -/
structure Service where
  settings : Settings
  engine : Engine
  /-- Checks besides the usual ones; one of the same name takes the place of a usual one. -/
  checks : List Check := []

namespace Settings

/-- How the log is kept. -/
def logSetup (s : Settings) : LogSetup where
  level := s.logLevel.name
  file := s.logFile
  format := s.logFormat
  structured := s.structuredLogging
  maxSize := s.logMaxSize
  backups := s.logBackups

/-- A new engine on a storage. -/
def engine (s : Settings) (storage : Storage) (network : Network) (now : Float) : Engine :=
  let timeout : Value := .float s.httpTimeout
  { storage, network := { network with timeout }, clock := Clock.starting now
    registry := .standard timeout, loopLimit := s.maxLoopIterations }

/-- The name of the service in addresses. -/
def serviceName (s : Settings) : String :=
  String.ofList ((Text.lower s.appName).toList.map fun c => if c = ' ' then '-' else c)

end Settings

namespace Service

/-- The checks that every service has. -/
def usualChecks (e : Engine) : List Check :=
  let passed (message : String) (more : List (String × Value)) : CheckOutcome :=
    .passed (.record ([("status", .text "healthy"), ("message", .text message)] ++ more))
  [{ name := "database", outcome := passed "Database connection successful" [] },
    { name := "execution_engine", timeout := .float 3.0
      outcome := passed "Execution engine operational"
        [("active_executions", .int e.activeIds.length)] },
    { name := "action_dispatcher", timeout := .float 2.0
      outcome := passed "Action dispatcher operational"
        [("registered_actions", .int e.registry.descriptions.length)] }]

/-- All checks of a service, in the order in which they are run. -/
def checker (e : Engine) (more : List Check) : HealthChecker :=
  (usualChecks e ++ more).foldl HealthChecker.register {}

/-- Sets up a service: its settings are checked, its log is begun, and pending delays are taken up
again. -/
def start (s : Settings) (folder : Folder) (storage : Storage) (network : Network) (now : Float) :
    Except Failure Service := do
  let (problem, folder) := s.validate folder
  match problem with
  | some e => throw (.program e)
  | none =>
    let _ ← Logbook.start s.logSetup folder
    let engine := s.engine storage network now
    if s.resumeDelays then
      match Engine.resume.run engine with
      | .ok _ engine => return { settings := s, engine }
      | .error f _ => throw f
    else return { settings := s, engine }

/-- Says that the service is there. -/
def greeting (s : Settings) : Answer :=
  .ok (.record [("message", .text (s.appName ++ " is running")), ("version", .text s.appVersion)])

def health (s : Settings) : Answer :=
  .ok (.record [("status", .text "healthy"), ("service", .text s.serviceName),
    ("version", .text s.appVersion)])

/-- The results of all checks. -/
def detailedHealth (s : Settings) (checker : HealthChecker) : Answer :=
  let (results, _) := checker.runAll
  ⟨.int (if HealthChecker.isHealthy results then 200 else 503), .data (.record [
    ("service", .text s.serviceName), ("version", .text s.appVersion),
    ("overall_status", .text (HealthChecker.overall results)),
    ("checks", .record (results.map fun (name, d) => (name, .dict d))), ("timestamp", .untold)])⟩

/-- The registered actions, by name. -/
def listActions (e : Engine) : Answer :=
  let actions := e.registry.descriptions.mergeSort fun a b => decide (a.1 ≤ b.1)
  .ok (.record [
    ("actions", .list (actions.map fun (name, d) =>
      .record [("action_type", .text name), ("description", .text d)])),
    ("count", .int actions.length), ("timestamp", .untold)])

/-- What an endpoint answers to a request. -/
def answer (s : Service) (r : Request) (e : Endpoint) (parameters : List String) : Run Answer :=
  let id := parameters.headD ""
  match e with
  | .createWorkflow => createWorkflow r.body
  | .listWorkflows => listWorkflows r
  | .loadWorkflow => loadWorkflow id
  | .replaceWorkflow => replaceWorkflow id r.body
  | .deleteWorkflow => deleteWorkflow id
  | .cloneWorkflow => cloneWorkflow id r.body
  | .listExecutions => listExecutions id r
  | .setStatus => setStatus id r.body
  | .execute => execute id r.body
  | .trigger => trigger r.body
  | .loadExecution => loadExecution id
  | .executionLog => executionLog id
  | .executionDetails => executionDetails id
  | .cancelExecution => cancelExecution id
  | .listActions => return listActions (← get)
  | .greeting => return greeting s.settings
  | .health => return health s.settings
  | .detailedHealth => return detailedHealth s.settings (checker (← get) s.checks)

/-- What a request is answered, with its content. -/
def respondFully (s : Service) (r : Request) : Answer × Service :=
  match Route.find r.method r.path with
  | .nowhere => (.refused 404 "Not Found", s)
  | .wrongMethod => (.refused 405 "Method Not Allowed", s)
  | .found e parameters =>
    match (s.answer r e parameters).run s.engine with
    | .ok a engine => (a, { s with engine })
    | .error f engine => (.ofFailure f, { s with engine })

/-- Answers a request. One that asks for the head alone is answered without content. -/
def respond (s : Service) (r : Request) : Answer × Service :=
  let (a, s) := s.respondFully r
  (if r.method = "HEAD" then { a with content := .empty } else a, s)

/-- Runs an operation of the engine. -/
def carryOut (s : Service) (op : Operation) : Except Failure Value × Service :=
  match (Engine.carryOut op).run s.engine with
  | .ok v engine => (.ok v, { s with engine })
  | .error f engine => (.error f, { s with engine })

end Service

end Runbook
