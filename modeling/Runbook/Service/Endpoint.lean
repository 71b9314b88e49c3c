import Runbook.Text.Search

/-!
The endpoints of the service. Each has a method and a pattern of path segments, of which some are
parameters. A path that only lacks or has too many slashes at its end is still found.
-/
namespace Runbook.Service

/-- A segment of a path: a fixed text, or any text but the empty one. -/
inductive Segment where
  | fixed (s : String)
  | parameter (name : String)
  deriving DecidableEq, Repr

/-- Everything that the service answers. -/
inductive Endpoint where
  | createWorkflow
  | listWorkflows
  | loadWorkflow
  | replaceWorkflow
  | deleteWorkflow
  | cloneWorkflow
  | listExecutions
  | setStatus
  | execute
  | trigger
  | loadExecution
  | executionLog
  | executionDetails
  | cancelExecution
  | listActions
  | greeting
  | health
  | detailedHealth
  deriving DecidableEq, Repr

namespace Endpoint

def all : List Endpoint := [
  .createWorkflow, .listWorkflows, .loadWorkflow, .replaceWorkflow, .deleteWorkflow, .cloneWorkflow,
  .listExecutions, .setStatus, .execute, .trigger, .loadExecution, .executionLog, .executionDetails,
  .cancelExecution, .listActions, .greeting, .health, .detailedHealth]

def method : Endpoint → String
  | .createWorkflow | .cloneWorkflow | .setStatus | .execute | .trigger | .cancelExecution => "POST"
  | .replaceWorkflow => "PUT"
  | .deleteWorkflow => "DELETE"
  | _ => "GET"

/-- The segments below the common part of all paths about workflows and executions. -/
def below (segments : List Segment) : List Segment := .fixed "api" :: .fixed "v1" :: segments

def workflow (rest : List Segment) : List Segment :=
  below (.fixed "workflows" :: .parameter "workflow_id" :: rest)

def execution (rest : List Segment) : List Segment :=
  below (.fixed "executions" :: .parameter "execution_id" :: rest)

def pattern : Endpoint → List Segment
  | .createWorkflow | .listWorkflows => below [.fixed "workflows"]
  | .loadWorkflow | .replaceWorkflow | .deleteWorkflow => workflow []
  | .cloneWorkflow => workflow [.fixed "clone"]
  | .listExecutions => workflow [.fixed "executions"]
  | .setStatus => workflow [.fixed "status"]
  | .execute => workflow [.fixed "execute"]
  | .trigger => below [.fixed "triggers"]
  | .loadExecution => execution []
  | .executionLog => execution [.fixed "logs"]
  | .executionDetails => execution [.fixed "details"]
  | .cancelExecution => execution [.fixed "cancel"]
  | .listActions => below [.fixed "actions"]
  | .greeting => [.fixed ""]
  | .health => [.fixed "health"]
  | .detailedHealth => [.fixed "health", .fixed "detailed"]

/-- A segment as it is written in a pattern. -/
def segmentText : Segment → String
  | .fixed s => s
  | .parameter name => "\x7b" ++ name ++ "\x7d"

/-- The method and the pattern of an endpoint. -/
def text (e : Endpoint) : String :=
  e.method ++ " /" ++ "/".intercalate (e.pattern.map segmentText)

end Endpoint

/-- The parameters of a path that fits a pattern. -/
def parametersOf? : List Segment → List String → Option (List String)
  | [], [] => some []
  | .fixed s :: pattern, t :: path => if s = t then parametersOf? pattern path else none
  | .parameter _ :: pattern, t :: path =>
    if t = "" then none else (parametersOf? pattern path).map (t :: ·)
  | _, _ => none

/-- Where a request goes. -/
inductive Route where
  | found (e : Endpoint) (parameters : List String)
  | wrongMethod
  | nowhere

/-- The segments of a path. -/
def segmentsOf (path : String) : List String :=
  ((Text.splitOnChar '/' path.toList).map String.ofList).drop 1

/-- The endpoints whose pattern a path fits, with its parameters. -/
def candidates (path : String) : List (Endpoint × List String) :=
  Endpoint.all.filterMap fun e => (parametersOf? e.pattern (segmentsOf path)).map (e, ·)

/-- A path without the slashes at its end. -/
def withoutEnd (path : String) : String :=
  String.ofList ((path.toList.reverse.dropWhile (· == '/')).reverse)

/-- Finds the endpoint of a request. -/
def Route.find (method path : String) : Route :=
  let fitting := match candidates path with
    | [] => candidates (withoutEnd path)
    | fitting => fitting
  match fitting.find? (·.1.method == method), fitting with
  | some (e, parameters), _ => .found e parameters
  | none, [] => .nowhere
  | none, _ => .wrongMethod

/-- A request goes to an endpoint of its method. -/
theorem method_of_find {method path : String} {e : Endpoint} {parameters : List String}
    (h : Route.find method path = .found e parameters) : e.method = method := by
  simp only [Route.find] at h
  split at h
  · rename_i found
    simp only [Route.found.injEq] at h
    obtain ⟨rfl, rfl⟩ := h
    simpa using List.find?_some found
  · cases h
  · cases h

end Runbook.Service
