import Runbook.Reading
import Runbook.Value.Text

/-!
Failures. A failure of the program itself has a class, which fixes how severe it is and whether
trying again may help, and carries a context that says what it is about. Other failures come from
below: a value of the wrong kind, a number out of range, a missing key.
-/
namespace Runbook

inductive Severity where
  | low | medium | high | critical
  deriving DecidableEq, Repr

def Severity.all : List Severity := [.low, .medium, .high, .critical]

def Severity.name : Severity → String
  | .low => "low"
  | .medium => "medium"
  | .high => "high"
  | .critical => "critical"

inductive Category where
  | validation | execution | storage | network | configuration | businessLogic
  deriving DecidableEq, Repr

def Category.all : List Category :=
  [.validation, .execution, .storage, .network, .configuration, .businessLogic]

def Category.name : Category → String
  | .validation => "validation"
  | .execution => "execution"
  | .storage => "storage"
  | .network => "network"
  | .configuration => "configuration"
  | .businessLogic => "business_logic"

/-- The classes of failures that the program reports. -/
inductive ErrorClass where
  | general
  | definition
  | workflowNotFound
  | executionNotFound
  | action
  | registry
  | condition
  | delay
  | loopLimit
  | storage
  | recordNotFound
  | transient
  | configuration
  | api
  deriving DecidableEq, Repr

namespace ErrorClass

def all : List ErrorClass := [
  .general, .definition, .workflowNotFound, .executionNotFound, .action, .registry, .condition,
  .delay, .loopLimit, .storage, .recordNotFound, .transient, .configuration, .api]

def name : ErrorClass → String
  | .general => "WorkflowEngineError"
  | .definition => "WorkflowDefinitionError"
  | .workflowNotFound => "WorkflowNotFound"
  | .executionNotFound => "ExecutionNotFound"
  | .action => "ActionExecutionError"
  | .registry => "ActionRegistryError"
  | .condition => "ConditionEvaluationError"
  | .delay => "DelayConfigurationError"
  | .loopLimit => "LoopLimitExceeded"
  | .storage => "StorageError"
  | .recordNotFound => "RecordNotFoundError"
  | .transient => "TransientError"
  | .configuration => "ConfigurationError"
  | .api => "APIError"

def ofName? (s : String) : Option ErrorClass := all.find? (·.name == s)

def severity : ErrorClass → Severity
  | .general | .definition | .workflowNotFound | .registry | .recordNotFound | .transient | .api =>
    .medium
  | .executionNotFound => .low
  | .action | .condition | .delay | .loopLimit | .storage | .configuration => .high

def category : ErrorClass → Category
  | .general | .action | .condition | .delay | .loopLimit | .transient => .execution
  | .definition | .workflowNotFound | .executionNotFound => .validation
  | .registry | .configuration => .configuration
  | .storage => .storage
  | .recordNotFound => .businessLogic
  | .api => .network

/-- Trying again may help. -/
def recoverable : ErrorClass → Bool
  | .storage | .transient => true
  | _ => false

/-- Seconds to wait before trying again. -/
def retryAfter : ErrorClass → Value
  | .storage => .int 3
  | .transient => .int 5
  | _ => .null

end ErrorClass

/-- A failure that the program reports. -/
structure ProgramError where
  kind : ErrorClass
  message : Value
  code : String
  severity : Severity
  category : Category
  details : Dict
  recoverable : Bool
  /-- Seconds to wait before trying again, null when there is no telling. -/
  retryAfter : Value
  context : Dict
  /-- The answer status that an interface error asks for. -/
  status : Value := .int 500
  /-- What was wrong with the definition, for an error about one. -/
  issues : Option (List Issue) := none

namespace ProgramError

/-- An error of a class, with nothing but a message and a context. -/
def make (kind : ErrorClass) (message : String) (context : List (String × Value)) : ProgramError :=
  { kind, message := .text message, code := kind.name, severity := kind.severity,
    category := kind.category, details := [], recoverable := kind.recoverable,
    retryAfter := kind.retryAfter, context := context.map fun (k, v) => (.text k, v) }

/-- The message as text. -/
def text (e : ProgramError) : String := e.message.display

def workflowNotFound (id : String) : ProgramError :=
  make .workflowNotFound ("Workflow not found: " ++ id) [("workflow_id", .text id)]

def executionNotFound (id : String) : ProgramError :=
  make .executionNotFound ("Execution not found: " ++ id) [("execution_id", .text id)]

def actionFailed (message actionType : String) : ProgramError :=
  make .action message (if actionType = "" then [] else [("action_type", .text actionType)])

def registry (message actionType : String) : ProgramError :=
  make .registry message (if actionType = "" then [] else [("action_type", .text actionType)])

def conditionFailed (reason node : String) : ProgramError :=
  make .condition ("Condition evaluation failed: " ++ reason) [("node_id", .text node)]

def delayMisconfigured (message node : String) : ProgramError :=
  make .delay message [("node_id", .text node)]

def loopLimit (node : String) (limit : Int) : ProgramError :=
  { make .loopLimit ("Loop node " ++ node ++ " exceeded the safety limit of " ++ toString limit ++
      " iterations") [("node_id", .text node)] with details := [(.text "limit", .int limit)] }

/-- A storage operation that failed, with the cause where it is known. -/
def storage (operation table : String) (cause : Option String) : ProgramError :=
  make .storage ("Failed to " ++ operation ++ (cause.map (": " ++ ·)).getD "")
    [("operation", .text operation), ("table", .text table)]

def recordNotFound (recordType : String) (id : String) : ProgramError :=
  make .recordNotFound (recordType ++ " " ++ id ++ " not found")
    [("record_type", .text recordType), ("record_id", .text id)]

/-- A definition with issues. The context names the workflow when the data does. -/
def malformed (workflowId : Value) (issues : List Issue) : ProgramError :=
  { make .definition "Malformed workflow definition"
      (if workflowId.isTruthy then [("workflow_id", workflowId)] else []) with
    issues := some issues }

def configuration (problems : List String) : ProgramError :=
  { make .configuration ("Configuration validation failed: " ++ "; ".intercalate problems) [] with
    details := [(.text "errors", Value.texts problems)] }

/-- The whole error as data. -/
def report (e : ProgramError) : Dict := [
  (.text "error_code", .text e.code),
  (.text "message", e.message),
  (.text "severity", .text e.severity.name),
  (.text "category", .text e.category.name),
  (.text "details", .dict e.details),
  (.text "recoverable", .bool e.recoverable),
  (.text "retry_after", e.retryAfter),
  (.text "context", .dict e.context),
  (.text "exception_type", .text e.kind.name)]

/-- What a caller over the network is told. The error's own facts win over its details. -/
def response (e : ProgramError) : Dict := [
  (.text "error", .text e.code),
  (.text "message", e.message),
  (.text "details", .dict (Dict.merge e.details [
    (.text "severity", .text e.severity.name),
    (.text "category", .text e.category.name),
    (.text "recoverable", .bool e.recoverable),
    (.text "retry_after", e.retryAfter),
    (.text "timestamp", .untold)])),
  (.text "context", .dict e.context)]

/-- The answer status for an error. -/
def answerStatus (e : ProgramError) : Value :=
  match e.kind with
  | .api => e.status
  | .workflowNotFound | .executionNotFound | .recordNotFound => .int 404
  | .definition => .int 400
  | .registry => .int 409
  | .transient => .int 503
  | _ => .int 500

end ProgramError

/-- The kinds of failures that come from below the program. -/
inductive PlainKind where
  | general
  | value
  | overflow
  | key
  | lookup
  | type
  | attribute
  | system
  | fileExists
  | notDirectory
  | runtime
  | division
  deriving DecidableEq, Repr

def PlainKind.name : PlainKind → String
  | .general => "Exception"
  | .value => "ValueError"
  | .overflow => "OverflowError"
  | .key => "KeyError"
  | .lookup => "LookupError"
  | .type => "TypeError"
  | .attribute => "AttributeError"
  | .system => "OSError"
  | .fileExists => "FileExistsError"
  | .notDirectory => "NotADirectoryError"
  | .runtime => "RuntimeError"
  | .division => "ZeroDivisionError"

/-- Why an operation did not answer. -/
inductive Failure where
  | program (e : ProgramError)
  | plain (kind : PlainKind) (text : String)
  | invalid (issues : List Issue)
  | transport (name text : String)

namespace Failure

/-- The failure as text. -/
def text : Failure → String
  | .program e => e.text
  | .plain _ s => s
  | .invalid _ => ""
  | .transport _ s => s

/-- The name of a failure's class. -/
def kindName : Failure → String
  | .program e => e.kind.name
  | .plain k _ => k.name
  | .invalid _ => "ValidationError"
  | .transport name _ => name

/-- A missing key, named by its literal. -/
def missingKey (k : Key) : Failure := .plain .key k.literal

def wrongType : Failure := .plain .type ""

def noAttribute : Failure := .plain .attribute ""

def ofMismatch : Mismatch → Failure
  | .operation => wrongType
  | .attribute => noAttribute

end Failure

/-- A reading as an operation that fails with its issues. -/
def Reading.orFail {α : Type} (r : Reading α) : Except Failure α :=
  match r with
  | .accepted a => .ok a
  | .refused is => .error (.invalid is)
  | .broken m => .error (.ofMismatch m)

end Runbook
