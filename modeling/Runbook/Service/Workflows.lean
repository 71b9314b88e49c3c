import Runbook.Service.Answer
import Runbook.Workflow.Structure

/-!
Answers about workflows: storing, listing, replacing, copying and deleting definitions.
-/
namespace Runbook.Service

/-- The answer after a definition was stored, with the problems of its structure. -/
def storedRecord (id : String) (message : String) (problems : StructureReport) :
    List (String × Value) := [
  ("workflow_id", .text id), ("message", .text message),
  ("validation_errors", Value.texts problems.errors),
  ("validation_warnings", Value.texts problems.warnings)]

def storedMessage (w : Workflow) : String := "Workflow '" ++ w.name ++ "' stored successfully"

/-- Stores a new definition. -/
def createWorkflow (body : Body) : Run Answer :=
  reading (body.required Read.dict) fun d => reporting do
    let w ← Engine.ofExcept (Workflow.parse (.dict d))
    let id ← Storage.saveWorkflow w
    return .created (.record (storedRecord id (storedMessage w) w.structureReport))

/-- Lists the stored definitions. -/
def listWorkflows (r : Request) : Run Answer := reporting do
  let rows ← Storage.listWorkflows (r.parameter? "module_type") (r.parameter? "tenant_id")
  let dated (row : Value) : Value := match row with
    | .dict d => .dict (Dict.set d "created_at" .untold)
    | v => v
  return .ok (.list (rows.map dated))

def loadWorkflow (id : String) : Run Answer := reporting do
  return .ok (sendable (← Storage.loadWorkflow id).record)

/-- Replaces a definition. The id in the path wins over one in the body. -/
def replaceWorkflow (id : String) (body : Body) : Run Answer :=
  reading (body.required Read.dict) fun d => do
    let replaced : Run (Except Answer (Workflow × Value)) :=
      Engine.onProgramError (do
        let w ← Engine.ofExcept (Workflow.parse (.dict (Dict.set d "id" (.text id))))
        return .ok (w, ← Storage.updateWorkflow id w))
        fun e => return .error (.reported e)
    match ← replaced with
    | .error answer => return answer
    | .ok (w, version) =>
      let number ← Engine.ofExcept ((Read.whole version).within (.name "version")).orFail
      let message := "Workflow '" ++ w.name ++ "' updated to version " ++ version.display
      return .ok (.record (storedRecord id message w.structureReport ++ [("version", .int number)]))

/-- Cancels the running executions of a workflow and deletes it. -/
def deleteWorkflow (id : String) : Run Answer := reporting do
  if !(← Storage.workflowExists id) then throw (.program (.workflowNotFound id))
  let cancelled ← Engine.cancelAll id
  let deleted ← Storage.deleteWorkflow id
  return .ok (.record [("workflow_id", .text id), ("cancelled_executions", .int cancelled),
    ("deleted_executions", .int deleted)])

/-- The name for a copy, if one is given. -/
def copyName (d : Dict) : Reading (Option String) :=
  Read.optional d ["name"] none (Read.nullable Read.text)

/-- Copies a definition. -/
def cloneWorkflow (id : String) (body : Body) : Run Answer :=
  reading (body.optional (fields copyName)) fun name => reporting do
    let copy ← Storage.cloneWorkflow id (name.bind fun n => n)
    let w ← Storage.loadWorkflow copy
    return .created (.record (storedRecord copy (storedMessage w) ⟨[], []⟩))

/-- Sets the status of a workflow. -/
def setStatus (id : String) (body : Body) : Run Answer :=
  reading (body.required (fields fun d => Read.required d ["status"]
    (Read.choice WorkflowStatus.ofName?))) fun status => reporting do
    Storage.setWorkflowStatus id (.text status.name)
    return .ok (.record [("workflow_id", .text id), ("status", .text status.name)])

end Runbook.Service
