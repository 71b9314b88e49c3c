import Runbook.Engine.Operation
import Runbook.Service.Request

/-!
What the service answers: a status and data, or the issues of a request that could not be read.
Errors that an operation reports are told under `detail`; errors that nobody expected are told
without saying more than their class.
-/
namespace Runbook.Service

/-- What an answer holds. -/
inductive Content where
  | data (v : Value)
  | issues (is : List Issue)
  | empty

/-- An answer with its status. -/
structure Answer where
  status : Value
  content : Content

namespace Answer

def ok (v : Value) : Answer := ⟨.int 200, .data v⟩

def created (v : Value) : Answer := ⟨.int 201, .data v⟩

def accepted (v : Value) : Answer := ⟨.int 202, .data v⟩

/-- A refusal that only says what it is. -/
def refused (status : Int) (detail : String) : Answer :=
  ⟨.int status, .data (.record [("detail", .text detail)])⟩

/-- The request could not be read. -/
def unreadable (is : List Issue) : Answer := ⟨.int 422, .issues is⟩

/-- An error that an operation reports. -/
def reported (e : ProgramError) : Answer :=
  ⟨e.answerStatus, .data (.record [("detail", .dict e.response)])⟩

/-- An error that the operation did not expect. -/
def ofFailure : Failure → Answer
  | .program e => ⟨e.answerStatus, .data (.dict e.response)⟩
  | f => ⟨.int 500, .data (.record [
      ("error", .text "InternalServerError"), ("message", .text "An unexpected error occurred"),
      ("details", .record [("error_type", .text f.kindName), ("timestamp", .untold)])])⟩

end Answer

/-- Errors of the program are part of what an operation answers. -/
def reporting (x : Run Answer) : Run Answer :=
  Engine.onProgramError x fun e => return .reported e

/-- Goes on with what was read of a request. -/
def reading {α : Type} (r : Reading α) (go : α → Run Answer) : Run Answer :=
  match r with
  | .accepted a => go a
  | .refused is => return .unreadable is
  | .broken m => throw (.ofMismatch m)

mutual

/-- A value as an answer can hold it: numbers that JSON cannot write are null. -/
def sendable : Value → Value
  | .float x => if x.isFinite then .float x else .null
  | .list vs => .list (sendableItems vs)
  | .dict d => .dict (sendableEntries d)
  | v => v

def sendableItems : List Value → List Value
  | [] => []
  | v :: rest => sendable v :: sendableItems rest

def sendableEntries : List (Key × Value) → List (Key × Value)
  | [] => []
  | (k, v) :: rest => (k, sendable v) :: sendableEntries rest

end

end Runbook.Service
