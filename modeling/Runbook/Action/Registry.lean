import Runbook.Action.Builtin

/-!
The registry of actions. A handler is registered once, under a trimmed name that is not empty; it
must take a configuration and a caller. Dispatching an action runs the handler of that name, and
whatever goes wrong in it becomes an error of the action.
-/
namespace Runbook.Action

/-- What may be offered as a handler. -/
inductive Candidate where
  /-- Something that can be called, with so many parameters. -/
  | callable (parameters : Nat) (variadic : Bool) (handler : Handler)
  | notCallable
  /-- Something that can be called, but whose parameters cannot be told. -/
  | uninspectable (reason : String)

structure Registry where
  handlers : List (String × Handler)
  descriptions : List (String × String)

namespace Registry

def empty : Registry := ⟨[], []⟩

def handler? (r : Registry) (name : String) : Option Handler :=
  (r.handlers.find? (·.1 == name)).map (·.2)

def nameEmpty : Failure := .program (.registry "Action type cannot be empty" "")

/-- The name that something is registered under. -/
def nameOf (name : Value) : Except Failure String :=
  match name with
  | .text s =>
    let t := Text.trim s
    if t = "" then .error nameEmpty else .ok t
  | v => .error (if v.isTruthy then .noAttribute else nameEmpty)

/-- The handler in a candidate, unless it is none. -/
def accept (name : String) : Candidate → Except Failure Handler
  | .callable parameters variadic handler =>
    if parameters < 2 && !variadic then
      .error (.program (.registry ("Handler for '" ++ name ++ "' must accept (config, context)")
        name))
    else .ok handler
  | .notCallable =>
    .error (.program (.registry ("Handler for '" ++ name ++ "' must be callable") name))
  | .uninspectable reason =>
    .error (.program (.registry
      ("Cannot inspect handler for '" ++ name ++ "': " ++ reason) name))

/-- A description is trimmed; one that counts as false is empty. -/
def descriptionOf : Value → Except Failure String
  | .text s => .ok (Text.trim s)
  | v => if v.isTruthy then .error .noAttribute else .ok ""

/-- Registers a handler. The registry answered beside a failure is the one that remains: it holds
the handler, but no description, when only the description was at fault. -/
def register (r : Registry) (name : Value) (candidate : Candidate) (description : Value) :
    Except Failure Unit × Registry :=
  let accepted : Except Failure (String × Handler) := do
    let name ← nameOf name
    if (r.handler? name).isSome then
      .error (.program (.registry ("Action type '" ++ name ++ "' is already registered") name))
    else return (name, ← accept name candidate)
  match accepted with
  | .error f => (.error f, r)
  | .ok (name, handler) =>
    let r := { r with handlers := r.handlers ++ [(name, handler)] }
    match descriptionOf description with
    | .error f => (.error f, r)
    | .ok text => (.ok (), { r with descriptions := r.descriptions ++ [(name, text)] })

/-- The registry with the built-in actions. -/
def standard (timeout : Value) : Registry where
  handlers := (builtins timeout).map fun (name, _, handler) => (name, handler)
  descriptions := (builtins timeout).map fun (name, description, _) => (name, description)

/-- A failure inside a handler, as an error of the action. -/
def wrap (actionType : String) : Failure → Failure
  | f@(.program e) => if e.kind = .action then f else refused e.text actionType
  | f => refused f.text actionType

/-- The script of a handler whose failures are errors of the action. -/
def wrapScript {α : Type} (actionType : String) : Script α → Script α
  | .done a => .done a
  | .fail f => .fail (wrap actionType f)
  | .put k v next => .put k v (wrapScript actionType next)
  | .ask r next => .ask r fun answer => wrapScript actionType (next answer)

/-- The script of an action. -/
def script (r : Registry) (actionType : String) (config : Dict) (caller : Caller) : Script Value :=
  match r.handler? actionType with
  | none => .fail (refused ("Unknown action type: " ++ actionType) actionType)
  | some handler => wrapScript actionType (handler config caller)

end Registry

end Runbook.Action
