import Runbook.Workflow.Definition

/-!
Structural problems of a definition. Errors say that the graph has not exactly one trigger or
that a connection leads from or to nothing; warnings say that a condition or a loop has no
connection to follow. A definition with problems is still stored.
-/
namespace Runbook

/-- The problems found in a definition. -/
structure StructureReport where
  errors : List String
  warnings : List String
  deriving DecidableEq, Repr

def StructureReport.isValid (r : StructureReport) : Bool := r.errors.isEmpty

namespace Workflow

def triggerErrors (w : Workflow) : List String :=
  match (w.nodes.filter (·.event?.isSome)).length with
  | 0 => ["Workflow has no trigger node"]
  | 1 => []
  | n => ["Workflow has " ++ toString n ++ " trigger nodes; exactly one is allowed"]

def connectionErrors (w : Workflow) (c : Connection) : List String :=
  (if (w.node? c.source).isSome then []
    else ["Connection references non-existent source node: " ++ c.source]) ++
  (if (w.node? c.target).isSome then []
    else ["Connection references non-existent target node: " ++ c.target])

def nodeWarnings (w : Workflow) (n : Node) : List String :=
  let labels := (w.outgoing n.id).map (·.label)
  match n.kind with
  | .condition _ =>
    if labels.contains (some "true") || labels.contains (some "false") then []
    else ["Condition node " ++ n.id ++ " has no true/false connections"]
  | .loop _ =>
    if labels.contains (some "body") then []
    else ["Loop node " ++ n.id ++ " has no body connection"]
  | _ => []

/-- Everything that is wrong with the structure of a definition. -/
def structureReport (w : Workflow) : StructureReport where
  errors := w.triggerErrors ++ w.connections.flatMap w.connectionErrors
  warnings := w.nodes.flatMap w.nodeWarnings

end Workflow

def StructureReport.record (r : StructureReport) : Value :=
  .record [("is_valid", .bool r.isValid), ("errors", Value.texts r.errors),
    ("warnings", Value.texts r.warnings)]

end Runbook
