import Runbook.Condition

/-!
Workflow definitions: nodes joined by labelled connections, with declared variables. A workflow
belongs to a tenant and is attached to a module; its trigger nodes say which events start it.
-/
namespace Runbook

/-- What a node does, with what it needs for that. -/
inductive NodeKind where
  | trigger (event : String)
  | condition (condition : Condition)
  | action (actionType : String)
  | delay (amount : Value) (unit : String)
  | loop (iterations : Option Nat)
  | junction (junctionType : String)

def NodeKind.name : NodeKind → String
  | .trigger _ => "trigger"
  | .condition _ => "condition"
  | .action _ => "action"
  | .delay _ _ => "delay"
  | .loop _ => "loop"
  | .junction _ => "junction"

/-- A node of the graph. Its id is trimmed and not empty. -/
structure Node where
  id : String
  label : Option String
  description : Option String
  config : Dict
  kind : NodeKind

def Node.isLoop (n : Node) : Bool :=
  match n.kind with
  | .loop _ => true
  | _ => false

/-- The event that a trigger node waits for. -/
def Node.event? (n : Node) : Option String :=
  match n.kind with
  | .trigger event => some event
  | _ => none

/-- A directed edge. Conditions label theirs `true` and `false`, loops `body` and `exit`. -/
structure Connection where
  id : Option String
  source : String
  target : String
  label : Option String

/-- A declared variable. -/
structure Declaration where
  name : String
  type : Option String
  default : Value
  description : Option String

inductive WorkflowStatus where
  | draft | active | inactive | archived
  deriving DecidableEq, Repr

def WorkflowStatus.all : List WorkflowStatus := [.draft, .active, .inactive, .archived]

def WorkflowStatus.name : WorkflowStatus → String
  | .draft => "draft"
  | .active => "active"
  | .inactive => "inactive"
  | .archived => "archived"

def WorkflowStatus.ofName? (s : String) : Option WorkflowStatus := all.find? (·.name == s)

/-- A workflow definition. -/
structure Workflow where
  id : Option String
  tenant : String
  name : String
  description : Option String
  module : String
  status : WorkflowStatus
  nodes : List Node
  connections : List Connection
  vars : List Declaration
  version : Int

namespace Workflow

/-- The node with an id. -/
def node? (w : Workflow) (id : String) : Option Node := w.nodes.find? (·.id == id)

/-- The connections that leave a node, in the order they were declared. -/
def outgoing (w : Workflow) (id : String) : List Connection := w.connections.filter (·.source == id)

/-- The first connection that leaves a node under a label. -/
def connection? (w : Workflow) (id label : String) : Option Connection :=
  w.connections.find? fun c => c.source == id && c.label == some label

/-- The first trigger node. -/
def trigger? (w : Workflow) : Option Node := w.nodes.find? (·.event?.isSome)

/-- The first trigger node that waits for an event. -/
def triggerFor? (w : Workflow) (event : String) : Option Node :=
  w.nodes.find? (·.event? == some event)

/-- The defaults of the declared variables, as one dictionary. -/
def defaults (w : Workflow) : Dict :=
  w.vars.foldl (fun d v => if v.default.isNull then d else Dict.set d v.name v.default) []

end Workflow

/-- The variables that an execution starts with: the payload, and the default of each declared
variable that the payload does not hold. -/
def initialVariables (payload : Dict) (declared : List Declaration) : Dict :=
  declared.foldl (fun d v =>
    if Dict.contains d v.name || v.default.isNull then d else Dict.set d v.name v.default) payload

end Runbook
