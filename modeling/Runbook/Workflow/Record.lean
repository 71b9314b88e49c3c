import Runbook.Workflow.Definition

/-!
Definitions written back as data: nodes, connections and variables in camel case, the workflow
itself in snake case. The compact form leaves out fields that are null, but keeps what stands
inside a configuration.
-/
namespace Runbook

/-- A dictionary of fields, without the null ones when `compact`. -/
def fields (compact : Bool) (entries : List (String × Value)) : Value :=
  .record (if compact then entries.filter (!·.2.isNull) else entries)

def Condition.record (compact : Bool) (c : Condition) : Value :=
  fields compact [("field", .text c.field), ("operator", .text c.operator), ("value", c.value)]

def NodeKind.fields (compact : Bool) : NodeKind → List (String × Value)
  | .trigger event => [("triggerType", .text event)]
  | .condition c => [("condition", c.record compact)]
  | .action actionType => [("actionType", .text actionType)]
  | .delay amount unit => [("amount", amount), ("unit", .text unit)]
  | .loop iterations => [("iterations", match iterations with | some n => .int n | none => .null)]
  | .junction junctionType => [("junctionType", .text junctionType)]

def Node.record (compact : Bool) (n : Node) : Value :=
  fields compact ([("id", .text n.id), ("label", .ofText? n.label),
    ("description", .ofText? n.description), ("config", .dict n.config),
    ("type", .text n.kind.name)] ++ n.kind.fields compact)

def Connection.record (compact : Bool) (c : Connection) : Value :=
  fields compact [("id", .ofText? c.id), ("sourceId", .text c.source),
    ("targetId", .text c.target), ("label", .ofText? c.label)]

def Declaration.record (v : Declaration) : Value :=
  .record [("name", .text v.name), ("type", .ofText? v.type), ("defaultValue", v.default),
    ("description", .ofText? v.description)]

/-- The whole definition, null fields kept. -/
def Workflow.record (w : Workflow) : Value :=
  .record [
    ("id", .ofText? w.id), ("tenant_id", .text w.tenant), ("name", .text w.name),
    ("description", .ofText? w.description), ("module_type", .text w.module),
    ("status", .text w.status.name),
    ("nodes", .list (w.nodes.map (Node.record false))),
    ("connections", .list (w.connections.map (Connection.record false))),
    ("variables", .list (w.vars.map Declaration.record)),
    ("version", .int w.version)]

end Runbook
