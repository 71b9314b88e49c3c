import Mathlib.Data.List.Nodup
import Runbook.Workflow.Read

/-!
What holds of every definition that was read: its nodes have ids, and no two have the same.
-/
namespace Runbook

namespace Reading

variable {α β : Type}

theorem map_eq_accepted {f : α → β} {x : Reading α} {b : β} :
    f <$> x = .accepted b ↔ ∃ a, x = .accepted a ∧ f a = b := by
  change x.map f = _ ↔ _
  cases x <;> simp [map]

theorem seq_eq_accepted {f : Reading (α → β)} {x : Reading α} {b : β} :
    f <*> x = .accepted b ↔ ∃ g a, f = .accepted g ∧ x = .accepted a ∧ g a = b := by
  change both f x = _ ↔ _
  cases f <;> cases x <;> simp [both]

theorem check_eq_accepted {r : Reading α} {rule : α → Reading β} {b : β} :
    r.check rule = .accepted b ↔ ∃ a, r = .accepted a ∧ rule a = .accepted b := by
  cases r <;> simp [check]

theorem within_eq_accepted {p : Place} {r : Reading α} {a : α} :
    r.within p = .accepted a ↔ r = .accepted a := by
  cases r <;> simp [within]

/-- Each item of a list that was accepted was accepted. -/
theorem mem_of_items {read : Value → Reading α} {n : Nat} {vs : List Value} {as : List α}
    (accepted : items read n vs = .accepted as) {a : α} (there : a ∈ as) :
    ∃ v, read v = .accepted a := by
  induction vs generalizing n as with
  | nil =>
    obtain rfl : [] = as := by injection accepted
    cases there
  | cons v rest ih =>
    obtain ⟨g, later, first, others, rfl⟩ := seq_eq_accepted.1 accepted
    obtain ⟨b, here, rfl⟩ := map_eq_accepted.1 first
    rcases List.mem_cons.1 there with rfl | there
    · exact ⟨v, within_eq_accepted.1 here⟩
    · exact ih others there

end Reading

open Reading Read

/-- Every node has an id of its own. -/
structure Workflow.Sound (w : Workflow) : Prop where
  named : ∀ n ∈ w.nodes, n.id ≠ ""
  unique : (w.nodes.map (·.id)).Nodup

/-- A required field is there, and was accepted. -/
theorem Read.required_eq_accepted {α : Type} {d : Dict} {names : List String} {read : Value → Reading α} {a : α} :
    required d names read = .accepted a ↔ ∃ v, Dict.first? d names = some v ∧ read v = .accepted a := by
  unfold required
  rw [within_eq_accepted]
  cases Dict.first? d names with
  | none => simp [refuse]
  | some v => simp

/-! Definitions, nodes, connections and variables are accepted field by field. -/

/-- The fields that every node has are read from a dictionary, and so is what its kind is. -/
structure Node.ReadFrom (n : Node) (d : Dict) (kind : Reading NodeKind) : Prop where
  id : required d ["id"] (fun v => (text v).check (nonBlank "Node ID cannot be empty")) = .accepted n.id
  label : Read.optional d ["label"] none (nullable text) = .accepted n.label
  description : Read.optional d ["description"] none (nullable text) = .accepted n.description
  config : Read.optional d ["config"] [] dict = .accepted n.config
  kind : kind = .accepted n.kind

theorem Node.readFields_eq_accepted {d : Dict} {kind : Reading NodeKind} {n : Node}
    (accepted : readFields d kind = .accepted n) : n.ReadFrom d kind := by
  obtain ⟨_, _, toConfig, kind, rfl⟩ := seq_eq_accepted.1 accepted
  obtain ⟨_, _, toDescription, config, applied⟩ := seq_eq_accepted.1 toConfig
  obtain ⟨_, _, toLabel, description, rfl⟩ := seq_eq_accepted.1 toDescription
  obtain ⟨_, _, toId, label, rfl⟩ := seq_eq_accepted.1 toLabel
  obtain ⟨_, id, rfl⟩ := map_eq_accepted.1 toId
  subst applied
  exact ⟨id, label, description, config, kind⟩

/-- The fields of a connection are read from a dictionary. -/
structure Connection.ReadFrom (c : Connection) (d : Dict) : Prop where
  id : Read.optional d ["id"] none (nullable text) = .accepted c.id
  source : required d ["sourceId", "source_id"] text = .accepted c.source
  target : required d ["targetId", "target_id"] text = .accepted c.target
  label : Read.optional d ["label"] none (nullable text) = .accepted c.label

theorem Connection.read_eq_accepted {v : Value} {c : Connection} (accepted : read v = .accepted c) :
    ∃ d, v = .dict d ∧ c.ReadFrom d := by
  unfold read at accepted
  split at accepted
  · obtain ⟨_, _, toTarget, label, rfl⟩ := seq_eq_accepted.1 accepted
    obtain ⟨_, _, toSource, target, rfl⟩ := seq_eq_accepted.1 toTarget
    obtain ⟨_, _, toId, source, rfl⟩ := seq_eq_accepted.1 toSource
    obtain ⟨_, id, rfl⟩ := map_eq_accepted.1 toId
    exact ⟨_, rfl, id, source, target, label⟩
  · cases accepted

/-- The fields of a variable are read from a dictionary. -/
structure Declaration.ReadFrom (v : Declaration) (d : Dict) : Prop where
  name : required d ["name"] (fun v => (text v).check nameRule) = .accepted v.name
  type : Read.optional d ["type"] none (nullable text) = .accepted v.type
  default : Read.optional d ["defaultValue", "default_value"] .null any = .accepted v.default
  description : Read.optional d ["description"] none (nullable text) = .accepted v.description

theorem Declaration.read_eq_accepted {u : Value} {v : Declaration} (accepted : read u = .accepted v) :
    ∃ d, u = .dict d ∧ v.ReadFrom d := by
  unfold read at accepted
  split at accepted
  · obtain ⟨_, _, toDefault, description, rfl⟩ := seq_eq_accepted.1 accepted
    obtain ⟨_, _, toType, default, rfl⟩ := seq_eq_accepted.1 toDefault
    obtain ⟨_, _, toName, type, rfl⟩ := seq_eq_accepted.1 toType
    obtain ⟨_, name, rfl⟩ := map_eq_accepted.1 toName
    exact ⟨_, rfl, name, type, default, description⟩
  · cases accepted

/-- A definition is put together from what was read of each of its fields. -/
theorem Workflow.mk_eq_accepted {id description : Reading (Option String)} {tenant name module : Reading String}
    {status : Reading WorkflowStatus} {nodes : Reading (List Node)} {connections : Reading (List Connection)}
    {vars : Reading (List Declaration)} {version : Reading Int} {w : Workflow} :
    Workflow.mk <$> id <*> tenant <*> name <*> description <*> module <*> status <*> nodes <*> connections <*>
        vars <*> version = .accepted w ↔
      id = .accepted w.id ∧ tenant = .accepted w.tenant ∧ name = .accepted w.name ∧
        description = .accepted w.description ∧ module = .accepted w.module ∧ status = .accepted w.status ∧
        nodes = .accepted w.nodes ∧ connections = .accepted w.connections ∧ vars = .accepted w.vars ∧
        version = .accepted w.version := by
  constructor
  · intro accepted
    obtain ⟨_, _, toVars, version, rfl⟩ := seq_eq_accepted.1 accepted
    obtain ⟨_, _, toConnections, vars, rfl⟩ := seq_eq_accepted.1 toVars
    obtain ⟨_, _, toNodes, connections, rfl⟩ := seq_eq_accepted.1 toConnections
    obtain ⟨_, _, toStatus, nodes, rfl⟩ := seq_eq_accepted.1 toNodes
    obtain ⟨_, _, toModule, status, rfl⟩ := seq_eq_accepted.1 toStatus
    obtain ⟨_, _, toDescription, module, rfl⟩ := seq_eq_accepted.1 toModule
    obtain ⟨_, _, toName, description, rfl⟩ := seq_eq_accepted.1 toDescription
    obtain ⟨_, _, toTenant, name, rfl⟩ := seq_eq_accepted.1 toName
    obtain ⟨_, _, toId, tenant, rfl⟩ := seq_eq_accepted.1 toTenant
    obtain ⟨_, id, rfl⟩ := map_eq_accepted.1 toId
    exact ⟨id, tenant, name, description, module, status, nodes, connections, vars, version⟩
  · rintro ⟨rfl, rfl, rfl, rfl, rfl, rfl, rfl, rfl, rfl, rfl⟩
    rfl

/-- The fields of a definition are read from a dictionary. -/
structure Workflow.ReadFrom (w : Workflow) (d : Dict) : Prop where
  id : Read.optional d ["id"] none (nullable text) = .accepted w.id
  tenant : required d ["tenant_id"] text = .accepted w.tenant
  name : required d ["name"] (fun v => (text v).check (Node.nonBlank "Workflow name cannot be empty")) =
    .accepted w.name
  module : required d ["module_type"] text = .accepted w.module
  nodes : Read.optional d ["nodes"] [] (fun v => (listOf Node.read v).check uniqueIds) = .accepted w.nodes
  connections : Read.optional d ["connections"] [] (listOf Connection.read) = .accepted w.connections
  vars : Read.optional d ["variables"] [] (listOf Declaration.read) = .accepted w.vars

theorem Workflow.read_eq_accepted {v : Value} {w : Workflow} (accepted : read v = .accepted w) :
    ∃ d, v = .dict d ∧ w.ReadFrom d := by
  unfold read at accepted
  split at accepted
  · obtain ⟨id, tenant, name, -, module, -, nodes, connections, vars, -⟩ := mk_eq_accepted.1 accepted
    exact ⟨_, rfl, id, tenant, name, module, nodes, connections, vars⟩
  · cases accepted

namespace Node

/-- What was read as a name is trimmed and not empty. -/
theorem nonBlank_eq_accepted {message s t : String} (accepted : nonBlank message s = .accepted t) :
    t = Text.trim s ∧ t ≠ "" := by
  unfold nonBlank at accepted
  dsimp only at accepted
  split at accepted
  · cases accepted
  · rename_i filled
    cases accepted
    exact ⟨rfl, filled⟩

theorem id_ne_of_readFields {d : Dict} {kind : Reading NodeKind} {n : Node}
    (accepted : readFields d kind = .accepted n) : n.id ≠ "" := by
  obtain ⟨v, -, checked⟩ := required_eq_accepted.1 (readFields_eq_accepted accepted).id
  obtain ⟨s, -, filled⟩ := check_eq_accepted.1 checked
  exact (nonBlank_eq_accepted filled).2

theorem id_ne_of_withRule {rule : Except Mismatch Dict} {kind : Dict → Reading NodeKind} {n : Node}
    (accepted : (withRule rule fun d => readFields d (kind d)) = .accepted n) : n.id ≠ "" := by
  cases rule with
  | ok d => exact id_ne_of_readFields accepted
  | error m => cases accepted

theorem id_ne_of_readTagged {d : Dict} {tag : String} {r : Reading Node} {n : Node}
    (known : readTagged d tag = some r) (accepted : r = .accepted n) : n.id ≠ "" := by
  unfold readTagged at known
  split at known
  all_goals cases known
  all_goals first | exact id_ne_of_readFields accepted | exact id_ne_of_withRule accepted

theorem id_ne_of_read {v : Value} {n : Node} (accepted : read v = .accepted n) : n.id ≠ "" := by
  unfold read at accepted
  split at accepted
  · split at accepted
    · cases accepted
    · split at accepted
      · rename_i known
        exact id_ne_of_readTagged known (within_eq_accepted.1 accepted)
      · cases accepted
    · cases accepted
  · cases accepted

end Node

namespace Workflow

theorem Sound.of_nodes {v : Value} {nodes : List Node}
    (accepted : (listOf Node.read v).check uniqueIds = .accepted nodes) :
    (∀ n ∈ nodes, n.id ≠ "") ∧ (nodes.map (·.id)).Nodup := by
  obtain ⟨ns, listed, distinct⟩ := check_eq_accepted.1 accepted
  unfold uniqueIds at distinct
  split at distinct
  · rename_i unique
    cases distinct
    obtain ⟨u, -, each⟩ := check_eq_accepted.1 listed
    unfold list at each
    split at each
    · refine ⟨fun n there => ?_, unique⟩
      obtain ⟨v, here⟩ := mem_of_items each there
      exact Node.id_ne_of_read here
    · cases each
  · cases distinct

/-- A definition that was read is sound. -/
theorem sound_of_read {v : Value} {w : Workflow} (accepted : read v = .accepted w) : w.Sound := by
  obtain ⟨d, -, fields⟩ := read_eq_accepted accepted
  have listed := fields.nodes
  unfold Read.optional at listed
  split at listed
  · obtain ⟨named, unique⟩ := Sound.of_nodes (within_eq_accepted.1 listed)
    exact ⟨named, unique⟩
  · injection listed with none
    exact ⟨fun n there => by simp [← none] at there, by simp [← none]⟩

/-- In a sound workflow every node is found under its id. -/
theorem Sound.node?_of_mem {w : Workflow} {n : Node} (sound : w.Sound) (there : n ∈ w.nodes) : w.node? n.id = some n := by
  unfold node?
  cases found : w.nodes.find? (·.id == n.id) with
  | none => simpa using List.find?_eq_none.1 found n there
  | some m =>
    have same : m.id = n.id := by simpa using List.find?_some found
    rw [List.inj_on_of_nodup_map sound.unique (List.mem_of_find?_eq_some found) there same]

theorem sound_of_parse {v : Value} {w : Workflow} (parsed : parse v = .ok w) : w.Sound := by
  unfold parse at parsed
  split at parsed
  · rename_i accepted
    cases parsed
    exact sound_of_read accepted
  all_goals cases parsed

/-! Definitions as they are written. -/

/-- A node as it is written, with the fields of its type. -/
def writtenNode (id type : String) (fields : List (String × Value)) : Value :=
  .record (("id", .text id) :: ("type", .text type) :: fields)

/-- A connection as it is written. -/
def writtenConnection (source target : String) (label : Value) : Value :=
  .record [("sourceId", .text source), ("targetId", .text target), ("label", label)]

/-- A definition as it is written, under the id `wf`. -/
def written (nodes connections : List Value) : Value :=
  .record [("id", .text "wf"), ("tenant_id", .text "main"), ("name", .text "Runbook"),
    ("module_type", .text "tickets"), ("nodes", .list nodes), ("connections", .list connections)]

/-- A loop of two iterations in the body of another one, with a junction in its own. -/
def writtenNest : Value :=
  written
    [writtenNode "T" "trigger" [("triggerType", .text "created")],
      writtenNode "A" "loop" [("iterations", .int 2)], writtenNode "B" "loop" [("iterations", .int 2)],
      writtenNode "J" "junction" []]
    [writtenConnection "T" "A" .null, writtenConnection "A" "B" (.text "body"),
      writtenConnection "B" "J" (.text "body")]

/-- A condition that is true, with a delay behind it, a connection back to the trigger, and one that
leads nowhere. -/
def writtenFork : Value :=
  written
    [writtenNode "T" "trigger" [("triggerType", .text "created")],
      writtenNode "C" "condition" [("condition", .record [("field", .text "open"),
        ("operator", .text "equals"), ("value", .text "open")])],
      writtenNode "D" "delay" [("amount", .int 5), ("unit", .text "seconds")],
      writtenNode "N" "junction" []]
    [writtenConnection "T" "C" .null, writtenConnection "C" "D" (.text "true"),
      writtenConnection "C" "N" (.text "false"), writtenConnection "D" "T" .null,
      writtenConnection "D" "Z" .null]

end Workflow

end Runbook
