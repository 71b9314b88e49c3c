import Runbook.Proofs.Compact
import Runbook.Proofs.Course.Recovery

/-!
Definitions that are stored and loaded again. The columns of a row give back what JSON can express, and the
lists in them are read again item by item; so a definition comes back as it was, but for null amounts and
numbers of iterations in the place of which the configuration says something, and it does not come back where
a delay has no amount at all.
-/
namespace Runbook

open Reading Read

/-! What JSON columns make of a definition. -/

theorem Value.isNull_stored (v : Value) : v.stored.isNull = v.isNull := by cases v <;> rfl

theorem Value.stored_ofText? (s : Option String) : (Value.ofText? s).stored = .ofText? s := by cases s <;> rfl

/-- A list is stored item by item. -/
theorem Value.stored_map {α : Type} {as : List α} {f g : α → Value} (each : ∀ a ∈ as, (f a).stored = g a) :
    (Value.list (as.map f)).stored = .list (as.map g) := by
  rw [stored, storedItems_eq_map, List.map_map]
  exact congrArg Value.list (List.map_congr_left each)

/-- The fields of a record in compact form are stored one by one. -/
theorem stored_fields_true {entries : List (String × Value)} (names : (entries.map (·.1)).Nodup) :
    (fields true entries).stored = fields true (entries.map fun f => (f.1, f.2.stored)) := by
  unfold fields
  rw [if_pos rfl, if_pos rfl, Value.stored_record (List.filter_sublist.map _ |>.nodup names), List.filter_map]
  simp only [Function.comp_def, Value.isNull_stored]

def Condition.stored (c : Condition) : Condition := { c with value := c.value.stored }

def NodeKind.stored : NodeKind → NodeKind
  | .condition c => .condition c.stored
  | .delay amount unit => .delay amount.stored unit
  | k => k

namespace Node

def stored (n : Node) : Node := { n with config := n.config.stored, kind := n.kind.stored }

theorem stored_record (n : Node) : (n.record true).stored = n.stored.record true := by
  obtain ⟨id, label, description, config, kind⟩ := n
  have names : ((kind.fields true).map (·.1)).Nodup ∧
      ∀ name ∈ (kind.fields true).map (·.1), name ∉ ["id", "label", "description", "config", "type"] := by
    cases kind <;> simp [NodeKind.fields]
  have own : (kind.fields true).map (fun f => (f.1, f.2.stored)) = kind.stored.fields true := by
    cases kind with
    | condition c =>
      have inner : (c.record true).stored = c.stored.record true := stored_fields_true (by simp)
      simp [NodeKind.fields, NodeKind.stored, inner]
    | loop iterations => cases iterations <;> rfl
    | _ => rfl
  have name : kind.stored.name = kind.name := by cases kind <;> rfl
  unfold record
  rw [stored_fields_true ?_]
  · simp only [List.map_append, List.map_cons, List.map_nil, Value.stored_ofText?, own]
    simp only [stored, name]
    rfl
  · rw [List.map_append]
    exact List.nodup_append.2 ⟨by simp, names.1, fun a first b later same => names.2 b later (same ▸ first)⟩

theorem Checked.stored {n : Node} (checked : n.Checked) : n.stored.Checked where
  trimmed := checked.trimmed
  named := checked.named
  action a same := by
    refine checked.action a ?_
    revert same
    unfold Node.stored
    cases n.kind <;> simp [NodeKind.stored]
  loop k same := by
    refine checked.loop k ?_
    revert same
    unfold Node.stored
    cases n.kind <;> simp [NodeKind.stored]

end Node

/-- A node that JSON can express. -/
theorem Node.stored_eq_self_iff {n : Node} : n.stored = n ↔ (Value.dict n.config).IsJson ∧
    (∀ c, n.kind = .condition c → c.value.IsJson) ∧ ∀ amount unit, n.kind = .delay amount unit → amount.IsJson := by
  obtain ⟨id, label, description, config, kind⟩ := n
  unfold Node.stored
  cases kind with
  | condition c =>
    obtain ⟨field, operator, value⟩ := c
    simp [NodeKind.stored, Condition.stored, Dict.stored_eq_self_iff, Value.stored_eq_self_iff]
  | delay amount unit => simp [NodeKind.stored, Dict.stored_eq_self_iff, Value.stored_eq_self_iff]
  | _ => simp [NodeKind.stored, Dict.stored_eq_self_iff]

/-- So is every node that is read again from where JSON was stored. -/
theorem Node.stored_of_again? {n m : Node} (again : n.stored.again? = some m) : m.stored = m := by
  obtain ⟨k, accepted, rfl⟩ := again?_eq_some_iff.1 again
  have json : (Value.dict n.stored.config).IsJson := Dict.json_stored n.config
  refine stored_eq_self_iff.2 ⟨json, ?_⟩
  obtain rfl | ⟨v, unit, -, given, rfl⟩ | ⟨i, -, -, rfl⟩ := kindAgain_eq_accepted accepted
  · have twice : n.stored.kind.stored = n.stored.kind := by
      unfold Node.stored
      cases n.kind <;> simp [NodeKind.stored, Condition.stored, (Value.isJson_stored _).stored]
    refine ⟨fun c same => ?_, fun amount unit same => ?_⟩ <;> dsimp only at same <;> rw [same] at twice
    · exact Value.stored_eq_self_iff.1 (congrArg Condition.value (NodeKind.condition.inj twice))
    · exact Value.stored_eq_self_iff.1 (NodeKind.delay.inj twice).1
  · exact ⟨nofun, fun _ _ same => (NodeKind.delay.inj same).1 ▸ json.proper.get? given⟩
  · exact ⟨nofun, nofun⟩

theorem Connection.stored_record (c : Connection) : (c.record true).stored = c.record true := by
  unfold record
  rw [stored_fields_true (by simp)]
  simp [Value.stored_ofText?, Value.stored]

namespace Declaration

def stored (v : Declaration) : Declaration := { v with default := v.default.stored }

theorem stored_record (v : Declaration) : v.record.stored = v.stored.record := by
  unfold record
  rw [Value.stored_record (by simp)]
  simp [Value.stored_ofText?, Value.stored, stored]

end Declaration

namespace Workflow

/-- A definition with its configurations, amounts and defaults as JSON columns give them back. -/
def stored (w : Workflow) : Workflow :=
  { w with nodes := w.nodes.map Node.stored, vars := w.vars.map Declaration.stored }

theorem stored_eq_self_iff {w : Workflow} :
    w.stored = w ↔ (∀ n ∈ w.nodes, n.stored = n) ∧ ∀ v ∈ w.vars, v.default.IsJson := by
  obtain ⟨_, _, _, _, _, _, nodes, _, vars, _⟩ := w
  have default (v : Declaration) : v.stored = v ↔ v.default.IsJson := by
    obtain ⟨_, _, default, _⟩ := v
    simp [Declaration.stored, Value.stored_eq_self_iff]
  have fixed {α : Type} (f : α → α) (as : List α) : as.map f = as ↔ ∀ a ∈ as, f a = a := by
    simpa using List.map_inj_left (l := as) (f := f) (g := fun a => a)
  unfold stored
  simp [fixed, default]

/-- What every definition that was read keeps to, apart from its name. -/
structure Checked (w : Workflow) : Prop where
  nodes : ∀ n ∈ w.nodes, n.Checked
  unique : (w.nodes.map (·.id)).Nodup
  vars : ∀ v ∈ w.vars, Declaration.nameRule v.name = .accepted v.name

theorem Checked.stored {w : Workflow} (checked : w.Checked) : w.stored.Checked where
  nodes n there := by
    obtain ⟨m, listed, rfl⟩ := List.mem_map.1 there
    exact (checked.nodes m listed).stored
  unique := by
    have same : w.stored.nodes.map (·.id) = w.nodes.map (·.id) := by
      unfold Workflow.stored
      rw [List.map_map]
      rfl
    exact same ▸ checked.unique
  vars v there := by
    obtain ⟨u, listed, rfl⟩ := List.mem_map.1 there
    exact checked.vars u listed

theorem checked_of_parse {data : Value} {w : Workflow} (parsed : parse data = .ok w) : w.Checked := by
  have accepted := read_of_parse parsed
  obtain ⟨nodes, -, vars⟩ := items_of_read accepted
  refine ⟨fun n there => ?_, (sound_of_read accepted).unique, fun v there => ?_⟩
  · obtain ⟨u, -, own⟩ := exists_of_forall₂ nodes.flip there
    exact Node.checked_of_read own
  · obtain ⟨u, -, own⟩ := exists_of_forall₂ vars.flip there
    exact Declaration.nameRule_of_read own

theorem named_of_parse {data : Value} {w : Workflow} (parsed : parse data = .ok w) :
    Text.trim w.name = w.name ∧ w.name ≠ "" := by
  obtain ⟨d, -, fields⟩ := read_eq_accepted (read_of_parse parsed)
  obtain ⟨_, -, checked⟩ := required_eq_accepted.1 fields.name
  obtain ⟨s, -, filled⟩ := check_eq_accepted.1 checked
  obtain ⟨same, some⟩ := Node.nonBlank_eq_accepted filled
  exact ⟨by rw [same, Text.trim_trim], some⟩

/-- The nodes that are read again, when all are. -/
def nodesAgain? (w : Workflow) : Option (List Node) := w.nodes.mapM Node.again?

theorem nodesAgain?_eq_some_iff {w : Workflow} {nodes : List Node} :
    w.nodesAgain? = some nodes ↔ List.Forall₂ (fun n m => n.again? = some m) w.nodes nodes :=
  mapM_eq_some_iff

theorem ids_of_nodesAgain? {w : Workflow} {nodes : List Node} (again : w.nodesAgain? = some nodes) :
    nodes.map (·.id) = w.nodes.map (·.id) := by
  have each := nodesAgain?_eq_some_iff.1 again
  revert each
  generalize w.nodes = before
  clear again
  intro each
  induction each with
  | nil => rfl
  | cons first _ ih => rw [List.map_cons, List.map_cons, ih, Node.id_of_again? first]

theorem read_nodes_iff {w : Workflow} (checked : w.Checked) {nodes : List Node} :
    (listOf Node.read (.list (w.nodes.map (Node.record true)))).check uniqueIds = .accepted nodes ↔
      w.nodesAgain? = some nodes := by
  have listed {ns : List Node} : listOf Node.read (.list (w.nodes.map (Node.record true))) = .accepted ns ↔
      w.nodesAgain? = some ns := by
    change items Node.read 0 (w.nodes.map (Node.record true)) = _ ↔ _
    rw [items_eq_accepted, List.forall₂_map_left_iff, nodesAgain?_eq_some_iff]
    constructor <;> intro each <;> have own := (List.forall₂_and_left _ _).2 ⟨checked.nodes, each⟩
    · exact own.imp fun n m own => (Node.read_record_iff own.1).1 own.2
    · exact own.imp fun n m own => (Node.read_record_iff own.1).2 own.2
  have unique {ns : List Node} (again : w.nodesAgain? = some ns) : uniqueIds ns = .accepted ns := by
    unfold uniqueIds
    rw [if_pos (ids_of_nodesAgain? again ▸ checked.unique)]
  rw [check_eq_accepted]
  constructor
  · rintro ⟨ns, each, distinct⟩
    have again := listed.1 each
    cases (unique again).symm.trans distinct
    exact again
  · exact fun again => ⟨nodes, listed.2 again, unique again⟩

theorem read_connections (cs : List Connection) :
    listOf Connection.read (.list (cs.map (Connection.record true))) = .accepted cs := by
  change items Connection.read 0 (cs.map (Connection.record true)) = _
  rw [items_eq_accepted, List.forall₂_map_left_iff, List.forall₂_same]
  exact fun c _ => c.read_record

theorem read_vars {vars : List Declaration} (named : ∀ v ∈ vars, Declaration.nameRule v.name = .accepted v.name) :
    listOf Declaration.read (.list (vars.map Declaration.record)) = .accepted vars := by
  change items Declaration.read 0 (vars.map Declaration.record) = _
  rw [items_eq_accepted, List.forall₂_map_left_iff, List.forall₂_same]
  exact fun v there => Declaration.read_record (named v there)

end Workflow

namespace Store.WorkflowRow

/-- The lists of a definition in its row. -/
theorem columns_ofWorkflow (id : String) (w : Workflow) (version : Value) :
    (ofWorkflow id w version).nodes = .list (w.stored.nodes.map (Node.record true)) ∧
      (ofWorkflow id w version).connections = .list (w.connections.map (Connection.record true)) ∧
      (ofWorkflow id w version).vars = .list (w.stored.vars.map Declaration.record) := by
  refine ⟨(Value.stored_map fun n _ => n.stored_record).trans ?_, Value.stored_map fun c _ => c.stored_record,
    (Value.stored_map fun v _ => v.stored_record).trans ?_⟩ <;>
  · rw [Workflow.stored, List.map_map]
    rfl

end Store.WorkflowRow

namespace Workflow

open Store.WorkflowRow (ofWorkflow columns_ofWorkflow)

/-- A row is read as a definition field by field. -/
theorem read_row {row : Store.WorkflowRow} {version : Int} (whole : row.version = .int version) :
    read row.record = Workflow.mk
      <$> .accepted (some row.id)
      <*> .accepted row.tenant
      <*> (Node.nonBlank "Workflow name cannot be empty" row.name).within (.name "name")
      <*> .accepted row.description
      <*> .accepted row.module
      <*> (choice WorkflowStatus.ofName? (.text row.status)).within (.name "status")
      <*> ((listOf Node.read row.nodes).check uniqueIds).within (.name "nodes")
      <*> (listOf Connection.read row.connections).within (.name "connections")
      <*> (listOf Declaration.read row.vars).within (.name "variables")
      <*> .accepted version := by
  obtain ⟨id, tenant, name, description, module, status, nodes, connections, vars, _⟩ := row
  obtain rfl := whole
  unfold Store.WorkflowRow.record Value.record read
  dsimp only [List.map_cons, List.map_nil]
  rw [optional_of_get? (a := some id) (v := .text id) ?_ rfl,
    required_of_get? (r := text) (a := tenant) (v := .text tenant) ?_ rfl,
    required_eq (v := .text name) ?_,
    optional_of_get? (a := description) (v := .ofText? description) ?_ (nullable_ofText? description),
    required_of_get? (r := text) (a := module) (v := .text module) ?_ rfl,
    optional_eq (v := .text status) ?_, optional_eq (v := nodes) ?_, optional_eq (v := connections) ?_,
    optional_eq (v := vars) ?_, optional_of_get? (r := Read.whole) (a := version) (v := .int version) ?_ rfl]
  · rfl
  all_goals simp [Dict.get?, Dict.find?, Key.same]

/-- A definition as it is read again, when it is. -/
def again? (w : Workflow) (id : String) (version : Int) : Option Workflow :=
  w.stored.nodesAgain?.map fun nodes => { w.stored with id := some id, name := Text.trim w.name, nodes, version }

/-- The nodes that have been read again are read again as they are. -/
theorem nodesAgain?_of_again? {w u : Workflow} {id : String} {version : Int} (again : w.again? id version = some u) :
    u.stored.nodesAgain? = some u.nodes := by
  obtain ⟨nodes, each, rfl⟩ := Option.map_eq_some_iff.1 again
  have own := nodesAgain?_eq_some_iff.1 each
  refine nodesAgain?_eq_some_iff.2 ?_
  unfold Workflow.stored
  dsimp only
  rw [List.forall₂_map_left_iff, List.forall₂_same]
  intro m there
  obtain ⟨n, listed, read⟩ := exists_of_forall₂ own.flip there
  obtain ⟨n, -, rfl⟩ := List.mem_map.1 listed
  rw [Node.stored_of_again? read]
  exact Node.again?_of_again? read

/-- What is read from a row is the definition that was written into it, with the id and the version of the row, when
its name is not blank and its nodes are read again. -/
theorem parse_row_iff {w u : Workflow} (checked : w.Checked) (id : String) (version : Int) :
    parse (ofWorkflow id w (.int version)).record = .ok u ↔
      Text.trim w.name ≠ "" ∧ w.again? id version = some u := by
  unfold again?
  rw [Option.map_eq_some_iff]
  obtain ⟨nodes, connections, vars⟩ := columns_ofWorkflow id w (.int version)
  have ofRow (data : Value) : parse data = .ok u ↔ read data = .accepted u := by
    unfold parse
    cases read data <;> simp
  have status : choice WorkflowStatus.ofName? (.text w.status.name) = .accepted w.status := by
    cases w.status <;> rfl
  rw [ofRow, read_row rfl, nodes, connections, vars, read_connections, read_vars checked.stored.vars]
  change Workflow.mk <$> .accepted (some id) <*> .accepted w.tenant <*> (Node.nonBlank _ w.name).within _ <*>
    .accepted w.description <*> .accepted w.module <*>
    (choice WorkflowStatus.ofName? (.text w.status.name)).within _ <*> _ <*> _ <*> _ <*> _ = _ ↔ _
  rw [status]
  have filled {n : String} : Node.nonBlank "Workflow name cannot be empty" w.name = .accepted n ↔
      Text.trim w.name ≠ "" ∧ n = Text.trim w.name := by
    unfold Node.nonBlank
    by_cases blank : Text.trim w.name = "" <;> simp [blank, violate, refuse, eq_comm]
  rw [mk_eq_accepted]
  simp only [within_eq_accepted, filled, read_nodes_iff checked.stored]
  constructor
  · rintro ⟨own, tenant, ⟨some, name⟩, description, module, status, again, connections, vars, number⟩
    refine ⟨some, u.nodes, again, ?_⟩
    obtain ⟨⟩ := u
    cases own
    cases tenant
    cases name
    cases description
    cases module
    cases status
    cases connections
    cases vars
    cases number
    rfl
  · rintro ⟨some, again, listed, rfl⟩
    exact ⟨rfl, rfl, ⟨some, rfl⟩, rfl, rfl, rfl, listed, rfl, rfl, rfl⟩

/-- Nothing in a row that a definition was written into breaks its reading off. -/
theorem breaks?_row (w : Workflow) (id : String) (version : Value) :
    (writtenItems (ofWorkflow id w version).record "nodes").findSome? Node.breaks? = none := by
  have items : writtenItems (ofWorkflow id w version).record "nodes" =
      w.stored.nodes.map (Node.record true) := by
    have field : (ofWorkflow id w version).record.field? "nodes" = some (ofWorkflow id w version).nodes := by
      simp [Store.WorkflowRow.record, Value.record, Value.field?, Dict.get?, Dict.find?, Key.same]
    unfold writtenItems
    rw [field, (columns_ofWorkflow id w version).1]
    rfl
  rw [items, List.findSome?_map, List.findSome?_eq_none_iff]
  exact fun n _ => n.breaks?_record

/-- A row that a definition was written into is read as this definition, or is malformed. -/
theorem parse_row {w : Workflow} (checked : w.Checked) (filled : Text.trim w.name ≠ "") (id : String)
    (version : Int) :
    match w.again? id version with
    | some u => parse (ofWorkflow id w (.int version)).record = .ok u
    | none => ∃ issues, issues ≠ [] ∧
        parse (ofWorkflow id w (.int version)).record = .error (.program (.malformed (.text id) issues)) := by
  have cases := parse_cases (ofWorkflow id w (.int version)).record
  rw [breaks?_row] at cases
  have own : (ofWorkflow id w (.int version)).record.field? "id" = some (.text id) := by
    simp [Store.WorkflowRow.record, Value.record, Value.field?, Dict.get?, Dict.find?, Key.same, ofWorkflow]
  cases again : w.again? id version with
  | some u => exact (parse_row_iff checked id version).2 ⟨filled, again⟩
  | none =>
    obtain ⟨u, parsed⟩ | ⟨issues, told, -, parsed⟩ := cases
    · cases again.symm.trans ((parse_row_iff checked id version).1 parsed).2
    · exact ⟨issues, told, by rw [parsed, own]; rfl⟩

/-- A definition that JSON can express is read again as it is when each of its nodes is. -/
theorem again?_eq_self_iff {w : Workflow} (json : w.stored = w) (named : Text.trim w.name = w.name) (id : String)
    (version : Int) :
    w.again? id version = some { w with id := some id, version } ↔ ∀ n ∈ w.nodes, n.again? = some n := by
  unfold again?
  rw [json, named, Option.map_eq_some_iff]
  constructor
  · rintro ⟨nodes, again, same⟩
    obtain rfl : nodes = w.nodes := congrArg Workflow.nodes same
    exact List.forall₂_same.1 (nodesAgain?_eq_some_iff.1 again)
  · intro each
    exact ⟨w.nodes, nodesAgain?_eq_some_iff.2 (List.forall₂_same.2 each), rfl⟩

end Workflow

/-- What takes the place of a row is found there. -/
theorem Store.workflow?_updateWorkflow_self {s : Store} {id : String} {old row : WorkflowRow}
    (stored : s.workflow? id = some old) (own : row.id = id) :
    (s.updateWorkflow id fun _ => row).workflow? id = some row := by
  unfold updateWorkflow workflow? at *
  generalize s.workflows = rows at stored ⊢
  induction rows with
  | nil => cases stored
  | cons r rest ih =>
    by_cases here : r.id = id
    · simp [here, own]
    · have later : rest.find? (·.id == id) = some old := by simpa [here] using stored
      simpa [here] using ih later

namespace Storage

variable {s : Storage} {w : Workflow}

/-- The id under which a definition is saved: its own, or a new one. -/
def idFor (s : Storage) (w : Workflow) : String :=
  match w.id with
  | some id => if id = "" then idText s.nextId else id
  | none => idText s.nextId

theorem ends_saveWorkflow (steady : s.part.faulty = false) (fits : Store.fits w.version = true) :
    Ends (saveWorkflow w) s (fun id t => id = s.idFor w ∧ t.part.faulty = false ∧
      t.tables = s.tables.putWorkflow (.ofWorkflow id w (.int w.version))) never := by
  have store (id : String) (u : Storage) (same : u.tables = s.tables) (still : u.part.faulty = false) :
      Ends (do
        session "save workflow" "workflows" fun s => do
          let version ← Store.versionCell (.int w.version)
          return ((), s.putWorkflow (.ofWorkflow id w version))
        note .info logger ("Saved workflow " ++ id ++ " (" ++ w.name ++ ")")
        return id) u (fun a t => a = id ∧ t.part.faulty = false ∧
          t.tables = s.tables.putWorkflow (.ofWorkflow id w (.int w.version))) never := by
    have cell : Store.versionCell (.int w.version) = .ok (.int w.version) := by
      simp [Store.versionCell, Store.wholeCell, fits, Value.isNull, bind, Except.bind]
    refine Ends.bind ((ends_session still _ _ (by rw [cell]; rfl)).imp ?_ fun _ _ h => h)
    rintro _ t ⟨-, rfl⟩
    refine Ends.bind (Ends.modify_iff.2 (Ends.pure_iff.2 ⟨rfl, still, ?_⟩))
    rw [same]
  have fresh : Ends freshId s
      (fun id t => id = idText s.nextId ∧ t.tables = s.tables ∧ t.part.faulty = false) never :=
    Ends.bind (Ends.get_iff.2 (Ends.bind (Ends.modify_iff.2 (Ends.pure_iff.2 ⟨rfl, rfl, steady⟩))))
  have anew (own : s.idFor w = idText s.nextId) : Ends (freshId >>= fun id => do
      session "save workflow" "workflows" fun s => do
        let version ← Store.versionCell (.int w.version)
        return ((), s.putWorkflow (.ofWorkflow id w version))
      note .info logger ("Saved workflow " ++ id ++ " (" ++ w.name ++ ")")
      return id) s (fun id t => id = s.idFor w ∧ t.part.faulty = false ∧
        t.tables = s.tables.putWorkflow (.ofWorkflow id w (.int w.version))) never := by
    refine Ends.bind (fresh.imp ?_ fun _ _ h => h)
    rintro id t ⟨rfl, same, still⟩
    exact (store _ t same still).imp (fun a u h => ⟨h.1.trans own.symm, h.2.1, h.1 ▸ h.2.2⟩) fun _ _ h => h
  unfold saveWorkflow
  dsimp only
  split
  · rename_i id given
    split
    · rename_i blank
      exact anew (by simp [idFor, given, blank])
    · rename_i filled
      refine Ends.bind (Ends.pure_iff.2 ((store id s rfl steady).imp (fun a u h => ?_) fun _ _ h => h))
      exact ⟨h.1.trans (by simp [idFor, given, filled]), h.2.1, h.1 ▸ h.2.2⟩
  · rename_i given
    exact anew (by simp [idFor, given])

theorem ends_loadRow {id : String} {row : Store.WorkflowRow} (steady : s.part.faulty = false)
    (found : s.tables.workflow? id = some row) :
    Ends (loadWorkflow id) s (fun u _ => Workflow.parse row.record = .ok u)
      fun f _ => Workflow.parse row.record = .error f := by
  refine Ends.bind ((ends_query_ok steady _ _ (a := row) ?_).imp ?_ fun _ _ h => h.elim)
  · rw [found]
  · rintro found t ⟨here, -⟩
    rw [here]
    cases parsed : Workflow.parse row.record with
    | ok u => exact Ends.pure_iff.2 rfl
    | error f => exact Ends.throw_iff.2 rfl

/-- What is read of a row that a definition was just written into. -/
theorem ends_load_row {data : Value} (parsed : Workflow.parse data = .ok w) (steady : s.part.faulty = false)
    {id : String} {version : Int} (found : s.tables.workflow? id = some (.ofWorkflow id w (.int version))) :
    Ends (loadWorkflow id) s (fun u _ => w.again? id version = some u) fun f _ => w.again? id version = none ∧
      ∃ issues, issues ≠ [] ∧ f = .program (.malformed (.text id) issues) := by
  obtain ⟨named, filled⟩ := Workflow.named_of_parse parsed
  have cases := Workflow.parse_row (Workflow.checked_of_parse parsed) (named.symm ▸ filled) id version
  refine (ends_loadRow steady found).imp (fun u _ read => ?_) fun f _ read => ?_
  · cases again : w.again? id version with
    | some v =>
      rw [again] at cases
      cases cases.symm.trans read
      rfl
    | none =>
      rw [again] at cases
      obtain ⟨_, -, refused⟩ := cases
      cases refused.symm.trans read
  · cases again : w.again? id version with
    | some v =>
      rw [again] at cases
      cases cases.symm.trans read
    | none =>
      rw [again] at cases
      obtain ⟨issues, told, refused⟩ := cases
      cases refused.symm.trans read
      exact ⟨rfl, issues, told, rfl⟩

/-- A definition that is saved is loaded again as it is, but for what is read in the place of null amounts and
numbers of iterations; where nothing can be read there, it is malformed. -/
theorem loads_saved {data : Value} (parsed : Workflow.parse data = .ok w) (steady : s.part.faulty = false)
    (fits : Store.fits w.version = true) :
    Ends (saveWorkflow w >>= loadWorkflow) s (fun u _ => w.again? (s.idFor w) w.version = some u)
      fun f _ => w.again? (s.idFor w) w.version = none ∧
        ∃ issues, issues ≠ [] ∧ f = .program (.malformed (.text (s.idFor w)) issues) := by
  refine Ends.bind ((ends_saveWorkflow steady fits).imp ?_ fun _ _ h => h.elim)
  rintro _ t ⟨rfl, still, tables⟩
  exact ends_load_row parsed still (tables ▸ Store.workflow?_putWorkflow_self _ _)

/-- What JSON can express, without null amounts and numbers of iterations that the configuration replaces, is
loaded again unchanged. -/
theorem loads_saved_unchanged {data : Value} (parsed : Workflow.parse data = .ok w) (steady : s.part.faulty = false)
    (fits : Store.fits w.version = true) (json : w.stored = w) (each : ∀ n ∈ w.nodes, n.again? = some n) :
    Ends (saveWorkflow w >>= loadWorkflow) s (fun u _ => u = { w with id := some (s.idFor w) }) never := by
  have again := (Workflow.again?_eq_self_iff json (Workflow.named_of_parse parsed).1 (s.idFor w) w.version).2 each
  refine (loads_saved parsed steady fits).imp (fun u _ loaded => ?_) fun f _ lost => ?_
  · exact Option.some.inj (loaded.symm.trans again)
  · cases again.symm.trans lost.1

/-- A number of iterations that was zero comes back as the configured maximum. -/
example : ((Workflow.parse (Workflow.written [Workflow.writtenNode "T" "trigger" [("triggerType", .text "created")],
      Workflow.writtenNode "A" "loop" [("iterations", .int 0), ("config", .record [("maxIterations", .int 5)])]]
        [])).toOption.map fun w => ([some w, w.again? "wf" 1].map fun u => u.toList.flatMap fun u =>
          u.nodes.filterMap fun n => match n.kind with | .loop iterations => some iterations | _ => none)) =
    some [[none], [some 5]] := by
  decide +kernel

/-- So is one that takes the place of another, with the next version. -/
theorem loads_updated {data : Value} (parsed : Workflow.parse data = .ok w) (steady : s.part.faulty = false)
    {id : String} {row : Store.WorkflowRow} {next : Int} (stored : s.tables.workflow? id = some row)
    (bumped : Store.nextVersion row.version = .ok (.int next)) (fits : Store.fits next = true) :
    Ends (updateWorkflow id w >>= fun _ => loadWorkflow id) s (fun u _ => w.again? id next = some u)
      fun f _ => w.again? id next = none ∧
        ∃ issues, issues ≠ [] ∧ f = .program (.malformed (.text id) issues) := by
  have cell : Store.versionCell (.int next) = .ok (.int next) := by
    simp [Store.versionCell, Store.wholeCell, fits, Value.isNull, bind, Except.bind]
  refine Ends.bind (Ends.bind ((ends_session steady _ _ (a := .int next)
    (t := s.tables.updateWorkflow id fun _ => .ofWorkflow id w (.int next)) ?_).imp ?_ fun _ _ h => h.elim))
  · simp only [stored, bumped]
    change (Store.versionCell (.int next) >>= _) = _
    rw [cell]
    rfl
  · rintro _ t ⟨rfl, here⟩
    refine Ends.bind (Ends.modify_iff.2 (Ends.pure_iff.2 ?_))
    refine ends_load_row parsed ?_ ?_
    · rw [here]
      exact steady
    · rw [here]
      exact Store.workflow?_updateWorkflow_self stored rfl

end Storage

end Runbook
