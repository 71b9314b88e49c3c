import Runbook.Proofs.Endpoints
import Runbook.Proofs.Json

/-!
What definitions hold that come from JSON. The configurations of their nodes and the defaults of their
variables are parts of what was read, so that JSON can express them as well.
-/
namespace Runbook

open Reading Read

theorem Dict.Proper.first? {d : Dict} {v : Value} (proper : d.Proper) {names : List String}
    (found : first? d names = some v) : v.IsJson := by
  obtain ⟨name, -, here⟩ := List.exists_of_findSome?_eq_some found
  exact proper.get? here

namespace Node

variable {d e : Dict} {n : Node}

/-- What is configured as a dictionary. -/
theorem proper_of_configOf {c : Dict} (proper : d.Proper) (config : configOf d = .dict c) : c.Proper := by
  have json : (configOf d).IsJson := (proper.getD "config").orElse (Dict.Proper.nil.json fun _ no => absurd no List.not_mem_nil)
  exact (config ▸ json).proper

theorem proper_withCondition (taken : withCondition d = .ok e) (proper : d.Proper) : e.Proper := by
  obtain rfl | ⟨c, config, rfl⟩ := withCondition_cases taken
  · exact proper
  · have inner := proper_of_configOf proper config
    refine proper.set _ (Value.isJson_record (by simp) ?_)
    simpa using ⟨inner.getD _, inner.getD _, inner.getD _⟩

theorem proper_withAmount (taken : withAmount d = .ok e) (proper : d.Proper) : e.Proper := by
  obtain rfl | ⟨c, config, rfl⟩ := withAmount_cases taken
  · exact proper
  · refine (proper.set _ ((proper_of_configOf proper config).getD _)).set _ ?_
    cases unit : Dict.get? d "unit" with
    | none => exact .text _
    | some v => exact proper.get? unit

theorem proper_withIterations (taken : withIterations d = .ok e) (proper : d.Proper) : e.Proper := by
  obtain rfl | ⟨c, config, rfl⟩ := withIterations_cases taken
  · exact proper
  · exact proper.set _ ((proper_of_configOf proper config).getD _)

theorem proper_of_readFields {kind : Reading NodeKind} (accepted : readFields d kind = .accepted n)
    (proper : d.Proper) : n.config.Proper := by
  have configured := (readFields_eq_accepted accepted).config
  unfold Read.optional at configured
  split at configured
  · rename_i v there
    have json := proper.first? there
    rw [within_eq_accepted] at configured
    unfold Read.dict at configured
    split at configured
    · injection configured with same
      exact same ▸ json.proper
    · cases configured
  · injection configured with same
    exact same ▸ .nil

theorem proper_of_withRule {rule : Except Mismatch Dict} {kind : Dict → Reading NodeKind}
    (leaves : ∀ e, rule = .ok e → e.Proper)
    (accepted : (withRule rule fun d => readFields d (kind d)) = .accepted n) : n.config.Proper := by
  cases rule with
  | ok e => exact proper_of_readFields accepted (leaves e rfl)
  | error m => cases accepted

theorem proper_of_readTagged {tag : String} {r : Reading Node} (known : readTagged d tag = some r)
    (accepted : r = .accepted n) (proper : d.Proper) : n.config.Proper := by
  unfold readTagged at known
  split at known
  all_goals cases known
  · exact proper_of_readFields accepted proper
  · exact proper_of_withRule (fun _ taken => proper_withCondition taken proper) accepted
  · exact proper_of_readFields accepted proper
  · exact proper_of_withRule (fun _ taken => proper_withAmount taken proper) accepted
  · exact proper_of_withRule (fun _ taken => proper_withIterations taken proper) accepted
  · exact proper_of_readFields accepted proper

theorem proper_of_read {v : Value} (accepted : read v = .accepted n) (json : v.IsJson) : n.config.Proper := by
  unfold read at accepted
  split at accepted
  · split at accepted
    · cases accepted
    · split at accepted
      · rename_i known
        exact proper_of_readTagged known (within_eq_accepted.1 accepted) json.proper
      · cases accepted
    · cases accepted
  · cases accepted

end Node

theorem Declaration.isJson_of_read {v : Value} {d : Declaration} (accepted : read v = .accepted d)
    (json : v.IsJson) : d.default.IsJson := by
  obtain ⟨u, rfl, fields⟩ := read_eq_accepted accepted
  have given := fields.default
  unfold Read.optional at given
  split at given
  · rename_i there
    injection within_eq_accepted.1 given with same
    exact same ▸ json.proper.first? there
  · injection given with same
    exact same ▸ .null

namespace Workflow

/-- JSON can express what its nodes are configured with and what its variables are by default. -/
structure IsJson (w : Workflow) : Prop where
  configs : ∀ n ∈ w.nodes, n.config.Proper
  defaults : ∀ d ∈ w.vars, d.default.IsJson

theorem isJson_writtenItems {v : Value} {name : String} (json : ∀ u, v.field? name = some u → u.IsJson) :
    ∀ u ∈ writtenItems v name, u.IsJson := by
  unfold writtenItems
  split
  · rename_i vs decoded
    obtain ⟨u, found, decoded⟩ := Option.map_eq_some_iff.1 decoded
    have given := json u found
    unfold decodedList at decoded
    dsimp only at decoded
    split at decoded
    · cases decoded
      exact fun _ no => absurd no List.not_mem_nil
    · split at decoded
      · rename_i holds
        cases decoded
        exact Value.isJson_list.1 (Json.isJson_of_read holds)
      · cases decoded
    · cases decoded
      exact Value.isJson_list.1 given
  · exact fun _ no => absurd no List.not_mem_nil

/-- What is read from JSON holds JSON. -/
theorem isJson_of_parse {v : Value} {w : Workflow} (parsed : parse v = .ok w)
    (nodes : ∀ u, v.field? "nodes" = some u → u.IsJson)
    (vars : ∀ u, v.field? "variables" = some u → u.IsJson) : w.IsJson := by
  obtain ⟨ofNodes, -, ofVars⟩ := items_of_read (read_of_parse parsed)
  refine ⟨fun n there => ?_, fun d there => ?_⟩
  · obtain ⟨u, written, own⟩ := exists_of_forall₂ ofNodes.flip there
    exact Node.proper_of_read own (isJson_writtenItems nodes u written)
  · obtain ⟨u, written, own⟩ := exists_of_forall₂ ofVars.flip there
    exact Declaration.isJson_of_read own (isJson_writtenItems vars u written)

end Workflow

namespace Store

/-- A row whose columns hold JSON. -/
structure WorkflowRow.InJson (r : WorkflowRow) : Prop where
  nodes : r.nodes.IsJson
  vars : r.vars.IsJson

namespace WorkflowRow

variable {r : WorkflowRow}

theorem InJson.parse (json : r.InJson) {w : Workflow} (parsed : Workflow.parse r.record = .ok w) : w.IsJson := by
  refine Workflow.isJson_of_parse parsed (fun u found => ?_) fun u found => ?_
  · have same : r.nodes = u := by simpa [record, Value.record, Value.field?, Dict.get?, Dict.find?, Key.same] using found
    exact same ▸ json.nodes
  · have same : r.vars = u := by simpa [record, Value.record, Value.field?, Dict.get?, Dict.find?, Key.same] using found
    exact same ▸ json.vars

/-- A definition is written as JSON. -/
theorem inJson_ofWorkflow (id : String) (w : Workflow) (version : Value) : (ofWorkflow id w version).InJson :=
  ⟨Value.isJson_stored _, Value.isJson_stored _⟩

/-- So is whatever is given as data. -/
theorem inJson_ofRaw {id : Value} {d : Dict} {isNew : Bool} (given : ofRaw id d isNew = .ok r) : r.InJson := by
  unfold ofRaw at given
  obtain ⟨_, -, given⟩ := bind_eq_ok given
  obtain ⟨_, -, given⟩ := bind_eq_ok given
  obtain ⟨_, -, given⟩ := bind_eq_ok given
  obtain ⟨_, -, given⟩ := bind_eq_ok given
  obtain ⟨_, -, given⟩ := bind_eq_ok given
  obtain ⟨_, -, given⟩ := bind_eq_ok given
  dsimp only at given
  split at given
  all_goals
    obtain ⟨_, -, given⟩ := bind_eq_ok given
    obtain ⟨_, -, given⟩ := bind_eq_ok given
    obtain ⟨_, -, given⟩ := bind_eq_ok given
    obtain ⟨_, -, given⟩ := bind_eq_ok given
    obtain ⟨_, -, given⟩ := bind_eq_ok given
    obtain ⟨_, -, given⟩ := bind_eq_ok given
    cases given
    exact ⟨Value.isJson_stored _, Value.isJson_stored _⟩

end WorkflowRow

end Store

end Runbook
