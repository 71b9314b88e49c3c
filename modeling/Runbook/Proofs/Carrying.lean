import Runbook.Proofs.Content
import Runbook.Proofs.Course.Roots
import Runbook.Proofs.Snapshot

/-!
What executions carry. Whatever an execution is given as JSON and whatever its built-in actions write, JSON
can express; only that a variable may be named by a value that is no text, which a column gives back as one.
-/
namespace Runbook

open Dict (Named)

namespace Value

variable {v : Value} {d : Dict}

theorem IsJson.items {vs : List Value} (json : v.IsJson) (items : Announcement.items? v = some vs) :
    ∀ u ∈ vs, u.IsJson := by
  unfold Announcement.items? at items
  split at items
  · cases items
    exact isJson_list.1 json
  · cases items
    intro u there
    obtain ⟨c, -, rfl⟩ := List.mem_map.1 there
    exact .text _
  · cases items
    intro u there
    obtain ⟨p, listed, rfl⟩ := List.mem_map.1 there
    obtain ⟨s, key⟩ := (isJson_dict.1 json).1 p listed
    dsimp only
    rw [key]
    exact .text s
  · cases items

theorem isJson_of_pairs {vs : List Value} (each : ∀ u ∈ vs, u.IsJson) {n : Nat}
    (read : pairs n vs = .ok d) : ∀ p ∈ d, p.2.IsJson := by
  induction vs generalizing n d with
  | nil =>
    cases read
    exact fun _ no => absurd no List.not_mem_nil
  | cons u rest ih =>
    obtain ⟨entry, first, read⟩ := bind_eq_ok read
    obtain ⟨others, later, read⟩ := bind_eq_ok read
    cases read
    refine List.forall_mem_cons.2 ⟨?_, ih (fun u there => each u (.tail _ there)) later⟩
    unfold pair at first
    split at first
    · cases first
    · rename_i k w items
      have inner := (each u (.head _)).items items
      split at first
      · cases first
        exact inner w (.tail _ (.head _))
      · cases first
    · cases first

/-- A dictionary that is made of JSON. -/
theorem IsJson.toDict (json : v.IsJson) (made : v.toDict = .ok d) : d.Proper := by
  have json : (v.orElse (.dict [])).IsJson :=
    json.orElse (Dict.Proper.nil.json fun _ no => absurd no List.not_mem_nil)
  unfold Value.toDict at made
  split at made
  · rename_i same
    cases made
    exact (same ▸ json).proper
  · obtain ⟨vs, walked, made⟩ := bind_eq_ok made
    obtain ⟨entries, read, made⟩ := bind_eq_ok made
    cases made
    refine .ofPairs (isJson_of_pairs ?_ read)
    unfold walk at walked
    split at walked
    · rename_i items
      cases walked
      exact json.items items
    · cases walked

/-- What fits into a text column. -/
theorem isJson_of_textCell {c : Option String} (fits : Store.textCell v = .ok c) : v.IsJson := by
  cases v with
  | null => exact .null
  | bool b => exact .bool b
  | int n => exact .int n
  | float x => exact .float x
  | text s => exact .text s
  | list items => cases fits
  | dict d => cases fits

end Value

/-- A reference stands for what JSON can express. -/
theorem Template.isJson_resolve {vars : Dict} (proper : vars.Proper) {v : Value} (json : v.IsJson) :
    (resolve vars v).IsJson := by
  unfold resolve
  split
  · split
    · exact proper.getD _
    · exact json
  · exact json

theorem Template.resolve_reference (vars : Dict) (name : String) :
    resolve vars (.text ("$" ++ name)) = Dict.getD vars name := by
  simp [resolve]

theorem initialVariables_eq_merge (payload : Dict) (declared : List Declaration) :
    ∃ added : List Declaration, added ⊆ declared ∧
      initialVariables payload declared = Dict.merge payload (added.map fun v => (.text v.name, v.default)) := by
  unfold initialVariables
  induction declared generalizing payload with
  | nil => exact ⟨[], List.nil_subset _, rfl⟩
  | cons v rest ih =>
    rw [List.foldl_cons]
    split
    · obtain ⟨added, declared, same⟩ := ih payload
      exact ⟨added, List.Subset.trans declared (List.subset_cons_self _ _), same⟩
    · obtain ⟨added, declared, same⟩ := ih (Dict.set payload v.name v.default)
      exact ⟨v :: added, List.cons_subset_cons _ declared, same⟩

/-! Actions. -/

namespace Action

/-- What a request is answered with when JSON can express it. -/
def Request.Given : (r : Request) → Except Failure r.Answer → Prop
  | .http _ _ _ _ _, .ok a => a.data.IsJson
  | _, _ => True

/-- Whatever a script writes, while its requests are answered with JSON, is of a certain kind. -/
def Script.Writes {α : Type} (p : Key → Value → Prop) : Script α → Prop
  | .done _ => True
  | .fail _ => True
  | .put k v next => p k v ∧ next.Writes p
  | .ask r next => ∀ given, r.Given given → (next given).Writes p

variable {α β : Type} {p : Key → Value → Prop}

theorem Script.Writes.andThen {x : Script α} {f : α → Script β} (first : x.Writes p)
    (next : ∀ a, (f a).Writes p) : (x.andThen f).Writes p := by
  induction x with
  | done a => exact next a
  | fail e => trivial
  | put k v rest ih => exact ⟨first.1, ih first.2⟩
  | ask r rest ih => exact fun given fits => ih given (first given fits)

theorem Script.writes_call (r : Request) : (Script.call r).Writes p := by
  intro given _
  cases given <;> trivial

theorem Script.Writes.wrap {actionType : String} {x : Script α} (writes : x.Writes p) :
    (Registry.wrapScript actionType x).Writes p := by
  induction x with
  | done a => trivial
  | fail e => trivial
  | put k v rest ih => exact ⟨writes.1, ih writes.2⟩
  | ask r rest ih => exact fun given fits => ih given (writes given fits)

/-- What is written under an assumption. -/
theorem Script.writes_under {given : Prop} {x : Script α} (writes : given → x.Writes p) :
    x.Writes fun k v => given → p k v := by
  induction x with
  | done a => trivial
  | fail e => trivial
  | put k v rest ih => exact ⟨fun h => (writes h).1, ih fun h => (writes h).2⟩
  | ask r rest ih => exact fun answer fits => ih answer fun h => writes h answer fits

/-- What the built-in actions write: JSON, under a text or under the name that is configured. -/
structure Builtin.Entry (actionType : String) (config : Dict) (k : Key) (v : Value) : Prop where
  json : v.IsJson
  named : (∃ s, k = .text s) ∨ actionType = "set_variable" ∧ (Dict.getD config "name").key? = some k

theorem Builtin.entry_text {actionType : String} {config : Dict} (name : String) {v : Value} (json : v.IsJson) :
    Entry actionType config (.text name) v :=
  ⟨json, .inl ⟨name, rfl⟩⟩

theorem writes_of_builtin {timeout : Value} {actionType description : String} {handler : Handler}
    (builtin : (actionType, description, handler) ∈ builtins timeout) {config : Dict} {caller : Caller}
    (configured : config.Proper) (vars : caller.vars.Proper) :
    (handler config caller).Writes (Builtin.Entry actionType config) := by
  simp only [builtins, List.mem_cons, Prod.mk.injEq, List.not_mem_nil, or_false] at builtin
  rcases builtin with ⟨rfl, -, rfl⟩ | ⟨rfl, -, rfl⟩ | ⟨rfl, -, rfl⟩ | ⟨rfl, -, rfl⟩ | ⟨rfl, -, rfl⟩ |
    ⟨rfl, -, rfl⟩ | ⟨rfl, -, rfl⟩
  · unfold Builtin.updateTicket
    dsimp only
    split
    · trivial
    · exact (Script.writes_call _).andThen fun _ => trivial
  · refine (Script.writes_call _).andThen fun id => ?_
    exact ⟨Builtin.entry_text _ (.text _), trivial⟩
  · unfold Builtin.assignTicket
    dsimp only
    split
    · trivial
    · exact (Script.writes_call _).andThen fun _ => trivial
  · unfold Builtin.sendNotification
    dsimp only
    split
    · trivial
    · exact (Script.writes_call _).andThen fun _ => trivial
  · refine (Script.writes_call _).andThen fun id => ?_
    exact ⟨Builtin.entry_text _ (.text _), trivial⟩
  · unfold Builtin.setVariable
    dsimp only
    split
    · trivial
    · unfold Builtin.variableKey
      split
      · rename_i key known
        exact ⟨⟨Template.isJson_resolve vars (configured.getD _), .inr ⟨rfl, known⟩⟩, trivial⟩
      · trivial
  · unfold Builtin.httpRequest
    dsimp only
    split
    · trivial
    · intro given fits
      cases given with
      | error f => trivial
      | ok a =>
        refine ⟨Builtin.entry_text _ (Value.isJson_record (by simp) ?_), ?_⟩
        · simpa using ⟨.int _, .text _, fits⟩
        · split <;> trivial

end Action

/-- The answer to a request holds JSON. -/
theorem Network.isJson_send {n : Network} {r : Http.Request} {a : Http.Answer} (sent : (n.send r).1 = .ok a) :
    a.data.IsJson := by
  have answers (reply : Http.Reply) : reply.answer.data.IsJson := by
    unfold Http.Reply.answer
    dsimp only
    split
    · rename_i read
      exact Json.isJson_of_read read
    · exact .text _
  unfold send at sent
  dsimp only at sent
  split at sent
  · cases sent
    exact answers _
  · rename_i reply _ _
    cases reply with
    | error f => cases sent
    | ok reply =>
      cases sent
      exact answers reply

/-! Executions. -/

/-- The variables that a workflow sets are named by texts. -/
def Workflow.Plain (w : Workflow) : Prop :=
  ∀ n ∈ w.nodes, n.kind = .action "set_variable" → ∃ s, Dict.getD n.config "name" = .text s

namespace Execution

/-- JSON can express what an execution carries, but for the names of its variables. These are texts as long
as those it begins with and those that its workflow sets are. -/
structure Carries (x : Execution) : Prop where
  workflow : x.workflow.IsJson
  vars : x.vars.Proper
  triggerData : x.triggerData.Proper
  named : x.workflow.Plain → x.triggerData.Named → x.vars.Named

/-- Its snapshots can be read again; and if it was given JSON, then it carries JSON. -/
structure Fits (given : Prop) (x : Execution) : Prop extends x.Legible where
  carries : given → x.Carries

variable {given : Prop} {x y : Execution}

theorem nodup_add {seen : List String} (apart : seen.Nodup) {node : String} (new : seen.contains node = false) :
    (seen ++ [node]).Nodup := by
  refine List.nodup_append.2 ⟨apart, List.nodup_singleton _, fun a there b last same => ?_⟩
  rw [List.mem_singleton.1 last] at same
  have there : seen.contains node = true := List.contains_iff_mem.2 (same ▸ there)
  rw [new] at there
  cases there

theorem keys_putCounter (counters : List (String × Int)) (node : String) (n : Int) :
    (putCounter counters node n).map (·.1) =
      if node ∈ counters.map (·.1) then counters.map (·.1) else counters.map (·.1) ++ [node] := by
  induction counters with
  | nil => rfl
  | cons c rest ih =>
    obtain ⟨k, m⟩ := c
    by_cases same : k = node
    · subst same
      simp [putCounter]
    · have other : ¬node = k := fun h => same h.symm
      simp only [putCounter, beq_iff_eq, same, if_false, List.map_cons, ih, List.mem_cons, other, false_or]
      split <;> rfl

theorem nodup_putCounter {counters : List (String × Int)} (apart : (counters.map (·.1)).Nodup) (node : String)
    (n : Int) : ((putCounter counters node n).map (·.1)).Nodup := by
  rw [keys_putCounter]
  split
  · exact apart
  · rename_i new
    exact nodup_add apart (by simpa using new)

namespace Fits

theorem visit (fits : x.Fits given) {node : String} (new : x.visited.contains node = false) :
    { x with visited := x.visited ++ [node] }.Fits given :=
  { fits with visited := nodup_add fits.visited new, carries := fun h => { fits.carries h with } }

theorem count (fits : x.Fits given) (node : String) (n : Int) : (x.setCounter node n).Fits given :=
  { fits with counters := nodup_putCounter fits.counters node n, carries := fun h => { fits.carries h with } }

/-- Nothing else than what it carries is asked for. -/
theorem outward (fits : x.Fits given) {f : Execution → Execution} (outward : Outward f) : (f x).Fits given := by
  have inner := outward x ▸ fits
  exact { inner with carries := fun h => { inner.carries h with } }

theorem pace (fits : x.Fits given) {f : Execution → Execution} (pace : Pace f) : (f x).Fits given := by
  cases pace with
  | enter node =>
    have visited : (x.enter node).visited.Nodup := by
      unfold enter
      dsimp only
      split
      · exact fits.visited
      · rename_i new
        exact nodup_add fits.visited (by simpa using new)
    exact { fits with visited, carries := fun h => { fits.carries h with } }
  | count node n => exact fits.count node n
  | begin node => exact { fits with carries := fun h => { fits.carries h with } }
  | leave node => exact { fits with carries := fun h => { fits.carries h with } }

/-- It goes back to what another state of it has visited. -/
theorem forget (fits : x.Fits given) (other : y.Fits given) : { x with visited := y.visited }.Fits given :=
  { fits with visited := other.visited, carries := fun h => { fits.carries h with } }

theorem assign (fits : x.Fits given) {k : Key} {v : Value}
    (entry : given → v.IsJson ∧ (x.workflow.Plain → ∃ s, k = .text s)) :
    { x with vars := Dict.put x.vars k v }.Fits given :=
  { fits with
    carries := fun h => { fits.carries h with
      vars := (fits.carries h).vars.put k (entry h).1
      named := fun plain texts => by
        obtain ⟨s, rfl⟩ := (entry h).2 plain
        exact ((fits.carries h).named plain texts).put s v } }

/-- A new execution. -/
theorem opening {w : Workflow} {id : String} {module item : Value} {payload : Dict} (ofModule : module.IsJson)
    (ofItem : item.IsJson) (carried : given → w.IsJson ∧ payload.Proper) :
    (Execution.opening id w module item payload (initialVariables payload w.vars)).Fits given where
  visited := .nil
  counters := .nil
  module := ofModule
  item := ofItem
  carries h := by
    obtain ⟨json, proper⟩ := carried h
    obtain ⟨added, declared, same⟩ := initialVariables_eq_merge payload w.vars
    refine ⟨json, ?_, proper, fun _ named => ?_⟩
    · refine ⟨?_, ?_⟩
      · exact same ▸ proper.distinct.merge _
      · change ∀ p ∈ initialVariables payload w.vars, p.2.IsJson
        rw [same]
        refine Dict.forall_merge proper.each fun q there => ?_
        obtain ⟨v, listed, rfl⟩ := List.mem_map.1 there
        exact json.defaults v (declared listed)
    · change Named (initialVariables payload w.vars)
      rw [same]
      refine named.merge fun q there => ?_
      obtain ⟨v, -, rfl⟩ := List.mem_map.1 there
      exact ⟨v.name, rfl⟩

/-- An execution that is made again from what was stored carries JSON only. -/
theorem remade (fits : x.Fits given) {w : Workflow} (json : given → w.IsJson) : (x.remade w).Fits given where
  visited := (sortBy_perm _ _).nodup_iff.2 fits.visited
  counters := fits.counters
  module := fits.module.orElse (.text _)
  item := fits.item
  carries h := {
    workflow := json h
    vars := (Dict.json_stored _).proper
    triggerData := (Dict.json_stored _).proper
    named := fun _ _ => (Value.isJson_dict.1 (Dict.json_stored _)).1 }

end Fits

end Execution

end Runbook
