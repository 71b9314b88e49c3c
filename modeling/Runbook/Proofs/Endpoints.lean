import Mathlib.Data.List.DropRight
import Runbook.Proofs.Definition

/-!
The ends of connections. Ids of nodes are trimmed when a definition is read, and the ends of connections are
not. So an end that is written like the id of a node leads to this node when the id has no blanks around it,
and to none otherwise.
-/
namespace Runbook

namespace Text

theorem trimOf_trimOf (p : Char → Bool) (cs : List Char) : trimOf p (trimOf p cs) = trimOf p cs := by
  let front := cs.dropWhile p
  have back : trimOf p cs = front.rdropWhile p := rfl
  have still : (front.rdropWhile p).dropWhile p = front.rdropWhile p := by
    refine List.dropWhile_eq_self_iff.2 fun some => ?_
    have part := List.rdropWhile_prefix p (l := front)
    have front_still : front.dropWhile p = front := List.dropWhile_idempotent p cs
    have head := List.dropWhile_eq_self_iff.1 front_still (some.trans_le part.length_le)
    rw [part.getElem some]
    exact head
  change ((trimOf p cs).dropWhile p).rdropWhile p = trimOf p cs
  rw [back, still, List.rdropWhile_idempotent]

theorem trim_trim (s : String) : trim (trim s) = trim s := by
  unfold trim
  rw [String.toList_ofList, trimOf_trimOf]

/-- Nothing is left of blanks alone. -/
theorem trim_eq_empty_iff (s : String) : trim s = "" ↔ ∀ c ∈ s.toList, isBlank c = true := by
  have back : trimOf isBlank s.toList = (s.toList.dropWhile isBlank).rdropWhile isBlank := rfl
  rw [trim, String.ofList_eq_empty_iff, back, List.rdropWhile_eq_nil_iff, ← List.dropWhile_eq_nil_iff,
    ← List.dropWhile_eq_nil_iff, List.dropWhile_idempotent]

end Text

open Reading Read

/-- The items of a list are read one by one. -/
theorem Reading.forall₂_of_items {α : Type} {read : Value → Reading α} {n : Nat} {vs : List Value} {as : List α}
    (accepted : items read n vs = .accepted as) : List.Forall₂ (fun v a => read v = .accepted a) vs as := by
  induction vs generalizing n as with
  | nil =>
    obtain rfl : [] = as := by injection accepted
    exact .nil
  | cons v rest ih =>
    obtain ⟨_, later, first, others, rfl⟩ := seq_eq_accepted.1 accepted
    obtain ⟨_, here, rfl⟩ := map_eq_accepted.1 first
    exact .cons (within_eq_accepted.1 here) (ih others)

/-- Of two lists whose items are related one by one, each item of the first has a partner. -/
theorem exists_of_forall₂ {α β : Type} {r : α → β → Prop} {as : List α} {bs : List β} (related : List.Forall₂ r as bs)
    {a : α} (there : a ∈ as) : ∃ b ∈ bs, r a b := by
  induction related with
  | nil => cases there
  | cons first _ ih =>
    rcases List.mem_cons.1 there with rfl | later
    · exact ⟨_, .head _, first⟩
    · obtain ⟨b, here, paired⟩ := ih later
      exact ⟨b, .tail _ here, paired⟩

theorem Read.text_eq_accepted {v : Value} {s : String} : text v = .accepted s ↔ v = .text s := by
  cases v <;> simp [text, refuse]

namespace Node

/-! What a node takes from its configuration. -/

theorem withCondition_cases {d e : Dict} (taken : withCondition d = .ok e) :
    e = d ∨ ∃ c, configOf d = .dict c ∧ e = Dict.set d "condition" (.record [
      ("field", Dict.getD c "field"), ("operator", Dict.getD c "operator"), ("value", Dict.getD c "value")]) := by
  unfold withCondition at taken
  split at taken
  · cases taken
    exact .inl rfl
  · dsimp only at taken
    cases field : holds "field" (configOf d) with
    | error m =>
      rw [field] at taken
      cases taken
    | ok has =>
      cases operator : holds "operator" (configOf d) with
      | error m =>
        rw [field, operator] at taken
        cases has <;> cases taken
        exact .inl rfl
      | ok has' =>
        rw [field, operator] at taken
        cases has <;> cases has'
        case true.true =>
          cases config : configOf d with
          | dict c =>
            rw [config] at taken
            cases taken
            exact .inr ⟨c, rfl, rfl⟩
          | _ =>
            rw [config] at taken
            cases taken
        all_goals
          cases taken
          exact .inl rfl

theorem withAmount_cases {d e : Dict} (taken : withAmount d = .ok e) :
    e = d ∨ ∃ c, configOf d = .dict c ∧ e = Dict.set (Dict.set d "amount" (Dict.getD c "duration")) "unit"
      ((Dict.get? d "unit").getD (.text "minutes")) := by
  unfold withAmount at taken
  split at taken
  · cases taken
    exact .inl rfl
  · dsimp only at taken
    cases duration : holds "duration" (configOf d) with
    | error m =>
      rw [duration] at taken
      cases taken
    | ok has =>
      rw [duration] at taken
      cases has with
      | false =>
        cases taken
        exact .inl rfl
      | true =>
        cases config : configOf d with
        | dict c =>
          rw [config] at taken
          cases taken
          exact .inr ⟨c, rfl, rfl⟩
        | _ =>
          rw [config] at taken
          cases taken

theorem withIterations_cases {d e : Dict} (taken : withIterations d = .ok e) :
    e = d ∨ ∃ c, configOf d = .dict c ∧ e = Dict.set d "iterations" (Dict.getD c "maxIterations") := by
  unfold withIterations at taken
  split at taken
  · cases taken
    exact .inl rfl
  · split at taken
    · rename_i config
      split at taken
      · cases taken
        exact .inl rfl
      · cases taken
        exact .inr ⟨_, config, rfl⟩
    · cases taken

/-! Its id stays. -/

theorem get?_id_withCondition {d e : Dict} (taken : withCondition d = .ok e) :
    Dict.get? e "id" = Dict.get? d "id" := by
  obtain rfl | ⟨c, -, rfl⟩ := withCondition_cases taken
  · rfl
  · exact Dict.get?_set_of_ne _ _ (by decide)

theorem get?_id_withAmount {d e : Dict} (taken : withAmount d = .ok e) :
    Dict.get? e "id" = Dict.get? d "id" := by
  obtain rfl | ⟨c, -, rfl⟩ := withAmount_cases taken
  · rfl
  · rw [Dict.get?_set_of_ne _ _ (by decide), Dict.get?_set_of_ne _ _ (by decide)]

theorem get?_id_withIterations {d e : Dict} (taken : withIterations d = .ok e) :
    Dict.get? e "id" = Dict.get? d "id" := by
  obtain rfl | ⟨c, -, rfl⟩ := withIterations_cases taken
  · rfl
  · exact Dict.get?_set_of_ne _ _ (by decide)

/-- The id that is written of a node. -/
def writtenId? : Value → Option String
  | .dict d =>
    match Dict.get? d "id" with
    | some (.text s) => some s
    | _ => none
  | _ => none

theorem id_of_readFields {d : Dict} {kind : Reading NodeKind} {n : Node}
    (accepted : readFields d kind = .accepted n) : ∃ s, Dict.get? d "id" = some (.text s) ∧ n.id = Text.trim s := by
  obtain ⟨v, there, checked⟩ := required_eq_accepted.1 (readFields_eq_accepted accepted).id
  obtain ⟨s, written, filled⟩ := check_eq_accepted.1 checked
  obtain rfl := text_eq_accepted.1 written
  exact ⟨s, by simpa [Dict.first?] using there, (nonBlank_eq_accepted filled).1⟩

theorem id_of_withRule {rule : Except Mismatch Dict} {kind : Dict → Reading NodeKind} {d : Dict} {n : Node}
    (leaves : ∀ e, rule = .ok e → Dict.get? e "id" = Dict.get? d "id")
    (accepted : (withRule rule fun d => readFields d (kind d)) = .accepted n) :
    ∃ s, Dict.get? d "id" = some (.text s) ∧ n.id = Text.trim s := by
  cases rule with
  | ok e => exact leaves e rfl ▸ id_of_readFields accepted
  | error m => cases accepted

theorem id_of_readTagged {d : Dict} {tag : String} {r : Reading Node} {n : Node}
    (known : readTagged d tag = some r) (accepted : r = .accepted n) :
    ∃ s, Dict.get? d "id" = some (.text s) ∧ n.id = Text.trim s := by
  unfold readTagged at known
  split at known
  all_goals cases known
  · exact id_of_readFields accepted
  · exact id_of_withRule (fun _ => get?_id_withCondition) accepted
  · exact id_of_readFields accepted
  · exact id_of_withRule (fun _ => get?_id_withAmount) accepted
  · exact id_of_withRule (fun _ => get?_id_withIterations) accepted
  · exact id_of_readFields accepted

/-- A node has the id that is written, trimmed. -/
theorem id_of_read {v : Value} {n : Node} (accepted : read v = .accepted n) :
    ∃ s, writtenId? v = some s ∧ n.id = Text.trim s := by
  unfold read at accepted
  split at accepted
  · split at accepted
    · cases accepted
    · split at accepted
      · rename_i known
        obtain ⟨s, there, own⟩ := id_of_readTagged known (within_eq_accepted.1 accepted)
        exact ⟨s, by simp [writtenId?, there], own⟩
      · cases accepted
    · cases accepted
  · cases accepted

end Node

namespace Connection

/-- The source that is written of a connection, and its target. -/
def writtenSource? : Value → Option Value
  | .dict d => Dict.first? d ["sourceId", "source_id"]
  | _ => none

def writtenTarget? : Value → Option Value
  | .dict d => Dict.first? d ["targetId", "target_id"]
  | _ => none

/-- A connection has the ends that are written. -/
theorem ends_of_read {v : Value} {c : Connection} (accepted : read v = .accepted c) :
    writtenSource? v = some (.text c.source) ∧ writtenTarget? v = some (.text c.target) := by
  obtain ⟨d, rfl, fields⟩ := read_eq_accepted accepted
  obtain ⟨_, there, own⟩ := required_eq_accepted.1 fields.source
  obtain ⟨_, there', own'⟩ := required_eq_accepted.1 fields.target
  exact ⟨text_eq_accepted.1 own ▸ there, text_eq_accepted.1 own' ▸ there'⟩

end Connection

namespace Workflow

/-- The nodes, the connections or the variables, as they are written in a definition. -/
def writtenItems (data : Value) (name : String) : List Value :=
  match (data.field? name).map decodedList with
  | some (.accepted (.list vs)) => vs
  | _ => []

theorem forall₂_of_listOf {α : Type} {read : Value → Reading α} {d : Dict} {name : String} {as : List α}
    (accepted : Read.optional d [name] [] (listOf read) = .accepted as) :
    List.Forall₂ (fun v a => read v = .accepted a) (writtenItems (.dict d) name) as := by
  unfold Read.optional at accepted
  have own : Dict.first? d [name] = (Value.dict d).field? name := by
    simp [Dict.first?, Value.field?]
  unfold writtenItems
  rw [own] at accepted
  split at accepted
  · rename_i v there
    obtain ⟨u, decoded, listed⟩ := check_eq_accepted.1 (within_eq_accepted.1 accepted)
    unfold list at listed
    split at listed
    · rw [there, Option.map_some, decoded]
      exact forall₂_of_items listed
    · cases listed
  · rename_i absent
    obtain rfl : [] = as := by injection accepted
    rw [absent]
    exact .nil

/-- Nodes, connections and variables are read one by one from what is written. -/
theorem items_of_read {v : Value} {w : Workflow} (accepted : read v = .accepted w) :
    List.Forall₂ (fun a n => Node.read a = .accepted n) (writtenItems v "nodes") w.nodes ∧
      List.Forall₂ (fun b c => Connection.read b = .accepted c) (writtenItems v "connections") w.connections ∧
      List.Forall₂ (fun b d => Declaration.read b = .accepted d) (writtenItems v "variables") w.vars := by
  obtain ⟨d, rfl, fields⟩ := read_eq_accepted accepted
  refine ⟨forall₂_of_listOf ?_, forall₂_of_listOf fields.connections, forall₂_of_listOf fields.vars⟩
  have listed := fields.nodes
  unfold Read.optional at listed ⊢
  split at listed
  · obtain ⟨ns, each, distinct⟩ := check_eq_accepted.1 (within_eq_accepted.1 listed)
    unfold uniqueIds at distinct
    split at distinct
    · cases distinct
      exact within_eq_accepted.2 each
    · cases distinct
  · exact listed

theorem read_of_parse {v : Value} {w : Workflow} (parsed : parse v = .ok w) : read v = .accepted w := by
  unfold parse at parsed
  split at parsed
  · rename_i accepted
    cases parsed
    exact accepted
  all_goals cases parsed

/-- Every id of a node is trimmed. -/
theorem trimmed_of_read {v : Value} {w : Workflow} (accepted : read v = .accepted w) {n : Node} (there : n ∈ w.nodes) :
    Text.trim n.id = n.id := by
  obtain ⟨a, -, own⟩ := exists_of_forall₂ (items_of_read accepted).1.flip there
  obtain ⟨s, -, id⟩ := Node.id_of_read own
  rw [id, Text.trim_trim]

/-- The text that is written as the id of a node leads to it if it has no blanks around it, and to no node
otherwise. -/
theorem node?_written {v a : Value} {w : Workflow} {n : Node} {s : String} (accepted : read v = .accepted w)
    (there : n ∈ w.nodes) (own : Node.read a = .accepted n) (named : Node.writtenId? a = some s) :
    w.node? s = if Text.trim s = s then some n else none := by
  obtain ⟨t, named', id⟩ := Node.id_of_read own
  obtain rfl := Option.some.inj (named'.symm.trans named)
  split
  · rename_i trimmed
    rw [← trimmed, ← id]
    exact (sound_of_read accepted).node?_of_mem there
  · rename_i blanks
    refine List.find?_eq_none.2 fun m there same => blanks ?_
    obtain rfl : m.id = t := by simpa using same
    exact trimmed_of_read accepted there

/-- Where the ends of a connection lead that are written like the ids of nodes: to these nodes when the ids
have no blanks around them, and to none otherwise. -/
theorem ends_written {data a b : Value} {w : Workflow} {s : String} (parsed : parse data = .ok w)
    (node : a ∈ writtenItems data "nodes") (named : Node.writtenId? a = some s)
    (joined : b ∈ writtenItems data "connections") :
    ∃ n ∈ w.nodes, ∃ c ∈ w.connections, Node.read a = .accepted n ∧ Connection.read b = .accepted c ∧
      (Connection.writtenSource? b = some (.text s) →
        w.node? c.source = if Text.trim s = s then some n else none) ∧
      (Connection.writtenTarget? b = some (.text s) →
        w.node? c.target = if Text.trim s = s then some n else none) := by
  have accepted := read_of_parse parsed
  obtain ⟨nodes, connections, -⟩ := items_of_read accepted
  obtain ⟨n, there, own⟩ := exists_of_forall₂ nodes node
  obtain ⟨c, there', own'⟩ := exists_of_forall₂ connections joined
  obtain ⟨source, target⟩ := Connection.ends_of_read own'
  have leads := node?_written accepted there own named
  refine ⟨n, there, c, there', own, own', fun same => ?_, fun same => ?_⟩
  · cases source.symm.trans same
    exact leads
  · cases target.symm.trans same
    exact leads

/-- An id with blanks around it is lost for the connections that name it. -/
example : (parse (written [writtenNode "T" "trigger" [("triggerType", .text "created")], writtenNode " A " "junction" []]
    [writtenConnection "T" " A " .null])).toOption.map
      (fun w => (w.nodes.map (·.id), w.connections.map fun c => (w.node? c.target).isSome)) =
    some (["T", "A"], [false]) := by
  decide +kernel

end Workflow

end Runbook
