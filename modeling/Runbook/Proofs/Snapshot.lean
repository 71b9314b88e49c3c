import Mathlib.Data.String.Basic
import Runbook.Engine.Snapshot
import Runbook.Proofs.Course.Queue
import Runbook.Proofs.Json

/-!
Snapshots that are written and read again. What a column gives back of a snapshot can always be read; an
execution is made from it again as it was, but for the keys of its dictionaries, which have become texts,
and for a module that counts as false, in place of which that of the workflow is taken.
-/
namespace Runbook

namespace Value

theorem orElse_dict (d : Dict) : (Value.dict d).orElse (.dict []) = .dict d := by
  cases d <;> rfl

theorem toDict_dict (d : Dict) : (Value.dict d).toDict = .ok d := by
  unfold toDict
  rw [orElse_dict]

theorem toItems_list (vs : List Value) : (Value.list vs).toItems = .ok vs := by
  cases vs <;> rfl

/-- The fields of a record are stored one by one. -/
theorem stored_record {fields : List (String × Value)} (names : (fields.map (·.1)).Nodup) :
    (record fields).stored = record (fields.map fun f => (f.1, f.2.stored)) := by
  unfold record
  rw [stored, storedEntries_eq_map, List.map_map, List.map_map, Dict.ofPairs_eq_self]
  · rfl
  · unfold Dict.Distinct
    rw [List.map_map]
    refine List.pairwise_map.2 ((List.pairwise_map.1 names).imp fun {f g} other => ?_)
    simpa [Key.same, Key.jsonText] using other

end Value

namespace Dict

/-- The dictionary as a JSON column gives it back. -/
def stored (d : Dict) : Dict := ofPairs (Value.storedEntries d)

theorem stored_eq_self_iff {d : Dict} : d.stored = d ↔ (Value.dict d).IsJson := by
  rw [← Value.stored_eq_self_iff]
  change _ ↔ Value.dict d.stored = .dict d
  exact ⟨congrArg Value.dict, Value.dict.inj⟩

/-- Whatever a column gives back has texts as keys. -/
theorem json_stored (d : Dict) : (Value.dict d.stored).IsJson := Value.isJson_stored (.dict d)

/-- What is found under a text is not touched by a column, unless another key has the same text. -/
theorem get?_stored {d : Dict} (proper : d.Proper) {name : String}
    (own : ∀ p ∈ d, p.1.jsonText = name → p.1 = .text name) : get? d.stored name = get? d name := by
  have merged (e : Dict) : get? (merge e (Value.storedEntries d)) name = (get? d name).or (get? e name) := by
    induction d generalizing e with
    | nil => rfl
    | cons p rest ih =>
      obtain ⟨k, v⟩ := p
      have distinct := List.pairwise_cons.1 proper.distinct
      have later : Proper rest := ⟨distinct.2, fun q there => proper.each q (.tail _ there)⟩
      change get? (merge (set e k.jsonText v.stored) (Value.storedEntries rest)) name = _
      rw [ih later fun q there => own q (.tail _ there), (proper.each _ (.head _)).stored]
      by_cases here : k.jsonText = name
      · obtain rfl := own _ (.head _) here
        have last : get? rest name = none := find?_eq_none.2 fun q there => by
          have other := distinct.1 q.1 (List.mem_map_of_mem there)
          rw [Bool.eq_false_iff, Ne, Key.same_text]
          rintro same
          rw [same] at other
          simp [Key.same] at other
        rw [last, here, get?_set_self]
        simp [get?, find?, Key.same]
      · have other : k.same (.text name) = false := by
          rw [Bool.eq_false_iff, Ne, Key.same_text]
          rintro rfl
          exact here rfl
        rw [get?_set_of_ne _ _ (Ne.symm here)]
        simp [get?, find?, other]
  exact (merged []).trans (Option.or_none)

end Dict

/-- Ordering what is in order changes nothing. -/
theorem sortBy_sortBy {K : Type} [LinearOrder K] (items : List K) :
    sortBy (fun a b => decide (a ≤ b)) (sortBy (fun a b => decide (a ≤ b)) items) =
      sortBy (fun a b => decide (a ≤ b)) items := by
  have sorted (items : List K) : (sortBy (fun a b => decide (a ≤ b)) items).Pairwise (· ≤ ·) :=
    pairwise_sortBy fun a _ b _ => decide_eq_true_iff
  exact (sortBy_perm _ _).eq_of_pairwise (fun a b _ _ => le_antisymm) (sorted _) (sorted _)

namespace Snapshot

theorem distinct_texts (seen : List Value) (ss : List String) : ∃ vs, distinct seen (ss.map .text) = .ok vs := by
  induction ss generalizing seen with
  | nil => exact ⟨seen, rfl⟩
  | cons s rest ih => exact ih _

/-- Texts that differ all stay. -/
theorem distinct_of_nodup {seen ss : List String} (apart : (seen ++ ss).Nodup) :
    distinct (seen.map .text) (ss.map .text) = .ok ((seen ++ ss).map .text) := by
  induction ss generalizing seen with
  | nil => rw [List.append_nil]; rfl
  | cons s rest ih =>
    have new : (seen.map Value.text).any (·.same (.text s)) = false := by
      rw [List.any_map, List.any_eq_false]
      intro t there same
      have same : t = s := by simpa [Value.same] using same
      exact (List.nodup_append.1 apart).2.2 t there s (.head _) same
    rw [List.map_cons]
    unfold distinct
    dsimp only
    rw [new]
    have apart : (seen ++ [s] ++ rest).Nodup := by rwa [List.append_assoc]
    have step := ih apart
    rw [List.map_append, List.append_assoc] at step
    exact step

end Snapshot

namespace Execution

variable {x : Execution}

/-- The iterations of its loops, as a dictionary. -/
def tallies (x : Execution) : Dict := x.counters.map fun c => (.text c.1, .int c.2)

/-- Its visited nodes in order. -/
def seen (x : Execution) : List String := sortBy (fun a b => decide (a ≤ b)) x.visited

/-- Numbers of iterations can be counted. -/
theorem countersOf_ints {d : Dict} (ints : ∀ q ∈ d, ∃ n, q.2 = .int n) : ∃ cs, countersOf d = .ok cs := by
  induction d with
  | nil => exact ⟨[], rfl⟩
  | cons q rest ih =>
    obtain ⟨k, v⟩ := q
    obtain ⟨n, rfl⟩ := ints _ (.head _)
    obtain ⟨cs, read⟩ := ih fun q later => ints q (.tail _ later)
    refine ⟨(k.jsonText, n) :: cs, ?_⟩
    unfold countersOf
    rw [read]
    rfl

/-- What is stored of it. -/
def kept (x : Execution) : Dict := [
  (.text "variables", .dict x.vars.stored), (.text "visited", Value.texts x.seen),
  (.text "path", Value.texts x.path), (.text "loop_counters", .dict x.tallies.stored),
  (.text "module_type", x.module.stored), (.text "module_item_id", x.item.stored),
  (.text "trigger_data", .dict x.triggerData.stored)]

theorem stored_snapshot (x : Execution) : x.snapshot.stored = .dict x.kept := by
  unfold snapshot
  rw [Value.stored_record (by simp)]
  simp only [List.map_cons, List.map_nil, (Value.isJson_texts _).stored]
  rfl

theorem getD_kept (x : Execution) :
    x.kept.getD "variables" = .dict x.vars.stored ∧ x.kept.getD "visited" = Value.texts x.seen ∧
      x.kept.getD "path" = Value.texts x.path ∧ x.kept.getD "loop_counters" = .dict x.tallies.stored ∧
      x.kept.getD "module_type" = x.module.stored ∧ x.kept.getD "module_item_id" = x.item.stored ∧
      x.kept.getD "trigger_data" = .dict x.triggerData.stored := by
  simp [kept, Dict.getD, Dict.get?, Dict.find?, Key.same]

theorem ints_tallies (x : Execution) : ∀ q ∈ x.tallies.stored, ∃ n, q.2 = .int n := by
  refine Dict.forall_merge (p := fun v => ∃ n, v = .int n) (fun _ no => absurd no List.not_mem_nil) ?_
  intro q there
  rw [Value.storedEntries_eq_map] at there
  obtain ⟨p, listed, rfl⟩ := List.mem_map.1 there
  obtain ⟨c, -, rfl⟩ := List.mem_map.1 listed
  exact ⟨c.2, rfl⟩

/-- A snapshot that is stored can be read again. -/
theorem read_snapshot (x : Execution) : ∃ d, x.snapshot.stored = .dict d ∧
    (∀ module, ∃ s, Snapshot.read module d = .ok s) ∧ ∀ y : Execution, ∃ z, y.absorb d = .ok z := by
  obtain ⟨vars, visited, path, counters, -, -, triggerData⟩ := x.getD_kept
  obtain ⟨vs, distinct⟩ := Snapshot.distinct_texts [] x.seen
  obtain ⟨cs, read⟩ := countersOf_ints x.ints_tallies
  refine ⟨x.kept, x.stored_snapshot, fun module => ?_, fun y => ?_⟩
  · unfold Snapshot.read
    rw [vars, triggerData, visited, path, counters]
    simp only [Value.toDict_dict, Value.texts, Value.toItems_list, bind, Except.bind, distinct]
    exact ⟨_, rfl⟩
  · unfold absorb
    rw [visited, counters, Value.orElse_dict]
    simp only [Value.texts, Value.toItems_list, bind, Except.bind, distinct, read]
    exact ⟨_, rfl⟩

/-- An execution of which a snapshot is read as it was written, but for its dictionaries: no node counts as
visited twice, no loop has two counters, and JSON can express its module and its item. -/
structure Legible (x : Execution) : Prop where
  visited : x.visited.Nodup
  counters : (x.counters.map (·.1)).Nodup
  module : x.module.IsJson
  item : x.item.IsJson

theorem tallies_stored (counters : (x.counters.map (·.1)).Nodup) : x.tallies.stored = x.tallies := by
  refine Dict.stored_eq_self_iff.2 (.dict (fun p there => ?_) ?_ fun p there => ?_)
  · obtain ⟨c, -, rfl⟩ := List.mem_map.1 there
    exact ⟨_, rfl⟩
  · unfold tallies Dict.Distinct
    rw [List.map_map]
    refine List.pairwise_map.2 ((List.pairwise_map.1 counters).imp fun {a b} other => ?_)
    simpa [Key.same] using other
  · obtain ⟨c, -, rfl⟩ := List.mem_map.1 there
    exact .int _

/-- The execution that is made again from its own snapshot. -/
def remade (x : Execution) (w : Workflow) : Execution where
  id := x.id
  workflow := w
  module := x.module.orElse (.text w.module)
  item := x.item
  triggerData := x.triggerData.stored
  vars := x.vars.stored
  visited := x.seen
  path := x.path
  counters := x.counters

theorem nodeIds_texts (ss : List String) : nodeIds (ss.map .text) = ss := by
  unfold nodeIds
  rw [List.filterMap_map]
  exact List.filterMap_some

namespace Legible

theorem read (legible : x.Legible) (w : Workflow) :
    ∃ s, Snapshot.read w.module x.kept = .ok s ∧ ofSnapshot x.id w s = x.remade w := by
  obtain ⟨vars, visited, path, counters, module, item, triggerData⟩ := x.getD_kept
  have seen : x.seen.Nodup := (sortBy_perm _ _).nodup_iff.2 legible.visited
  have distinct : Snapshot.distinct [] (x.seen.map .text) = .ok (x.seen.map .text) :=
    @Snapshot.distinct_of_nodup [] x.seen seen
  unfold Snapshot.read
  rw [vars, triggerData, visited, path, counters, module, item, legible.module.stored, legible.item.stored,
    tallies_stored legible.counters]
  simp only [Value.toDict_dict, Value.texts, Value.toItems_list, bind, Except.bind, distinct]
  refine ⟨_, rfl, ?_⟩
  unfold ofSnapshot remade
  simp only [nodeIds_texts]
  congr 1
  unfold tallies
  rw [List.filterMap_map]
  exact List.filterMap_some

end Legible

/-- Its snapshot is the same again just where JSON can express its dictionaries and its module is not
replaced. -/
theorem snapshot_remade_iff (x : Execution) (w : Workflow) :
    (x.remade w).snapshot = x.snapshot ↔ (Value.dict x.vars).IsJson ∧ (Value.dict x.triggerData).IsJson ∧
      (x.module.isTruthy = true ∨ x.module = .text w.module) := by
  have ordered : sortBy (fun a b => decide (a ≤ b)) (x.remade w).visited = sortBy (fun a b => decide (a ≤ b)) x.visited :=
    sortBy_sortBy x.visited
  have module : (x.remade w).module = x.module ↔ x.module.isTruthy = true ∨ x.module = .text w.module := by
    change (if x.module.isTruthy = true then x.module else .text w.module) = x.module ↔ _
    split
    · rename_i truthy
      exact iff_of_true rfl (.inl truthy)
    · rename_i falsy
      exact ⟨fun same => .inr same.symm, fun h => (h.resolve_left falsy).symm⟩
  rw [← Dict.stored_eq_self_iff, ← Dict.stored_eq_self_iff, ← module]
  constructor
  · intro same
    simp only [snapshot, Value.record, List.map_cons, List.map_nil, Value.dict.injEq, List.cons.injEq,
      Prod.mk.injEq, true_and] at same
    exact ⟨same.1, same.2.2.2.2.2.2.1, same.2.2.2.2.1⟩
  · rintro ⟨vars, triggerData, module⟩
    unfold snapshot
    rw [ordered, module, show (x.remade w).vars = x.vars from vars,
      show (x.remade w).triggerData = x.triggerData from triggerData]
    rfl

end Execution

end Runbook
