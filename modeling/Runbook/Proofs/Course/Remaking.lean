import Mathlib.Data.List.Perm.Basic
import Runbook.Proofs.Course.Recovery

/-!
What is remade of markers. An execution that is taken up again has the variables of the marker that was
saved last. It counts the nodes as visited that any of its markers counts, and of a loop it counts as many
iterations as the marker that counts most of them.
-/
namespace Runbook

/-- The items of a list. -/
def Value.items : Value → List Value
  | .list vs => vs
  | _ => []

namespace Saved

/-- The variables that it keeps. -/
def vars (s : Saved) : Dict := (s.context.entries.getD "variables").entries

/-- The nodes that it counts as visited. -/
def visited (s : Saved) : List String := Execution.nodeIds (s.context.entries.getD "visited").items

/-- The iterations that it counts, by loops. -/
def counters (s : Saved) : List (String × Int) :=
  (s.context.entries.getD "loop_counters").entries.filterMap fun p =>
    (Execution.count? p.2).map (p.1.jsonText, ·)

/-- The iterations that it counts of one loop. -/
def counts (s : Saved) (node : String) : List Int := (s.counters.filter (·.1 == node)).map (·.2)

/-- It keeps a snapshot of an execution. -/
def Whole (s : Saved) : Prop := ∃ z : Execution, s.context = z.snapshot.stored

theorem Whole.entries {s : Saved} {z : Execution} (whole : s.context = z.snapshot.stored) :
    s.context.entries = z.kept := by
  rw [whole, z.stored_snapshot]
  rfl

end Saved

/-- What markers count of a loop all together, the one that was saved last first. -/
def Saved.most (last : Saved) (saved : List Saved) (node : String) : Int :=
  (saved.flatMap (·.counts node)).foldl max ((last.counts node).headD 0)

namespace Snapshot

/-- Of texts every one stays. -/
theorem mem_distinct (seen ss : List String) : ∃ ts : List String,
    distinct (seen.map .text) (ss.map .text) = .ok (ts.map .text) ∧ ∀ t, t ∈ ts ↔ t ∈ seen ∨ t ∈ ss := by
  induction ss generalizing seen with
  | nil => exact ⟨seen, rfl, fun t => by simp⟩
  | cons s rest ih =>
    have known : (seen.map Value.text).any (·.same (.text s)) = true ↔ s ∈ seen := by
      rw [List.any_map, List.any_eq_true]
      constructor
      · rintro ⟨t, there, same⟩
        have same : t = s := by simpa [Value.same] using same
        exact same ▸ there
      · exact fun there => ⟨s, there, by simp [Value.same]⟩
    rw [List.map_cons]
    unfold distinct
    dsimp only
    split
    · rename_i old
      obtain ⟨ts, done, mem⟩ := ih seen
      refine ⟨ts, done, fun t => (mem t).trans ⟨fun h => h.imp_right (.tail _), fun h => ?_⟩⟩
      rcases h with there | there
      · exact .inl there
      · rcases List.mem_cons.1 there with rfl | later
        · exact .inl (known.1 old)
        · exact .inr later
    · obtain ⟨ts, done, mem⟩ := ih (seen ++ [s])
      rw [List.map_append] at done
      exact ⟨ts, done, fun t => (mem t).trans (by simp [or_assoc])⟩

end Snapshot

namespace Execution

variable {x y : Execution}

theorem countersOf_eq {d : Dict} {cs : List (String × Int)} (read : countersOf d = .ok cs) :
    cs = d.filterMap fun p => (count? p.2).map (p.1.jsonText, ·) := by
  induction d generalizing cs with
  | nil => cases read; rfl
  | cons p rest ih =>
    obtain ⟨k, v⟩ := p
    unfold countersOf at read
    cases number : count? v with
    | none =>
      rw [number] at read
      cases read
    | some n =>
      rw [number] at read
      obtain ⟨others, read', made⟩ := bind_eq_ok read
      cases made
      rw [List.filterMap_cons, number, ih read']
      rfl

/-- Nodes that are visited besides. -/
def visit (x : Execution) (nodes : List String) : Execution :=
  nodes.foldl (fun e node =>
    if e.visited.contains node then e else { e with visited := e.visited ++ [node] }) x

/-- Counters that are put ahead. -/
def catchUp (x : Execution) (cs : List (String × Int)) : Execution :=
  cs.foldl (fun e c => e.setCounter c.1 (max c.2 (e.counter c.1))) x

theorem mem_visit (nodes : List String) (node : String) :
    node ∈ (x.visit nodes).visited ↔ node ∈ x.visited ∨ node ∈ nodes := by
  induction nodes generalizing x with
  | nil => simp [visit]
  | cons n rest ih =>
    refine ih.trans ?_
    dsimp only
    split
    · rename_i seen
      have seen : n ∈ x.visited := by simpa using seen
      constructor
      · exact fun h => h.imp_right (.tail _)
      · rintro (there | there)
        · exact .inl there
        · rcases List.mem_cons.1 there with rfl | later
          · exact .inl seen
          · exact .inr later
    · simp [or_assoc]

theorem frame_visit (nodes : List String) :
    (x.visit nodes).vars = x.vars ∧ ∀ node, (x.visit nodes).counter node = x.counter node := by
  induction nodes generalizing x with
  | nil => exact ⟨rfl, fun _ => rfl⟩
  | cons n rest ih =>
    obtain ⟨vars, counter⟩ := @ih (if x.visited.contains n then x else { x with visited := x.visited ++ [n] })
    refine ⟨vars.trans ?_, fun node => (counter node).trans ?_⟩ <;>
    · split <;> rfl

theorem counter_catchUp (cs : List (String × Int)) (node : String) : (x.catchUp cs).counter node =
    ((cs.filter (·.1 == node)).map (·.2)).foldl max (x.counter node) := by
  induction cs generalizing x with
  | nil => rfl
  | cons c rest ih =>
    refine ih.trans ?_
    by_cases own : c.1 = node
    · rw [List.filter_cons_of_pos (by simpa using own), List.map_cons, List.foldl_cons, ← own,
        counter_setCounter_self, max_comm]
    · rw [List.filter_cons_of_neg (by simpa using own), counter_setCounter_of_ne _ _ (Ne.symm own)]

theorem frame_catchUp (cs : List (String × Int)) :
    (x.catchUp cs).vars = x.vars ∧ (x.catchUp cs).visited = x.visited := by
  induction cs generalizing x with
  | nil => exact ⟨rfl, rfl⟩
  | cons c rest ih => exact @ih (x.setCounter c.1 (max c.2 (x.counter c.1)))

/-- What is read of a snapshot. -/
theorem of_read {s : Saved} (whole : s.Whole) (id : String) (w : Workflow) {module : String} {c : Snapshot}
    (read : Snapshot.read module s.context.entries = .ok c) : (ofSnapshot id w c).vars = s.vars ∧
      (∀ node, node ∈ (ofSnapshot id w c).visited ↔ node ∈ s.visited) ∧
      ∀ node, (ofSnapshot id w c).counter node = (s.counts node).headD 0 := by
  obtain ⟨z, context⟩ := whole
  have entries := Saved.Whole.entries context
  obtain ⟨vars, visited, path, counters, module, item, triggerData⟩ := z.getD_kept
  obtain ⟨ts, distinct, mem⟩ := Snapshot.mem_distinct [] z.seen
  have distinct : Snapshot.distinct [] (z.seen.map .text) = .ok (ts.map .text) := distinct
  unfold Snapshot.read at read
  rw [entries, vars, triggerData, visited, path, counters, module, item] at read
  simp only [Value.toDict_dict, Value.texts, Value.toItems_list, bind, Except.bind, distinct] at read
  obtain rfl := Except.ok.inj read
  refine ⟨?_, fun node => ?_, fun node => ?_⟩
  · unfold Saved.vars
    rw [entries, vars]
    rfl
  · have seen : s.visited = z.seen := by
      unfold Saved.visited
      rw [entries, visited]
      exact nodeIds_texts z.seen
    change node ∈ nodeIds (ts.map .text) ↔ _
    rw [nodeIds_texts, mem, seen]
    simp
  · have counted : s.counters = z.tallies.stored.filterMap fun p => (count? p.2).map (p.1.jsonText, ·) := by
      unfold Saved.counters
      rw [entries, counters]
      rfl
    unfold Saved.counts
    rw [counted, List.headD_eq_head?_getD, List.head?_map, List.head?_filter]
    rfl

/-- What markers add to an execution. -/
structure Adds (ss : List Saved) (x y : Execution) : Prop where
  vars : y.vars = x.vars
  visited : ∀ node, node ∈ y.visited ↔ node ∈ x.visited ∨ ∃ s ∈ ss, node ∈ s.visited
  counter : ∀ node, y.counter node = (ss.flatMap (·.counts node)).foldl max (x.counter node)

theorem Adds.trans {ss ts : List Saved} {z : Execution} (first : Adds ss x y) (second : Adds ts y z) :
    Adds (ss ++ ts) x z where
  vars := second.vars.trans first.vars
  visited node := by
    rw [second.visited, first.visited, or_assoc]
    simp [or_and_right, exists_or]
  counter node := by rw [second.counter, first.counter, List.flatMap_append, List.foldl_append]

theorem adds_of_absorbed {s : Saved} (whole : s.Whole) (absorbed : x.absorb s.context.entries = .ok y) :
    Adds [s] x y := by
  obtain ⟨z, context⟩ := whole
  have entries := Saved.Whole.entries context
  obtain ⟨-, visited, -, counters, -⟩ := z.getD_kept
  obtain ⟨ts, distinct, mem⟩ := Snapshot.mem_distinct [] z.seen
  obtain ⟨cs, read⟩ := countersOf_ints z.ints_tallies
  have distinct : Snapshot.distinct [] (z.seen.map .text) = .ok (ts.map .text) := distinct
  unfold absorb at absorbed
  rw [entries, visited, counters, Value.orElse_dict] at absorbed
  simp only [Value.texts, Value.toItems_list, bind, Except.bind, distinct, read, nodeIds_texts] at absorbed
  have made : y = (x.visit ts).catchUp cs := (Except.ok.inj absorbed).symm
  subst made
  refine ⟨?_, fun node => ?_, fun node => ?_⟩
  · rw [(frame_catchUp cs).1, (frame_visit ts).1]
  · have seen : s.visited = z.seen := by
      unfold Saved.visited
      rw [entries, visited]
      exact nodeIds_texts z.seen
    rw [(frame_catchUp cs).2, mem_visit, mem]
    simp [seen]
  · have counted : s.counters = cs := by
      unfold Saved.counters
      rw [entries, counters]
      exact (countersOf_eq read).symm
    rw [counter_catchUp, (frame_visit ts).2]
    simp [Saved.counts, counted]

theorem adds_of_absorbedAll {id : String} {ps : List (Saved × Nat)} (whole : ∀ p ∈ ps, p.1.Whole)
    (absorbed : (ps.map fun p => p.1.marker id p.2).foldlM (fun (x : Execution) m => x.absorb m.context) x =
      .ok y) : Adds (ps.map (·.1)) x y := by
  induction ps generalizing x with
  | nil =>
    cases absorbed
    exact ⟨rfl, fun node => by simp, fun node => rfl⟩
  | cons p rest ih =>
    rw [List.map_cons, List.foldlM_cons] at absorbed
    obtain ⟨u, first, others⟩ := bind_eq_ok absorbed
    have here := adds_of_absorbed (whole p (.head _)) first
    exact here.trans (ih (fun q later => whole q (.tail _ later)) others)

end Execution

namespace Engine

/-- No marker is later than the latest one. -/
theorem le_latest {first m : Store.Marker} {ms : List Store.Marker} (there : m ∈ first :: ms) :
    m.id ≤ (latest first ms).id := by
  induction ms generalizing first m with
  | nil =>
    obtain rfl := List.mem_singleton.1 there
    exact Nat.le_refl _
  | cons n rest ih =>
    let better := if first.id < n.id then n else first
    have head : better.id ≤ (latest better rest).id := ih (.head _)
    have above : first.id ≤ better.id ∧ n.id ≤ better.id := by
      unfold better
      split <;> omega
    rcases List.mem_cons.1 there with rfl | there
    · exact above.1.trans head
    · rcases List.mem_cons.1 there with rfl | later
      · exact above.2.trans head
      · exact ih (.tail _ later)

end Engine

namespace Share

variable {rows : List Store.WorkflowRow} {id : String} {a : Share} {x : Execution}

theorem exists_remake (remade : a.remade? rows id = some x) :
    ∃ first rest w, a.waiting id = first :: rest ∧ Execution.remake id w first (first :: rest) = .ok x := by
  unfold remade? at remade
  split at remade
  · cases remade
  rename_i first rest waiting
  obtain ⟨row, -, remade⟩ := Option.bind_eq_some_iff.1 remade
  obtain ⟨w, -, remade⟩ := Option.bind_eq_some_iff.1 remade
  refine ⟨first, rest, w, waiting, ?_⟩
  cases made : Execution.remake id w first (first :: rest) with
  | ok y =>
    rw [made] at remade
    cases remade
    rfl
  | error f =>
    rw [made] at remade
    cases remade

/-- The marker with the greatest number is the one that was saved last. -/
theorem getLast?_saved {first : Store.Marker} {rest : List Store.Marker} (waiting : a.waiting id = first :: rest) :
    ∃ last place, a.saved.getLast? = some last ∧ last.marker id place = Engine.latest first (first :: rest) := by
  have listed : ∀ p ∈ a.saved.zipIdx, p.1.marker id p.2 ∈ first :: rest := by
    intro p there
    rw [← waiting]
    exact List.mem_map_of_mem (mem_sortBy.2 there)
  obtain ⟨p, there, same⟩ : ∃ p ∈ a.saved.zipIdx, p.1.marker id p.2 = Engine.latest first (first :: rest) := by
    have present : Engine.latest first (first :: rest) ∈ a.waiting id := by
      rw [waiting]
      rcases List.mem_cons.1 (Engine.latest_mem first (first :: rest)) with head | present
      · rw [head]
        exact .head _
      · exact present
    obtain ⟨p, there, same⟩ := List.mem_map.1 present
    exact ⟨p, mem_sortBy.1 there, same⟩
  have place : a.saved[p.2]? = some p.1 := List.mk_mem_zipIdx_iff_getElem?.1 there
  have inside : p.2 < a.saved.length := (List.getElem?_eq_some_iff.1 place).1
  have end_ : a.saved.length - 1 < a.saved.length := by omega
  have below : a.saved.length - 1 ≤ p.2 := by
    have behind := listed (a.saved[a.saved.length - 1], a.saved.length - 1)
      (List.mk_mem_zipIdx_iff_getElem?.2 (List.getElem?_eq_getElem end_))
    have below := Engine.le_latest (List.mem_cons_of_mem first behind)
    rwa [← same] at below
  refine ⟨p.1, p.2, ?_, same⟩
  rw [List.getLast?_eq_getElem?, ← place, show a.saved.length - 1 = p.2 by omega]

/-- What is made of markers. -/
theorem of_remade (whole : ∀ s ∈ a.saved, s.Whole) (remade : a.remade? rows id = some x) :
    ∃ last, a.saved.getLast? = some last ∧ x.vars = last.vars ∧
      (∀ node, node ∈ x.visited ↔ ∃ s ∈ a.saved, node ∈ s.visited) ∧
      ∀ node, x.counter node = Saved.most last a.saved node := by
  have order : ((sortBy Saved.before a.saved.zipIdx).map (·.1)).Perm a.saved := by
    have perm := (sortBy_perm Saved.before a.saved.zipIdx).map Prod.fst
    rwa [List.zipIdx_map_fst] at perm
  obtain ⟨first, rest, w, waiting, made⟩ := exists_remake remade
  obtain ⟨c, read, absorbed⟩ := bind_eq_ok made
  obtain ⟨last, place, end_, same⟩ := getLast?_saved waiting
  have member : last ∈ a.saved := List.mem_of_getLast? end_
  rw [← same] at read
  obtain ⟨vars, visited, counter⟩ := Execution.of_read (whole last member) id w read
  rw [← waiting] at absorbed
  have adds := Execution.adds_of_absorbedAll (fun q held => whole q.1
    (order.mem_iff.1 (List.mem_map_of_mem (f := Prod.fst) held))) absorbed
  refine ⟨last, end_, adds.vars.trans vars, fun node => ?_, fun node => ?_⟩
  · rw [adds.visited, visited]
    constructor
    · rintro (own | ⟨s, held, seen⟩)
      · exact ⟨last, member, own⟩
      · exact ⟨s, order.mem_iff.1 held, seen⟩
    · rintro ⟨s, held, seen⟩
      exact .inr ⟨s, order.mem_iff.2 held, seen⟩
  · rw [adds.counter, counter]
    exact (order.flatMap_right _).foldl_op_eq

end Share

end Runbook
