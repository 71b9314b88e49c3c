import Runbook.Proofs.Course.Alone
import Runbook.Proofs.Course.Manner

/-!
How an execution proceeds. Its path and its log only grow, and they grow together: a node comes onto
the path with the entry that tells of it, and no other entry changes the path. What was visited stays
visited, the loops that iterate are the same again, and these have begun no further iteration, unless
a loop of its own is in between.
-/
namespace Runbook

namespace Remark

/-- The node that is entered when a remark is made. -/
def arrival? : Remark → Option String
  | .processing node _ | .missing node => some node
  | _ => none

/-- The entries that remarks make one after the other, from a path on. -/
def trail : List String → List Remark → List LogEntry
  | _, [] => []
  | path, r :: rest =>
    r.entry (path ++ r.arrival?.toList) :: trail (path ++ r.arrival?.toList) rest

/-- What a remark says is so: a node is processed that the workflow has, one is missed that it does
not have, and a summary is said by some action. -/
def Genuine (said : String → Prop) (w : Workflow) : Remark → Prop
  | .processing node n => w.node? node = some n
  | .missing node => w.node? node = none
  | .summary _ text => said text
  | _ => True

variable {path : List String} {told : List Remark}

theorem arrivals_cons (r : Remark) (told : List Remark) :
    (r :: told).filterMap arrival? = r.arrival?.toList ++ told.filterMap arrival? := by
  rw [List.filterMap_cons]
  cases r.arrival? <;> rfl

theorem trail_append (path : List String) (told more : List Remark) :
    trail path (told ++ more) = trail path told ++ trail (path ++ told.filterMap arrival?) more := by
  induction told generalizing path with
  | nil => simp [trail]
  | cons r rest ih =>
    rw [arrivals_cons, ← List.append_assoc]
    exact congrArg (List.cons _) (ih _)

/-- Each entry is made at a point of the path between its beginning and its end. -/
theorem path_of_mem_trail {l : LogEntry} (made : l ∈ trail path told) :
    path <+: l.path ∧ l.path <+: path ++ told.filterMap arrival? := by
  induction told generalizing path with
  | nil => cases made
  | cons r rest ih =>
    rw [arrivals_cons, ← List.append_assoc]
    rcases List.mem_cons.1 made with rfl | later
    · exact ⟨List.prefix_append .., List.prefix_append ..⟩
    · obtain ⟨first, last⟩ := ih later
      exact ⟨(List.prefix_append ..).trans first, last⟩

/-- Where an entry is made, the path goes on from the one of every earlier entry. -/
theorem pairwise_trail (path : List String) (told : List Remark) :
    (trail path told).Pairwise fun l m => l.path <+: m.path := by
  induction told generalizing path with
  | nil => exact .nil
  | cons r rest ih => exact .cons (fun _ later => (path_of_mem_trail later).1) (ih _)

end Remark

/-- An entry tells that a node is entered, if no summary begins like that. -/
def LogEntry.arrives (l : LogEntry) : Bool :=
  l.tells "Processing " || l.level == .error && l.tells "Node not found: "

namespace Remark

/-- Summaries apart, an entry tells that a node is entered when its remark is made on that occasion. -/
theorem arrives_entry {r : Remark} (path : List String)
    (unlike : ∀ node text, r = .summary node text → "Processing ".toList.isPrefixOf text.toList = false) :
    (r.entry path).arrives = r.arrival?.isSome := by
  have other (wordy : r.head ≠ "") (apart : r.head ≠ "Processing ") :
      (r.entry path).tells "Processing " = false :=
    not_tells_of_clash (clash_processing wordy apart)
  unfold LogEntry.arrives
  cases r with
  | processing node n =>
    have begins : ((processing node n).entry path).tells "Processing " = true :=
      tells_head (.processing node n) path
    rw [begins]
    rfl
  | missing node =>
    have begins : ((missing node).entry path).tells "Node not found: " = true :=
      tells_head (.missing node) path
    rw [begins]
    exact Bool.or_true _
  | summary node text =>
    have other : ((summary node text).entry path).tells "Processing " = false := unlike node text rfl
    rw [other]
    rfl
  | triggerless | refused | broken =>
    rw [other (by simp [head]) (by simp [head]), not_tells_of_clash (clash_missing _ (by simp [head]))]
    rfl
  | _ =>
    rw [other (by simp [head]) (by simp [head])]
    rfl

theorem place_of_arrival {r : Remark} {node : String} (arrival : r.arrival? = some node)
    (path : List String) : r.place (path ++ [node]) = node := by
  have own : r.node = node := by cases r <;> cases arrival <;> rfl
  unfold place
  rw [own, List.getLast?_append_of_ne_nil _ (by simp)]
  split
  · rfl
  · rfl

/-- From a log in which no summary looks like it, the nodes that were entered can be read. -/
theorem arrivals_of_trail {told : List Remark} (path : List String)
    (unlike : ∀ node text, .summary node text ∈ told →
      "Processing ".toList.isPrefixOf text.toList = false) :
    ((trail path told).filter LogEntry.arrives).map (·.node) = told.filterMap arrival? := by
  induction told generalizing path with
  | nil => rfl
  | cons r rest ih =>
    have others := ih (path ++ r.arrival?.toList) fun node text there => unlike node text (.tail _ there)
    have own := arrives_entry (r := r) (path ++ r.arrival?.toList) fun node text same =>
      unlike node text (same ▸ .head _)
    rw [arrivals_cons, trail]
    cases arrival : r.arrival? with
    | none =>
      rw [arrival] at own others
      rw [List.filter_cons_of_neg (by simpa using own), others]
      rfl
    | some node =>
      rw [arrival] at own others
      rw [List.filter_cons_of_pos (by simpa using own), List.map_cons, others]
      exact congrArg (· :: rest.filterMap arrival?) (place_of_arrival arrival path)

end Remark

namespace Execution

/-- An execution has proceeded to another state of itself. -/
structure Proceeds (said : String → Prop) (x y : Execution) : Prop extends x.Extends y where
  steady : ∀ node ∈ x.activeLoops, y.counter node = x.counter node
  trail : ∃ told : List Remark, y.logs = x.logs ++ Remark.trail x.path told ∧
    y.path = x.path ++ told.filterMap Remark.arrival? ∧ ∀ r ∈ told, r.Genuine said x.workflow

variable {said : String → Prop} {x y z : Execution} {f : Execution → Execution} {node : String}

namespace Outer

theorem id (outer : Outer f) (x : Execution) : (f x).id = x.id := (congrArg Execution.id (outer x) :)

theorem logs (outer : Outer f) (x : Execution) : (f x).logs = x.logs := (congrArg Execution.logs (outer x) :)

end Outer

namespace Proceeds

theorem refl (x : Execution) : x.Proceeds said x where
  toExtends := .refl x
  steady _ _ := rfl
  trail := ⟨[], by simp [Remark.trail], by simp, by simp⟩

theorem trans (first : x.Proceeds said y) (second : y.Proceeds said z) : x.Proceeds said z where
  toExtends := first.toExtends.trans second.toExtends
  steady node iterates := (second.steady node (first.loops ▸ iterates)).trans (first.steady node iterates)
  trail := by
    obtain ⟨told, logs, path, genuine⟩ := first.trail
    obtain ⟨more, logs', path', genuine'⟩ := second.trail
    refine ⟨told ++ more, ?_, ?_, ?_⟩
    · rw [logs', logs, path, Remark.trail_append, List.append_assoc]
    · rw [path', path, List.filterMap_append, List.append_assoc]
    · rw [first.workflow] at genuine'
      exact fun r there => (List.mem_append.1 there).elim (genuine r) (genuine' r)

theorem mono {said' : String → Prop} (proceeds : x.Proceeds said y)
    (more : ∀ text, said text → said' text) : x.Proceeds said' y where
  toExtends := proceeds.toExtends
  steady := proceeds.steady
  trail := by
    obtain ⟨told, logs, path, genuine⟩ := proceeds.trail
    refine ⟨told, logs, path, fun r there => ?_⟩
    have known := genuine r there
    cases r with
    | summary node text => exact more text known
    | _ => exact known

theorem logs (proceeds : x.Proceeds said y) : x.logs <+: y.logs := by
  obtain ⟨told, logs, -⟩ := proceeds.trail
  exact logs ▸ List.prefix_append ..

/-- What is done beside the way. -/
theorem of_outer (outer : Outer f) (x : Execution) : x.Proceeds said (f x) where
  toExtends := .of_eq (congrArg Execution.workflow (outer x) :)
    (congrArg Execution.activeLoops (outer x) :) (congrArg Execution.visited (outer x) :)
    (congrArg Execution.counters (outer x) :) (congrArg Execution.path (outer x) :)
  steady node _ := congrArg (·.counter node) (outer x)
  trail := by
    have path : (f x).path = x.path := (congrArg Execution.path (outer x) :)
    exact ⟨[], by simp [outer.logs x, Remark.trail], by simp [path], by simp⟩

/-- Variables may change as well. -/
theorem put (x : Execution) (vars : Dict) : x.Proceeds said { x with vars } where
  toExtends := .of_eq rfl rfl rfl rfl rfl
  steady _ _ := rfl
  trail := ⟨[], by simp [Remark.trail], by simp, by simp⟩

/-- A remark at a node that was entered before, or at none. -/
theorem tell {r : Remark} (stays : r.arrival? = none) (genuine : r.Genuine said x.workflow) :
    x.Proceeds said (x.tell r) where
  toExtends := .of_eq rfl rfl rfl rfl rfl
  steady _ _ := rfl
  trail := by
    refine ⟨[r], ?_, ?_, fun q there => List.mem_singleton.1 there ▸ genuine⟩
    · simp [Execution.tell, Remark.trail, stays]
    · simp [Execution.tell, stays]

/-- A node is entered, and the entry that is made then tells of it. -/
theorem enter {r : Remark} (arrival : r.arrival? = some node) (genuine : r.Genuine said x.workflow) :
    x.Proceeds said ((x.enter node).tell r) where
  toExtends := (Extends.enter x node).trans (.of_eq rfl rfl rfl rfl rfl)
  steady _ _ := rfl
  trail := by
    refine ⟨[r], ?_, ?_, fun q there => List.mem_singleton.1 there ▸ genuine⟩
    · simp [Execution.tell, Execution.enter, Remark.trail, arrival]
    · simp [Execution.tell, Execution.enter, arrival]

/-- A loop that does not count as iterating begins an iteration. -/
theorem count (idle : node ∉ x.activeLoops) : x.Proceeds said (x.counted node) where
  toExtends := .setCounter x node
  steady other iterates := counter_setCounter_of_ne x _ fun same => idle (same ▸ iterates)
  trail := ⟨[], by simp [counted, setCounter, Remark.trail], by simp [counted, setCounter], by simp⟩

/-- What was visited meanwhile is forgotten. -/
theorem forget (proceeds : x.Proceeds said y) : x.Proceeds said { y with visited := x.visited } where
  toExtends := { proceeds.toExtends with visited := fun _ seen => seen }
  steady := proceeds.steady
  trail := proceeds.trail

/-- The same without a loop: it may have begun iterations. -/
theorem without (proceeds : x.Proceeds said y) (node : String) :
    (x.without node).Proceeds said (y.without node) where
  toExtends := { proceeds.toExtends with
    loops := congrArg (List.filter (· != node)) proceeds.loops }
  steady other iterates := proceeds.steady other (List.mem_filter.1 iterates).1
  trail := proceeds.trail

end Proceeds

theorem without_within (idle : node ∉ x.activeLoops) : (x.within node).without node = x := by
  have others : x.activeLoops.filter (· != node) = x.activeLoops :=
    List.filter_eq_self.2 fun other iterates => by
      simpa using fun same : other = node => idle (same ▸ iterates)
  unfold within without
  simp [others]

theorem not_mem_without (x : Execution) (node : String) : node ∉ (x.without node).activeLoops := by
  simp [without]

end Execution

end Runbook
