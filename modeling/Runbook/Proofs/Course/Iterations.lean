import Runbook.Proofs.Course.Lasting

/-!
How often nodes are entered. A node that is no loop is passed over once it was visited, and what was
visited is forgotten only when an iteration of a loop ends. So each iteration that begins pays for
one more time at every such node, and for the first time nothing has to be paid.
-/
namespace Runbook

namespace Execution

/-- How many iterations its loops have begun, as its log tells. -/
def iterations (x : Execution) : Nat :=
  x.logs.countP fun e => x.hasLoopAt e.node && e.tells "Loop iteration "

/-- One when a node counts as visited, and else none. -/
def visits (x : Execution) (node : String) : Nat := if x.visited.contains node then 1 else 0

/-- Of two states, the later one has entered a node as often more as iterations have begun in
between, and once more if the node counts as visited only now. -/
def Paced (node : String) (x y : Execution) : Prop :=
  y.path.count node + x.iterations + x.visits node ≤ x.path.count node + y.iterations + y.visits node

variable {x y z : Execution} {node : String}

theorem visits_le_one (x : Execution) (node : String) : x.visits node ≤ 1 := by
  unfold visits
  split <;> omega

theorem Paced.trans (first : Paced node x y) (second : Paced node y z) : Paced node x z := by
  unfold Paced at *
  omega

theorem iterations_tell_le (x : Execution) (r : Remark) : x.iterations ≤ (x.tell r).iterations := by
  change _ ≤ (x.logs ++ [r.entry x.path]).countP _
  rw [List.countP_append]
  exact Nat.le_add_right _ _

theorem hasLoopAt_congr (same : y.workflow = x.workflow) (node : String) :
    y.hasLoopAt node = x.hasLoopAt node := by
  rw [hasLoopAt, hasLoopAt, same]

theorem hasLoopAt_of {loop : String} {iterations : Option Nat}
    (found : x.workflow.LoopAt loop iterations) : x.hasLoopAt loop = true := by
  obtain ⟨n, found, kind⟩ := found
  simp [hasLoopAt, found, Node.isLoop, kind]

theorem ne_of_loopAt {loop : String} {iterations : Option Nat} (sound : x.workflow.Sound)
    (found : x.workflow.LoopAt loop iterations) : loop ≠ "" := by
  obtain ⟨n, found, -⟩ := found
  exact sound.ne_of_node? found

/-- An iteration that begins is told of. -/
theorem iterations_iteration {loop : String} {iterations : Option Nat} (sound : x.workflow.Sound)
    (found : x.workflow.LoopAt loop iterations) (count : Int) :
    (x.tell (.iteration loop count iterations)).iterations = x.iterations + 1 := by
  have place : ((Remark.iteration loop count iterations).entry x.path).node = loop :=
    if_neg (ne_of_loopAt sound found)
  have told := Remark.tells_head (.iteration loop count iterations) x.path
  change (x.logs ++ [_]).countP (fun e : LogEntry =>
    x.hasLoopAt e.node && e.tells (Remark.iteration loop count iterations).head) = _
  rw [List.countP_append, List.countP_singleton, place, told, hasLoopAt_of found]
  rfl

/-! Steps that enter nothing and forget nothing. -/

theorem Paced.quiet (path : y.path = x.path) (visited : y.visited = x.visited)
    (told : x.iterations ≤ y.iterations) : Paced node x y := by
  unfold Paced visits
  rw [path, visited]
  omega

theorem paced_tell (x : Execution) (r : Remark) : Paced node x (x.tell r) :=
  .quiet rfl rfl (iterations_tell_le x r)

theorem Acts.paced (acts : x.Acts y) : Paced node x y := by
  obtain ⟨vars, rfl | ⟨-, rfl⟩⟩ := acts
  · exact .quiet rfl rfl (Nat.le_refl _)
  · exact .quiet rfl rfl (iterations_tell_le _ _)

theorem paced_failed (x : Execution) (error : String) : Paced node x (x.failed error) :=
  .quiet rfl rfl (Nat.le_refl _)

theorem paced_cancelled (x : Execution) : Paced node x x.cancelled :=
  .quiet rfl rfl (iterations_tell_le _ _)

theorem paced_resumed (x : Execution) (delay : String) (timer : Nat) :
    Paced node x ((x.fired delay timer).tell (.resumed delay)) :=
  .quiet rfl rfl (iterations_tell_le _ _)

theorem paced_finished (x : Execution) : Paced node x x.finished := by
  unfold finished
  split
  · exact .quiet rfl rfl (iterations_tell_le _ _)
  · exact .quiet rfl rfl (Nat.le_refl _)

/-- A node is entered that does not count as visited, or a loop. -/
theorem paced_enter {target : String} (ordinary : x.hasLoopAt node = false)
    (admitted : x.admits target = true) : Paced node x (x.enter target) := by
  have told : (x.enter target).iterations = x.iterations := rfl
  unfold Paced
  rw [told, path_enter, List.count_append, List.count_singleton]
  unfold visits
  by_cases same : target = node
  · subst same
    have fresh : target ∉ x.visited := by simpa [admits, ordinary] using admitted
    have seen : target ∈ (x.enter target).visited := mem_visited_enter.2 (.inl rfl)
    simp [fresh, seen]
    omega
  · simp [mem_visited_enter, same, Ne.symm same]

end Execution

open Execution in
/-- A walk keeps pace. -/
theorem Walks.paced {l : Option Int} {t : Task} {x y : Execution} {node : String} (walk : Walks l t x y)
    (sound : x.workflow.Sound) (fits : t.Fits x.workflow) (ordinary : x.hasLoopAt node = false) :
    Paced node x y := by
  induction walk with
  | idle | back | none | stopped | misjudged | misdelayed | given | exhausted | limited =>
    exact .quiet rfl rfl (Nat.le_refl _)
  | again | bodiless | completed => exact .quiet rfl rfl (iterations_tell_le _ _)
  | missing active admitted => exact (paced_enter ordinary admitted).trans (paced_tell _ _)
  | handled active admitted found work ih | lost active admitted found work past ih =>
    exact ((paced_enter ordinary admitted).trans (paced_tell _ _)).trans
      (ih sound (Workflow.node?_self found) ordinary)
  | broken active admitted found work running ih =>
    exact (((paced_enter ordinary admitted).trans (paced_tell _ _)).trans
      (ih sound (Workflow.node?_self found) ordinary)).trans ((paced_tell _ _).trans (paced_failed _ _))
  | next active first others ih ihOthers =>
    have entered := ih sound (Workflow.target_mem_places (fits _ (List.mem_cons_self ..))) ordinary
    have same := first.workflow
    exact entered.trans (ihOthers (same ▸ sound) (fun c later => same ▸ fits c (List.mem_cons_of_mem _ later))
      ((hasLoopAt_congr same node).trans ordinary))
  | trigger active kind rest ih | junction active kind rest ih =>
    exact (paced_tell _ _).trans (ih sound (fun c => Workflow.mem_connections_of_outgoing) ordinary)
  | judged active kind value found rest ih =>
    exact (paced_tell _ _).trans (ih sound (Workflow.connection_mem_places found) ordinary)
  | unconnected => exact (paced_tell _ _).trans (paced_tell _ _)
  | action active kind work rest ih =>
    have same := work.workflow
    exact ((paced_tell _ _).trans work.paced).trans ((paced_tell _ _).trans (ih (same ▸ sound)
      (fun c there => same ▸ Workflow.mem_connections_of_outgoing there)
      ((hasLoopAt_congr same node).trans ordinary)))
  | misacted active kind work => exact (paced_tell _ _).trans work.paced
  | delay => exact .quiet rfl rfl (iterations_tell_le _ _)
  | exit active kind found idle work way rest ih ihRest =>
    have iterated := ih sound ⟨⟨_, fits, kind⟩, Workflow.connection_mem_places found⟩ ordinary
    have same := work.workflow
    have left := ihRest (same ▸ sound) (same ▸ Workflow.connection_mem_places way)
      ((hasLoopAt_congr same node).trans ordinary)
    exact iterated.trans left
  | leave active kind found idle work _ ih | misiterated active kind found idle work ih =>
    exact ih sound ⟨⟨_, fits, kind⟩, Workflow.connection_mem_places found⟩ ordinary
  | @iterated x y z loop body iterations ending active due allowed first others ih ihOthers =>
    have entered := ih sound fits.2 ordinary
    have same := first.workflow
    have rest := ihOthers (same ▸ sound) (same ▸ fits) ((hasLoopAt_congr same node).trans ordinary)
    -- The iteration pays for the node that it makes forget.
    have paid : ((x.counted loop).tell (.iteration loop (x.counter loop + 1) iterations)).iterations =
        x.iterations + 1 := iterations_iteration (x := x.counted loop) sound fits.1 _
    have once := visits_le_one y node
    unfold Paced at *
    rw [paid] at entered
    change y.path.count node + (x.iterations + 1) + x.visits node ≤ x.path.count node + _ + _ at entered
    change z.path.count node + y.iterations + x.visits node ≤ y.path.count node + _ + _ at rest
    omega

open Execution in
/-- A node has been entered as often as iterations have begun, and once more if it counts as
visited. -/
theorem Life.paced {l : Option Int} {x : Execution} {node : String} (life : Life l x)
    (ordinary : x.hasLoopAt node = false) :
    x.path.count node ≤ x.iterations + x.visits node := by
  have step {x y : Execution} (paced : Paced node x y)
      (held : x.path.count node ≤ x.iterations + x.visits node) :
      y.path.count node ≤ y.iterations + y.visits node := by
    unfold Paced at paced
    omega
  have before {x y : Execution} (ordinary : y.finished.hasLoopAt node = false)
      (same : x.workflow = y.workflow) : x.hasLoopAt node = false :=
    (hasLoopAt_congr (same.trans y.workflow_finished.symm) node).trans ordinary
  induction life with
  | started sound found work =>
    have begun := work.paced sound (Workflow.trigger_mem_places found)
      (before ordinary work.workflow.symm)
    exact step (begun.trans (paced_finished _)) (Nat.zero_le _)
  | stillborn sound why => exact Nat.zero_le _
  | continued life active pending work ih =>
    have ordinary := before ordinary work.workflow.symm
    have continued := work.paced life.sound (fun c => Workflow.mem_connections_of_outgoing) ordinary
    exact step (((paced_resumed _ _ _).trans continued).trans (paced_finished _)) (ih ordinary)
  | stuck life active pending ih =>
    exact step (((paced_resumed _ _ _).trans (paced_failed _ _)).trans (paced_finished _))
      (ih (before ordinary rfl))
  | late life past ih => exact step (paced_finished _) (ih (before ordinary rfl))
  | cancelled life active ih => exact step (paced_cancelled _) (ih ordinary)

/-- Within one life of an engine, a node that is no loop is entered at most once more than loops have
begun iterations; in a workflow without loops no node is entered twice. -/
theorem Engine.Fresh.count_path_le {e : Engine} (fresh : e.Fresh) (ops : List Operation)
    (work : ∀ op ∈ ops, op.isWork = true) {id : String} {x : Execution}
    (known : (e.afterAll ops).execution? id = some x) :
    (∀ node, x.hasLoopAt node = false → x.path.count node ≤ 1 + x.iterations) ∧
      ((∀ n ∈ x.workflow.nodes, n.isLoop = false) → x.path.Nodup) := by
  have life := fresh.lives ops work id x known
  have paced (node : String) (ordinary : x.hasLoopAt node = false) :
      x.path.count node ≤ 1 + x.iterations := by
    have held := life.paced ordinary
    have once := x.visits_le_one node
    omega
  refine ⟨paced, fun loopless => List.nodup_iff_count_le_one.2 fun node => ?_⟩
  have ordinary (node : String) : x.hasLoopAt node = false := by
    rw [Execution.hasLoopAt, Option.any_eq_false]
    exact fun n found => loopless n (List.mem_of_find?_eq_some found)
  have none : x.iterations = 0 := by
    simp [Execution.iterations, ordinary]
  have held := paced node (ordinary node)
  omega

set_option maxRecDepth 100000 in
/-- Two loops of two iterations each, one in the body of the other. -/
theorem Engine.count_path_le_nest : ∃ x : Execution,
    (bare.afterAll (onceThrough Workflow.writtenNest 0.0)).execution? "id-1" = some x ∧
      x.path.count "J" ≤ 1 + x.iterations := by
  obtain ⟨x, known⟩ : ∃ x, (bare.afterAll (onceThrough Workflow.writtenNest 0.0)).execution? "id-1" =
    some x := Option.isSome_iff_exists.1 (by decide +kernel)
  have facts : ((bare.afterAll (onceThrough Workflow.writtenNest 0.0)).execution? "id-1").all
    (fun x => !x.hasLoopAt "J") = true := by decide +kernel
  rw [known, Option.all_some, Bool.not_eq_true'] at facts
  exact ⟨x, known, (fresh_bare.count_path_le _ (isWork_onceThrough _ _) known).1 "J" facts⟩

end Runbook
