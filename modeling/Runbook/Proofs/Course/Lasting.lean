import Runbook.Proofs.Course.Alone

/-!
What lasts through the life of an execution. A property of its path, its log, its counters and its
timers lasts when every elementary step keeps it; walks and whole lives are then gone through once
for all such properties.
-/
namespace Runbook

namespace Workflow

/-- The ids that a walk may come to: that of the first trigger, and the targets of connections. -/
def places (w : Workflow) : List String :=
  (w.trigger?.map (·.id)).toList ++ w.connections.map (·.target)

/-- A loop with a number of iterations stands at an id. -/
def LoopAt (w : Workflow) (id : String) (iterations : Option Nat) : Prop :=
  ∃ n, w.node? id = some n ∧ n.kind = .loop iterations

variable {w : Workflow} {id label : String}

theorem LoopAt.unique {iterations times : Option Nat} (first : w.LoopAt id iterations)
    (second : w.LoopAt id times) : iterations = times := by
  obtain ⟨n, found, kind⟩ := first
  obtain ⟨m, there, same⟩ := second
  obtain rfl := Option.some.inj (found.symm.trans there)
  exact NodeKind.loop.inj (kind.symm.trans same)

theorem target_mem_places {c : Connection} (there : c ∈ w.connections) : c.target ∈ w.places :=
  List.mem_append_right _ (List.mem_map_of_mem there)

theorem connection_mem_places {c : Connection} (found : w.connection? id label = some c) :
    c.target ∈ w.places :=
  target_mem_places (List.mem_of_find?_eq_some found)

theorem mem_connections_of_outgoing {c : Connection} (there : c ∈ w.outgoing id) :
    c ∈ w.connections :=
  (List.mem_filter.1 there).1

theorem id_of_node? {n : Node} (found : w.node? id = some n) : n.id = id := by
  simpa using List.find?_some found

/-- In a sound workflow nodes are found under names only. -/
theorem Sound.ne_of_node? {n : Node} (sound : w.Sound) (found : w.node? id = some n) : id ≠ "" := by
  rw [← id_of_node? found]
  exact sound.named n (List.mem_of_find?_eq_some found)

/-- A node found under an id is found under its own. -/
theorem node?_self {n : Node} (found : w.node? id = some n) : w.node? n.id = some n := by
  rw [id_of_node? found]
  exact found

theorem trigger_mem_places {n : Node} (found : w.trigger? = some n) : n.id ∈ w.places :=
  List.mem_append_left _ (by simp [found])

end Workflow

/-- A part of a walk belongs to a workflow. -/
def Task.Fits (w : Workflow) : Task → Prop
  | .enter target => target ∈ w.places
  | .follow cs => ∀ c ∈ cs, c ∈ w.connections
  | .node n _ => w.node? n.id = some n
  | .iterate loop body iterations _ => w.LoopAt loop iterations ∧ body ∈ w.places

/-- A remark that is made by itself, at a node that such remarks are made at. -/
def Remark.Plain (w : Workflow) : Remark → Prop
  | .executing node _ | .summary node _ => ∃ n actionType, w.node? node = some n ∧ n.kind = .action actionType
  | .evaluated node c _ => ∃ n, w.node? node = some n ∧ n.kind = .condition c
  | .looped node iterations => w.LoopAt node (some iterations)
  | .iteration _ _ _ | .delaying _ _ | .resumed _ | .restored _ _ => False
  | _ => True

/-- Two executions of one workflow have taken the same way and told the same. -/
structure Execution.SameTrail (x y : Execution) : Prop where
  workflow : y.workflow = x.workflow
  path : y.path = x.path
  logs : y.logs = x.logs
  counters : y.counters = x.counters

/-- A property that every elementary step of an execution keeps. -/
structure Lasting (l : Option Int) (holds : Execution → Prop) : Prop where
  /-- It speaks of nothing else. -/
  frame : ∀ {x y : Execution}, holds x → x.SameTrail y ∧ y.timers = x.timers ∧
    (y.status = x.status ∨ y.status = .completed) → holds y
  past : ∀ {x y : Execution}, holds x → x.SameTrail y ∧ y.timers = [] ∧
    (y.status = .failed ∨ y.status = .cancelled) → holds y
  enter : ∀ {x : Execution} {node : String}, x.isActive = true → x.admits node = true →
    node ∈ x.workflow.places → holds x → holds (x.enter node)
  tell : ∀ {x : Execution} {r : Remark}, r.Plain x.workflow → holds x → holds (x.tell r)
  iteration : ∀ {x : Execution} {loop : String} {iterations : Option Nat},
    x.workflow.LoopAt loop iterations → (∀ n, iterations = some n → x.counter loop + 1 ≤ (n : Int)) →
    (∀ k, l = some k → x.counter loop + 1 ≤ k) → holds x →
    holds ((x.counted loop).tell (.iteration loop (x.counter loop + 1) iterations))
  /-- A bound has been passed. -/
  beyond : ∀ {x : Execution} {loop : String} {iterations : Option Nat},
    x.workflow.LoopAt loop iterations → ((∃ n, iterations = some n ∧ (n : Int) < x.counter loop + 1) ∨
      ∃ k, l = some k ∧ k < x.counter loop + 1) → holds x → holds (x.counted loop)
  wait : ∀ {x : Execution} {node : String} {seconds : Float} {timer : Nat},
    (∃ n amount unit, x.workflow.node? node = some n ∧ n.kind = .delay amount unit) →
    x.isActive = true → holds x → holds (x.waiting node seconds timer)
  resume : ∀ {x : Execution} {node : String} {timer : Nat}, x.isActive = true →
    (node, timer) ∈ x.pending → holds x → holds ((x.fired node timer).tell (.resumed node))
  late : ∀ {x : Execution} {node : String} {timer : Nat}, x.isActive = false → holds x →
    holds (x.fired node timer)

namespace Execution

variable {x y : Execution}

theorem workflow_finished (x : Execution) : x.finished.workflow = x.workflow := by
  unfold finished
  split <;> rfl

theorem Acts.workflow (acts : x.Acts y) : y.workflow = x.workflow := by
  obtain ⟨vars, rfl | ⟨-, rfl⟩⟩ := acts <;> rfl

end Execution

/-- A walk stays within one workflow. -/
theorem Walks.workflow {l : Option Int} {t : Task} {x y : Execution} (walk : Walks l t x y) :
    y.workflow = x.workflow := by
  induction walk with
  | handled _ _ _ _ ih | broken _ _ _ _ _ ih | lost _ _ _ _ _ ih | trigger _ _ _ ih
  | junction _ _ _ ih | judged _ _ _ _ _ ih | leave _ _ _ _ _ _ ih | misiterated _ _ _ _ _ ih =>
    exact ih
  | next _ _ _ ih ihOthers | exit _ _ _ _ _ _ _ ih ihOthers | iterated _ _ _ _ _ ih ihOthers =>
    exact ihOthers.trans ih
  | action _ _ work _ ih => exact ih.trans work.workflow
  | misacted _ _ work => exact work.workflow
  | _ => rfl

namespace Lasting

variable {l : Option Int} {holds : Execution → Prop} {x y : Execution}

theorem failed (lasting : Lasting l holds) (error : String) (held : holds x) : holds (x.failed error) :=
  lasting.past held ⟨⟨rfl, rfl, rfl, rfl⟩, rfl, .inl rfl⟩

theorem cancelled (lasting : Lasting l holds) (held : holds x) : holds x.cancelled := by
  have ended : holds { x with
      status := .cancelled, error := some Scene.cancelText, timers := [] } :=
    lasting.past held ⟨⟨rfl, rfl, rfl, rfl⟩, rfl, .inr rfl⟩
  exact lasting.frame (lasting.tell (r := .cancelled) trivial ended) ⟨⟨rfl, rfl, rfl, rfl⟩, rfl, .inl rfl⟩

theorem aside (lasting : Lasting l holds) (aside : x.Aside y) (held : holds x) : holds y := by
  rcases aside with rfl | ⟨-, rfl⟩
  · exact held
  · exact lasting.cancelled held

theorem acts (lasting : Lasting l holds) (acts : x.Acts y) (held : holds x) : holds y := by
  obtain ⟨vars, aside⟩ := acts
  exact lasting.aside aside (lasting.frame held ⟨⟨rfl, rfl, rfl, rfl⟩, rfl, .inl rfl⟩)

theorem finished (lasting : Lasting l holds) (held : holds x) : holds x.finished := by
  unfold Execution.finished
  split
  · have ended : holds { x with branches := x.branches - 1, status := .completed } :=
      lasting.frame held ⟨⟨rfl, rfl, rfl, rfl⟩, rfl, .inr rfl⟩
    exact lasting.frame (lasting.tell (r := .completed) trivial ended) ⟨⟨rfl, rfl, rfl, rfl⟩, rfl, .inl rfl⟩
  · exact lasting.frame held ⟨⟨rfl, rfl, rfl, rfl⟩, rfl, .inl rfl⟩

/-- What lasts lasts through walks. -/
theorem walks (lasting : Lasting l holds) {t : Task} (walk : Walks l t x y)
    (fits : t.Fits x.workflow) (held : holds x) : holds y := by
  induction walk with
  | idle | back | none | stopped | misjudged | misdelayed | given | exhausted => exact held
  | again => exact lasting.tell trivial held
  | missing active admitted absent => exact lasting.tell trivial (lasting.enter active admitted fits held)
  | handled active admitted found work ih | lost active admitted found work past ih =>
    exact ih (Workflow.node?_self found) (lasting.tell trivial (lasting.enter active admitted fits held))
  | broken active admitted found work running ih =>
    exact lasting.failed _ (lasting.tell trivial
      (ih (Workflow.node?_self found) (lasting.tell trivial (lasting.enter active admitted fits held))))
  | next active first others ih ihOthers =>
    have entered := ih (Workflow.target_mem_places (fits _ (List.mem_cons_self ..))) held
    exact ihOthers (fun c later => first.workflow ▸ fits c (List.mem_cons_of_mem _ later)) entered
  | trigger active kind rest ih | junction active kind rest ih =>
    exact ih (fun c there => Workflow.mem_connections_of_outgoing there) (lasting.tell trivial held)
  | judged active kind value found rest ih =>
    exact ih (Workflow.connection_mem_places found) (lasting.tell ⟨_, fits, kind⟩ held)
  | unconnected active kind value absent =>
    exact lasting.tell trivial (lasting.tell ⟨_, fits, kind⟩ held)
  | action active kind work rest ih =>
    have acted := lasting.acts work (lasting.tell ⟨_, _, fits, kind⟩ held)
    have same := work.workflow
    refine ih (fun c there => ?_) (lasting.tell ⟨_, _, same ▸ fits, kind⟩ acted)
    exact same ▸ Workflow.mem_connections_of_outgoing there
  | misacted active kind work => exact lasting.acts work (lasting.tell ⟨_, _, fits, kind⟩ held)
  | delay active kind length => exact lasting.wait ⟨_, _, _, fits, kind⟩ active held
  | bodiless => exact lasting.tell trivial held
  | exit active kind found idle work way rest ih ihRest =>
    have iterated := ih ⟨⟨_, fits, kind⟩, Workflow.connection_mem_places found⟩
      (lasting.frame held ⟨⟨rfl, rfl, rfl, rfl⟩, rfl, .inl rfl⟩)
    have left := ihRest (work.workflow ▸ Workflow.connection_mem_places way) iterated
    exact lasting.frame left ⟨⟨rfl, rfl, rfl, rfl⟩, rfl, .inl rfl⟩
  | leave active kind found idle work _ ih | misiterated active kind found idle work ih =>
    have iterated := ih ⟨⟨_, fits, kind⟩, Workflow.connection_mem_places found⟩
      (lasting.frame held ⟨⟨rfl, rfl, rfl, rfl⟩, rfl, .inl rfl⟩)
    exact lasting.frame iterated ⟨⟨rfl, rfl, rfl, rfl⟩, rfl, .inl rfl⟩
  | completed active past =>
    exact lasting.tell fits.1 (lasting.beyond fits.1 (.inl ⟨_, rfl, past⟩) held)
  | limited active due bound past => exact lasting.beyond fits.1 (.inr ⟨_, bound, past⟩) held
  | iterated active due allowed first others ih ihOthers =>
    have entered := ih fits.2 (lasting.iteration fits.1 due allowed held)
    exact ihOthers (first.workflow ▸ fits) (lasting.frame entered ⟨⟨rfl, rfl, rfl, rfl⟩, rfl, .inl rfl⟩)

/-- What lasts lasts through a whole life. -/
theorem life (lasting : Lasting l holds) (life : Life l x)
    (initial : ∀ id w module item triggerData vars, w.Sound →
      holds (.opening id w module item triggerData vars)) : holds x := by
  induction life with
  | started sound found work =>
    exact lasting.finished (lasting.walks work (Workflow.trigger_mem_places found)
      (lasting.tell trivial (initial _ _ _ _ _ _ sound)))
  | stillborn sound why =>
    refine lasting.failed _ (lasting.tell ?_ (lasting.tell trivial (initial _ _ _ _ _ _ sound)))
    rcases why with rfl | rfl <;> trivial
  | continued life active pending work ih =>
    exact lasting.finished (lasting.walks work (fun c there => Workflow.mem_connections_of_outgoing there)
      (lasting.resume active pending ih))
  | stuck life active pending ih => exact lasting.finished (lasting.failed _ (lasting.resume active pending ih))
  | late life past ih => exact lasting.finished (lasting.late past ih)
  | cancelled life active ih => exact lasting.cancelled ih

end Lasting

/-- An execution keeps the sound workflow that it has begun with. -/
theorem Life.sound {l : Option Int} {x : Execution} (life : Life l x) : x.workflow.Sound := by
  have lasting : Lasting l fun x => x.workflow.Sound := by
    constructor
    case frame => exact fun held same => same.1.workflow ▸ held
    case past => exact fun held same => same.1.workflow ▸ held
    case enter => exact fun _ _ _ held => held
    case tell => exact fun _ held => held
    case iteration => exact fun _ _ _ held => held
    case beyond => exact fun _ _ held => held
    case wait => exact fun _ _ held => held
    case resume => exact fun _ _ held => held
    case late => exact fun _ held => held
  exact lasting.life life fun _ _ _ _ _ _ sound => sound

end Runbook
