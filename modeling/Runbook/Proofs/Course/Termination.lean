import Mathlib.Tactic.Linarith
import Runbook.Proofs.Course.Bound

/-!
How far executions go. Where something bounds every loop, walks come to an end before they run out of
depth or of rounds, and an execution enters a bounded number of nodes in its life. Nodes that are no
loops are entered once for the first time and once more for every iteration; loops are entered on the
way from such a node, from an iteration, or through one exit after the other, which is possible at
most as often as there are loops that are not iterating.
-/
namespace Runbook

/-- A delay stands at a node. -/
def Node.isDelay (n : Node) : Bool :=
  match n.kind with
  | .delay _ _ => true
  | _ => false

namespace Workflow

/-- How many loops it has. -/
def loops (w : Workflow) : Nat := w.nodes.countP (·.isLoop)

/-- How often nodes that are no loops are entered at most. -/
def strides (w : Workflow) (limit : Option Int) : Nat := w.places.length * (1 + w.rounds limit)

/-- How many nodes are entered, and how many delays begun, at most. -/
def reach (w : Workflow) (limit : Option Int) : Nat :=
  w.loops * (1 + w.rounds limit) + (w.loops * w.connections.length + 2) * w.strides limit

end Workflow

namespace Execution

/-- How many delays it has begun, as its log tells. -/
def delays (x : Execution) : Nat :=
  x.logs.countP fun e => (x.workflow.node? e.node).any Node.isDelay && e.tells "Delay scheduled: "

/-- How often it has entered loops. -/
def rings (x : Execution) : Nat := x.path.countP x.hasLoopAt

/-- How often it has entered other nodes. -/
def strides (x : Execution) : Nat := x.path.countP fun node => !x.hasLoopAt node

/-- How many loops are not iterating. -/
def idleLoops (x : Execution) : Nat :=
  x.workflow.nodes.countP fun n => n.isLoop && !x.activeLoops.contains n.id

/-- What it has spent on entering loops and on delays, and is going to spend behind delays, beyond
what iterations and other nodes have paid for. -/
def debt (x : Execution) : Int :=
  (x.rings + x.delays + x.workflow.loops * x.workflow.connections.length * x.pending.length : Nat) -
    ((x.workflow.loops * x.workflow.connections.length + 1) * x.strides +
      x.workflow.loops * x.iterations : Nat)

variable {x y z : Execution} {node : String}

theorem path_length (x : Execution) : x.path.length = x.rings + x.strides := by
  rw [rings, strides, List.length_eq_countP_add_countP x.hasLoopAt]
  simp

theorem idleLoops_le (x : Execution) : x.idleLoops ≤ x.workflow.loops :=
  List.countP_mono_left fun _ _ idle => (Bool.and_eq_true_iff.1 idle).1

theorem idleLoops_congr (workflow : y.workflow = x.workflow) (loops : y.activeLoops = x.activeLoops) :
    y.idleLoops = x.idleLoops := by
  rw [idleLoops, idleLoops, workflow, loops]

/-- A loop that begins to iterate is not idle any more. -/
theorem idleLoops_within {n : Node} (found : x.workflow.node? n.id = some n) (loop : n.isLoop = true)
    (idle : n.id ∉ x.activeLoops) : (x.within n.id).idleLoops < x.idleLoops := by
  refine countP_lt_countP (List.mem_of_find?_eq_some found) (fun m idle => ?_) ?_ ?_
  · simp [within] at idle ⊢
    exact ⟨idle.1, idle.2.1⟩
  · simpa [loop] using idle
  · simp [within]

/-- What is spent by a step that enters nothing, by so much. -/
theorem debt_le_of {n : Nat} (workflow : y.workflow = x.workflow) (path : y.path = x.path)
    (pending : y.pending.length ≤ x.pending.length) (iterations : x.iterations ≤ y.iterations)
    (delays : y.delays ≤ x.delays + n) : y.debt ≤ x.debt + n := by
  have loops : y.hasLoopAt = x.hasLoopAt := funext (hasLoopAt_congr workflow)
  have less := Nat.mul_le_mul_left (x.workflow.loops * x.workflow.connections.length) pending
  have more := Nat.mul_le_mul_left x.workflow.loops iterations
  unfold debt rings strides
  rw [workflow, path, loops]
  omega

theorem debt_le_of_eq (workflow : y.workflow = x.workflow) (path : y.path = x.path)
    (pending : y.pending.length ≤ x.pending.length) (iterations : x.iterations ≤ y.iterations)
    (delays : y.delays = x.delays) : y.debt ≤ x.debt := by
  have held := debt_le_of (n := 0) workflow path pending iterations (Nat.le_of_eq delays)
  omega

theorem delays_tell_of (r : Remark) (other : ((x.workflow.node? (r.place x.path)).any Node.isDelay &&
    (r.entry x.path).tells "Delay scheduled: ") = false) : (x.tell r).delays = x.delays := by
  change (x.logs ++ [r.entry x.path]).countP _ = _
  rw [List.countP_append, List.countP_singleton]
  change _ + (if ((x.workflow.node? (r.place x.path)).any Node.isDelay &&
    (r.entry x.path).tells "Delay scheduled: ") = true then 1 else 0) = _
  rw [other]
  rfl

theorem delays_tell_of_head {r : Remark} (wordy : r.head ≠ "") (other : r.head ≠ "Delay scheduled: ") :
    (x.tell r).delays = x.delays := by
  refine delays_tell_of r ?_
  rw [Remark.tells_entry (by simp [Remark.distinctive]) wordy, decide_eq_false other, Bool.and_false]

/-- Plain remarks are no delays that begin. -/
theorem delays_tell {r : Remark} (sound : x.workflow.Sound) (plain : r.Plain x.workflow) :
    (x.tell r).delays = x.delays := by
  by_cases wordy : r.head = ""
  · obtain ⟨place, text, rfl⟩ := Remark.summary_of_head wordy
    obtain ⟨n, actionType, found, kind⟩ := plain
    have own : (Remark.summary place text).place x.path = place := if_neg (sound.ne_of_node? found)
    refine delays_tell_of _ ?_
    rw [own, found]
    simp [Node.isDelay, kind]
  · exact delays_tell_of_head wordy plain.head_ne.2.1

theorem delays_tell_le (r : Remark) : (x.tell r).delays ≤ x.delays + 1 := by
  change (x.logs ++ [r.entry x.path]).countP _ ≤ _
  rw [List.countP_append, List.countP_singleton]
  split <;> exact Nat.add_le_add_left (by decide) _

theorem debt_tell {r : Remark} (sound : x.workflow.Sound) (plain : r.Plain x.workflow) :
    (x.tell r).debt ≤ x.debt :=
  debt_le_of_eq rfl rfl (Nat.le_refl _) (iterations_tell_le x r) (delays_tell sound plain)

/-- What is at an end waits for nothing. -/
theorem debt_failed (x : Execution) (error : String) : (x.failed error).debt ≤ x.debt :=
  debt_le_of_eq rfl rfl (Nat.zero_le _) (Nat.le_refl _) rfl

theorem debt_cancelled (sound : x.workflow.Sound) : x.cancelled.debt ≤ x.debt :=
  debt_le_of_eq rfl rfl (Nat.zero_le _) (iterations_tell_le _ _)
    (delays_tell (r := .cancelled) sound trivial)

theorem Acts.debt_le (acts : x.Acts y) (sound : x.workflow.Sound) : y.debt ≤ x.debt := by
  obtain ⟨vars, rfl | ⟨-, rfl⟩⟩ := acts
  · exact debt_le_of_eq rfl rfl (Nat.le_refl _) (Nat.le_refl _) rfl
  · exact debt_cancelled (x := { x with vars }) sound

theorem debt_finished (sound : x.workflow.Sound) : x.finished.debt ≤ x.debt := by
  unfold finished
  split
  · exact debt_le_of_eq rfl rfl (Nat.le_refl _) (iterations_tell_le _ _)
      (delays_tell (r := .completed) sound trivial)
  · exact debt_le_of_eq rfl rfl (Nat.le_refl _) (Nat.le_refl _) rfl

/-- A node that is no loop pays for what it leads to, and a loop is paid for. -/
theorem debt_enter (x : Execution) (node : String) : (x.enter node).debt = x.debt +
    if x.hasLoopAt node = true then 1
    else -((x.workflow.loops * x.workflow.connections.length + 1 : Nat) : Int) := by
  have rings : (x.enter node).rings = x.rings + if x.hasLoopAt node = true then 1 else 0 := by
    change (x.path ++ [node]).countP x.hasLoopAt = _
    rw [List.countP_append, List.countP_singleton]
    rfl
  have strides : (x.enter node).strides = x.strides + if x.hasLoopAt node = true then 0 else 1 := by
    change (x.path ++ [node]).countP (fun node => !x.hasLoopAt node) = _
    rw [List.countP_append, List.countP_singleton]
    cases x.hasLoopAt node <;> rfl
  unfold debt
  rw [rings, strides]
  change ((_ + x.delays + x.workflow.loops * x.workflow.connections.length * x.pending.length : Nat) : Int) -
    ((x.workflow.loops * x.workflow.connections.length + 1) * _ + x.workflow.loops * x.iterations : Nat) = _
  cases x.hasLoopAt node
  · simp only [Bool.false_eq_true, if_false, Nat.mul_add, Nat.mul_one]
    omega
  · simp only [if_true, Nat.add_zero]
    omega

/-- An iteration pays for the loops that it leads to. -/
theorem debt_iteration {loop : String} {iterations : Option Nat} (sound : x.workflow.Sound)
    (found : x.workflow.LoopAt loop iterations) (count : Int) :
    (x.tell (.iteration loop count iterations)).debt = x.debt - x.workflow.loops := by
  have paid := iterations_iteration sound found count
  have delays : (x.tell (.iteration loop count iterations)).delays = x.delays :=
    delays_tell_of_head (by simp [Remark.head]) (by simp [Remark.head])
  unfold debt
  rw [paid, delays]
  change _ - (((x.workflow.loops * x.workflow.connections.length + 1) * x.strides +
    x.workflow.loops * (x.iterations + 1) : Nat) : Int) = _
  rw [Nat.mul_add, Nat.mul_one]
  change ((x.rings + x.delays + x.workflow.loops * x.workflow.connections.length * x.pending.length : Nat) : Int) - _ = _
  omega

theorem Acts.activeLoops (acts : x.Acts y) : y.activeLoops = x.activeLoops := by
  obtain ⟨vars, rfl | ⟨-, rfl⟩⟩ := acts <;> rfl

theorem activeLoops_without (idle : node ∉ x.activeLoops)
    (same : y.activeLoops = (x.within node).activeLoops) :
    (y.without node).activeLoops = x.activeLoops := by
  change y.activeLoops.filter (· != node) = _
  have others : x.activeLoops.filter (· != node) = x.activeLoops :=
    List.filter_eq_self.2 fun other there => by simpa using fun same : other = node => idle (same ▸ there)
  rw [same, within, List.filter_append, others]
  simp

end Execution

open Execution in
/-- The loops that iterate after a walk are those that iterated before. -/
theorem Walks.activeLoops {l : Option Int} {t : Task} {x y : Execution} (walk : Walks l t x y) :
    y.activeLoops = x.activeLoops := by
  induction walk with
  | handled _ _ _ _ ih | broken _ _ _ _ _ ih | lost _ _ _ _ _ ih | trigger _ _ _ ih
  | junction _ _ _ ih | judged _ _ _ _ _ ih => exact ih
  | next _ _ _ ih ihOthers | iterated _ _ _ _ _ ih ihOthers => exact ihOthers.trans ih
  | action _ _ work _ ih => exact ih.trans work.activeLoops
  | misacted _ _ work => exact work.activeLoops
  | exit _ _ _ idle _ _ _ ih ihRest => exact activeLoops_without idle (ihRest.trans ih)
  | leave _ _ _ idle _ _ ih | misiterated _ _ _ idle _ ih => exact activeLoops_without idle ih
  | _ => rfl

/-- What a part of a walk may spend. -/
def Task.allowance (x : Execution) : Task → Nat
  | .enter _ => x.idleLoops
  | .follow cs => cs.length * x.workflow.loops
  | .node n _ =>
    if n.isLoop then (x.within n.id).idleLoops
    else x.workflow.loops * x.workflow.connections.length + 1
  | .iterate _ _ _ _ => 0

namespace Execution

variable {l : Option Int} {x y : Execution} {node : String}

/-- Entering a node leaves enough for what the node is for. -/
theorem debt_processing {n : Node} (sound : x.workflow.Sound) (admitted : x.admits node = true)
    (found : x.workflow.node? node = some n) (failure : Option Failure) :
    ((x.enter node).tell (.processing node n)).debt +
      (Task.node n failure).allowance ((x.enter node).tell (.processing node n)) ≤
        x.debt + x.idleLoops := by
  have told := debt_tell (x := x.enter node) (r := .processing node n) sound trivial
  have entered := x.debt_enter node
  have kind : x.hasLoopAt node = n.isLoop := by simp [hasLoopAt, found]
  have name := Workflow.id_of_node? found
  cases loop : n.isLoop with
  | true =>
    have idle : n.id ∉ x.activeLoops := by
      simpa [admits, kind, loop, name] using admitted
    have less := idleLoops_within (Workflow.node?_self found) loop idle
    rw [kind, loop, if_pos rfl] at entered
    simp only [Task.allowance, loop, if_true]
    change _ + (((x.within n.id).idleLoops : Nat) : Int) ≤ _
    omega
  | false =>
    rw [kind, loop, if_neg Bool.false_ne_true] at entered
    simp only [Task.allowance, loop, Bool.false_eq_true, if_false]
    change _ + ((x.workflow.loops * x.workflow.connections.length + 1 : Nat) : Int) ≤ _
    omega

theorem outgoing_length_le (w : Workflow) (id : String) :
    (w.outgoing id).length * w.loops ≤ w.loops * w.connections.length := by
  rw [Nat.mul_comm]
  exact Nat.mul_le_mul_left _ (List.length_filter_le ..)

/-- A node that is no loop may spend what following its connections may. -/
theorem allowance_follow_le {n : Node} (workflow : y.workflow = x.workflow)
    (ordinary : n.isLoop = false) :
    (Task.follow (x.workflow.outgoing n.id)).allowance y ≤ (Task.node n none).allowance x := by
  have fewer := outgoing_length_le x.workflow n.id
  simp only [Task.allowance, ordinary, Bool.false_eq_true, if_false, workflow]
  omega

/-- It may also spend what following one of them may. -/
theorem allowance_enter_le {n : Node} {c : Connection} {id label : String}
    (found : x.workflow.connection? id label = some c) (ordinary : n.isLoop = false) :
    (Task.enter c.target).allowance x ≤ (Task.node n none).allowance x := by
  have idle := x.idleLoops_le
  have some : 0 < x.workflow.connections.length :=
    List.length_pos_of_mem (List.mem_of_find?_eq_some found)
  have fewer := Nat.le_mul_of_pos_right x.workflow.loops some
  simp only [Task.allowance, ordinary, Bool.false_eq_true, if_false]
  omega

/-- A delay sets aside what following its connections will cost. -/
theorem debt_waiting (x : Execution) (node : String) (seconds : Float) (timer : Nat) :
    (x.waiting node seconds timer).debt ≤
      x.debt + (x.workflow.loops * x.workflow.connections.length + 1 : Nat) := by
  have delays := delays_tell_le (x := x) (.delaying node seconds)
  have told := iterations_tell_le x (.delaying node seconds)
  have pending : (x.waiting node seconds timer).pending.length = x.pending.length + 1 :=
    (Scene.pending_addTimer x node timer).length_eq
  have more := Nat.mul_le_mul_left x.workflow.loops told
  unfold debt
  rw [pending, Nat.mul_add, Nat.mul_one]
  change ((x.rings + (x.tell (.delaying node seconds)).delays + _ : Nat) : Int) -
    (_ * x.strides + x.workflow.loops * (x.tell (.delaying node seconds)).iterations : Nat) ≤ _
  change ((_ + (x.workflow.loops * x.workflow.connections.length * x.pending.length +
    x.workflow.loops * x.workflow.connections.length) : Nat) : Int) -
    ((x.workflow.loops * x.workflow.connections.length + 1) * _ + _ : Nat) ≤ _
  omega

end Execution

open Execution in
/-- A walk spends no more than it may. -/
theorem Walks.debt_le {l : Option Int} {t : Task} {x y : Execution} (walk : Walks l t x y)
    (sound : x.workflow.Sound) (fits : t.Fits x.workflow) : y.debt ≤ x.debt + t.allowance x := by
  induction walk with
  | idle | back | none | stopped | misjudged | misdelayed | given | exhausted | limited =>
    exact Int.le_add_of_nonneg_right (Int.natCast_nonneg _)
  | again | bodiless =>
    exact Int.le_trans (debt_tell sound trivial) (Int.le_add_of_nonneg_right (Int.natCast_nonneg _))
  | completed =>
    exact Int.le_trans (debt_tell (x := counted _ _) sound fits.1)
      (Int.le_add_of_nonneg_right (Int.natCast_nonneg _))
  | @missing x node active admitted absent =>
    have told := debt_tell (x := x.enter node) (r := .missing node) sound trivial
    have entered := x.debt_enter node
    have ordinary : x.hasLoopAt node = false := by simp [hasLoopAt, absent]
    rw [ordinary, if_neg Bool.false_ne_true] at entered
    change _ ≤ x.debt + (x.idleLoops : Int)
    omega
  | handled active admitted found work ih | lost active admitted found work past ih =>
    exact Int.le_trans (ih sound (Workflow.node?_self found)) (debt_processing sound admitted found _)
  | broken active admitted found work running ih =>
    have walked := Int.le_trans (ih sound (Workflow.node?_self found))
      (debt_processing sound admitted found _)
    refine Int.le_trans (debt_failed _ _) (Int.le_trans (debt_tell ?_ trivial) walked)
    exact work.workflow ▸ sound
  | @next x y z c rest active first others ih ihOthers =>
    have entered := ih sound (Workflow.target_mem_places (fits _ (List.mem_cons_self ..)))
    have same := first.workflow
    have followed := ihOthers (same ▸ sound)
      (fun c later => same ▸ fits c (List.mem_cons_of_mem _ later))
    have idle := x.idleLoops_le
    simp only [Task.allowance, List.length_cons, same, Nat.add_mul, Nat.one_mul] at *
    omega
  | trigger active kind rest ih | junction active kind rest ih =>
    refine Int.le_trans (ih sound fun c => Workflow.mem_connections_of_outgoing) ?_
    exact Int.add_le_add (debt_tell sound trivial)
      (Int.ofNat_le.2 (allowance_follow_le rfl (by simp [Node.isLoop, kind])))
  | judged active kind value found rest ih =>
    refine Int.le_trans (ih sound (Workflow.connection_mem_places found)) ?_
    exact Int.add_le_add (debt_tell sound ⟨_, fits, kind⟩)
      (Int.ofNat_le.2 (allowance_enter_le found (by simp [Node.isLoop, kind])))
  | unconnected active kind =>
    refine Int.le_trans (debt_tell sound trivial) (Int.le_trans (debt_tell sound ⟨_, fits, kind⟩) ?_)
    exact Int.le_add_of_nonneg_right (Int.natCast_nonneg _)
  | action active kind work rest ih =>
    have same := work.workflow
    have acted := Int.le_trans (work.debt_le sound) (debt_tell sound ⟨_, _, fits, kind⟩)
    refine Int.le_trans (ih (same ▸ sound)
      fun c there => same ▸ Workflow.mem_connections_of_outgoing there) ?_
    exact Int.add_le_add (Int.le_trans (debt_tell (same ▸ sound) ⟨_, _, same ▸ fits, kind⟩) acted)
      (Int.ofNat_le.2 (allowance_follow_le same (by simp [Node.isLoop, kind])))
  | misacted active kind work =>
    refine Int.le_trans (work.debt_le sound) (Int.le_trans (debt_tell sound ⟨_, _, fits, kind⟩) ?_)
    exact Int.le_add_of_nonneg_right (Int.natCast_nonneg _)
  | delay active kind length =>
    refine Int.le_trans (debt_waiting _ _ _ _) (Int.add_le_add_left (Int.ofNat_le.2 ?_) _)
    simp [Task.allowance, Node.isLoop, kind]
  | @exit x y z n iterations body exit active kind found idle work way rest ih ihRest =>
    have loop : n.isLoop = true := by simp [Node.isLoop, kind]
    have same := work.workflow
    have iterated := ih sound ⟨⟨_, fits, kind⟩, Workflow.connection_mem_places found⟩
    have left := ihRest (same ▸ sound) (same ▸ Workflow.connection_mem_places way)
    have idle := idleLoops_congr work.workflow work.activeLoops
    simp only [Task.allowance, loop, if_true, idle] at *
    change z.debt ≤ x.debt + _
    change _ ≤ x.debt + _ at iterated
    omega
  | leave active kind found idle work _ ih | misiterated active kind found idle work ih =>
    refine Int.le_trans (ih sound ⟨⟨_, fits, kind⟩, Workflow.connection_mem_places found⟩) ?_
    exact Int.add_le_add (Int.le_refl _) (Int.ofNat_le.2 (Nat.zero_le _))
  | @iterated x y z loop body iterations ending active due allowed first others ih ihOthers =>
    have entered := ih sound fits.2
    have same := first.workflow
    have rest := ihOthers (same ▸ sound) (same ▸ fits)
    have paid := debt_iteration (x := x.counted loop) sound fits.1 (x.counter loop + 1)
    have idle := ((x.counted loop).tell (.iteration loop (x.counter loop + 1) iterations)).idleLoops_le
    simp only [Task.allowance] at *
    change _ = x.debt - (x.workflow.loops : Int) at paid
    change _ ≤ x.workflow.loops at idle
    change _ ≤ y.debt + _ at rest
    omega

namespace Execution

variable {l : Option Int} {x y : Execution} {node : String} {timer : Nat}

/-- A timer that fires releases what was set aside for it. -/
theorem debt_resumed (pending : (node, timer) ∈ x.pending) :
    ((x.fired node timer).tell (.resumed node)).debt +
      (x.workflow.loops * x.workflow.connections.length : Nat) ≤ x.debt := by
  have left : (x.fired node timer).pending = x.pending.filter (· != (node, timer)) :=
    Scene.pending_dropTimer x node timer
  have fewer : (x.fired node timer).pending.length + 1 ≤ x.pending.length := by
    rw [left]
    exact List.length_filter_lt_length_iff_exists.2 ⟨_, pending, by simp⟩
  have told := iterations_tell_le (x.fired node timer) (.resumed node)
  have delays : ((x.fired node timer).tell (.resumed node)).delays = x.delays :=
    delays_tell_of_head (x := x.fired node timer) (by simp [Remark.head]) (by simp [Remark.head])
  have more := Nat.mul_le_mul_left x.workflow.loops told
  have less := Nat.mul_le_mul_left (x.workflow.loops * x.workflow.connections.length) fewer
  rw [Nat.mul_add, Nat.mul_one] at less
  unfold debt
  rw [delays]
  change ((x.rings + x.delays + x.workflow.loops * x.workflow.connections.length *
      (x.fired node timer).pending.length : Nat) : Int) -
    ((x.workflow.loops * x.workflow.connections.length + 1) * x.strides +
      x.workflow.loops * ((x.fired node timer).tell (.resumed node)).iterations : Nat) + _ ≤ _
  change x.workflow.loops * x.iterations ≤ _ at more
  omega

theorem debt_opening {w : Workflow} (sound : w.Sound) (id : String) (module item : Value)
    (triggerData vars : Dict) :
    ((opening id w module item triggerData vars).tell (.started w.name)).debt ≤ 0 := by
  have none : (opening id w module item triggerData vars).debt = 0 := by
    simp [debt, opening, rings, strides, delays, iterations, pending]
  exact none ▸ debt_tell (x := opening id w module item triggerData vars) sound trivial

/-- Its path leads through the places of its workflow only. -/
theorem lasting_path (l : Option Int) : Lasting l fun x => ∀ node ∈ x.path, node ∈ x.workflow.places := by
  constructor
  case frame => exact fun held same => same.1.workflow ▸ same.1.path ▸ held
  case past => exact fun held same => same.1.workflow ▸ same.1.path ▸ held
  case enter =>
    intro x node _ _ place held other there
    rcases List.mem_append.1 there with before | last
    · exact held other before
    · exact List.mem_singleton.1 last ▸ place
  case tell => exact fun _ held => held
  case iteration => exact fun _ _ _ held => held
  case beyond => exact fun _ _ held => held
  case wait => exact fun _ _ held => held
  case resume => exact fun _ _ held => held
  case late => exact fun _ held => held

/-- Nodes that are no loops have been entered no more often than all places together allow. -/
theorem strides_le (life : Life l x) (bounded : x.workflow.Bounded l) :
    x.strides ≤ x.workflow.strides l := by
  have through := (lasting_path l).life life fun _ _ _ _ _ _ _ => by simp [opening]
  have begun := life.iterations_le bounded
  have cover : ∀ node ∈ x.path, (!x.hasLoopAt node) = true →
      ∃ place ∈ x.workflow.places, (node == place && !x.hasLoopAt place) = true :=
    fun node there ordinary => ⟨node, through node there, by simpa using ordinary⟩
  refine Nat.le_trans (countP_le_sum x.path x.workflow.places _ _ cover) ?_
  have each (place : String) : x.path.countP (fun node => node == place && !x.hasLoopAt place) ≤
      1 + x.workflow.rounds l := by
    cases ordinary : x.hasLoopAt place with
    | true => simp
    | false =>
      have paced := life.paced ordinary
      have once := x.visits_le_one place
      simp only [Bool.not_false, Bool.and_true]
      change x.path.count place ≤ _
      omega
  refine Nat.le_trans (List.sum_le_sum fun place _ => each place) (Nat.le_of_eq ?_)
  simp [Workflow.strides]

end Execution

open Execution in
/-- In its whole life an execution spends no more than entering its first node may. -/
theorem Life.debt_le {l : Option Int} {x : Execution} (life : Life l x) :
    x.debt ≤ x.workflow.loops := by
  induction life with
  | @started y id w module item triggerData vars trigger sound found work =>
    have walked := work.debt_le sound (Workflow.trigger_mem_places found)
    have ended := debt_finished (x := y) (work.workflow ▸ sound)
    have begun := debt_opening sound id module item triggerData vars
    have idle := ((opening id w module item triggerData vars).tell (.started w.name)).idleLoops_le
    rw [workflow_finished, work.workflow]
    simp only [Task.allowance] at walked
    change _ ≤ (w.loops : Int)
    change _ ≤ w.loops at idle
    omega
  | @stillborn id w module item triggerData vars reason sound why =>
    have begun := debt_opening sound id module item triggerData vars
    have told : (((opening id w module item triggerData vars).tell (.started w.name)).tell reason).debt ≤ _ :=
      debt_tell sound (by rcases why with rfl | rfl <;> trivial)
    have ended := debt_failed (((opening id w module item triggerData vars).tell
      (.started w.name)).tell reason) reason.message
    change _ ≤ (w.loops : Int)
    omega
  | @continued x y node timer life active pending work ih =>
    have resumed := debt_resumed pending
    have walked := work.debt_le life.sound fun c => Workflow.mem_connections_of_outgoing
    have ended := debt_finished (x := y) (work.workflow ▸ life.sound)
    have fewer := outgoing_length_le x.workflow node
    rw [workflow_finished, work.workflow]
    simp only [Task.allowance] at walked
    change _ ≤ (x.workflow.loops : Int)
    change _ ≤ _ + (((x.workflow.outgoing node).length * x.workflow.loops : Nat) : Int) at walked
    omega
  | @stuck x node error timer life active pending ih =>
    have resumed := debt_resumed pending
    have failed := debt_failed ((x.fired node timer).tell (.resumed node)) error
    have ended := debt_finished (x := ((x.fired node timer).tell (.resumed node)).failed error)
      life.sound
    rw [workflow_finished]
    change _ ≤ (x.workflow.loops : Int)
    omega
  | @late x node timer life past ih =>
    have fewer : (x.fired node timer).pending.length ≤ x.pending.length := by
      rw [show (x.fired node timer).pending = _ from Scene.pending_dropTimer x node timer]
      exact List.length_filter_le ..
    have dropped : (x.fired node timer).debt ≤ x.debt := debt_le_of_eq rfl rfl fewer (Nat.le_refl _) rfl
    have ended := debt_finished (x := x.fired node timer) life.sound
    rw [workflow_finished]
    change _ ≤ (x.workflow.loops : Int)
    omega
  | cancelled life active ih => exact Int.le_trans (debt_cancelled life.sound) ih

/-- In its whole life an execution enters so many nodes and begins so many delays, at most. -/
theorem Life.reach_le {l : Option Int} {x : Execution} (life : Life l x)
    (bounded : x.workflow.Bounded l) : x.path.length + x.delays ≤ x.workflow.reach l := by
  have owed := life.debt_le
  have strides := Execution.strides_le life bounded
  have begun := life.iterations_le bounded
  have length := x.path_length
  have ways := Nat.mul_le_mul_left (x.workflow.loops * x.workflow.connections.length) strides
  have rounds := Nat.mul_le_mul_left x.workflow.loops begun
  unfold Execution.debt at owed
  unfold Workflow.reach
  rw [Nat.add_mul] at owed
  rw [Nat.mul_add, Nat.mul_one, Nat.add_mul]
  omega

/-- Runs that agree, and never fail, come to the same end. -/
theorem Agree.ends_alike {a b : Run Unit} {d : Engine} {good : Unit → Scene → Prop}
    (agree : Agree a b d.scene good never) : ∃ t, a d = .ok () t ∧ b d = .ok () t := by
  obtain ⟨same, ends⟩ := agree d rfl
  unfold Ends at ends
  rw [← same]
  cases run : a d with
  | ok _ t => exact ⟨t, rfl, rfl⟩
  | error f t => rw [run] at ends; exact ends.elim

namespace Engine

/-- Where something bounds every loop, entering a node and going on behind a delay come to their ends:
neither depends on what is done by a walk that is too deep, and by a loop that has no rounds left. And
within one life of an engine an execution enters no more nodes, and begins no more delays, than its
workflow and the limit for loops allow. -/
theorem Fresh.walks_end {e : Engine} (fresh : e.Fresh) (ops : List Operation)
    (work : ∀ op ∈ ops, op.isWork = true) :
    (∀ (d : Engine) (id : String) (x : Execution), d.scene.Proper → d.execution? id = some x →
      x.workflow.Bounded d.loopLimit → ∀ (node : String) (short : Run Bool)
        (bottom : String → Run Unit) (depth : Nat), depthOf x ≤ depth →
        (∃ t, walk launch id (depthOf x) node d = .ok () t ∧
          walkFrom launch id short bottom depth node d = .ok () t) ∧
        ∃ t, follow (walk launch id (depthOf x)) id node d = .ok () t ∧
          follow (walkFrom launch id short bottom depth) id node d = .ok () t) ∧
    ∀ (id : String) (x : Execution), (e.afterAll ops).execution? id = some x →
      x.workflow.Bounded e.loopLimit → x.path.length + x.delays ≤ x.workflow.reach e.loopLimit := by
  refine ⟨fun d id x proper known bounded node short bottom depth deep => ?_, fun id x known bounded =>
    (fresh.lives ops work id x known).reach_le bounded⟩
  have room := deep_enough x
  rw [walk_eq_walkFrom]
  refine ⟨(agree_walkFrom launches_launch _ _ _ _ _ _ node proper known (.inl bounded) room
    (by omega)).ends_alike, ?_⟩
  have alike : Alike (throw exhausted) short
      (walkFrom launch id (throw exhausted) (fun _ => throw exhausted) (depthOf x))
      (walkFrom launch id short bottom depth) id (depthOf x) := fun w y target proper known within => by
    have small := within.small
    exact agree_walkFrom launches_launch _ _ _ _ _ _ target proper known within.spared small (by omega)
  exact (agree_follow alike proper known ⟨room, .inl bounded⟩ node).ends_alike

set_option maxRecDepth 100000 in
/-- Two loops of two iterations each, one in the body of the other. -/
theorem walks_end_nest : ∃ x : Execution,
    (bare.afterAll (onceThrough Workflow.writtenNest 0.0)).execution? "id-1" = some x ∧
      x.path.length + x.delays ≤ x.workflow.reach bare.loopLimit := by
  obtain ⟨x, known⟩ : ∃ x, (bare.afterAll (onceThrough Workflow.writtenNest 0.0)).execution? "id-1" =
    some x := Option.isSome_iff_exists.1 (by decide +kernel)
  exact ⟨x, known, (fresh_bare.walks_end _ (isWork_onceThrough _ _)).2 _ x known (.inl rfl)⟩

end Engine

end Runbook
