import Runbook.Proofs.Course.Work

/-!
What every piece of work keeps. A scene is proper when storage does not fail, every execution is
stored under its own id, and the ids to come are not in use. Work leaves a proper scene proper, and
every execution goes further: it forgets no node that it has visited, its counters only grow, and
the loops that iterate afterwards are those that iterated before.
-/
namespace Runbook

/-- Storage does not fail, executions stand under their ids, and new ids are not in use. -/
structure Scene.Proper (v : Scene) : Prop where
  steady : v.faulty = false
  named : ∀ id x, v.execution? id = some x → x.id = id
  stored : ∀ id x, v.execution? id = some x → (v.row? id).isSome
  fresh : ∀ n, v.next ≤ n → v.execution? (idText n) = none ∧ v.row? (idText n) = none
  timed : ∀ t ∈ v.clock.timers, (v.execution? t.execution).isSome

/-- An execution has gone further. -/
structure Execution.Extends (x y : Execution) : Prop where
  workflow : y.workflow = x.workflow
  loops : y.activeLoops = x.activeLoops
  visited : ∀ node ∈ x.visited, node ∈ y.visited
  counters : ∀ node, x.counter node ≤ y.counter node
  path : x.path <+: y.path

namespace Execution.Extends

variable {x y z : Execution}

theorem refl (x : Execution) : x.Extends x where
  workflow := rfl
  loops := rfl
  visited _ seen := seen
  counters _ := Int.le_refl _
  path := List.prefix_rfl

theorem trans (first : x.Extends y) (second : y.Extends z) : x.Extends z where
  workflow := second.workflow.trans first.workflow
  loops := second.loops.trans first.loops
  visited node seen := second.visited node (first.visited node seen)
  counters node := Int.le_trans (first.counters node) (second.counters node)
  path := first.path.trans second.path

/-- What touches none of the data of the walk leads no further back. -/
theorem of_eq (workflow : y.workflow = x.workflow) (loops : y.activeLoops = x.activeLoops)
    (visited : y.visited = x.visited) (counters : y.counters = x.counters)
    (path : y.path = x.path) : x.Extends y where
  workflow := workflow
  loops := loops
  visited _ seen := visited ▸ seen
  counters node := by simp [counter, counters]
  path := path ▸ List.prefix_rfl

theorem enter (x : Execution) (node : String) : x.Extends (x.enter node) where
  workflow := rfl
  loops := rfl
  visited _ seen := mem_visited_enter.2 (.inr seen)
  counters _ := Int.le_refl _
  path := List.prefix_append _ _

theorem setCounter (x : Execution) (node : String) :
    x.Extends (x.setCounter node (x.counter node + 1)) where
  workflow := rfl
  loops := rfl
  visited _ seen := seen
  counters other := by
    by_cases same : other = node
    · subst same
      rw [counter_setCounter_self]
      omega
    · exact Int.le_of_eq (counter_setCounter_of_ne x _ same).symm
  path := List.prefix_rfl

end Execution.Extends

namespace Scene

variable {v w u : Scene} {id : String}

/-- Every execution of the first scene has gone further in the second. -/
def Extends (v w : Scene) : Prop :=
  ∀ id x, v.execution? id = some x → ∃ y, w.execution? id = some y ∧ x.Extends y

theorem Extends.refl (v : Scene) : v.Extends v := fun _ x known => ⟨x, known, .refl x⟩

theorem Extends.trans (first : v.Extends w) (second : w.Extends u) : v.Extends u := by
  intro id x known
  obtain ⟨y, known, further⟩ := first id x known
  obtain ⟨z, known, beyond⟩ := second id y known
  exact ⟨z, known, further.trans beyond⟩

theorem Extends.of_eq (same : w.execution? = v.execution?) : v.Extends w := by
  intro id x known
  exact ⟨x, by rw [same]; exact known, .refl x⟩

/-- A change of one execution that leads it further. -/
theorem Extends.alter {f : Execution → Execution}
    (further : ∀ x, v.execution? id = some x → x.Extends (f x)) : v.Extends (v.alter id f) := by
  intro k x known
  by_cases wanted : k = id
  · subst wanted
    exact ⟨f x, by simp [known], further x known⟩
  · exact ⟨x, by simp [wanted, known], .refl x⟩

theorem Extends.idle {i : String} {f : Execution → Execution}
    (aside : ∀ x : Execution, x.Extends (f x)) : v.Extends (v.alter i f) :=
  .alter fun x _ => aside x

theorem extends_say (r : Remark) : v.Extends (v.say id r) := by
  refine (Extends.idle (i := id) (f := fun x => { x with logs := x.logs ++ [r.entry x.path] })
    fun x => ?_).trans (.of_eq rfl)
  exact .of_eq rfl rfl rfl rfl rfl

theorem extends_untime : v.Extends (v.untime id) :=
  (Extends.idle (i := id) (f := fun x => { x with timers := [] })
    fun _ => .of_eq rfl rfl rfl rfl rfl).trans (.of_eq rfl)

theorem extends_retire : v.Extends (v.retire id) :=
  (Extends.idle (i := id) (f := fun x => { x with done := true })
    fun _ => .of_eq rfl rfl rfl rfl rfl).trans (.of_eq rfl)

theorem extends_arm (node : String) (seconds : Float) (marker : Nat) :
    v.Extends (v.arm id node seconds marker) :=
  (Extends.idle (i := id) (f := fun x => { x with
      branches := x.branches + 1, timers := Execution.addTimer x.timers node v.clock.nextTimer })
    fun _ => .of_eq rfl rfl rfl rfl rfl).trans (.of_eq rfl)

theorem extends_halt {status : ExecutionStatus} {error : String} :
    v.Extends (v.halt id status error) := by
  have changed : v.Extends (v.alter id fun x => { x with status, error := some error }) :=
    .idle fun _ => .of_eq rfl rfl rfl rfl rfl
  exact (changed.trans extends_untime).trans (.of_eq rfl)

theorem extends_fail {error : String} : v.Extends (v.fail id error) :=
  (extends_halt.trans (.of_eq rfl)).trans extends_retire

theorem extends_cancel : v.Extends (v.cancel id) :=
  ((extends_halt.trans (extends_say _)).trans (.of_eq rfl)).trans extends_retire

theorem extends_finish : v.Extends (v.finish id) := by
  unfold Scene.finish
  split
  · have changed : v.Extends (v.alter id fun x => { x with
        branches := x.branches - 1, status := .completed }) :=
      .idle fun _ => .of_eq rfl rfl rfl rfl rfl
    exact ((changed.trans (extends_say _)).trans (.of_eq rfl)).trans extends_retire
  · exact .idle fun _ => .of_eq rfl rfl rfl rfl rfl

theorem extends_suspend {node : String} {seconds : Float} {resumeAt : Instant} :
    v.Extends (v.suspend id node seconds resumeAt) := by
  have marked : v.Extends (v.mark id node resumeAt) := .of_eq rfl
  exact (marked.trans (extends_say _)).trans (extends_arm node seconds v.nextMarker)

theorem extends_enrol {x : Execution} {row : Store.ExecutionRow} {next : Nat}
    (absent : v.execution? x.id = none) : v.Extends (v.enrol x row next) := by
  intro k y known
  have other : k ≠ x.id := by
    rintro rfl
    rw [absent] at known
    cases known
  exact ⟨y, by simp [other, known], .refl y⟩

/-- What a loop does while it counts as iterating. -/
theorem Extends.within {node : String} {x : Execution} (known : v.execution? id = some x)
    (idle : node ∉ x.activeLoops)
    (inside : (v.alter id fun x => { x with activeLoops := x.activeLoops ++ [node] }).Extends w) :
    v.Extends (w.alter id fun x => { x with activeLoops := x.activeLoops.filter (· != node) }) := by
  intro k y found
  by_cases wanted : k = id
  · subst wanted
    obtain rfl : x = y := Option.some.inj (known.symm.trans found)
    obtain ⟨z, there, further⟩ := inside k { x with activeLoops := x.activeLoops ++ [node] }
      (by simp [known])
    refine ⟨{ z with activeLoops := z.activeLoops.filter (· != node) }, by simp [there], ?_⟩
    have outside : (x.activeLoops ++ [node]).filter (· != node) = x.activeLoops := by
      rw [List.filter_append]
      have kept : x.activeLoops.filter (· != node) = x.activeLoops :=
        List.filter_eq_self.2 fun loop iterating => by
          simpa using fun same : loop = node => idle (same ▸ iterating)
      simp [kept]
    exact ⟨further.workflow, by simp only [further.loops, outside], further.visited,
      further.counters, further.path⟩
  · obtain ⟨z, there, further⟩ := inside k y (by simp [wanted, found])
    exact ⟨z, by simp [wanted, there], further⟩

/-- Forgetting what was visited meanwhile. -/
theorem Extends.forget {x : Execution} (known : v.execution? id = some x) (further : v.Extends w) :
    v.Extends (w.alter id fun y => { y with visited := x.visited }) := by
  intro k y found
  obtain ⟨z, there, beyond⟩ := further k y found
  by_cases wanted : k = id
  · subst wanted
    obtain rfl : x = y := Option.some.inj (known.symm.trans found)
    exact ⟨{ z with visited := x.visited }, by simp [there],
      ⟨beyond.workflow, beyond.loops, fun _ seen => seen, beyond.counters, beyond.path⟩⟩
  · exact ⟨z, by simp [wanted, there], beyond⟩

/-! Proper scenes stay proper. -/

/-- What adds no execution and loses none. -/
theorem Proper.keep (proper : v.Proper) (faulty : w.faulty = v.faulty) (later : v.next ≤ w.next)
    (rows : ∀ k, (w.row? k).isSome = (v.row? k).isSome)
    (executions : ∀ k, (w.execution? k).map (·.id) = (v.execution? k).map (·.id))
    (timers : ∀ t ∈ w.clock.timers, t ∈ v.clock.timers) : w.Proper := by
  have before : ∀ k x, w.execution? k = some x → ∃ y, v.execution? k = some y ∧ y.id = x.id := by
    intro k x known
    have same := executions k
    rw [known, Option.map_some] at same
    exact Option.map_eq_some_iff.1 same.symm
  refine ⟨faulty.trans proper.steady, fun k x known => ?_, fun k x known => ?_, fun n late => ?_,
    fun t pending => ?_⟩
  · obtain ⟨y, held, same⟩ := before k x known
    exact same ▸ proper.named k y held
  · obtain ⟨y, held, -⟩ := before k x known
    rw [rows]
    exact proper.stored k y held
  · obtain ⟨absent, unstored⟩ := proper.fresh n (Nat.le_trans later late)
    refine ⟨?_, ?_⟩
    · have none := executions (idText n)
      rw [absent] at none
      exact Option.map_eq_none_iff.1 none
    · have none := rows (idText n)
      rw [unstored] at none
      exact Option.isNone_iff_eq_none.1 (by simpa using none)
  · have held := proper.timed t (timers t pending)
    have same := congrArg Option.isSome (executions t.execution)
    simp only [Option.isSome_map] at same
    exact same.trans held

theorem Proper.alter {i : String} {f : Execution → Execution} (proper : v.Proper)
    (keeps : ∀ x, (f x).id = x.id) : (v.alter i f).Proper := by
  refine proper.keep rfl (Nat.le_refl _) (fun _ => rfl) (fun k => ?_) fun _ pending => pending
  rw [execution?_alter]
  split
  · rw [Option.map_map]
    exact congrFun (congrArg Option.map (funext keeps)) _
  · rfl

theorem Proper.of_toPart {w : Scene} (proper : v.Proper) (executions : w.execution? = v.execution?)
    (faulty : w.faulty = v.faulty) (rows : w.row? = v.row?) (later : v.next ≤ w.next)
    (timers : ∀ t ∈ w.clock.timers, t ∈ v.clock.timers) : w.Proper :=
  proper.keep faulty later (fun k => by rw [rows]) (fun k => by rw [executions]) timers

theorem Proper.say {i : String} (proper : v.Proper) (r : Remark) : (v.say i r).Proper :=
  (proper.alter (i := i) (f := fun x => { x with logs := x.logs ++ [r.entry x.path] })
    fun _ => rfl).of_toPart rfl rfl rfl (Nat.le_refl _) fun _ pending => pending

theorem Proper.untime (proper : v.Proper) : (v.untime id).Proper :=
  (proper.alter (i := id) (f := fun x => { x with timers := [] }) fun _ => rfl).of_toPart
    rfl rfl rfl (Nat.le_refl _) fun _ pending => (List.mem_filter.1 pending).1

theorem Proper.record (proper : v.Proper) (status : ExecutionStatus) (error : Option String) :
    (v.record id status error).Proper := by
  refine proper.keep rfl (Nat.le_refl _) (fun k => ?_) (fun _ => rfl) fun _ pending => pending
  unfold Scene.record Storage.Part.close
  dsimp only
  split
  · exact Option.isSome_map
  · rfl

theorem Proper.retire (proper : v.Proper) : (v.retire id).Proper :=
  (proper.alter (i := id) (f := fun x => { x with done := true }) fun _ => rfl).of_toPart
    rfl rfl rfl (Nat.le_refl _) fun _ pending => pending

theorem Proper.halt (proper : v.Proper) (status : ExecutionStatus) (error : String) :
    (v.halt id status error).Proper := by
  have changed : (v.alter id fun x => { x with status, error := some error }).Proper :=
    proper.alter fun _ => rfl
  exact changed.untime.of_toPart rfl rfl rfl (Nat.le_refl _) fun _ pending => pending

theorem Proper.fail (proper : v.Proper) (error : String) : (v.fail id error).Proper :=
  ((proper.halt _ _).record _ _).retire

theorem Proper.cancel (proper : v.Proper) : (v.cancel id).Proper :=
  (((proper.halt _ _).say _).record _ _).retire

theorem Proper.finish (proper : v.Proper) : (v.finish id).Proper := by
  unfold Scene.finish
  split
  · have changed : (v.alter id fun x => { x with
        branches := x.branches - 1, status := .completed }).Proper := proper.alter fun _ => rfl
    exact ((changed.say _).record _ _).retire
  · exact proper.alter fun _ => rfl

theorem Proper.arm (proper : v.Proper) {x : Execution} (known : v.execution? id = some x)
    (node : String) (seconds : Float) (marker : Nat) : (v.arm id node seconds marker).Proper := by
  have changed : (v.alter id fun x => { x with
      branches := x.branches + 1
      timers := Execution.addTimer x.timers node v.clock.nextTimer }).Proper := proper.alter fun _ => rfl
  refine ⟨changed.steady, changed.named, changed.stored, changed.fresh, fun t pending => ?_⟩
  rcases List.mem_append.1 pending with old | new
  · exact changed.timed t old
  · obtain rfl := List.mem_singleton.1 new
    simp [known]

theorem Proper.suspend (proper : v.Proper) {x : Execution} (known : v.execution? id = some x)
    (node : String) (seconds : Float) (resumeAt : Instant) :
    (v.suspend id node seconds resumeAt).Proper := by
  have marked : (v.mark id node resumeAt).Proper :=
    proper.of_toPart rfl rfl rfl (Nat.le_refl _) fun _ pending => pending
  refine (marked.say _).arm (x := { x with
    logs := x.logs ++ [(Remark.delaying node seconds).entry x.path] }) ?_ _ _ _
  have there : (v.mark id node resumeAt).execution? id = some x := known
  simp [there]

theorem idText_inj {m n : Nat} (same : idText m = idText n) : m = n := by
  have digits : Nat.toDigits 10 m = Nat.toDigits 10 n := by
    simpa [idText, Nat.repr_eq_ofList_toDigits] using congrArg String.toList same
  rw [← @Nat.ofDigitChars_ten_toDigits m, digits, Nat.ofDigitChars_ten_toDigits]

theorem Proper.enrol {x : Execution} {row : Store.ExecutionRow} {n : Nat} (proper : v.Proper)
    (later : v.next ≤ n) (named : x.id = idText n) : (v.enrol x row (n + 1)).Proper := by
  refine ⟨proper.steady, fun k y known => ?_, fun k y known => ?_, fun m late => ?_,
    fun t pending => ?_⟩
  · rw [execution?_enrol] at known
    split at known
    · cases known; exact Eq.symm ‹_›
    · exact proper.named k y known
  · rw [execution?_enrol] at known
    unfold Scene.enrol
    dsimp only
    split at known
    · simp [*]
    · rename_i other
      rw [if_neg other]
      exact proper.stored k y known
  · have more : n + 1 ≤ m := late
    obtain ⟨absent, unstored⟩ := proper.fresh m (by omega)
    have other : idText m ≠ x.id := fun same => by
      have := idText_inj (same.trans named)
      omega
    unfold Scene.enrol
    dsimp only
    rw [if_neg other, if_neg other]
    exact ⟨absent, unstored⟩
  · rw [execution?_enrol]
    split
    · rfl
    · exact proper.timed t pending

end Scene

/-- What every piece of work keeps of a proper scene. -/
structure Scene.Keeps (v w : Scene) : Prop where
  proper : w.Proper
  further : v.Extends w
  limit : w.limit = v.limit
  accepting : w.accepting = v.accepting
  registry : w.registry = v.registry
  later : v.next ≤ w.next

namespace Scene

variable {v w u : Scene} {id : String}

theorem Proper.keeps (proper : v.Proper) : v.Keeps v :=
  ⟨proper, .refl v, rfl, rfl, rfl, Nat.le_refl _⟩

theorem Keeps.trans (first : v.Keeps w) (second : w.Keeps u) : v.Keeps u where
  proper := second.proper
  further := first.further.trans second.further
  limit := second.limit.trans first.limit
  accepting := second.accepting.trans first.accepting
  registry := second.registry.trans first.registry
  later := Nat.le_trans first.later second.later

theorem Keeps.andThen (first : v.Keeps w) (next : w.Proper → w.Keeps u) : v.Keeps u :=
  first.trans (next first.proper)

theorem Proper.keeps_alter {i : String} {f : Execution → Execution} (proper : v.Proper)
    (keeps : ∀ x, (f x).id = x.id) (further : ∀ x, v.execution? i = some x → x.Extends (f x)) :
    v.Keeps (v.alter i f) :=
  ⟨proper.alter keeps, .alter further, rfl, rfl, rfl, Nat.le_refl _⟩

theorem Proper.keeps_say {i : String} (proper : v.Proper) (r : Remark) : v.Keeps (v.say i r) :=
  ⟨proper.say r, extends_say r, rfl, rfl, rfl, Nat.le_refl _⟩

theorem Proper.keeps_fail (proper : v.Proper) (error : String) : v.Keeps (v.fail id error) :=
  ⟨proper.fail error, extends_fail, rfl, rfl, rfl, Nat.le_refl _⟩

theorem Proper.keeps_cancel (proper : v.Proper) : v.Keeps (v.cancel id) :=
  ⟨proper.cancel, extends_cancel, rfl, rfl, rfl, Nat.le_refl _⟩

theorem Proper.keeps_finish (proper : v.Proper) : v.Keeps (v.finish id) := by
  refine ⟨proper.finish, extends_finish, ?_, ?_, ?_, Nat.le_of_eq ?_⟩ <;> unfold Scene.finish <;>
    split
  all_goals rfl

theorem Proper.keeps_suspend (proper : v.Proper) {x : Execution} (known : v.execution? id = some x)
    (node : String) (seconds : Float) (resumeAt : Instant) :
    v.Keeps (v.suspend id node seconds resumeAt) :=
  ⟨proper.suspend known node seconds resumeAt, extends_suspend, rfl, rfl, rfl, Nat.le_refl _⟩

theorem Proper.keeps_next (proper : v.Proper) {next : Nat} (later : v.next ≤ next) :
    v.Keeps { v with next } :=
  ⟨proper.of_toPart rfl rfl rfl later fun _ pending => pending, .of_eq rfl, rfl, rfl, rfl, later⟩

theorem Proper.keeps_enrol (proper : v.Proper) {x : Execution} {r : Store.ExecutionRow} {n : Nat}
    (later : v.next ≤ n) (named : x.id = idText n) : v.Keeps (v.enrol x r (n + 1)) :=
  ⟨proper.enrol later named, extends_enrol (named ▸ (proper.fresh n later).1), rfl, rfl, rfl,
    Nat.le_succ_of_le later⟩

theorem Proper.keeps_enter (proper : v.Proper) (node : String) (r : Remark) :
    v.Keeps ((v.alter id (·.enter node)).say id r) := by
  have entered := proper.keeps_alter (i := id) (f := (·.enter node)) (fun _ => rfl)
    fun x _ => .enter x node
  exact entered.trans (entered.proper.keeps_say r)

theorem Proper.keeps_count (proper : v.Proper) {x : Execution} (known : v.execution? id = some x)
    (node : String) : v.Keeps (v.alter id (·.setCounter node (x.counter node + 1))) := by
  refine proper.keeps_alter (fun _ => rfl) fun y there => ?_
  obtain rfl : x = y := Option.some.inj (known.symm.trans there)
  exact .setCounter x node

/-- A loop begins to iterate, and has ended when it does not count as iterating any more. -/
theorem Proper.keeps_within (proper : v.Proper) {x : Execution} {node : String}
    (known : v.execution? id = some x) (idle : node ∉ x.activeLoops)
    (inside : (v.alter id fun x => { x with activeLoops := x.activeLoops ++ [node] }).Proper →
      (v.alter id fun x => { x with activeLoops := x.activeLoops ++ [node] }).Keeps w) :
    v.Keeps (w.alter id fun x => { x with activeLoops := x.activeLoops.filter (· != node) }) := by
  have kept := inside (proper.alter fun _ => rfl)
  exact ⟨kept.proper.alter fun _ => rfl, .within known idle kept.further, kept.limit,
    kept.accepting, kept.registry, kept.later⟩

theorem Keeps.forget (kept : v.Keeps w) {x : Execution} (known : v.execution? id = some x) :
    v.Keeps (w.alter id fun y => { y with visited := x.visited }) :=
  ⟨kept.proper.alter fun _ => rfl, .forget known kept.further, kept.limit, kept.accepting,
    kept.registry, kept.later⟩

end Scene

/-- Every piece of work keeps what there is to be kept. -/
theorem Works.keeps {j : Job} {v w : Scene} (work : Works j v w) (proper : v.Proper) : v.Keeps w := by
  induction work with
  | idle | back | none | stopped | misjudged | misdelayed | given | exhausted | rest =>
    exact proper.keeps
  | again | bodiless => exact proper.keeps_say _
  | missing => exact proper.keeps_enter _ _
  | handled known active admitted found work ih => exact (proper.keeps_enter _ _).andThen ih
  | broken known active admitted found work then_ running ih =>
    refine ((proper.keeps_enter _ _).andThen ih).andThen fun worked => ?_
    exact (worked.keeps_say _).andThen fun told => told.keeps_fail _
  | lost known active admitted found work then_ past ih =>
    exact (proper.keeps_enter _ _).andThen ih
  | next known active first others ih ihOthers => exact (ih proper).andThen ihOthers
  | trigger _ _ _ rest ih | junction _ _ _ rest ih | judged _ _ _ _ _ rest ih =>
    exact (proper.keeps_say _).andThen ih
  | unconnected => exact (proper.keeps_say _).andThen fun told => told.keeps_say _
  | action known active kind said work rest ih ihRest =>
    refine ((proper.keeps_say _).andThen ih).andThen fun acted => ?_
    exact (acted.keeps_say _).andThen ihRest
  | misacted known active kind work ih => exact (proper.keeps_say _).andThen ih
  | delay known => exact proper.keeps_suspend known _ _ _
  | exit known active kind found idle work way rest ih ihRest =>
    exact proper.keeps_within known idle fun inside => (ih inside).andThen ihRest
  | leave known active kind found idle work nowhere ih => exact proper.keeps_within known idle ih
  | misiterated known active kind found idle work ih => exact proper.keeps_within known idle ih
  | completed known =>
    exact (proper.keeps_count known _).andThen fun counted => counted.keeps_say _
  | limited known => exact proper.keeps_count known _
  | iterated known active due first others ih ihOthers =>
    refine Scene.Keeps.andThen (Scene.Keeps.forget ?_ known) ihOthers
    refine Scene.Keeps.andThen ?_ ih
    exact (proper.keeps_count known _).andThen fun counted => counted.keeps_say _
  | put others ih =>
    refine Scene.Keeps.andThen (proper.keeps_alter ?_ ?_) ih
    · exact fun _ => rfl
    · exact fun _ _ => .of_eq rfl rfl rfl rfl rfl
  | cancel known live active others ih => exact proper.keeps_cancel.andThen ih
  | serve later others ih => exact (proper.keeps_next later).andThen ih
  | launch first others ih ihOthers => exact (ih proper).andThen ihOthers
  | @started v w workflow module item triggerData vars n row trigger later opens sound found accepting
      work ih =>
    have enrolled := proper.keeps_enrol (r := row)
      (x := .opening (idText n) workflow module item triggerData vars) later rfl
    have told := enrolled.andThen fun proper => proper.keeps_say (i := idText n)
      (.started workflow.name)
    exact (told.andThen ih).andThen fun walked => walked.keeps_finish
  | @stillborn v workflow module item triggerData vars n row reason later opens sound why =>
    have enrolled := proper.keeps_enrol (r := row)
      (x := .opening (idText n) workflow module item triggerData vars) later rfl
    have told := enrolled.andThen fun proper => proper.keeps_say (i := idText n)
      (.started workflow.name)
    have refused := told.andThen fun told => told.keeps_say (i := idText n) reason
    exact refused.andThen fun refused => refused.keeps_fail _

end Runbook
