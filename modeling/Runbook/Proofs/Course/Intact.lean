import Runbook.Action.Samples
import Runbook.Proofs.Course.Tale
import Runbook.Workflow.Structure

/-!
What the structural report promises of runs. What a log says of its workflow is so: a node that it
misses is not there, a loop without a body has none. A report without errors says that every id that a
walk can come to is that of a node, and one without warnings that there is a way on from every loop and
every condition; so no run of such a workflow says otherwise, whatever its actions do.
-/
namespace Runbook

namespace Workflow

variable {w : Workflow} {id : String} {n : Node}

theorem trigger?_of_errors (intact : w.structureReport.errors = []) : w.trigger? ≠ none := by
  intro none
  have triggers : w.triggerErrors = [] := (List.append_eq_nil_iff.1 intact).1
  have nobody : w.nodes.filter (·.event?.isSome) = [] :=
    List.filter_eq_nil_iff.2 fun n there => by simpa using List.find?_eq_none.1 none n there
  unfold triggerErrors at triggers
  rw [nobody] at triggers
  cases triggers

/-- Where there are no errors, a node stands at every id that a walk may come to. -/
theorem node?_of_errors (intact : w.structureReport.errors = []) (place : id ∈ w.places) :
    w.node? id ≠ none := by
  rcases List.mem_append.1 place with first | target
  · obtain ⟨n, found, rfl⟩ : ∃ n, w.trigger? = some n ∧ n.id = id := by simpa using first
    intro none
    simpa using List.find?_eq_none.1 none n (List.mem_of_find?_eq_some found)
  · obtain ⟨c, there, rfl⟩ := List.mem_map.1 target
    have ends : w.connectionErrors c = [] :=
      List.flatMap_eq_nil_iff.1 (List.append_eq_nil_iff.1 intact).2 c there
    intro none
    have wrong := (List.append_eq_nil_iff.1 ends).2
    rw [none] at wrong
    cases wrong

/-- A label on a connection that leaves a node is that of one to follow. -/
theorem connection?_of_label {label : String}
    (labelled : ((w.outgoing id).map (·.label)).contains (some label) = true) :
    w.connection? id label ≠ none := by
  rw [List.contains_iff_mem] at labelled
  obtain ⟨c, leaves, named⟩ := List.mem_map.1 labelled
  obtain ⟨there, source⟩ := List.mem_filter.1 leaves
  intro none
  have other := List.find?_eq_none.1 none c there
  simp only [beq_iff_eq] at source
  simp [source, named] at other

theorem nodeWarnings_of_warnings (clean : w.structureReport.warnings = []) (found : w.node? id = some n) :
    w.nodeWarnings n = [] :=
  List.flatMap_eq_nil_iff.1 clean n (List.mem_of_find?_eq_some found)

/-- Where there are no warnings, every loop has a body. -/
theorem body_of_warnings (clean : w.structureReport.warnings = []) {iterations : Option Nat}
    (loop : w.LoopAt id iterations) : w.connection? id "body" ≠ none := by
  obtain ⟨n, found, kind⟩ := loop
  have warnings := nodeWarnings_of_warnings clean found
  unfold nodeWarnings at warnings
  rw [kind] at warnings
  obtain rfl := id_of_node? found
  refine connection?_of_label ?_
  by_contra absent
  dsimp only at warnings
  rw [if_neg absent] at warnings
  cases warnings

/-- Where there are no warnings, every condition has a connection for one of its results. -/
theorem branch_of_warnings (clean : w.structureReport.warnings = []) {c : Condition}
    (found : w.node? id = some n) (kind : n.kind = .condition c) :
    ∃ result, w.connection? id (Engine.truthName result) ≠ none := by
  have warnings := nodeWarnings_of_warnings clean found
  unfold nodeWarnings at warnings
  rw [kind] at warnings
  obtain rfl := id_of_node? found
  by_cases yes : ((w.outgoing n.id).map (·.label)).contains (some "true") = true
  · exact ⟨true, connection?_of_label yes⟩
  · refine ⟨false, connection?_of_label ?_⟩
    by_contra no
    dsimp only at warnings
    rw [if_neg (by simp only [Bool.or_eq_true]; exact not_or.2 ⟨yes, no⟩)] at warnings
    cases warnings

end Workflow

namespace Remark

/-- What an execution without a trigger fails with. -/
abbrev triggerlessText : String := Remark.triggerless.message

theorem append_ne_of_clash {s t : String} (other : clash s t = true) (rest : String) : s ++ rest ≠ t := by
  rintro rfl
  have begins : s.toList.isPrefixOf (s ++ rest).toList = true := by
    rw [String.toList_append, List.isPrefixOf_iff_prefix]
    exact List.prefix_append _ _
  rw [clash, begins] at other
  cases other

/-- An error that begins like that of a node that is not found is one. -/
theorem missing_of_tells {r : Remark} {path : List String} (level : r.level = .error)
    (tells : (r.entry path).tells "Node not found" = true) : ∃ node, r = .missing node := by
  have others : ∀ t ∈ ["No trigger node found in workflow",
      "Execution could not be scheduled: cannot schedule new futures after shutdown",
      "Error processing node "], clash "Node not found" t = true := by
    decide +kernel
  cases r with
  | missing node => exact ⟨node, rfl⟩
  | triggerless | refused | broken =>
    rw [not_tells_of_clash (others _ (by simp [head]))] at tells
    cases tells
  | _ => cases level

/-- An error that begins like that of a trigger that is missing is one. -/
theorem triggerless_of_tells {r : Remark} {path : List String} (level : r.level = .error)
    (tells : (r.entry path).tells triggerlessText = true) : r = .triggerless := by
  have others : ∀ t ∈ ["Node not found: ",
      "Execution could not be scheduled: cannot schedule new futures after shutdown",
      "Error processing node "], clash triggerlessText t = true := by
    decide +kernel
  cases r with
  | triggerless => rfl
  | missing | refused | broken =>
    rw [not_tells_of_clash (others _ (by simp [head]))] at tells
    cases tells
  | _ => cases level

/-- A warning that begins like that of a loop without a body is one. -/
theorem bodiless_of_tells {r : Remark} {path : List String} (level : r.level = .warning)
    (tells : (r.entry path).tells "Loop node " = true) : ∃ node, r = .bodiless node := by
  have others : ∀ t ∈ ["Node ", "No '", "Workflow execution cancelled"],
      clash "Loop node " t = true := by
    decide +kernel
  cases r with
  | bodiless node => exact ⟨node, rfl⟩
  | repeated | unconnected | cancelled =>
    rw [not_tells_of_clash (others _ (by simp [head]))] at tells
    cases tells
  | _ => cases level

/-- What a remark says of the workflow that it is made in is so. -/
def Holds (w : Workflow) : Remark → Prop
  | .triggerless => w.trigger? = none
  | .missing node => node ∈ w.places ∧ w.node? node = none
  | .bodiless node => ∃ iterations, w.LoopAt node iterations ∧ w.connection? node "body" = none
  | _ => True

end Remark

/-! Only an action can fail with the words by which a trigger is missed. -/

theorem Instant.text_ofSeconds {due : Float} {f : Failure} (failed : ofSeconds due = .error f) :
    f.text ≠ Remark.triggerlessText := by
  unfold ofSeconds at failed
  split at failed
  · cases failed
    decide
  · split at failed
    · cases failed
      decide
    · extract_lets part micros t at failed
      clear_value t
      split at failed
      · cases failed
      · split at failed <;> cases failed
        · change "year " ++ toString t.year ++ " is out of range" ≠ _
          rw [String.append_assoc]
          exact Remark.append_ne_of_clash (by decide +kernel) _
        · decide
  · cases failed
    decide

theorem Engine.text_delayAmount {node : String} {written resolved : Value} {f : Failure}
    (failed : delayAmount node written resolved = .error f) : f.text ≠ Remark.triggerlessText := by
  unfold delayAmount at failed
  dsimp only at failed
  repeat' split at failed
  all_goals cases failed
  · decide
  all_goals exact Remark.append_ne_of_clash (by decide +kernel) _

theorem Engine.text_delaySeconds {vars : Dict} {node unit : String} {amount : Value} {f : Failure}
    (failed : delaySeconds vars node amount unit = .error f) : f.text ≠ Remark.triggerlessText := by
  unfold delaySeconds at failed
  cases read : delayAmount node amount (Template.resolve vars amount) with
  | error g =>
    rw [read] at failed
    cases failed
    exact text_delayAmount read
  | ok x =>
    rw [read] at failed
    change (if x < 0.0 then _ else _) = _ at failed
    split at failed <;> cases failed
    exact Remark.append_ne_of_clash (by decide +kernel) _

/-- What a job fails with says that a trigger is missing only when an action has said so. -/
def Job.Blameless : Job → Prop
  | .node _ n (some f) => f.text = Remark.triggerlessText → ∃ actionType, n.kind = .action actionType
  | .iterate _ _ _ _ (.error f) => f.text ≠ Remark.triggerlessText
  | _ => True

theorem Works.blameless {j : Job} {v w : Scene} (work : Works j v w) : j.Blameless := by
  induction work with
  | misjudged known active kind value =>
    exact fun same => absurd same (Remark.append_ne_of_clash (by decide +kernel) _)
  | misacted known active kind work => exact fun _ => ⟨_, kind⟩
  | misdelayed known active kind why =>
    intro same
    rcases why with length | ⟨due, late⟩
    · exact absurd same (Engine.text_delaySeconds length)
    · exact absurd same (Instant.text_ofSeconds late)
  | misiterated known active kind found idle work ih => exact fun same => absurd same ih
  | limited known active due limit past =>
    change "Loop node " ++ _ ++ _ ++ _ ++ _ ≠ _
    simp only [String.append_assoc]
    exact Remark.append_ne_of_clash (by decide +kernel) _
  | iterated known active due first others ih ihOthers => exact ihOthers
  | exhausted limit => exact (by decide : Engine.exhausted.text ≠ Remark.triggerlessText)
  | _ => trivial

/-- A job belongs to a workflow. -/
def Job.Fits (w : Workflow) : Job → Prop
  | .enter _ target => target ∈ w.places
  | .follow _ cs => ∀ c ∈ cs, c ∈ w.connections
  | .node _ n _ => w.node? n.id = some n
  | .iterate _ loop body iterations _ => w.LoopAt loop iterations ∧ body ∈ w.places
  | .act _ | .start _ _ => True

/-- One of its actions has failed with the words by which a trigger is missed. -/
def Execution.Feigns (x : Execution) : Prop :=
  ∃ n actionType path, x.workflow.node? n.id = some n ∧ n.kind = .action actionType ∧
    (Remark.broken n.id Remark.triggerlessText).entry path ∈ x.logs

/-- The log of an execution says what is so, the nodes it has entered are among those that its
workflow names, and it says that it failed for want of a trigger only if there is none, or an action
has said so. -/
structure Execution.Truthful (x : Execution) : Prop where
  logs : ∀ l ∈ x.logs, ∃ (r : Remark) (path : List String), l = r.entry path ∧ r.Holds x.workflow
  path : ∀ node ∈ x.path, node ∈ x.workflow.places
  error : x.error = some Remark.triggerlessText → x.workflow.trigger? = none ∨ x.Feigns

namespace Execution.Truthful

variable {x y : Execution}

/-- It speaks of nothing else. -/
theorem congr (truthful : x.Truthful) (workflow : y.workflow = x.workflow) (logs : y.logs = x.logs)
    (path : y.path = x.path) (error : y.error = x.error) : y.Truthful := by
  refine ⟨?_, ?_, ?_⟩
  · rw [logs, workflow]
    exact truthful.logs
  · rw [path, workflow]
    exact truthful.path
  · unfold Feigns
    rw [error, workflow, logs]
    exact truthful.error

theorem tell (truthful : x.Truthful) {r : Remark} (holds : r.Holds x.workflow) : (x.tell r).Truthful where
  logs := List.forall_mem_append.2 ⟨truthful.logs, List.forall_mem_singleton.2 ⟨r, x.path, rfl, holds⟩⟩
  path := truthful.path
  error same := (truthful.error same).imp_right fun ⟨n, actionType, path, found, kind, told⟩ =>
    ⟨n, actionType, path, found, kind, List.mem_append_left _ told⟩

theorem enter (truthful : x.Truthful) {node : String} (place : node ∈ x.workflow.places) :
    (x.enter node).Truthful where
  logs := truthful.logs
  path := List.forall_mem_append.2 ⟨truthful.path, List.forall_mem_singleton.2 place⟩
  error := truthful.error

/-- It ends with some error. -/
theorem erring (truthful : x.Truthful) (workflow : y.workflow = x.workflow) (logs : y.logs = x.logs)
    (path : y.path = x.path)
    (why : y.error = some Remark.triggerlessText → x.workflow.trigger? = none ∨ x.Feigns) :
    y.Truthful := by
  refine ⟨?_, ?_, ?_⟩
  · rw [logs, workflow]
    exact truthful.logs
  · rw [path, workflow]
    exact truthful.path
  · unfold Feigns at why ⊢
    rw [workflow, logs]
    exact why

end Execution.Truthful

namespace Scene

variable {v w : Scene} {id : String} {x : Execution}

/-- Every execution is truthful. -/
def Truthful (v : Scene) : Prop := ∀ id x, v.execution? id = some x → x.Truthful

/-- One execution changes and stays truthful. -/
theorem Truthful.replace {i : String} (truthful : v.Truthful)
    (others : ∀ k, k ≠ i → w.execution? k = v.execution? k)
    (own : ∀ y, w.execution? i = some y → y.Truthful) : w.Truthful := by
  intro k y there
  by_cases same : k = i
  · exact own y (same ▸ there)
  · exact truthful k y ((others k same).symm.trans there)

theorem Truthful.alter (truthful : v.Truthful) {f : Execution → Execution}
    (keeps : ∀ x, v.execution? id = some x → x.Truthful → (f x).Truthful) : (v.alter id f).Truthful := by
  refine truthful.replace (i := id) (fun k other => by simp [other]) fun y there => ?_
  rw [execution?_alter, if_pos rfl] at there
  obtain ⟨x, known, rfl⟩ := Option.map_eq_some_iff.1 there
  exact keeps x known (truthful id x known)

/-- A change that no log tells of. -/
theorem Truthful.minor {i : String} (truthful : v.Truthful) {f : Execution → Execution}
    (workflow : ∀ x, (f x).workflow = x.workflow) (logs : ∀ x, (f x).logs = x.logs)
    (path : ∀ x, (f x).path = x.path) (error : ∀ x, (f x).error = x.error) : (v.alter i f).Truthful :=
  truthful.alter fun x _ held => held.congr (workflow x) (logs x) (path x) (error x)

theorem Truthful.count (truthful : v.Truthful) (node : String) (n : Int) :
    (v.alter id (·.setCounter node n)).Truthful :=
  truthful.minor (fun _ => rfl) (fun _ => rfl) (fun _ => rfl) fun _ => rfl

theorem Truthful.say (truthful : v.Truthful) {r : Remark}
    (holds : ∀ x, v.execution? id = some x → r.Holds x.workflow) : (v.say id r).Truthful :=
  truthful.alter (f := (·.tell r)) fun x known held => held.tell (holds x known)

theorem Truthful.fail (truthful : v.Truthful) {error : String}
    (why : ∀ x, v.execution? id = some x → error = Remark.triggerlessText →
      x.workflow.trigger? = none ∨ x.Feigns) : (v.fail id error).Truthful := by
  refine truthful.replace (i := id) (fun k other => by simp [Scene.fail, halt, other]) fun y there => ?_
  obtain ⟨x, known, rfl⟩ : ∃ x, v.execution? id = some x ∧ x.failed error = y := by
    simpa [Scene.fail, halt, Execution.failed, Function.comp_def] using there
  exact (truthful id x known).erring rfl rfl rfl fun same => why x known (Option.some.inj same)

theorem Truthful.cancel (truthful : v.Truthful) : (v.cancel id).Truthful := by
  refine truthful.replace (i := id) (fun k other => by simp [Scene.cancel, halt, other]) fun y there => ?_
  obtain ⟨x, known, rfl⟩ : ∃ x, v.execution? id = some x ∧ x.cancelled = y := by
    simpa [Scene.cancel, halt, Execution.cancelled, Execution.tell, Function.comp_def] using there
  have ended : Execution.Truthful { x with
      status := .cancelled, error := some cancelText, timers := [] } :=
    (truthful id x known).erring rfl rfl rfl fun same => absurd (Option.some.inj same) (by decide)
  exact (ended.tell (r := .cancelled) trivial).congr rfl rfl rfl rfl

theorem Truthful.finish (truthful : v.Truthful) : (v.finish id).Truthful := by
  unfold Scene.finish
  split
  · have ended := truthful.minor (i := id) (f := fun x => { x with
      branches := x.branches - 1, status := .completed }) (fun _ => rfl) (fun _ => rfl) (fun _ => rfl)
      fun _ => rfl
    exact (ended.say (r := .completed) fun _ _ => trivial).minor (f := fun x => { x with done := true })
      (fun _ => rfl) (fun _ => rfl) (fun _ => rfl) fun _ => rfl
  · exact truthful.minor (fun _ => rfl) (fun _ => rfl) (fun _ => rfl) fun _ => rfl

theorem Truthful.suspend (truthful : v.Truthful) (node : String) (seconds : Float) (resumeAt : Instant) :
    (v.suspend id node seconds resumeAt).Truthful :=
  (truthful.say (r := .delaying node seconds) fun _ _ => trivial).minor (f := fun x => { x with
    branches := x.branches + 1, timers := Execution.addTimer x.timers node v.clock.nextTimer })
    (fun _ => rfl) (fun _ => rfl) (fun _ => rfl) fun _ => rfl

theorem Truthful.enrol (truthful : v.Truthful) {row : Store.ExecutionRow} {next : Nat}
    {workflow : Workflow} {module item : Value} {triggerData vars : Dict} :
    (v.enrol (.opening id workflow module item triggerData vars) row next).Truthful := by
  refine truthful.replace (i := id) (fun k other => by simp [other, Execution.opening]) fun y there => ?_
  obtain rfl : Execution.opening id workflow module item triggerData vars = y := by
    simpa [Execution.opening] using there
  refine ⟨fun _ none => absurd none List.not_mem_nil, fun _ none => absurd none List.not_mem_nil,
    fun failed => ?_⟩
  cases failed

/-- What an execution has become still belongs to the same workflow. -/
theorem Keeps.workflow (kept : v.Keeps w) (known : v.execution? id = some x) :
    ∀ y, w.execution? id = some y → y.workflow = x.workflow := by
  intro y there
  obtain ⟨z, held, further⟩ := kept.further id x known
  obtain rfl := Option.some.inj (held.symm.trans there)
  exact further.workflow

theorem workflow_alter {f : Execution → Execution} (keeps : ∀ x, (f x).workflow = x.workflow)
    (known : v.execution? id = some x) :
    ∀ y, (v.alter id f).execution? id = some y → y.workflow = x.workflow := by
  intro y there
  obtain rfl : f x = y := by simpa [known] using there
  exact keeps x

/-- A node is entered that walks may come to. -/
theorem Truthful.enter (truthful : v.Truthful) (known : v.execution? id = some x) {node : String}
    (place : node ∈ x.workflow.places) {r : Remark} (holds : r.Holds x.workflow) :
    ((v.alter id (·.enter node)).say id r).Truthful := by
  refine (truthful.alter fun y there held => ?_).say fun y there => ?_
  · obtain rfl := Option.some.inj (known.symm.trans there)
    exact held.enter place
  · rw [workflow_alter (f := (·.enter node)) (fun _ => rfl) known y there]
    exact holds

/-- A remark is made about the execution that is at work. -/
theorem Truthful.tell (truthful : v.Truthful) (known : v.execution? id = some x) {r : Remark}
    (holds : r.Holds x.workflow) : (v.say id r).Truthful := by
  refine truthful.say fun y there => ?_
  obtain rfl := Option.some.inj (known.symm.trans there)
  exact holds

end Scene

/-- A job belongs to the workflow of its execution afterwards, when it did before. -/
theorem Job.fits_of_keeps {j : Job} {v w : Scene} {x : Execution} (kept : v.Keeps w)
    (known : v.execution? j.owner = some x) (fits : j.Fits x.workflow) :
    ∀ y, w.execution? j.owner = some y → j.Fits y.workflow := by
  intro y there
  rw [kept.workflow known y there]
  exact fits

/-- The same after a change that leaves the workflow as it is. -/
theorem Job.fits_of_alter {j : Job} {v : Scene} {x : Execution} {f : Execution → Execution}
    (keeps : ∀ x, (f x).workflow = x.workflow) (known : v.execution? j.owner = some x)
    (fits : j.Fits x.workflow) : ∀ y, (v.alter j.owner f).execution? j.owner = some y → j.Fits y.workflow := by
  intro y there
  rw [Scene.workflow_alter keeps known y there]
  exact fits

theorem Job.fits_outgoing {w : Workflow} (id node : String) : (Job.follow id (w.outgoing node)).Fits w :=
  fun _ leaves => Workflow.mem_connections_of_outgoing leaves

open Scene in
/-- Work that belongs to the workflow of its execution leaves every log truthful. -/
theorem Works.truthful {j : Job} {v w : Scene} (work : Works j v w) (proper : v.Proper)
    (fits : ∀ x, v.execution? j.owner = some x → j.Fits x.workflow) (truthful : v.Truthful) :
    w.Truthful := by
  induction work with
  | idle | back | none | stopped | misjudged | misdelayed | given | exhausted | rest => exact truthful
  | again known => exact truthful.tell known trivial
  | missing known active admitted absent =>
    exact truthful.enter known (fits _ known) ⟨fits _ known, absent⟩
  | @handled v w id node x n known active admitted found work ih
  | @lost v w id node x y n f known active admitted found work then_ past ih =>
    have kept : v.Keeps ((v.alter id (·.enter node)).say id (.processing node n)) := proper.keeps_enter _ _
    exact ih kept.proper (Job.fits_of_keeps kept known (Workflow.node?_self found))
      (truthful.enter known (fits _ known) trivial)
  | @broken v w id node x y n f known active admitted found work then_ running ih =>
    have kept : v.Keeps ((v.alter id (·.enter node)).say id (.processing node n)) := proper.keeps_enter _ _
    have worked := ih kept.proper (Job.fits_of_keeps kept known (Workflow.node?_self found))
      (truthful.enter known (fits _ known) trivial)
    have same : y.workflow = x.workflow := (kept.andThen work.keeps).workflow known y then_
    refine (worked.tell then_ (r := .broken node f.text) trivial).fail fun z there spoken => .inr ?_
    obtain rfl : y.tell (.broken node f.text) = z := by simpa [then_, Execution.tell] using there
    obtain ⟨actionType, kind⟩ := work.blameless spoken
    obtain rfl := Workflow.id_of_node? found
    refine ⟨n, actionType, y.path, same ▸ found, kind, ?_⟩
    rw [← spoken]
    exact List.mem_append_right _ (List.mem_singleton_self _)
  | next known active first others ih ihOthers =>
    have here := fits _ known
    have kept := first.keeps proper
    refine ihOthers kept.proper (Job.fits_of_keeps kept known fun c later => here c (.tail _ later)) ?_
    exact ih proper (Job.fits_of_keeps proper.keeps known
      (Workflow.target_mem_places (here _ (.head _)))) truthful
  | trigger known active kind rest ih | junction known active kind rest ih =>
    exact ih (proper.say _) (Job.fits_of_keeps (proper.keeps_say _) known (Job.fits_outgoing _ _))
      (truthful.tell known trivial)
  | judged known active kind value found rest ih =>
    exact ih (proper.say _) (Job.fits_of_keeps (proper.keeps_say _) known
      (Workflow.connection_mem_places found)) (truthful.tell known trivial)
  | @unconnected v id n x c result known active kind value absent =>
    exact (truthful.tell known (r := .evaluated n.id c result) trivial).say fun _ _ => trivial
  | @action v w u id n x actionType text known active kind said work rest ih ihRest =>
    have before := proper.keeps_say (i := id) (.executing n.id actionType)
    have acted := ih before.proper (fun _ _ => trivial) (truthful.tell known trivial)
    have kept := (before.andThen work.keeps).andThen fun later => later.keeps_say (i := id) (.summary n.id text)
    exact ihRest kept.proper (Job.fits_of_keeps kept known (Job.fits_outgoing _ _))
      (acted.say fun _ _ => trivial)
  | misacted known active kind work ih =>
    exact ih (proper.say _) (fun _ _ => trivial) (truthful.tell known trivial)
  | delay => exact truthful.suspend _ _ _
  | bodiless known active kind absent =>
    exact truthful.tell known ⟨_, ⟨_, fits _ known, kind⟩, absent⟩
  | @exit v w u id n x iterations body exit known active kind found idle work way rest ih ihRest =>
    have inside : (v.alter id (·.within n.id)).Proper := proper.alter fun _ => rfl
    have begun : (v.alter id (·.within n.id)).Truthful :=
      truthful.minor (fun _ => rfl) (fun _ => rfl) (fun _ => rfl) fun _ => rfl
    have there : (v.alter id (·.within n.id)).execution? id = some (x.within n.id) := by simp [known]
    have iterated := ih inside (Job.fits_of_alter (fun _ => rfl) known
      ⟨⟨n, fits _ known, kind⟩, Workflow.connection_mem_places found⟩) begun
    have left := ihRest (work.keeps inside).proper (Job.fits_of_keeps (work.keeps inside) there
      (Workflow.connection_mem_places way)) iterated
    exact left.minor (fun _ => rfl) (fun _ => rfl) (fun _ => rfl) fun _ => rfl
  | @leave v w id n x iterations body done known active kind found idle work nowhere ih
  | @misiterated v w id n x iterations body f known active kind found idle work ih =>
    have inside : (v.alter id (·.within n.id)).Proper := proper.alter fun _ => rfl
    have begun : (v.alter id (·.within n.id)).Truthful :=
      truthful.minor (fun _ => rfl) (fun _ => rfl) (fun _ => rfl) fun _ => rfl
    have iterated := ih inside (Job.fits_of_alter (fun _ => rfl) known
      ⟨⟨n, fits _ known, kind⟩, Workflow.connection_mem_places found⟩) begun
    exact iterated.minor (fun _ => rfl) (fun _ => rfl) (fun _ => rfl) fun _ => rfl
  | completed => exact (truthful.count _ _).say fun _ _ => trivial
  | limited => exact truthful.count _ _
  | @iterated v w u id node body iterations x ending known active due first others ih ihOthers =>
    have begun := (proper.keeps_count known node).andThen fun later =>
      later.keeps_say (i := id) (.iteration node (x.counter node + 1) iterations)
    have entered := ih begun.proper (Job.fits_of_keeps begun known (fits _ known).2)
      ((truthful.count _ _).say fun _ _ => trivial)
    have kept := begun.andThen first.keeps
    obtain ⟨y, there, further⟩ := kept.further id x known
    exact ihOthers (kept.proper.alter fun _ => rfl)
      (Job.fits_of_alter (fun _ => rfl) there (further.workflow ▸ fits _ known))
      (entered.minor (fun _ => rfl) (fun _ => rfl) (fun _ => rfl) fun _ => rfl)
  | put others ih =>
    exact ih (proper.alter fun _ => rfl) (fun _ _ => trivial)
      (truthful.minor (fun _ => rfl) (fun _ => rfl) (fun _ => rfl) fun _ => rfl)
  | cancel known live active others ih => exact ih proper.cancel (fun _ _ => trivial) truthful.cancel
  | serve later others ih => exact ih (proper.keeps_next later).proper (fun _ _ => trivial) truthful
  | launch first others ih ihOthers =>
    exact ihOthers (first.keeps proper).proper (fun _ _ => trivial) (ih proper (fun _ _ => trivial) truthful)
  | @started v w workflow module item triggerData vars n row trigger later opens sound found accepting
      work ih =>
    let x : Execution := .opening (idText n) workflow module item triggerData vars
    have enrolled := proper.keeps_enrol (r := row) (x := x) later rfl
    have begun := enrolled.proper.keeps_say (i := idText n) (.started workflow.name)
    have there : (v.enrol x row (n + 1)).execution? (idText n) = some x :=
      (execution?_enrol ..).trans (if_pos rfl)
    exact (ih begun.proper (Job.fits_of_keeps begun there (Workflow.trigger_mem_places found))
      (truthful.enrol.say fun _ _ => trivial)).finish
  | @stillborn v workflow module item triggerData vars n row reason later opens sound why =>
    let x : Execution := .opening (idText n) workflow module item triggerData vars
    have there : (v.enrol x row (n + 1)).execution? (idText n) = some x :=
      (execution?_enrol ..).trans (if_pos rfl)
    have begun : (v.enrol x row (n + 1)).Truthful := truthful.enrol
    have told := begun.tell there (r := .started workflow.name) trivial
    have known : ((v.enrol x row (n + 1)).say (idText n) (.started workflow.name)).execution? (idText n) =
        some (x.tell (.started workflow.name)) := v.execution?_begun _ x row (n + 1)
    rcases why with ⟨rfl, none⟩ | ⟨rfl, -⟩
    · have enrolled := (proper.keeps_enrol (r := row) (x := x) later rfl).proper.say (i := idText n)
        (.started workflow.name)
      refine (told.tell known (r := .triggerless) none).fail fun y held _ => .inl ?_
      rw [(enrolled.keeps_say _).workflow known y held]
      exact none
    · exact (told.tell known (r := .refused) trivial).fail fun _ _ same => absurd same (by decide)

open Scene in
theorem Resumes.truthful {t : Timer} {v w : Scene} (resumes : Resumes t v w) (proper : v.Proper)
    (truthful : v.Truthful) : w.Truthful := by
  have unarmed : (v.unarm t).Truthful :=
    truthful.minor (fun _ => rfl) (fun _ => rfl) (fun _ => rfl) fun _ => rfl
  have told : ((v.unarm t).say t.execution (.resumed t.node)).Truthful := unarmed.say fun _ _ => trivial
  cases resumes with
  | @continued w x known active work =>
    have begun := (proper.keeps_unarm t).andThen fun later =>
      (later.keeps_say (i := t.execution) (.resumed t.node)).andThen fun later => later.keeps_unmark t.marker
    exact (work.truthful begun.proper (Job.fits_of_keeps begun known (Job.fits_outgoing _ _)) told).finish
  | @stuck x error known active unfit why =>
    obtain ⟨f, large, rfl⟩ := why
    refine (told.fail fun _ _ same => absurd same ?_).finish
    rw [← Store.Refusal.raised.inj large]
    decide
  | past known ended => exact unarmed.finish

open Scene in
theorem Fires.truthful {ts : List Timer} {v w : Scene} (fires : Fires ts v w) (proper : v.Proper)
    (truthful : v.Truthful) : w.Truthful := by
  induction fires with
  | none => exact truthful
  | next first others ih => exact ih (first.keeps proper).proper (first.truthful proper truthful)

open Scene in
theorem Deed.truthful {v w : Scene} (deed : Deed v w) (proper : v.Proper) (truthful : v.Truthful) :
    w.Truthful := by
  cases deed with
  | serve later => exact truthful
  | start work => exact work.truthful proper (fun _ _ => trivial) truthful
  | cancel known live active => exact truthful.cancel
  | advance fires => exact fires.truthful (proper.keeps_shift _).proper truthful

namespace Execution.Truthful

variable {x : Execution} {l : LogEntry}

/-- Where the report has no errors, no node is missing. -/
theorem finds (truthful : x.Truthful) (intact : x.workflow.structureReport.errors = [])
    (told : l ∈ x.logs) (level : l.level = .error) : l.tells "Node not found" = false := by
  refine Bool.eq_false_iff.2 fun tells => ?_
  obtain ⟨r, path, rfl, holds⟩ := truthful.logs l told
  obtain ⟨node, rfl⟩ := Remark.missing_of_tells level tells
  exact Workflow.node?_of_errors intact holds.1 holds.2

/-- Where the report has no errors, no trigger is missing. -/
theorem triggers (truthful : x.Truthful) (intact : x.workflow.structureReport.errors = [])
    (told : l ∈ x.logs) (level : l.level = .error) : l.tells Remark.triggerlessText = false := by
  refine Bool.eq_false_iff.2 fun tells => ?_
  obtain ⟨r, path, rfl, holds⟩ := truthful.logs l told
  obtain rfl := Remark.triggerless_of_tells level tells
  exact Workflow.trigger?_of_errors intact holds

/-- Where the report has no warnings, no body is missing. -/
theorem loops (truthful : x.Truthful) (clean : x.workflow.structureReport.warnings = [])
    (told : l ∈ x.logs) (level : l.level = .warning) : l.tells "Loop node " = false := by
  refine Bool.eq_false_iff.2 fun tells => ?_
  obtain ⟨r, path, rfl, holds⟩ := truthful.logs l told
  obtain ⟨node, rfl⟩ := Remark.bodiless_of_tells level tells
  obtain ⟨iterations, loop, absent⟩ := holds
  exact Workflow.body_of_warnings clean loop absent

end Execution.Truthful

namespace Engine

variable {e : Engine}

theorem Fresh.truthful (fresh : e.Fresh) (ops : List Operation)
    (work : ∀ op ∈ ops, op.isWork = true) : (e.afterAll ops).scene.Truthful := by
  refine ((deeds_afterAll ops work e fresh.proper fresh.accepting).induct (p := Scene.Truthful)
    fresh.proper (fun id x known => ?_) fun v w deed proper _ held => deed.truthful proper held).2
  simp [scene, execution?, fresh.executions] at known

/-- The structural report is right about runs. When it has no errors, every node that an execution
enters is there, no error says that a node or the trigger is missing, and the execution fails with the
words for a missing trigger only where an action has failed with these words. When it has no warnings
either, no warning says that a loop has no body, and every condition that the execution comes to has a
connection for one of its results. -/
theorem Fresh.structure_kept (fresh : e.Fresh) (ops : List Operation)
    (work : ∀ op ∈ ops, op.isWork = true) {id : String} {x : Execution}
    (known : (e.afterAll ops).execution? id = some x)
    (intact : x.workflow.structureReport.errors = []) :
    (∀ node ∈ x.path, (x.workflow.node? node).isSome) ∧
    (∀ l ∈ x.logs, l.level = .error →
      l.tells "Node not found" = false ∧ l.tells "No trigger node found in workflow" = false) ∧
    (x.error = some "No trigger node found in workflow" → x.Feigns) ∧
    (x.workflow.structureReport.warnings = [] →
      (∀ l ∈ x.logs, l.level = .warning → l.tells "Loop node " = false) ∧
      ∀ node ∈ x.path, ∀ n c, x.workflow.node? node = some n → n.kind = .condition c →
        ∃ result, (x.workflow.connection? node (truthName result)).isSome) := by
  have truthful : x.Truthful := fresh.truthful ops work id x known
  refine ⟨fun node there => ?_, fun l told level => ⟨truthful.finds intact told level,
    truthful.triggers intact told level⟩, fun failed => ?_, fun clean => ⟨fun l told level =>
    truthful.loops clean told level, fun node _ n c found kind => ?_⟩⟩
  · exact Option.isSome_iff_ne_none.2 (Workflow.node?_of_errors intact (truthful.path node there))
  · exact (truthful.error failed).resolve_left (Workflow.trigger?_of_errors intact)
  · obtain ⟨result, connected⟩ := Workflow.branch_of_warnings clean found kind
    exact ⟨result, Option.isSome_iff_ne_none.2 connected⟩

/-- A condition with a way on for one of its results, a delay behind it, and a loop. -/
def writtenIntact : Value :=
  Workflow.written
    [Workflow.writtenNode "T" "trigger" [("triggerType", .text "created")],
      Workflow.writtenNode "C" "condition" [("condition", .record [("field", .text "urgent"),
        ("operator", .text "equals"), ("value", .bool true)])],
      Workflow.writtenNode "L" "loop" [("iterations", .int 2)],
      Workflow.writtenNode "D" "delay" [("amount", .int 5), ("unit", .text "seconds")],
      Workflow.writtenNode "J" "junction" []]
    [Workflow.writtenConnection "T" "C" .null, Workflow.writtenConnection "T" "L" .null,
      Workflow.writtenConnection "C" "J" (.text "true"),
      Workflow.writtenConnection "L" "D" (.text "body"), Workflow.writtenConnection "D" "J" .null]

set_option maxRecDepth 100000 in
theorem structure_kept_intact :
    ∃ x, (bare.afterAll (onceThrough writtenIntact 10.0)).execution? "id-1" = some x ∧
      x.workflow.structureReport = ⟨[], []⟩ ∧ x.path = ["T", "C", "L", "D", "D", "J"] ∧
      (∀ node ∈ x.path, (x.workflow.node? node).isSome) ∧
      ∃ result, (x.workflow.connection? "C" (truthName result)).isSome := by
  have run : ((bare.afterAll (onceThrough writtenIntact 10.0)).execution? "id-1").map
      (fun x => (x.workflow.structureReport, x.path,
        ((x.workflow.node? "C").map fun n => n.kind.name))) =
        some (⟨[], []⟩, ["T", "C", "L", "D", "D", "J"], some "condition") := by
    decide +kernel
  obtain ⟨x, known, same⟩ := Option.map_eq_some_iff.1 run
  obtain ⟨report, path, kind⟩ : x.workflow.structureReport = _ ∧ x.path = _ ∧ _ = _ := by
    simpa only [Prod.mk.injEq] using same
  obtain ⟨there, -, -, clean⟩ := fresh_bare.structure_kept (onceThrough writtenIntact 10.0)
    (isWork_onceThrough _ _) known (by rw [report])
  obtain ⟨n, found, named⟩ := Option.map_eq_some_iff.1 kind
  refine ⟨x, known, report, path, there, ?_⟩
  cases condition : n.kind with
  | condition c => exact (clean (by rw [report])).2 "C" (by simp [path]) n c found condition
  | _ => simp [condition, NodeKind.name] at named

/-- An engine with one action that says what it is told to say, and one that fails with the words by
which a trigger is missed. -/
def feigning : Engine :=
  { registry := ⟨[("note", Action.Samples.summary),
      ("raise", Action.Samples.explode "RuntimeError" "No trigger node found in workflow")], []⟩ }

/-- Two actions behind a trigger. -/
def writtenFeigning : Value :=
  Workflow.written
    [Workflow.writtenNode "T" "trigger" [("triggerType", .text "created")],
      Workflow.writtenNode "A" "action" [("actionType", .text "note"),
        ("config", .record [("text", .text "Node not found: Z")])],
      Workflow.writtenNode "B" "action" [("actionType", .text "raise"), ("config", .record [])]]
    [Workflow.writtenConnection "T" "A" .null, Workflow.writtenConnection "A" "B" .null]

set_option maxRecDepth 100000 in
/-- An action may log, and fail with, the very words by which a node or the trigger is missed. -/
theorem structure_feigned : feigning.Fresh ∧
    ((feigning.afterAll (onceThrough writtenFeigning 1.0)).execution? "id-1").map (fun x =>
      (x.workflow.structureReport, x.error, x.logs.any (·.tells "Node not found"))) =
    some (⟨[], []⟩, some "No trigger node found in workflow", true) := by
  refine ⟨?_, by decide +kernel⟩
  constructor <;> rfl

end Engine

end Runbook
