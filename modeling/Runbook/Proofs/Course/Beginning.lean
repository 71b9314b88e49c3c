import Runbook.Proofs.Course.Intact
import Runbook.Proofs.Course.Routing
import Runbook.Proofs.Course.Sequel

/-!
Where executions begin. A row takes its turn in an event when some trigger of its workflow waits for
that event, but what is started enters the first trigger of the workflow, whatever it waits for. The
two are one in a workflow whose structure has no errors.
-/
namespace Runbook

namespace Workflow

variable {w : Workflow} {event : String} {n : Node}

/-- The first trigger is the one that is meant when it waits for the event itself. -/
theorem triggerFor?_eq_trigger_iff (found : w.trigger? = some n) :
    w.triggerFor? event = some n ↔ n.event? = some event := by
  constructor
  · intro meant
    simpa using List.find?_some meant
  · intro waits
    obtain ⟨-, before, after, nodes, others⟩ := List.find?_eq_some_iff_append.1 found
    refine List.find?_eq_some_iff_append.2 ⟨by simp [waits], before, after, nodes, fun m early => ?_⟩
    have silent : m.event? = none := by simpa using others m early
    simp [silent]

/-- Where some trigger waits for an event, there is a first one. -/
theorem exists_trigger_of_triggerFor? (waits : (w.triggerFor? event).isSome) :
    ∃ n, w.trigger? = some n := by
  obtain ⟨m, meant⟩ := Option.isSome_iff_exists.1 waits
  have waiting : m.event? = some event := by simpa using List.find?_some meant
  exact Option.isSome_iff_exists.1 (List.find?_isSome.2
    ⟨m, List.mem_of_find?_eq_some meant, by simp [waiting]⟩)

/-- Without errors there is one trigger only. -/
theorem triggers_of_errors (intact : w.structureReport.errors = []) :
    ∃ n, w.nodes.filter (·.event?.isSome) = [n] := by
  have triggers : w.triggerErrors = [] := (List.append_eq_nil_iff.1 intact).1
  unfold triggerErrors at triggers
  split at triggers
  · cases triggers
  · rename_i single
    exact List.length_eq_one_iff.1 single
  · cases triggers

/-- So it is the one that is meant wherever one is. -/
theorem event?_of_errors (intact : w.structureReport.errors = []) (found : w.trigger? = some n)
    (waits : (w.triggerFor? event).isSome) : n.event? = some event := by
  obtain ⟨only, triggers⟩ := triggers_of_errors intact
  have sole {m : Node} (there : m ∈ w.nodes) (trigger : m.event?.isSome) : m = only :=
    List.mem_singleton.1 (triggers ▸ List.mem_filter.2 ⟨there, trigger⟩)
  obtain ⟨m, meant⟩ := Option.isSome_iff_exists.1 waits
  have waiting : m.event? = some event := by simpa using List.find?_some meant
  have first : n = only := sole (List.mem_of_find?_eq_some found) (by simpa using List.find?_some found)
  have same : m = only := sole (List.mem_of_find?_eq_some meant) (by simp [waiting])
  rw [first, ← same, waiting]

end Workflow

/-- It is an execution of the workflow in a row, and the first node that it entered is the first
trigger of this workflow, which need not be the one that waits for the event. -/
structure Store.WorkflowRow.Begins (row : Store.WorkflowRow) (event : String) (x : Execution) :
    Prop where
  parsed : Workflow.parse row.record = .ok x.workflow
  waits : row.waits event = true
  first : ∃ n, x.workflow.trigger? = some n ∧ x.path.head? = some n.id

theorem Store.WorkflowRow.Begins.further {row : Store.WorkflowRow} {event : String} {x y : Execution}
    (begins : row.Begins event x) (further : x.Extends y) : row.Begins event y where
  parsed := further.workflow.symm ▸ begins.parsed
  waits := begins.waits
  first := by
    obtain ⟨n, found, first⟩ := begins.first
    obtain ⟨rest, longer⟩ := further.path
    exact ⟨n, further.workflow.symm ▸ found, by rw [← longer, List.head?_append, first]; rfl⟩

/-- An execution with an id is one that begins like this. -/
def Scene.Begins (v : Scene) (row : Store.WorkflowRow) (event id : String) : Prop :=
  ∃ x, v.execution? id = some x ∧ row.Begins event x

theorem Scene.Keeps.begins {v w : Scene} {row : Store.WorkflowRow} {event id : String}
    (kept : v.Keeps w) (begins : v.Begins row event id) : w.Begins row event id := by
  obtain ⟨x, known, begins⟩ := begins
  obtain ⟨y, known, further⟩ := kept.further id x known
  exact ⟨y, known, begins.further further⟩

/-- A node that is admitted stands next on the path. -/
theorem Works.enters {v w : Scene} {id node : String} {x : Execution} (work : Works (.enter id node) v w)
    (proper : v.Proper) (known : v.execution? id = some x) (active : x.isActive = true)
    (admitted : x.admits node = true) :
    ∃ y, w.execution? id = some y ∧ y.workflow = x.workflow ∧ x.path ++ [node] <+: y.path := by
  have entered : ∀ (r : Remark) (u : Scene), ((v.alter id (·.enter node)).say id r).Keeps u →
      ∃ y, u.execution? id = some y ∧ y.workflow = x.workflow ∧ x.path ++ [node] <+: y.path := by
    intro r u kept
    obtain ⟨y, there, further⟩ := kept.further id _ (by simp [known]; rfl)
    exact ⟨y, there, further.workflow, further.path⟩
  have proper' (r : Remark) : ((v.alter id (·.enter node)).say id r).Proper := (proper.keeps_enter node r).proper
  cases work with
  | idle there past =>
    cases known.symm.trans there
    rw [active] at past
    cases past
  | again there _ ordinary seen =>
    cases known.symm.trans there
    simp [Execution.admits, ordinary, seen] at admitted
  | back there _ loop iterating =>
    cases known.symm.trans there
    simp [Execution.admits, loop, iterating] at admitted
  | missing => exact entered _ _ (proper' _).keeps
  | handled _ _ _ _ work => exact entered _ _ (work.keeps (proper' _))
  | broken _ _ _ _ work =>
    refine entered _ _ ((work.keeps (proper' _)).andThen fun worked => ?_)
    exact (worked.keeps_say _).andThen fun told => told.keeps_fail _
  | lost _ _ _ _ work => exact entered _ _ (work.keeps (proper' _))

/-- What is started enters the first trigger of its workflow, while work is taken on. -/
theorem Works.begins {v w : Scene} {id : String} {workflow : Workflow} {first : Node}
    (work : Works (.start id workflow) v w) (proper : v.Proper) (accepting : v.accepting = true)
    (found : workflow.trigger? = some first) :
    ∃ x, w.execution? id = some x ∧ x.workflow = workflow ∧ x.path.head? = some first.id := by
  cases work with
  | @started v w workflow module item triggerData vars n row trigger later opens sound here _ work =>
    cases found.symm.trans here
    have enrolled := proper.keeps_enrol (r := row)
      (x := .opening (idText n) workflow module item triggerData vars) later rfl
    have told := enrolled.andThen fun proper => proper.keeps_say (i := idText n) (.started workflow.name)
    obtain ⟨y, there, same, rest, path⟩ := work.enters told.proper (Scene.execution?_begun ..) rfl
      (by unfold Execution.admits; split <;> rfl)
    obtain ⟨z, there, further⟩ := (work.keeps told.proper).proper.keeps_finish.further _ y there
    obtain ⟨more, longer⟩ := further.path
    exact ⟨z, there, further.workflow.trans same, by rw [← longer, ← path]; rfl⟩
  | stillborn _ _ _ why =>
    rcases why with ⟨-, missing⟩ | ⟨-, shut⟩
    · cases found.symm.trans missing
    · rw [accepting] at shut
      cases shut

namespace Engine

variable {v : Scene} {event : String} {payload module item : Value}

/-- What is started for a row that waits begins at the first trigger. -/
theorem plays_startRow {row : Store.WorkflowRow} {w : Workflow} (parsed : Workflow.parse row.record = .ok w)
    (waits : (w.triggerFor? event).isSome) (proper : v.Proper) (accepting : v.accepting = true) :
    Plays (startExecution launch w payload module item) v
      (fun id u => v.Keeps u ∧ u.Begins row event id) fun _ u => v.Keeps u := by
  refine (plays_startExecution launches_launch w payload module item (Workflow.sound_of_parse parsed)
    proper).imp ?_ ?_
  · intro id u work
    obtain ⟨n, found⟩ := Workflow.exists_trigger_of_triggerFor? waits
    obtain ⟨x, known, rfl, first⟩ := work.begins proper accepting found
    refine ⟨work.keeps proper, x, known, parsed, ?_, n, found, first⟩
    unfold Store.WorkflowRow.waits
    rw [parsed]
    exact waits
  · rintro _ u ⟨n, later, rfl⟩
    exact proper.keeps_next later

/-- So does what comes of the turn of any row. -/
theorem plays_routeRow (row : Store.WorkflowRow) (proper : v.Proper) (accepting : v.accepting = true) :
    Plays (routeRow (some event) payload module item row) v
      (fun started u => v.Keeps u ∧ ∀ id ∈ started, u.Begins row event id) fun _ _ => True := by
  have nobody : v.Keeps v ∧ ∀ id ∈ (none : Option String), v.Begins row event id :=
    ⟨proper.keeps, by simp⟩
  refine .bind (m := fun p u => u = v ∧ ∀ w ∈ p, Workflow.parse row.record = .ok w)
    (.tryCatch (m := fun _ u => u = v) (.map (.ofExcept ?_ fun _ _ => rfl)) ?_) ?_
  · intro w parsed
    exact ⟨rfl, by simpa using parsed⟩
  · rintro f u rfl
    cases f with
    | program p => exact .after (plays_note (by decide)) fun _ => .pure ⟨rfl, by simp⟩
    | _ => exact .throw trivial
  rintro p u ⟨rfl, parsed⟩
  cases p with
  | none => exact .pure nobody
  | some w =>
    refine .ite (fun _ => .pure nobody) fun waiting => ?_
    have waits : (w.triggerFor? event).isSome := Option.isSome_iff_ne_none.2 (by simpa using waiting)
    refine .tryCatch (.map ((plays_startRow (parsed w rfl) waits proper accepting).imp (fun id w h => ⟨h.1, by simpa using h.2⟩) fun _ _ h => h)) ?_
    intro f w kept
    cases f with
    | program p => exact .after (plays_note (by decide)) fun _ => .pure ⟨kept, by simp⟩
    | _ => exact .throw trivial

/-- What comes of the turns of many rows. -/
theorem plays_routeRows (rows : List Store.WorkflowRow) (proper : v.Proper) (accepting : v.accepting = true) :
    Plays (rows.mapM (routeRow (some event) payload module item)) v
      (fun started u => v.Keeps u ∧ ∀ id, some id ∈ started → ∃ row ∈ rows, u.Begins row event id)
      fun _ _ => True := by
  induction rows generalizing v with
  | nil => exact .pure ⟨proper.keeps, by simp⟩
  | cons row rest ih =>
    rw [List.mapM_cons]
    refine .bind (plays_routeRow row proper accepting) fun started u ⟨kept, begins⟩ => ?_
    refine .bind (ih kept.proper (kept.accepting.trans accepting)) fun others w ⟨more, later⟩ => ?_
    refine .pure ⟨kept.trans more, fun id there => ?_⟩
    rcases List.mem_cons.1 there with same | there
    · exact ⟨row, .head _, more.begins (begins id same.symm)⟩
    · obtain ⟨other, listed, begins⟩ := later id there
      exact ⟨other, .tail _ listed, begins⟩

/-- What an event starts. -/
theorem ends_trigger {e : Engine} (orderly : e.scene.Orderly) (module : String) (item : Value) :
    Ends (trigger module (some event) payload item) e
      (fun ids t => t.scene.Proper ∧ t.accepting = true ∧
        ∀ id ∈ ids, ∃ row ∈ e.storage.tables.active module, t.scene.Begins row event id)
      fun _ _ => True := by
  have steady : e.storage.outages = [] := by simpa [scene, Storage.part] using orderly.proper.steady
  have mild : e.storage.Mild := fun o there => by simp [steady] at there
  have quiet : Storage.Quiet (Storage.activeWorkflows module) := .query ..
  have loads := (deeds_quiet quiet orderly.proper e rfl).2
  refine Ends.bind (Ends.tryCatch_iff.2 (Ends.map_iff.2 (((ends_activeWorkflows mild).and loads).imp ?_ ?_)))
  · rintro _ t ⟨⟨-, rfl, -⟩, deeds⟩
    have kept := deeds.keeps orderly.proper
    refine Ends.bind (((plays_routeRows _ kept.proper (kept.accepting.trans orderly.accepting)) t rfl).2.imp
      ?_ fun _ _ h => h)
    rintro answers u ⟨more, begins⟩
    refine Ends.bind ((plays_note (by decide) u rfl).2.imp (fun _ w same => ?_) fun _ _ h => h.elim)
    refine Ends.pure_iff.2 ⟨same ▸ more.proper, ?_, fun id there => same ▸ begins id (by simpa using there)⟩
    have still : w.scene.accepting = true := by
      rw [same, more.accepting, kept.accepting, orderly.accepting]
    exact still
  · rintro f t ⟨⟨refused, -⟩, -⟩
    simp [Storage.refuses, steady, Store.Outage.strike] at refused

/-- Whatever an engine was used for before, each execution that an event starts is one of an active
workflow of the module that waits for the event, and the first node that it has entered, as long as
the engine lives, is the first trigger of this workflow. It waits for the event just when it is the
trigger that the row was chosen for, and surely where the structure has no errors. -/
theorem Fresh.begins_at_first_trigger {e : Engine} (fresh : e.Fresh) {ops : List Operation}
    (use : ∀ op ∈ ops, op.isUse = true) {ids : List String} {t : Engine} {module : String}
    (routed : trigger module (some event) payload item (e.afterAll ops) = .ok ids t)
    {more : List Operation} (work : ∀ op ∈ more, op.isWork = true) {id : String} (there : id ∈ ids) :
    ∃ row ∈ (e.afterAll ops).storage.tables.active module, ∃ x n,
      (t.afterAll more).execution? id = some x ∧ Workflow.parse row.record = .ok x.workflow ∧
      (x.workflow.triggerFor? event).isSome ∧ x.workflow.trigger? = some n ∧ x.path.head? = some n.id ∧
      (n.event? = some event ↔ x.workflow.triggerFor? event = some n) ∧
      (x.workflow.structureReport.errors = [] → n.event? = some event) := by
  obtain ⟨proper, accepting, begins⟩ :=
    (Ends.ok_iff routed).1 (ends_trigger (fresh.orderly_afterAll ops use) module item)
  obtain ⟨row, listed, begins⟩ := begins id there
  have kept := (deeds_afterAll more work t proper accepting).keeps proper
  obtain ⟨x, known, parsed, waits, n, found, first⟩ := kept.begins begins
  have meant : (x.workflow.triggerFor? event).isSome := by
    unfold Store.WorkflowRow.waits at waits
    rwa [parsed] at waits
  exact ⟨row, listed, x, n, known, parsed, meant, found, first,
    (Workflow.triggerFor?_eq_trigger_iff found).symm, fun intact => Workflow.event?_of_errors intact found meant⟩

set_option maxRecDepth 100000 in
/-- The second trigger is meant, and the first one is entered. -/
example : ((bare.afterAll [.save (Workflow.written
    [Workflow.writtenNode "A" "trigger" [("triggerType", .text "created")],
      Workflow.writtenNode "B" "trigger" [("triggerType", .text "closed")]] []),
    .setStatus "wf" (.text "active"), .trigger "tickets" (some "closed") .null .null]).execution?
      "id-1").map (·.path) = some ["A"] := by
  decide +kernel

end Engine

end Runbook
