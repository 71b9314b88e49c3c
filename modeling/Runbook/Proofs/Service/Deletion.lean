import Runbook.Proofs.Course.Removal
import Runbook.Proofs.Service.Upkeep

/-!
What the service keeps of its store from request to request, and what a request to delete a workflow
does. What was deleted stays deleted, whatever happens afterwards.
-/
namespace Runbook

/-- Nothing in store tells of an execution. -/
structure Store.Forgets (v : Store) (id : String) : Prop where
  executions : ∀ r ∈ v.executions, r.id ≠ id
  logs : ∀ r ∈ v.logs, r.execution ≠ id
  markers : ∀ r ∈ v.markers, r.execution ≠ id

namespace Engine

variable {α : Type} {e : Engine} {gone : String → Prop}

theorem Tidy.forgets (tidy : e.Tidy gone) {id : String} (past : gone id) :
    e.storage.tables.Forgets id := by
  have absent := (tidy.rooted.gone id past).1
  constructor
  · rintro r there rfl
    exact absent (List.mem_map.2 ⟨_, List.mem_map.2 ⟨r, there, rfl⟩, rfl⟩)
  · rintro r there rfl
    exact absent (tidy.rooted.logs r there)
  · rintro r there rfl
    exact absent (tidy.rooted.markers r there)

theorem Tidy.weaken {fewer : String → Prop} (tidy : e.Tidy gone) (less : ∀ id, fewer id → gone id) :
    e.Tidy fewer :=
  ⟨tidy.guarded, { tidy.rooted with gone := fun id past => tidy.rooted.gone id (less id past) }⟩

/-- A new engine on a store without executions is tidy. -/
theorem Fresh.tidy (fresh : e.Fresh) (unlogged : e.storage.tables.logs = []) :
    e.Tidy fun _ => False := by
  refine ⟨fresh.guarded, ?_, List.nil_subset _, ?_, ?_, ?_, ?_, ?_, List.nil_subset _, ?_, ?_, ?_⟩ <;>
    simp [Storage.planned, Storage.enrolled, Storage.born, fresh.outages, fresh.rows, fresh.markers,
      fresh.live, unlogged]

/-! What is kept tidy. -/

theorem tidy_quiet {x : StorageM α} (quiet : Storage.Quiet x)
    (attends : ∀ v : Store, Storage.Preserves (v.Attends fun _ => False) x) :
    Keeps (Tidy gone) (liftM x : Run α) :=
  keeps_tidy (keeps_quiet quiet) (rooted_quiet quiet attends)

theorem tidy_moveTo (now : Float) : Keeps (Tidy gone) (moveTo now) := fun _ tidy =>
  ((guarded_moveTo tidy.guarded now).and (rooted_moveTo tidy.guarded tidy.rooted now)).imp
    (fun _ _ h => ⟨h.1, h.2⟩) fun _ _ h => h.1.elim

theorem tidy_restart (now : Float) : Keeps (Tidy gone) (restart now) := fun e tidy =>
  ((guarded_restart tidy.guarded now).and (habit_rooted.restart now e tidy.rooted)).imp
    (fun _ _ h => ⟨h.1, h.2⟩) fun _ _ h => h.1.elim

end Engine

namespace Service

open Engine (Tidy)

variable {α : Type} {gone : String → Prop} {s t : Service}

theorem ends_workflowExists {e : Engine} (tidy : e.Tidy gone) (w : String) :
    Ends (liftM (Storage.workflowExists w) : Run Bool) e
      (fun b t => b = (e.storage.tables.workflow? w).isSome ∧ t = e) never := by
  refine Engine.ends_storage.2
    ((Storage.ends_session tidy.rooted.steady_scene _ _ rfl).imp ?_ fun _ _ h => h)
  rintro _ _ ⟨rfl, rfl⟩
  exact ⟨rfl, rfl⟩

/-- A stored workflow is deleted: its live executions are cancelled, and its rows go. -/
theorem ends_deleteWorkflow {e : Engine} {w : String} (tidy : e.Tidy gone)
    (stored : (e.storage.tables.workflow? w).isSome) :
    Ends (deleteWorkflow w) e
      (fun a t => a = .ok (.record [("workflow_id", .text w),
          ("cancelled_executions", .int (e.liveRuns w).length),
          ("deleted_executions", .int (e.storage.tables.runs w).length)]) ∧ e.Without w t ∧
        t.Tidy fun id => gone id ∨ id ∈ e.storage.tables.runs w) never := by
  refine Ends.tryCatch_iff.2 (Ends.imp ?_ (fun _ _ h => h) fun _ _ (h : False) => h.elim)
  refine Ends.bind ((ends_workflowExists tidy w).imp ?_ fun _ _ h => h)
  rintro _ _ ⟨rfl, rfl⟩
  rw [stored]
  have removal := Ends.bind_iff.1 (Engine.ends_removal tidy stored)
  refine Ends.bind (removal.imp (fun cancelled t deleting => ?_) fun _ _ h => h)
  refine Ends.bind ((Ends.bind_iff.1 deleting).imp (fun deleted u done => ?_) fun _ _ h => h)
  obtain ⟨counts, without, tidy⟩ := Ends.pure_iff.1 done
  obtain ⟨rfl, rfl⟩ := Prod.mk.inj counts
  exact Ends.pure_iff.2 ⟨rfl, without, tidy⟩

/-- No request leaves the engine untidy. -/
theorem tidy_deleteWorkflow (w : String) : Keeps (Tidy gone) (deleteWorkflow w) := by
  intro e tidy
  by_cases stored : (e.storage.tables.workflow? w).isSome
  · refine (ends_deleteWorkflow tidy stored).imp (fun _ t done => ?_) fun _ _ h => h.elim
    exact done.2.2.weaken fun _ => .inl
  · refine Ends.tryCatch_iff.2 (Ends.bind ((ends_workflowExists tidy w).imp ?_ fun _ _ h => h.elim))
    rintro _ _ ⟨rfl, rfl⟩
    rw [Bool.eq_false_iff.2 stored]
    exact Ends.throw_iff.2 (Ends.pure_iff.2 tidy)

variable {s : Service} {w : String} {r : Request}

theorem upholds_tidy : Upholds (Tidy gone) where
  query _ _ _ := Engine.tidy_quiet (.query _ _ _) fun _ => .query _ _ _
  save {_ w} _ := Engine.tidy_quiet (Storage.quiet_saveWorkflow w) fun v => Storage.attends_saveWorkflow v w
  update {_ w} _ id :=
    Engine.tidy_quiet (Storage.quiet_updateWorkflow id w) fun v => Storage.attends_updateWorkflow v id w
  clone id name :=
    Engine.tidy_quiet (Storage.quiet_cloneWorkflow id name) fun v => Storage.attends_cloneWorkflow v id name
  setStatus id status := Engine.tidy_quiet (Storage.quiet_setWorkflowStatus id status)
    fun v => Storage.attends_setWorkflowStatus v id status
  delete := tidy_deleteWorkflow
  execute w payload module item :=
    Engine.keeps_tidy (Engine.keeps_execute w payload module item) (Engine.rooted_execute w payload module item)
  trigger module event payload item := Engine.keeps_tidy (Engine.keeps_trigger module event payload item)
    (Engine.rooted_trigger module event payload item)
  cancel := Engine.tidy_cancel
  moveTo := Engine.tidy_moveTo
  restart := Engine.tidy_restart
  resume := Engine.keeps_tidy (fun _ guarded => Engine.guarded_resume guarded) Engine.rooted_resume

/-- A service that began without executions keeps its store whole, whatever happens. And when it is
asked to delete a workflow that is stored, it does so: the workflow, its executions, their log and
their markers go, those of its executions that are live are cancelled, everything else stays as it
was, and nothing is ever written of these executions again. -/
theorem deletes_cleanly (fresh : s.engine.Fresh) (unlogged : s.engine.storage.tables.logs = [])
    (before : List Happening) :
    (s.meetAll before).engine.storage.tables.Whole ∧
      ∀ r w, Route.find r.method r.path = .found .deleteWorkflow [w] →
        ((s.meetAll before).engine.storage.tables.workflow? w).isSome →
        let e := (s.meetAll before).engine
        let answered := (s.meetAll before).respond r
        answered.1 = .ok (.record [("workflow_id", .text w),
            ("cancelled_executions", .int (e.liveRuns w).length),
            ("deleted_executions", .int (e.storage.tables.runs w).length)]) ∧
          e.Without w answered.2.engine ∧
          ∀ later, ∀ id ∈ e.storage.tables.runs w,
            (answered.2.meetAll later).engine.storage.tables.Forgets id := by
  have tidy := upholds_tidy.meetAll before (fresh.tidy unlogged)
  refine ⟨tidy.rooted.whole, fun r w found stored => ?_⟩
  dsimp only
  generalize s.meetAll before = t at tidy stored ⊢
  obtain ⟨_, u, run, rfl, without, tidied⟩ := (ends_deleteWorkflow tidy stored).exists_ok
  rw [respond_eq found (by decide) run]
  exact ⟨rfl, without, fun later id past => (upholds_tidy.meetAll later tidied).forgets (.inr past)⟩

/-- A service with a workflow that waits twice, and with an execution of it that waits. -/
def waiting : List Happening :=
  [.request { method := "POST", path := "/api/v1/workflows", body := .data Engine.writtenPair },
    .request { method := "POST", path := "/api/v1/workflows/wf/execute", body := .data (.record []) }]

/-- The request to delete the workflow. -/
def deletion : Request := { method := "DELETE", path := "/api/v1/workflows/wf" }

set_option maxRecDepth 100000 in
/-- The execution is cancelled and deleted, and neither its delays nor a restart bring it back. -/
theorem deletes_cleanly_waiting :
    let s : Service := { settings := {}, engine := Engine.bare }
    Route.find deletion.method deletion.path = .found .deleteWorkflow ["wf"] ∧
      ((s.meetAll waiting).engine.storage.tables.workflow? "wf").isSome ∧
      ((s.meetAll waiting).respond deletion).1 = .ok (.record [("workflow_id", .text "wf"),
        ("cancelled_executions", .int 1), ("deleted_executions", .int 1)]) ∧
      (((s.meetAll waiting).respond deletion).2.meetAll
        [.advance 60.0, .restart 1700000100.0, .resume]).engine.storage.tables.Forgets "id-1" := by
  intro s
  have found : Route.find deletion.method deletion.path = .found .deleteWorkflow ["wf"] := by
    rfl
  have stored : ((s.meetAll waiting).engine.storage.tables.workflow? "wf").isSome := by decide +kernel
  have runs : (s.meetAll waiting).engine.storage.tables.runs "wf" = ["id-1"] := by decide +kernel
  have live : (s.meetAll waiting).engine.liveRuns "wf" = ["id-1"] := by decide +kernel
  have fresh : s.engine.Fresh := Engine.fresh_bare
  obtain ⟨-, deletes⟩ := deletes_cleanly fresh rfl waiting
  obtain ⟨answers, -, forgets⟩ := deletes deletion "wf" found stored
  rw [runs, live] at answers
  exact ⟨found, stored, answers, forgets _ "id-1" (runs ▸ .head _)⟩

end Service

end Runbook
