import Runbook.Proofs.Course.Deeds

/-!
Histories. An engine is asked for operations one after the other; whether one answers or fails, the
next one finds the engine as it was left. Within one life the work that is asked of an engine
consists of deeds.
-/
namespace Runbook

/-- Work within one life of an engine: definitions are stored, executions are started and cancelled,
and the clock moves. -/
def Operation.isWork : Operation → Bool
  | .save _ | .update _ _ | .setStatus _ _ | .execute _ _ _ _ | .trigger _ _ _ _ | .cancel _
  | .cancelAll _ | .advance _ => true
  | _ => false

namespace Storage

theorem logger_ne : logger ≠ "deskflow.execution" := by decide

/-- Putting a workflow, whatever of it is read before, leaves the executions and the markers. -/
theorem kept_put {x : Except Store.Refusal β} {row : β → Store.WorkflowRow} {s t : Store} {a : Unit}
    (done : (x >>= fun b => pure ((), s.putWorkflow (row b))) = .ok (a, t)) :
    t.executions = s.executions ∧ t.markers = s.markers := by
  obtain ⟨b, -, done⟩ := bind_eq_ok done
  cases done
  exact ⟨rfl, rfl⟩

theorem quiet_saveWorkflow (w : Workflow) : Quiet (saveWorkflow w) := by
  have store (id : String) : Quiet (do
      session "save workflow" "workflows" fun s => do
        let version ← Store.versionCell (.int w.version)
        return ((), s.putWorkflow (.ofWorkflow id w version))
      note .info logger ("Saved workflow " ++ id ++ " (" ++ w.name ++ ")")
      return id) :=
    .bind (.session fun _ _ _ done => kept_put done) fun _ => .bind (.note logger_ne) fun _ => .pure _
  unfold saveWorkflow
  dsimp only
  split
  · split
    · exact .bind .freshId store
    · exact .bind (.pure _) store
  · exact .bind .freshId store

theorem quiet_cloneWorkflow (id : String) (name : Option String) : Quiet (cloneWorkflow id name) :=
  .bind (quiet_loadWorkflow id) fun _ => quiet_saveWorkflow _

theorem quiet_saveRaw (row : Dict) : Quiet (saveRaw row) := by
  unfold saveRaw
  dsimp only
  split
  · exact .bind (.pure _) fun _ => .bind (.session fun _ _ _ done => kept_put done) fun _ => .pure _
  · exact .bind (.bind .freshId fun _ => .pure _) fun _ =>
      .bind (.session fun _ _ _ done => kept_put done) fun _ => .pure _

theorem quiet_updateWorkflow (id : String) (w : Workflow) : Quiet (updateWorkflow id w) := by
  refine .bind (.session fun s a t done => ?_) fun _ => .bind (.note logger_ne) fun _ => .pure _
  split at done
  · cases done
  · obtain ⟨version, -, done⟩ := bind_eq_ok done
    obtain ⟨cell, -, done⟩ := bind_eq_ok done
    cases done
    exact ⟨rfl, rfl⟩

theorem quiet_setWorkflowStatus (id : String) (status : Value) :
    Quiet (setWorkflowStatus id status) := by
  refine .bind (.session fun s a t done => ?_) fun _ => .note logger_ne
  split at done
  · cases done
  · split at done
    · split at done
      · cases done
        exact ⟨rfl, rfl⟩
      · cases done
    · cases done

end Storage

namespace Engine

/-- The engine after an operation, whatever came of it. -/
def after (e : Engine) (op : Operation) : Engine :=
  match carryOut op e with
  | .ok _ e => e
  | .error _ e => e

theorem after_of_ends {e : Engine} {op : Operation} {p : Engine → Prop}
    (ends : Ends (carryOut op) e (fun _ t => p t) fun _ t => p t) : p (e.after op) := by
  unfold Ends at ends
  unfold after
  cases run : carryOut op e with
  | ok a t => rw [run] at ends; exact ends
  | error f t => rw [run] at ends; exact ends

/-- The engine after operations. -/
def afterAll (e : Engine) (ops : List Operation) : Engine := ops.foldl after e

theorem afterAll_append (e : Engine) (ops ops' : List Operation) :
    e.afterAll (ops ++ ops') = (e.afterAll ops).afterAll ops' :=
  List.foldl_append

/-- An engine that knows no execution yet, on a storage that holds none and does not fail. -/
structure Fresh (e : Engine) : Prop where
  executions : e.executions = []
  live : e.live = []
  timers : e.clock.timers = []
  accepting : e.accepting = true
  rows : e.storage.tables.executions = []
  markers : e.storage.tables.markers = []
  outages : e.storage.outages = []
  spoken : e.storage.journal.spoken = []

/-- An engine on an empty storage. -/
def bare : Engine := { registry := .standard (.int 30) }

theorem fresh_bare : bare.Fresh := by
  constructor <;> rfl

/-- An execution of a definition, and some time for its delays. -/
def onceThrough (definition : Value) (seconds : Float) : List Operation :=
  [.save definition, .execute "wf" .null (.text "tickets") .null, .advance seconds]

theorem isWork_onceThrough (definition : Value) (seconds : Float) :
    ∀ op ∈ onceThrough definition seconds, op.isWork = true := by
  simp [onceThrough, Operation.isWork]

variable {v : Scene}

theorem deeds_carryOut (op : Operation) (work : op.isWork = true) (proper : v.Proper)
    (accepting : v.accepting = true) : Plays.Deeds (carryOut op) v := by
  cases op with
  | save definition =>
    exact deeds_bind (deeds_ofExcept _) fun w u before => deeds_bind
      (deeds_quiet (Storage.quiet_saveWorkflow w) (before.keeps proper).proper) fun _ _ _ => deeds_pure _
  | update id definition =>
    exact deeds_bind (deeds_ofExcept _) fun w u before =>
      deeds_quiet (Storage.quiet_updateWorkflow id w) (before.keeps proper).proper
  | setStatus id status =>
    exact deeds_bind (deeds_quiet (Storage.quiet_setWorkflowStatus id status) proper)
      fun _ _ _ => deeds_pure _
  | execute workflow payload module item =>
    exact deeds_bind (deeds_execute workflow payload module item proper) fun _ _ _ => deeds_pure _
  | trigger module event payload item =>
    exact deeds_bind (deeds_trigger module event payload item proper) fun _ _ _ => deeds_pure _
  | cancel id => exact deeds_bind (deeds_cancel id proper) fun _ _ _ => deeds_pure _
  | cancelAll workflow => exact deeds_bind (deeds_cancelAll workflow proper) fun _ _ _ => deeds_pure _
  | advance seconds =>
    exact deeds_bind (deeds_advance seconds proper accepting) fun _ _ _ => deeds_pure _
  | _ => cases work

theorem deeds_after (e : Engine) (op : Operation) (work : op.isWork = true) (proper : e.scene.Proper)
    (accepting : e.accepting = true) : Deeds e.scene (e.after op).scene :=
  after_of_ends (deeds_carryOut op work proper accepting e rfl).2

theorem deeds_afterAll (ops : List Operation) (work : ∀ op ∈ ops, op.isWork = true) (e : Engine)
    (proper : e.scene.Proper) (accepting : e.accepting = true) :
    Deeds e.scene (e.afterAll ops).scene := by
  induction ops generalizing e with
  | nil => exact .refl
  | cons op rest ih =>
    have first := deeds_after e op (work op (.head _)) proper accepting
    have kept := first.keeps proper
    exact first.trans (ih (fun op later => work op (.tail _ later)) _ kept.proper
      (kept.accepting.trans accepting))

theorem Fresh.proper {e : Engine} (fresh : e.Fresh) : e.scene.Proper where
  steady := by simp [scene, Storage.part, fresh.outages]
  named id x known := by simp [scene, execution?, fresh.executions] at known
  stored id x known := by simp [scene, execution?, fresh.executions] at known
  fresh n _ := by
    simp [scene, execution?, fresh.executions, Storage.part, Store.execution?, fresh.rows]
  timed t there := by simp [scene, fresh.timers] at there

theorem Fresh.accounted {e : Engine} (fresh : e.Fresh) : e.scene.Accounted [] [] where
  stands id := by
    refine .absent ⟨?_, ?_, ⟨?_, rfl⟩, ?_, rfl, ?_⟩ <;>
      simp [Scene.aspect, scene, execution?, fresh.executions, Storage.part, Store.execution?,
        fresh.rows, fresh.live, fresh.timers, fresh.markers]
  timers := by simp [scene, fresh.timers]
  numbered t there := by simp [scene, fresh.timers] at there
  markers := by simp [scene, Storage.part, fresh.markers]

end Engine

end Runbook
