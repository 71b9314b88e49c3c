import Runbook.Proofs.Course.Beside
import Runbook.Proofs.Course.Removal
import Runbook.Proofs.Snapshot

/-!
Restarts of calm scenes. No operation that is done on behalf of executions changes the stored workflows, so
that all that waits can be taken up again.
-/
namespace Runbook

/-! The stored workflows stay. -/

namespace Storage

variable {α : Type} {rows : List Store.WorkflowRow}

theorem stocked_session {work : Store → Except Store.Refusal (α × Store)}
    (apart : ∀ u a w, work u = .ok (a, w) → w.workflows = u.workflows) (operation table : String) :
    Preserves (·.workflows = rows) (session operation table work) :=
  .session (fun u a w kept done => (apart u a w done).trans kept) operation table

theorem stocked_createExecution (workflow tenant data module item : Value) :
    Preserves (·.workflows = rows) (createExecution workflow tenant data module item) := by
  refine .retrying (.bind .freshId fun id => .bind (stocked_session (fun u a t done => ?_) _ _)
    fun _ => .pure _) _
  obtain ⟨row, -, done⟩ := bind_eq_ok done
  cases done
  rfl

/-- No errand changes the stored workflows. -/
theorem Errand.stocked {x : StorageM α} (errand : Errand x) : Preserves (·.workflows = rows) x := by
  cases errand with
  | loadWorkflow id => exact .loadWorkflow id
  | activeWorkflows module => exact .query _ _ _
  | loadExecution id => exact .query _ _ _
  | listMarkers => exact .query _ _ _
  | setStatus id status error time => exact .setExecutionStatus (fun _ _ _ _ kept => kept) status error time
  | saveMarker id node resumeAt context =>
    refine .retrying (stocked_session (fun u a w done => ?_) _ _) _
    cases done
    rfl
  | clearMarker id =>
    refine stocked_session (fun u a w done => ?_) _ _
    split at done <;> cases done
    rfl
  | clearMarkers id => exact .clearMarkers fun _ kept => kept
  | createTicket t =>
    refine .bind .freshId fun id => .bind (stocked_session (fun u a w done => ?_) _ _) fun _ =>
      .bind (.note _ _ _) fun _ => .pure _
    obtain ⟨row, -, done⟩ := bind_eq_ok done
    cases done
    rfl
  | updateTicket id updates =>
    refine .bind (stocked_session (fun u a w done => ?_) _ _) fun _ => ?_
    · split at done
      · cases done
      · obtain ⟨row, -, done⟩ := bind_eq_ok done
        cases done
        rfl
    · split
      · exact .note _ _ _
      · exact .throw _
  | assignTicket id assignee =>
    refine .bind (stocked_session (fun u a w done => ?_) _ _) fun _ => .note _ _ _
    split at done
    · cases done
    · obtain ⟨row, -, done⟩ := bind_eq_ok done
      cases done
      rfl
  | notify a =>
    refine .bind (.openSession _ _) fun _ => .bind (.freshIds _) fun ids => .bind
      (.transact (fun u b w kept done => ?_) _ _) fun _ => .bind (.note _ _ _) fun _ => .pure _
    obtain ⟨rows, -, done⟩ := bind_eq_ok done
    cases done
    exact kept
  | createArticle a =>
    refine .bind .freshId fun id => .bind (stocked_session (fun u b w done => ?_) _ _) fun _ =>
      .bind (.note _ _ _) fun _ => .pure _
    obtain ⟨row, -, done⟩ := bind_eq_ok done
    cases done
    rfl

end Storage

namespace Engine

/-- An engine whose storage holds certain workflows. -/
def Stocks (rows : List Store.WorkflowRow) (e : Engine) : Prop := e.storage.tables.workflows = rows

theorem keeps_stocks_note {rows : List Store.WorkflowRow} {level : Level} {logger message : String}
    {context : Dict} : Keeps (Stocks rows) (note level logger message context) :=
  tables_modify (p := (·.workflows = rows)) fun _ => rfl

theorem bond_stocks (rows : List Store.WorkflowRow) :
    Bond (fun _ => True) fun e d => d = e ∧ Stocks rows e where
  executions related := by rw [related.1]
  live related := by rw [related.1]
  clock related := by rw [related.1]
  accepting related := by rw [related.1]
  loopLimit related := by rw [related.1]
  registry related := by rw [related.1]
  network related := by rw [related.1]
  starts _ _ _ := trivial
  change {f} apart _ {e d} related := by
    obtain ⟨rfl, stocks⟩ := related
    refine ⟨rfl, ?_⟩
    have whole : f d = { f d with storage := d.storage, storesLog := d.storesLog } := apart d d.storage d.storesLog
    unfold Stocks at stocks ⊢
    rw [whole]
    exact stocks
  bind _ {e d u v} related related' := by
    obtain ⟨rfl, -⟩ := related
    obtain ⟨rfl, stocks⟩ := related'
    exact ⟨rfl, stocks⟩
  note _ := keeps_stocks_note.twins
  tell id tenant workflow entry := by
    refine Keeps.twins (.bind keeps_stocks_note fun _ => .get fun _ => .ite (fun _ => ?_) fun _ => .pure _)
    exact Keeps.onStorageError (tables_lift (p := (·.workflows = rows))
      (.appendLog (fun _ _ _ kept => kept) _ _)) fun _ => keeps_stocks_note
  errand errand := Keeps.twins (tables_lift (p := (·.workflows = rows)) errand.stocked)

theorem stocks_creates {rows : List Store.WorkflowRow} (workflow tenant data module item : Value) :
    Twins (fun e d => d = e ∧ Stocks rows e)
      (liftM (Storage.createExecution workflow tenant data module item) : Run String)
      (liftM (Storage.createExecution workflow tenant data module item) : Run String) :=
  Keeps.twins (tables_lift (p := (·.workflows = rows))
    (Storage.stocked_createExecution workflow tenant data module item))

end Engine

end Runbook
