import Runbook.Proofs.Course.Lane
import Runbook.Proofs.Course.Routing
import Runbook.Proofs.Course.Tenancy
import Runbook.Proofs.Reload
import Runbook.Proofs.Retry
import Runbook.Proofs.Service.Deletion

/-!
Requests that are refused. Every endpoint writes in one session or starts executions, and nothing fails after
that: a request that does not succeed leaves the tables and the executions as they were. There is one exception,
a copy under a name of blanks, which is written first and cannot be read afterwards.
-/
namespace Runbook

namespace Workflow

/-- The draft that a copy of a workflow is stored as. -/
def draft (w : Workflow) (name : String) : Workflow :=
  { w with id := none, name, status := .draft, version := 1 }

/-- The name of a copy. -/
def draftName (w : Workflow) (name : Option String) : String :=
  match name with
  | some n => if n = "" then w.name ++ " (Copy)" else n
  | none => w.name ++ " (Copy)"

theorem Checked.draft {w : Workflow} (checked : w.Checked) (name : String) : (w.draft name).Checked :=
  ⟨checked.nodes, checked.unique, checked.vars⟩

/-- The name of a copy is blank only when a blank one is given. -/
theorem given_of_blank {w : Workflow} {name : Option String} (blank : Text.trim (w.draftName name) = "") :
    ∃ n, name = some n ∧ n ≠ "" ∧ Text.trim n = "" ∧ w.draftName name = n := by
  have told : Text.trim (w.name ++ " (Copy)") ≠ "" := fun none => by
    have paren := (Text.trim_eq_empty_iff _).1 none '(' (by simp)
    revert paren
    decide
  cases name with
  | none => exact absurd blank told
  | some n =>
    by_cases empty : n = ""
    · rw [draftName, if_pos empty] at blank
      exact absurd blank told
    · have own : w.draftName (some n) = n := if_neg empty
      exact ⟨n, rfl, empty, own ▸ blank, own⟩

end Workflow

namespace Store

/-- A row that a definition was written into, under any name. -/
def WorkflowRow.Written (r : WorkflowRow) : Prop :=
  ∃ (w : Workflow) (version : Int), w.Checked ∧ r = .ofWorkflow r.id w (.int version)

/-- All workflows in store were written from definitions. -/
def Written (v : Store) : Prop := ∀ r ∈ v.workflows, r.Written

namespace WorkflowRow

theorem written_ofWorkflow {w : Workflow} (checked : w.Checked) (id : String) (version : Int) :
    (ofWorkflow id w (.int version)).Written := ⟨w, version, checked, rfl⟩

namespace Written

variable {r : WorkflowRow} (written : r.Written)

include written

/-- No row that was written breaks its reading off. -/
theorem reads : r.reads = true := by
  obtain ⟨w, version, -, same⟩ := written
  rw [reads_iff, ← List.findSome?_eq_none_iff, same]
  exact w.breaks?_row r.id _

theorem setStatus (status : WorkflowStatus) : { r with status := status.name }.Written := by
  obtain ⟨w, version, checked, same⟩ := written
  refine ⟨{ w with status }, version, ⟨checked.nodes, checked.unique, checked.vars⟩, ?_⟩
  rw [same]
  rfl

theorem version : ∃ n, r.version = .int n := by
  obtain ⟨w, version, -, same⟩ := written
  exact ⟨version, by rw [same]; rfl⟩

/-- What was read of such a row is read again from a copy under a name that is not blank. -/
theorem draft {w : Workflow} (parsed : Workflow.parse r.record = .ok w) {name : String}
    (filled : Text.trim name ≠ "") (id : String) :
    ∃ u, Workflow.parse (ofWorkflow id (w.draft name) (.int 1)).record = .ok u := by
  have checked := (Workflow.checked_of_parse parsed).draft name
  obtain ⟨v, version, old, same⟩ := written
  rw [same, Workflow.parse_row_iff old] at parsed
  have nodes := Workflow.nodesAgain?_of_again? parsed.2
  have again : ((w.draft name).again? id 1).isSome := by
    change (w.stored.nodesAgain?.map _).isSome
    rw [nodes]
    rfl
  obtain ⟨u, again⟩ := Option.isSome_iff_exists.1 again
  exact ⟨u, (Workflow.parse_row_iff checked id 1).2 ⟨filled, again⟩⟩

end Written

/-- A row under a blank name is refused. -/
theorem refused_of_blank {w : Workflow} (checked : w.Checked) (blank : Text.trim w.name = "") (id : String)
    (version : Int) : ∃ issues, issues ≠ [] ∧
      Workflow.parse (ofWorkflow id w (.int version)).record = .error (.program (.malformed (.text id) issues)) := by
  have cases := Workflow.parse_cases (ofWorkflow id w (.int version)).record
  rw [w.breaks?_row] at cases
  obtain ⟨u, parsed⟩ | ⟨issues, told, -, parsed⟩ := cases
  · exact absurd blank ((Workflow.parse_row_iff checked id version).1 parsed).1
  · exact ⟨issues, told, by rw [parsed]; rfl⟩

end WorkflowRow

theorem nextVersion_int (n : Int) : ∃ m, nextVersion (.int n) = .ok (.int m) := by
  unfold nextVersion Value.orElse
  cases (Value.int n).isTruthy
  · exact ⟨2, rfl⟩
  · exact ⟨n + 1, rfl⟩

theorem versionCell_int {n : Int} {v : Value} (cell : versionCell (.int n) = .ok v) : v = .int n := by
  unfold versionCell wholeCell at cell
  by_cases fit : fits n = true
  · simpa [fit, bind, Except.bind, Value.isNull, eq_comm] using cell
  · simp [fit, bind, Except.bind] at cell

theorem Written.putWorkflow {v : Store} (written : v.Written) {r : WorkflowRow} (row : r.Written) :
    (v.putWorkflow r).Written := by
  intro q there
  unfold Store.putWorkflow at there
  split at there
  · obtain ⟨old, listed, rfl⟩ := List.mem_map.1 there
    split
    · exact row
    · exact written old listed
  · rcases List.mem_append.1 there with old | new
    · exact written q old
    · exact List.mem_singleton.1 new ▸ row

theorem Written.updateWorkflow {v : Store} (written : v.Written) {f : WorkflowRow → WorkflowRow} (id : String)
    (each : ∀ r ∈ v.workflows, (f r).Written) : (v.updateWorkflow id f).Written := by
  intro q there
  obtain ⟨old, listed, rfl⟩ := List.mem_map.1 there
  split
  · exact each old listed
  · exact written old listed

end Store

namespace Storage

open Store (Written)

variable {α β : Type}

/-! Operations that are whole. -/

/-- What comes first may do anything but write. -/
theorem whole_after {x : StorageM α} {k : α → StorageM β} (first : ∀ v, Preserves (· = v) x)
    (next : ∀ a s, Whole (k a) s fun _ _ => True) (s : Storage) : Whole (x >>= k) s fun _ _ => True :=
  Ends.bind ((first s.tables s rfl).imp (fun a t same => (next a t).imp (fun _ _ h => h)
    fun _ _ h => h.trans same) fun _ _ h => h)

/-- What comes last may do anything but fail. -/
theorem whole_before {x : StorageM α} {k : α → StorageM β} {done : α → Store → Prop} {s : Storage}
    (first : Whole x s done) (next : ∀ a t, Ends (k a) t (fun _ _ => True) never) :
    Whole (x >>= k) s fun _ _ => True :=
  first.bind fun a t _ => (next a t).imp (fun _ _ h => h) fun _ _ h => h.elim

theorem whole_saveWorkflow (w : Workflow) (s : Storage) : Whole (saveWorkflow w) s fun _ _ => True := by
  have store (id : String) (s : Storage) : Whole (do
      session "save workflow" "workflows" fun s => do
        let version ← Store.versionCell (.int w.version)
        return ((), s.putWorkflow (.ofWorkflow id w version))
      note .info logger ("Saved workflow " ++ id ++ " (" ++ w.name ++ ")")
      return id) s fun _ _ => True := whole_before (whole_session _ _ _) fun _ _ => trivial
  unfold saveWorkflow
  dsimp only
  split
  · split
    · exact whole_after (fun _ => .freshId) store s
    · exact whole_after (fun _ => .pure _) store s
  · exact whole_after (fun _ => .freshId) store s

theorem whole_setWorkflowStatus (id : String) (status : Value) (s : Storage) :
    Whole (setWorkflowStatus id status) s fun _ _ => True :=
  whole_before (whole_session _ _ _) fun _ _ => trivial

/-- A copy is made of what is loaded, or nothing is written. -/
theorem ends_cloneWorkflow {s : Storage} (steady : s.part.faulty = false) (id : String) (name : Option String) :
    Ends (cloneWorkflow id name) s (fun copy t => copy = idText s.nextId ∧ t.part.faulty = false ∧
        ∃ row ∈ s.tables.workflows, ∃ w, Workflow.parse row.record = .ok w ∧ t.tables =
          s.tables.putWorkflow (.ofWorkflow copy (w.draft (w.draftName name)) (.int 1)))
      fun _ t => t.tables = s.tables := by
  cases found : s.tables.workflow? id with
  | none =>
    refine Ends.bind (Ends.bind ((whole_session _ _ _).imp (fun _ _ done => ?_) fun _ _ h => h))
    dsimp only at done
    rw [found] at done
    cases done
  | some row =>
    refine Ends.bind (Ends.bind ((ends_query_ok (a := row) steady _ _ (by rw [found])).imp ?_ fun _ _ h => h.elim))
    rintro _ _ ⟨rfl, rfl⟩
    split
    · rename_i w parsed
      refine Ends.pure_iff.2 ((ends_saveWorkflow (w := w.draft (w.draftName name)) steady rfl).imp
        (fun copy t h => ?_) fun _ _ h => h.elim)
      exact ⟨h.1, h.2.1, _, List.mem_of_find?_eq_some found, w, parsed, h.2.2⟩
    · exact Ends.throw_iff.2 rfl

/-! What is written stays written. -/

theorem written_saveWorkflow {w : Workflow} (checked : w.Checked) : Preserves Written (saveWorkflow w) := by
  have store (id : String) : Preserves Written (do
      session "save workflow" "workflows" fun s => do
        let version ← Store.versionCell (.int w.version)
        return ((), s.putWorkflow (.ofWorkflow id w version))
      note .info logger ("Saved workflow " ++ id ++ " (" ++ w.name ++ ")")
      return id) := by
    refine .bind (.session (fun v a t written done => ?_) _ _) fun _ => .bind (.note _ _ _) fun _ => .pure _
    obtain ⟨version, cell, done⟩ := bind_eq_ok done
    cases done
    cases Store.versionCell_int cell
    exact written.putWorkflow (Store.WorkflowRow.written_ofWorkflow checked id _)
  unfold saveWorkflow
  dsimp only
  split
  · split
    · exact .bind .freshId store
    · exact .bind (.pure _) store
  · exact .bind .freshId store

/-- A workflow that is replaced gets a whole number for its version. -/
theorem written_updateWorkflow {w : Workflow} (checked : w.Checked) (id : String) {s : Storage}
    (written : s.tables.Written) :
    Ends (updateWorkflow id w) s (fun v t => (∃ n, v = .int n) ∧ t.tables.Written)
      fun _ t => t.tables = s.tables := by
  refine Ends.bind ((whole_session _ _ _).imp ?_ fun _ _ h => h)
  intro v t done
  split at done
  · cases done
  · rename_i row found
    obtain ⟨next, bumped, done⟩ := bind_eq_ok done
    obtain ⟨cell, kept, done⟩ := bind_eq_ok done
    obtain ⟨n, whole⟩ := (written row (List.mem_of_find?_eq_some found)).version
    obtain ⟨m, succ⟩ := Store.nextVersion_int n
    rw [whole, succ] at bumped
    cases bumped
    cases Store.versionCell_int kept
    obtain ⟨rfl, tables⟩ := Prod.mk.inj (Except.ok.inj done)
    refine Ends.bind (Ends.modify_iff.2 (Ends.pure_iff.2 ⟨⟨m, rfl⟩, ?_⟩))
    change t.tables.Written
    rw [← tables]
    exact written.updateWorkflow id fun _ _ => Store.WorkflowRow.written_ofWorkflow checked id m

theorem written_setWorkflowStatus (id : String) (status : Value) :
    Preserves Written (setWorkflowStatus id status) := by
  refine .bind (.session (fun v a t written done => ?_) _ _) fun _ => .note _ _ _
  split at done
  · cases done
  · split at done
    · split at done
      · rename_i name known
        obtain ⟨status, named⟩ := Option.isSome_iff_exists.1 known
        have own : status.name = name := by simpa using List.find?_some named
        subst own
        cases done
        exact written.updateWorkflow id fun r there => (written r there).setStatus status
      · cases done
    · cases done

theorem written_cloneWorkflow (id : String) (name : Option String) : Preserves Written (cloneWorkflow id name) := by
  intro s written
  refine Ends.bind (((holds_loadWorkflow id s).and (Preserves.loadWorkflow id s written)).imp ?_ fun _ _ h => h.2)
  rintro w t ⟨⟨⟨row, -, parsed⟩, -⟩, written⟩
  exact written_saveWorkflow ((Workflow.checked_of_parse parsed).draft (w.draftName name)) t written

theorem written_deleteWorkflow (id : String) : Preserves Written (deleteWorkflow id) := by
  refine .bind (.session (fun v a t written done => ?_) _ _) fun _ => .bind (.note _ _ _) fun _ => .pure _
  split at done
  · cases done
    exact fun r there => written r (List.mem_filter.1 there).1
  · cases done

end Storage

namespace Engine

variable {α : Type} {e t u : Engine} {gone : String → Prop}

/-- Nothing is touched, and what was live still is. -/
structure Unchanged (e t : Engine) : Prop extends Untouched e t where
  live : t.live = e.live

theorem Unchanged.refl (e : Engine) : e.Unchanged e := ⟨⟨rfl, rfl, rfl⟩, rfl⟩

theorem Unchanged.trans (first : e.Unchanged t) (second : t.Unchanged u) : e.Unchanged u :=
  ⟨⟨second.tables.trans first.tables, second.executions.trans first.executions,
    second.network.trans first.network⟩, second.live.trans first.live⟩

theorem Unchanged.of_storage {s : Storage} (same : s.tables = e.storage.tables) :
    e.Unchanged { e with storage := s } := ⟨⟨same, rfl, rfl⟩, rfl⟩

theorem Tidy.mild (tidy : e.Tidy gone) : e.storage.Mild :=
  Storage.mild_iff.2 fun p planned => by simp [tidy.rooted.steady] at planned

theorem unchanged_lift {x : StorageM α} (silent : ∀ v, Storage.Preserves (· = v) x) :
    Keeps e.Unchanged (liftM x : Run α) := fun t kept =>
  ends_storage.2 ((silent _ t.storage rfl).imp (fun _ _ same => kept.trans (.of_storage same))
    fun _ _ same => kept.trans (.of_storage same))

/-- An execution is started, or nothing is left of the attempt. -/
theorem ends_startExecution (mild : e.storage.Mild) (w : Workflow) (payload module item : Value) :
    Ends (startExecution launch w payload module item) e (fun _ _ => True) fun _ t => e.Unchanged t := by
  rw [startExecution_eq]
  refine Ends.bind (ends_ofExcept.2 ⟨fun data _ => ?_, fun _ _ => .refl e⟩)
  refine Ends.bind (ends_storage.2 (((Storage.bears_createExecution ..).and
    (Storage.whole_createExecution _ _ _ _ _)).imp ?_ fun _ _ h => .of_storage h.2))
  rintro id s ⟨⟨workflow, -, bears⟩, -⟩
  have stored : ∃ w, (id, w) ∈ s.born := ⟨workflow, by rw [bears.born]; simp⟩
  exact (ends_setOff (e := { e with storage := s }) (bears.mild mild) stored launch w _ _ _).imp
    (fun _ _ _ => trivial) fun _ _ h => h.elim

theorem ends_execute (mild : e.storage.Mild) (w : String) (payload module item : Value) :
    Ends (execute w payload module item) e (fun _ _ => True) fun _ t => e.Unchanged t := by
  have loads := ends_storage.1 (unchanged_lift (fun _ => .loadWorkflow w) e (.refl e))
  have still := (Storage.quiet_loadWorkflow w).bears (s := e.storage)
  refine Ends.bind (ends_storage.2 ((loads.and still).imp ?_ fun _ _ h => h.1))
  rintro w s ⟨unchanged, bears⟩
  exact (ends_startExecution (e := { e with storage := s }) (bears.mild mild) w _ _ _).imp (fun _ _ h => h)
    fun _ _ h => unchanged.trans h

/-- Where every row can be read, an event never fails. -/
theorem ends_trigger_reads (mild : e.storage.Mild) (reads : ∀ r ∈ e.storage.tables.workflows, r.reads = true)
    (module event : String) (payload : Dict) (item : Option String) :
    Ends (trigger module (some event) (.dict payload) (.ofText? item)) e (fun _ _ => True) never := by
  refine Ends.bind (Ends.tryCatch_iff.2 (Ends.map_iff.2 ((ends_activeWorkflows mild).imp ?_ ?_)))
  · rintro _ t ⟨-, rfl, yields⟩
    have each : ∀ row ∈ e.storage.tables.active module, row.reads = true := fun row there =>
      reads row (List.mem_filter.1 there).1
    have offers : Ends ((e.storage.tables.active module).mapM (offer event (some payload) module item)) t
        (fun _ _ => True) never :=
      (ends_offers (yields.mild mild) each).imp (fun _ _ _ => trivial) fun _ _ h => h
    exact Ends.bind (offers.imp (fun _ _ h => h) fun _ _ h => h)
  · rintro f t ⟨-, ⟨p, rfl, -⟩, -⟩
    trivial

/-- Of what is in store, anything can be cancelled. -/
theorem ends_cancel (tidy : e.Tidy gone) (id : String) : Ends (cancel id) e (fun _ _ => True) never := by
  by_cases live : id ∈ e.live
  · obtain ⟨⟨_, w⟩, born, rfl⟩ := List.mem_map.1 (tidy.rooted.enrolled_of_live live)
    exact (cancels_cancel tidy live born).imp (fun _ _ _ => trivial) fun _ _ h => h
  · refine Ends.bind (Ends.get_iff.2 ?_)
    rw [show e.liveExecution? id = none from if_neg (by simpa using live)]
    trivial

end Engine

namespace Service

open Engine (Tidy Unchanged)

variable {α : Type} {e : Engine} {gone : String → Prop} {s : Service}

/-- What leaves the stored workflows alone leaves them written. -/
theorem written_of_stocks {x : Run α} (stocks : ∀ rows, Keeps (Engine.Stocks rows) x) :
    Keeps (fun e => e.storage.tables.Written) x := by
  intro e written
  have still {t : Engine} (same : Engine.Stocks e.storage.tables.workflows t) : t.storage.tables.Written :=
    fun r there => written r (same ▸ there)
  exact (stocks _ e rfl).imp (fun _ _ same => still same) fun _ _ same => still same

/-- Whatever happens to a service, its workflows stay definitions that were written. -/
theorem upholds_written : Upholds fun e => e.storage.tables.Written where
  query _ _ _ := Engine.tables_lift (.query _ _ _)
  save parsed := Engine.tables_lift (Storage.written_saveWorkflow (Workflow.checked_of_parse parsed))
  update parsed id := fun e written => Engine.ends_storage.2
    ((Storage.written_updateWorkflow (Workflow.checked_of_parse parsed) id written).imp (fun _ _ h => h.2)
      fun _ _ (same : _ = _) => show Store.Written _ from same ▸ written)
  clone id name := Engine.tables_lift (Storage.written_cloneWorkflow id name)
  setStatus id status := Engine.tables_lift (Storage.written_setWorkflowStatus id status)
  delete w := by
    refine Upholds.reporting (.bind (Engine.tables_lift (.query _ _ _)) fun there =>
      .ite (fun _ => .bind (.throw _) fun _ => ?_) fun _ => ?_) <;>
    · exact .bind (written_of_stocks fun rows => .of_twin ((Engine.bond_stocks rows).cancelAll w)) fun _ =>
        .bind (Engine.tables_lift (Storage.written_deleteWorkflow w)) fun _ => .pure _
  execute w payload module item := written_of_stocks fun rows =>
    .of_twin ((Engine.bond_stocks rows).execute Engine.stocks_creates w payload module item)
  trigger module event payload item := written_of_stocks fun rows =>
    .of_twin ((Engine.bond_stocks rows).trigger Engine.stocks_creates module event payload item)
  cancel id := written_of_stocks fun rows => .of_twin ((Engine.bond_stocks rows).cancel id)
  moveTo now := written_of_stocks fun rows => .of_twin ((Engine.bond_stocks rows).moveTo Engine.stocks_creates now)
  restart now := written_of_stocks fun rows => .of_twin ((Engine.bond_stocks rows).restart now)
  resume := written_of_stocks fun rows => .of_twin (Engine.bond_stocks rows).resume

/-- The status says that the request was carried out. -/
def Answer.Succeeds (a : Answer) : Prop := a.status = .int 200 ∨ a.status = .int 201 ∨ a.status = .int 202

/-- A request is carried out, or changes nothing. -/
def Settles (x : Run Answer) (e : Engine) : Prop :=
  Ends x e (fun a t => a.Succeeds ∨ e.Unchanged t) fun _ t => e.Unchanged t

namespace Settles

theorem of_keeps {x : Run Answer} (keeps : Keeps e.Unchanged x) : Settles x e :=
  (keeps e (.refl e)).imp (fun _ _ h => .inr h) fun _ _ h => h

theorem reporting {x : Run Answer} (settles : Settles x e) : Settles (reporting x) e := by
  refine Ends.tryCatch_iff.2 (settles.imp (fun _ _ h => h) fun f t unchanged => ?_)
  cases f with
  | program p => exact Ends.pure_iff.2 (.inr unchanged)
  | _ => exact Ends.throw_iff.2 unchanged

theorem reading {r : Reading α} {go : α → Run Answer} (settles : ∀ a, r = .accepted a → Settles (go a) e) :
    Settles (reading r go) e := by
  cases r with
  | accepted a => exact settles a rfl
  | refused is => exact Ends.pure_iff.2 (.inr (.refl e))
  | broken m => exact Ends.throw_iff.2 (.refl e)

/-- One write, and the answer that it was made. -/
theorem writing {x : StorageM α} (whole : Storage.Whole x e.storage fun _ _ => True) {answer : α → Answer}
    (succeeds : ∀ a, (answer a).Succeeds) : Settles (liftM x >>= fun a => pure (answer a)) e :=
  Ends.bind (Engine.ends_storage.2 (whole.imp (fun a _ _ => Ends.pure_iff.2 (.inl (succeeds a)))
    fun _ _ same => .of_storage same))

end Settles

/-- A stored workflow is deleted, and nothing fails after it was found. -/
theorem settles_deleteWorkflow (tidy : e.Tidy gone) (w : String) : Settles (deleteWorkflow w) e := by
  by_cases stored : (e.storage.tables.workflow? w).isSome
  · refine (ends_deleteWorkflow tidy stored).imp (fun a _ done => .inl (.inl ?_)) fun _ _ h => h.elim
    rw [done.1]
    rfl
  · refine .reporting (Ends.bind ((ends_workflowExists tidy w).imp ?_ fun _ _ h => h.elim))
    rintro _ _ ⟨rfl, rfl⟩
    rw [Bool.eq_false_iff.2 stored]
    exact Ends.throw_iff.2 (.refl _)

theorem settles_replaceWorkflow (written : e.storage.tables.Written) (id : String) (body : Body) :
    Settles (replaceWorkflow id body) e := by
  refine .reading fun d _ => ?_
  have replaces : Ends (Engine.onProgramError (do
        let w ← Engine.ofExcept (Workflow.parse (.dict (Dict.set d "id" (.text id))))
        return .ok (w, ← Storage.updateWorkflow id w))
        (fun p => return .error (.reported p)) : Run (Except Answer (Workflow × Value))) e
      (fun replaced t => match replaced with
        | .ok (_, version) => ∃ n, version = .int n
        | .error _ => e.Unchanged t) fun _ t => e.Unchanged t := by
    refine Ends.tryCatch_iff.2 (Ends.imp ?_ (fun _ _ h => h) fun f t (unchanged : e.Unchanged t) => ?_)
    · refine Ends.bind (Engine.ends_ofExcept.2 ⟨fun w parsed => ?_, fun _ _ => .refl e⟩)
      have updates := Storage.written_updateWorkflow (Workflow.checked_of_parse parsed) id written
      exact Ends.bind (Engine.ends_storage.2 (updates.imp (fun _ _ h => Ends.pure_iff.2 h.1)
        fun _ _ same => .of_storage same))
    · cases f with
      | program p => exact Ends.pure_iff.2 unchanged
      | _ => exact Ends.throw_iff.2 unchanged
  refine Ends.bind (replaces.imp (fun replaced t h => ?_) fun _ _ h => h)
  cases replaced with
  | error answer => exact Ends.pure_iff.2 (.inr h)
  | ok done =>
    obtain ⟨w, version⟩ := done
    obtain ⟨n, rfl⟩ := h
    exact Ends.bind (Ends.pure_iff.2 (Ends.pure_iff.2 (.inl (.inl rfl))))

theorem settles_execute (tidy : e.Tidy gone) (id : String) (body : Body) : Settles (execute id body) e := by
  have starts (module : String) (start : Start) (t : Engine) (unchanged : e.Unchanged t) (tidy : t.Tidy gone) :
      Ends (do
        let execution ← Engine.execute id (.dict start.payload) (.text module) (.ofText? start.item)
        return Answer.accepted (.record [("execution_id", .text execution), ("status", .text "running")])) t
        (fun a u => a.Succeeds ∨ e.Unchanged u) fun _ u => e.Unchanged u :=
    Ends.bind ((Engine.ends_execute tidy.mild id _ _ _).imp
      (fun _ _ _ => Ends.pure_iff.2 (.inl (.inr (.inr rfl)))) fun _ _ h => unchanged.trans h)
  refine .reading fun start _ => .reporting ?_
  split
  · exact Ends.bind (Ends.pure_iff.2 (starts _ start e (.refl e) tidy))
  · have loads := (Engine.unchanged_lift (e := e) (fun _ => .loadWorkflow id) e (.refl e)).and
      (upholds_tidy.loadWorkflow id e tidy)
    exact Ends.bind (Ends.map_iff.2 (loads.imp (fun w t h => starts _ start t h.1 h.2) fun _ _ h => h.1))

theorem settles_cancelExecution (tidy : e.Tidy gone) (id : String) : Settles (cancelExecution id) e := by
  have looks : Keeps (fun t => e.Unchanged t ∧ t.Tidy gone) (Engine.onProgramError (do
      let _ ← Storage.loadExecution id
      return none)
      fun e => return some (.reported e) : Run (Option Answer)) := by
    have query : Keeps (fun t => e.Unchanged t ∧ t.Tidy gone) (liftM (Storage.loadExecution id) : Run _) :=
      fun t kept => (Engine.unchanged_lift (fun _ => .query _ _ _) t kept.1).and
        (upholds_tidy.query _ _ _ t kept.2)
    exact Engine.keeps_onProgramError (.bind query fun _ => .pure _) fun _ => .pure _
  refine Ends.bind ((looks e ⟨.refl e, tidy⟩).imp (fun found t h => ?_) fun _ _ h => h.1)
  cases found with
  | some answer => exact Ends.pure_iff.2 (.inr h.1)
  | none =>
    exact Ends.bind ((Engine.ends_cancel h.2 id).imp (fun _ _ _ => Ends.pure_iff.2 (.inl (.inl rfl)))
      fun _ _ h => h.elim)

/-- A copy under a name of blanks is answered as a malformed definition, and is there all the same. -/
structure LeavesBlankCopy (e : Engine) (body : Body) (a : Answer) (t : Engine) : Prop where
  given : ∃ name, body.optional (fields copyName) = .accepted (some (some name)) ∧ name ≠ "" ∧
    Text.trim name = "" ∧ ∃ row ∈ e.storage.tables.workflows, ∃ w, Workflow.parse row.record = .ok w ∧
      t.storage.tables = e.storage.tables.putWorkflow
        (.ofWorkflow (idText e.storage.nextId) (w.draft name) (.int 1))
  status : a.status = .int 400
  executions : t.executions = e.executions
  live : t.live = e.live

/-- A copy is made, or none is, unless its name is blank. -/
theorem ends_cloneWorkflow (tidy : e.Tidy gone) (written : e.storage.tables.Written) (id : String) (body : Body) :
    Ends (cloneWorkflow id body) e (fun a t => a.Succeeds ∨ e.Unchanged t ∨ LeavesBlankCopy e body a t)
      fun _ t => e.Unchanged t := by
  unfold cloneWorkflow
  cases read : body.optional (fields copyName) with
  | refused is => exact Ends.pure_iff.2 (.inr (.inl (.refl e)))
  | broken m => exact Ends.throw_iff.2 (.refl e)
  | accepted name =>
    refine Ends.tryCatch_iff.2 (Ends.imp ?_ (fun _ _ h => h) fun f t (outcome : e.Unchanged t ∨
      ∃ p, f = .program p ∧ LeavesBlankCopy e body (.reported p) t) => ?_)
    · refine Ends.bind (Engine.ends_storage.2 ((Storage.ends_cloneWorkflow tidy.rooted.steady_scene id _).imp ?_
        fun _ _ same => .inl (.of_storage same)))
      rintro copy s ⟨rfl, still, row, there, w, parsed, tables⟩
      have found := tables ▸ Store.workflow?_putWorkflow_self e.storage.tables _
      refine Ends.bind (Engine.ends_storage.2 (((Storage.ends_loadRow still found).and
        (Storage.Preserves.loadWorkflow (p := (· = s.tables)) _ s rfl)).imp
        (fun _ _ _ => Ends.pure_iff.2 (.inl (.inr (.inl rfl)))) fun f t h => .inr ?_))
      obtain ⟨refused, same⟩ := h
      have checked := (Workflow.checked_of_parse parsed).draft (w.draftName (name.bind fun n => n))
      by_cases blank : Text.trim (w.draftName (name.bind fun n => n)) = ""
      · obtain ⟨issues, -, malformed⟩ :=
          Store.WorkflowRow.refused_of_blank checked blank (idText e.storage.nextId) 1
        cases refused.symm.trans malformed
        obtain ⟨n, given, filled, spaces, own⟩ := Workflow.given_of_blank blank
        obtain rfl : name = some (some n) := by
          cases name with
          | none => cases given
          | some name => exact congrArg _ given
        rw [own] at tables
        exact ⟨_, rfl, ⟨n, read, filled, spaces, row, there, w, parsed, same.trans tables⟩, rfl, rfl, rfl⟩
      · obtain ⟨u, again⟩ := (written row there).draft parsed blank (idText e.storage.nextId)
        cases refused.symm.trans again
    · rcases outcome with unchanged | ⟨p, rfl, leaves⟩
      · cases f with
        | program p => exact Ends.pure_iff.2 (.inr (.inl unchanged))
        | _ => exact Ends.throw_iff.2 unchanged
      · exact Ends.pure_iff.2 (.inr (.inr leaves))

/-- Every other endpoint succeeds or changes nothing. -/
theorem settles_answer (tidy : e.Tidy gone) (written : e.storage.tables.Written) (s : Service) (r : Request)
    {endpoint : Endpoint} (other : endpoint ≠ .cloneWorkflow) (parameters : List String) :
    Settles (s.answer r endpoint parameters) e := by
  have query {α : Type} (operation table : String) (read : Store → Except Store.Refusal α) :
      Keeps e.Unchanged (liftM (Storage.query operation table read) : Run α) :=
    Engine.unchanged_lift fun _ => .query _ _ _
  have logs (id : String) : Keeps e.Unchanged (Engine.logsOf id) :=
    .bind (query _ _ _) fun _ => .get fun _ => .ite (fun _ => query _ _ _) fun _ => .pure _
  cases endpoint with
  | createWorkflow =>
    refine .reading fun d _ => .reporting ?_
    refine Ends.bind (Engine.ends_ofExcept.2 ⟨fun w _ => ?_, fun _ _ => .refl e⟩)
    exact Settles.writing (Storage.whole_saveWorkflow w _) fun _ => .inr (.inl rfl)
  | listWorkflows => exact .of_keeps (Upholds.reporting (.bind (query _ _ _) fun _ => .pure _))
  | loadWorkflow =>
    exact .of_keeps (Upholds.reporting (.bind (Engine.unchanged_lift fun _ => .loadWorkflow _) fun _ => .pure _))
  | replaceWorkflow => exact settles_replaceWorkflow written _ _
  | deleteWorkflow => exact settles_deleteWorkflow tidy _
  | cloneWorkflow => exact absurd rfl other
  | listExecutions =>
    refine .of_keeps (Upholds.reading fun page => Upholds.reporting (.bind (query _ _ _) fun there =>
      .ite (fun _ => .bind (.throw _) fun _ => ?_) fun _ => ?_)) <;>
    · exact .bind (query _ _ _) fun _ => .pure _
  | setStatus =>
    exact .reading fun status _ => .reporting (.writing (Storage.whole_setWorkflowStatus _ _ _) fun _ => .inl rfl)
  | execute => exact settles_execute tidy _ _
  | trigger =>
    refine .reading fun event _ => Ends.bind ((Engine.ends_trigger_reads tidy.mild
      (fun row there => (written row there).reads) _ _ _ _).imp (fun _ _ _ => ?_) fun _ _ h => h.elim)
    exact Ends.pure_iff.2 (.inl (.inr (.inr rfl)))
  | loadExecution => exact .of_keeps (Upholds.reporting (.bind (query _ _ _) fun _ => .pure _))
  | executionLog => exact .of_keeps (Upholds.reporting (.bind (logs _) fun _ => .pure _))
  | executionDetails =>
    exact .of_keeps (Upholds.reporting (.bind (query _ _ _) fun _ => .bind (logs _) fun _ => .pure _))
  | cancelExecution => exact settles_cancelExecution tidy _
  | listActions => exact .of_keeps (.get fun _ => .pure _)
  | greeting => exact .of_keeps (.pure _)
  | health => exact .of_keeps (.pure _)
  | detailedHealth => exact .of_keeps (.get fun _ => .pure _)

/-- A new service whose workflows were all written from definitions, whatever it has met with, carries a request
out or leaves its tables and executions as they are; there is nothing in between but the copy under a name of
blanks, which is answered as malformed and stays. -/
theorem succeeds_or_unchanged (fresh : s.engine.Fresh) (unlogged : s.engine.storage.tables.logs = [])
    (written : s.engine.storage.tables.Written) (before : List Happening) (r : Request) :
    let t := s.meetAll before
    (t.respond r).1.Succeeds ∨ t.engine.Unchanged (t.respond r).2.engine ∨
      (∃ parameters, Route.find r.method r.path = .found .cloneWorkflow parameters) ∧
        LeavesBlankCopy t.engine r.body (t.respond r).1 (t.respond r).2.engine := by
  have tidy := upholds_tidy.meetAll before (fresh.tidy unlogged)
  have written := upholds_written.meetAll before written
  dsimp only
  generalize s.meetAll before = t at tidy written ⊢
  unfold respond respondFully
  cases route : Route.find r.method r.path with
  | nowhere => exact .inr (.inl (.refl _))
  | wrongMethod => exact .inr (.inl (.refl _))
  | found endpoint parameters =>
    have ends : Ends (t.answer r endpoint parameters) t.engine (fun a u => a.Succeeds ∨ t.engine.Unchanged u ∨
        endpoint = .cloneWorkflow ∧ LeavesBlankCopy t.engine r.body a u) fun _ u => t.engine.Unchanged u := by
      by_cases clones : endpoint = .cloneWorkflow
      · subst clones
        exact (ends_cloneWorkflow tidy written _ r.body).imp
          (fun _ _ h => h.imp_right (.imp_right fun h => ⟨rfl, h⟩)) fun _ _ h => h
      · exact (settles_answer tidy written t r clones parameters).imp (fun _ _ h => h.imp_right .inl) fun _ _ h => h
    dsimp only [EStateM.run]
    unfold Ends at ends
    cases run : t.answer r endpoint parameters t.engine with
    | ok a u =>
      rw [run] at ends
      have status : (if r.method = "HEAD" then { a with content := .empty } else a).status = a.status := by
        split <;> rfl
      obtain succeeds | unchanged | ⟨rfl, leaves⟩ := ends
      · left
        unfold Answer.Succeeds
        dsimp only
        rwa [status]
      · exact .inr (.inl unchanged)
      · have still : LeavesBlankCopy t.engine r.body
            (if r.method = "HEAD" then { a with content := .empty } else a) u :=
          { leaves with status := status.trans leaves.status }
        exact .inr (.inr ⟨⟨parameters, rfl⟩, still⟩)
    | error f u =>
      rw [run] at ends
      exact .inr (.inl ends)

/-- The copy that was answered as malformed is listed next to its original. -/
example :
    let s : Service := { settings := {}, engine := Engine.bare }
    let t := s.meetAll [.request { method := "POST", path := "/api/v1/workflows", body := .data Engine.writtenPair }]
    let blank : Body := .data (.record [("name", .text " ")])
    let copied := t.respond { method := "POST", path := "/api/v1/workflows/wf/clone", body := blank }
    copied.1.status.display = "400" ∧ copied.2.engine.storage.tables.workflows.map (·.id) = ["wf", "id-1"] := by
  decide +kernel

end Service

end Runbook
