import Runbook.Proofs.Course.Births
import Runbook.Proofs.Course.Once
import Runbook.Proofs.Refusal

/-!
Events. An event is routed to every active workflow of its module, one row after the other. Each row
has its turn, whatever became of the rows before it; a workflow that waits for the event is started
unless its execution cannot be created, and nothing on the way fails.
-/
namespace Runbook

namespace Store

/-- The rows of a module's active workflows, in the order in which they were created. -/
def active (s : Store) (module : String) : List WorkflowRow :=
  s.workflows.filter fun r => r.module == module && r.status == WorkflowStatus.active.name

namespace WorkflowRow

/-- A row holds a definition, or is refused as a malformed one. -/
def reads (row : WorkflowRow) : Bool :=
  match Workflow.parse row.record with
  | .ok _ => true
  | .error (.program p) => p.kind == .definition
  | .error _ => false

/-- It does unless one of its nodes breaks its reading off. -/
theorem reads_iff (row : WorkflowRow) :
    row.reads = true ↔ ∀ node ∈ Workflow.writtenItems row.record "nodes", Node.breaks? node = none := by
  have cases := Workflow.parse_cases row.record
  unfold reads
  rw [← List.findSome?_eq_none_iff]
  cases fault : (Workflow.writtenItems row.record "nodes").findSome? Node.breaks? with
  | some m =>
    rw [fault] at cases
    cases m <;> simp [cases, Failure.ofMismatch, Failure.wrongType, Failure.noAttribute]
  | none =>
    rw [fault] at cases
    obtain ⟨w, parsed⟩ | ⟨issues, -, -, parsed⟩ := cases
    · simp [parsed]
    · simp [parsed, ProgramError.malformed, ProgramError.make]

/-- A row holds a workflow that waits for an event. -/
def waits (row : WorkflowRow) (event : String) : Bool :=
  match Workflow.parse row.record with
  | .ok w => (w.triggerFor? event).isSome
  | .error _ => false

end WorkflowRow

end Store

namespace Engine

variable {α : Type} {e t : Engine} {id : String}

/-! An execution that is known, in memory and in store, is never lost. -/

/-- An execution is known in memory and in store, and storage fails with storage errors only. -/
structure Firm (id : String) (e : Engine) : Prop where
  mild : e.storage.Mild
  known : (e.execution? id).isSome
  stored : ∃ w, (id, w) ∈ e.storage.born

theorem Firm.bears {s : Storage} (firm : e.Firm id) (bears : Storage.Bears [] e.storage s) :
    Firm id { e with storage := s } where
  mild := bears.mild firm.mild
  known := firm.known
  stored := by
    obtain ⟨w, there⟩ := firm.stored
    exact ⟨w, by rw [bears.born]; exact List.mem_append_left _ there⟩

/-- What bears nothing and fails with storage errors only. -/
theorem Firm.lift {x : StorageM α} (firm : e.Firm id)
    (bears : Ends x e.storage (fun _ t => Storage.Bears [] e.storage t) fun _ t => Storage.Bears [] e.storage t)
    (failing : Ends x e.storage (fun _ _ => True) fun f _ => f.IsStorage) :
    Ends (liftM x : Run α) e (fun _ t => t.Firm id) fun f t => t.Firm id ∧ f.IsStorage :=
  ends_storage.2 ((bears.and failing).imp (fun _ _ h => firm.bears h.1) fun _ _ h => ⟨firm.bears h.1, h.2⟩)

/-- A run does not fail while an execution is known, which it is still afterwards. -/
def Holds (id : String) (x : Run α) : Prop := ∀ e : Engine, e.Firm id → Ends x e (fun _ t => t.Firm id) never

namespace Holds

theorem pure (a : α) : Holds id (Pure.pure a) := fun _ firm => firm

theorem bind {β : Type} {x : Run α} {k : α → Run β} (first : Holds id x) (next : ∀ a, Holds id (k a)) :
    Holds id (x >>= k) :=
  fun e firm => Ends.bind ((first e firm).imp (fun a t firm => next a t firm) fun _ _ h => h)

theorem ite {c : Prop} [Decidable c] {x y : Run α} (yes : c → Holds id x) (no : ¬c → Holds id y) :
    Holds id (if c then x else y) :=
  fun e firm => Ends.ite_iff.2 ⟨fun h => yes h e firm, fun h => no h e firm⟩

theorem get {k : Engine → Run α} (next : ∀ e, Holds id (k e)) : Holds id (MonadState.get >>= k) :=
  fun e firm => next e e firm

theorem modify {f : Engine → Engine} (firm : ∀ e : Engine, e.Firm id → (f e).Firm id) :
    Holds id (MonadState.modifyGet fun e => ((), f e)) :=
  fun e known => Ends.modify_iff.2 (firm e known)

theorem note {level : Level} {logger message : String} {context : Dict} :
    Holds id (note level logger message context) :=
  modify fun _ firm => firm.bears (.of_eq rfl (Nat.le_refl _) rfl)

theorem execution : Holds id (execution id) := fun e firm => by
  obtain ⟨x, known⟩ := Option.isSome_iff_exists.1 firm.known
  exact (ends_execution known).imp (fun _ t h => h.2.symm ▸ firm) fun _ _ h => h

theorem modifyExecution {f : Execution → Execution} (keeps : ∀ x, (f x).id = x.id) :
    Holds id (modifyExecution id f) :=
  modify fun e firm => ⟨firm.mild, by rw [execution?_modify keeps, if_pos rfl, Option.isSome_map]; exact firm.known,
    firm.stored⟩

/-- Storage errors are handled. -/
theorem onStorageError {x : Run Unit} {handle : ProgramError → Run Unit}
    (first : ∀ e : Engine, e.Firm id → Ends x e (fun _ t => t.Firm id) fun f t => t.Firm id ∧ f.IsStorage)
    (handled : ∀ p, Holds id (handle p)) : Holds id (onStorageError x handle) := by
  intro e firm
  refine ends_onStorageError.2 ((first e firm).imp (fun _ _ h => h) ?_)
  rintro f t ⟨firm, p, rfl, kind⟩
  refine ⟨?_, fun none => absurd kind (none p rfl)⟩
  rintro q ⟨⟩ -
  exact handled p t firm

theorem log (level : LogLevel) (message node : String) : Holds id (log level id message node) := by
  refine .bind .execution fun x => .bind (.modifyExecution fun _ => rfl) fun _ => .bind .note fun _ =>
    .get fun _ => .ite (fun _ => ?_) fun _ => .pure _
  exact .onStorageError (fun e firm => firm.lift (Storage.bears_appendLog _ _ _)
    ((Storage.ends_appendLog_mild firm.mild _ _ _).imp (fun _ _ _ => trivial) fun _ _ h => h.2)) fun _ => .note

theorem dropPending : Holds id (dropPending id) := by
  refine .bind (.bind .execution fun x => .bind (.modifyExecution fun _ => rfl) fun _ =>
    .modify fun _ firm => ⟨firm.mild, firm.known, firm.stored⟩) fun _ => ?_
  exact .onStorageError (fun e firm => Ends.bind (firm.lift (Storage.Errand.clearMarkers id).bears
    ((Storage.ends_clearMarkers_mild firm.mild id).imp (fun _ _ _ => trivial) fun _ _ h => h.2))) fun _ => .note

theorem finalize : Holds id (finalize id) := by
  refine .bind .execution fun x e firm => ?_
  have stored : Holds id (Engine.onStorageError (Storage.setExecutionStatus id (.text x.status.name)
        (if x.status = .completed then .null else .ofText? x.error) (.int 0)) fun p =>
      Engine.note .error logger ("Failed to persist status of execution " ++ id ++ ": " ++ p.text) []) := by
    refine .onStorageError (fun e firm => ?_) fun _ => .note
    obtain ⟨w, stored⟩ := firm.stored
    refine firm.lift (Storage.bears_setExecutionStatus _ _ _ _) ?_
    split
    · exact (Storage.isStorage_setExecutionStatus firm.mild stored _ none).imp (fun _ _ h => h) fun _ _ h => h.2
    · exact (Storage.isStorage_setExecutionStatus firm.mild stored _ x.error).imp (fun _ _ h => h)
        fun _ _ h => h.2
  have last : Holds id (do
      Engine.modifyExecution id fun x => { x with done := true }
      MonadState.modifyGet fun e : Engine => ((), { e with live := e.live.filter (· != id) })
      Engine.note .info logger ("Execution " ++ id ++ " finished with status " ++ x.status.name) []) :=
    .bind (.modifyExecution fun _ => rfl) fun _ =>
      .bind (.modify fun _ firm => ⟨firm.mild, firm.known, firm.stored⟩) fun _ => .note
  exact ends_andAlways.2 ((stored e firm).imp (fun _ t firm => last t firm) fun _ _ h => h.elim)

theorem fail (message : String) : Holds id (fail id message) := by
  refine .bind (.bind .execution fun _ => .pure _) fun _ => .ite (fun _ => ?_) fun _ => .pure _
  exact .bind (.modifyExecution fun _ => rfl) fun _ => .bind .dropPending fun _ => .finalize

end Holds

/-- Whatever runs as a branch of a known execution, nothing of it fails. -/
theorem ends_runBranch (known : (e.execution? id).isSome) (report : String) (branch : Run Unit) :
    Ends (runBranch id report branch) e (fun _ _ => True) never := by
  obtain ⟨x, known⟩ := Option.isSome_iff_exists.1 known
  refine Ends.bind ((ends_execution known).imp (fun _ _ _ => ?_) fun _ _ h => h)
  exact Ends.bind (ends_observe.2 ((ends_leftBy _ _).imp (fun _ _ _ => trivial) fun _ _ _ => trivial))

/-- What has been created sets off, and does not fail any more. -/
theorem ends_setOff (mild : e.storage.Mild) (stored : ∃ w, (id, w) ∈ e.storage.born) (launch : Launch)
    (w : Workflow) (payload : Dict) (module item : Value) :
    Ends (setOff launch w payload module item id) e (fun started _ => started = id) never := by
  refine Ends.bind (Ends.modify_iff.2 (Ends.bind (Ends.modify_iff.2 ?_)))
  have begun : Firm id { e.putExecution (.opening id w module item payload
      (initialVariables payload w.vars)) with live := e.live ++ [id] } := by
    refine ⟨mild, ?_, stored⟩
    change ((e.putExecution _).execution? id).isSome
    rw [execution?_replace]
    simp [Execution.opening]
  refine Ends.bind ((Holds.note _ begun).imp (fun _ t firm => ?_) fun _ _ h => h)
  refine Ends.bind ((Holds.log .info _ _ t firm).imp (fun _ t firm => ?_) fun _ _ h => h)
  have stillborn (message : String) : Holds id (do
      logError id message ""
      fail id message) := .bind (.log .error _ _) fun _ => .fail _
  cases w.trigger? with
  | none =>
    exact Ends.bind ((Ends.bind_iff.1 (stillborn _ t firm)).imp
      (fun _ _ failing => Ends.bind (failing.imp (fun _ _ _ => rfl) fun _ _ h => h)) fun _ _ h => h)
  | some trigger =>
    refine Ends.bind (Ends.bind (Ends.get_iff.2 (Ends.ite_iff.2 ⟨fun _ => ?_, fun _ => ?_⟩)))
    · exact (ends_runBranch firm.known _ _).imp (fun _ _ _ => rfl) fun _ _ h => h
    · exact (stillborn _ t firm).imp (fun _ _ _ => rfl) fun _ _ h => h

/-! Turns. -/

/-- A row has its turn when an event is routed, and finds an engine. -/
structure Turn where
  row : Store.WorkflowRow
  engine : Engine

/-- The workflow in the row waits for the event, and its execution gets a session to be created in. -/
def Turn.starts (turn : Turn) (event : String) : Bool :=
  turn.row.waits event && turn.engine.storage.grants "create execution"

section Event

variable (event : String) (payload : Option Dict) (module : String) (item : Option String)

/-- The event is offered to a row. -/
def offer (row : Store.WorkflowRow) : Run (Option String) :=
  routeRow (some event) (payload.elim .null .dict) (.text module) (.ofText? item) row

/-- The turns of rows, one after the other. -/
def turns : List Store.WorkflowRow → Engine → List Turn
  | [], _ => []
  | row :: rest, e => ⟨row, e⟩ :: turns rest (e.leftBy (offer event payload module item row))

/-- An execution that actions may ask for. -/
def Asked (e : Engine) (c : String × String) : Prop := ∃ w, e.registry.MayStart w ∧ c.2 = w.display

/-- What comes of turns: `own` are the executions started by them, and others are started only
because their actions ask for them. -/
structure Yields (own : List (String × String)) (e t : Engine) : Prop where
  registry : t.registry = e.registry
  born : ∃ births asked, Storage.Bears births e.storage t.storage ∧ births.Perm (own ++ asked) ∧
    ∀ c ∈ asked, e.Asked c

variable {event payload module item}

theorem Yields.nil (registry : t.registry = e.registry) (bears : Storage.Bears [] e.storage t.storage) :
    Yields [] e t :=
  ⟨registry, [], [], bears, .refl _, by simp⟩

theorem Yields.trans {u : Engine} {own own' : List (String × String)} (first : Yields own e t)
    (second : Yields own' t u) : Yields (own ++ own') e u := by
  obtain ⟨births, asked, bears, perm, may⟩ := first.born
  obtain ⟨births', asked', bears', perm', may'⟩ := second.born
  refine ⟨second.registry.trans first.registry, _, asked ++ asked', bears.trans bears', ?_, ?_⟩
  · refine (perm.append perm').trans ?_
    rw [List.append_assoc, List.append_assoc]
    refine List.Perm.append_left own ?_
    rw [← List.append_assoc, ← List.append_assoc]
    exact List.perm_append_comm.append_right asked'
  · intro c there
    rcases List.mem_append.1 there with old | new
    · exact may c old
    · have asks := may' c new
      unfold Asked at asks
      rw [first.registry] at asks
      exact asks

theorem Yields.planned {own : List (String × String)} (yields : Yields own e t) :
    t.storage.planned = e.storage.planned := by
  obtain ⟨births, asked, bears, -, -⟩ := yields.born
  exact bears.planned

theorem Yields.mild {own : List (String × String)} (yields : Yields own e t) (mild : e.storage.Mild) :
    t.storage.Mild :=
  Storage.mild_iff.2 (yields.planned ▸ Storage.mild_iff.1 mild)

theorem yields_note (e : Engine) {level : Level} {logger message : String} {context : Dict} :
    Ends (note level logger message context) e (fun _ t => Yields [] e t) never :=
  Ends.modify_iff.2 (.nil rfl (.of_eq rfl (Nat.le_refl _) rfl))

/-- Every row of an execution can be written down. -/
theorem opens (w : String) (tenant : String) (data : Dict) (module : String) (item : Option String)
    (id : String) : ∃ row, Store.ExecutionRow.opening id (.ofText? (some w)) (.text tenant) (.dict data)
      (.text module) (.ofText? item) = .ok row := by
  cases item <;> exact ⟨_, rfl⟩

/-- A workflow read from a row is started, or its execution gets no session to be created in. -/
theorem ends_startRow {row : Store.WorkflowRow} {w : Workflow} (mild : e.storage.Mild)
    (parsed : Workflow.parse row.record = .ok w) :
    Ends (startExecution launch w (payload.elim .null .dict) (.text module) (.ofText? item)) e
      (fun id t => e.storage.grants "create execution" = true ∧ Yields [(id, row.id)] e t)
      fun f t => (e.storage.grants "create execution" = false ∧ f.IsStorage) ∧ Yields [] e t := by
  have data : (payload.elim .null .dict : Value).toDict = .ok (payload.getD []) := by
    rcases payload with _ | (_ | _) <;> rfl
  have own : w.id = some row.id := row.id_of_parse parsed
  rw [startExecution_eq, data]
  refine Ends.bind (Ends.pure_iff.2 (Ends.bind (ends_storage.2 ?_)))
  rw [own]
  refine ((Storage.grants_createExecution mild (opens row.id _ _ _ _)).and
    (Storage.bears_createExecution ..)).imp ?_ fun _ _ h => ⟨h.1, .nil rfl h.2⟩
  rintro id s ⟨granted, name, cell, bears⟩
  cases Option.some.inj (Except.ok.inj cell)
  have stored : ∃ w, (id, w) ∈ s.born := ⟨row.id, by rw [bears.born]; simp⟩
  refine ((ends_setOff (e := { e with storage := s }) (bears.mild mild) stored launch w _ _ _).and
    (spawns_setOff w _ _ _ id)).imp ?_ fun _ _ h => h.1.elim
  rintro _ t ⟨rfl, l, spawns⟩
  exact ⟨granted, spawns.registry, _, l, bears.trans spawns.bears, .refl _, spawns.asked⟩

/-- A turn never fails: a row whose workflow waits for the event is started if that is granted, and
nothing is started otherwise. -/
theorem ends_offer {row : Store.WorkflowRow} (mild : e.storage.Mild) (reads : row.reads = true) :
    Ends (offer event payload module item row) e
      (fun started t => started.isSome = Turn.starts ⟨row, e⟩ event ∧
        Yields (started.map fun id => (id, row.id)).toList e t) never := by
  cases parsed : Workflow.parse row.record with
  | ok w =>
    have waits : row.waits event = (w.triggerFor? event).isSome := by
      unfold Store.WorkflowRow.waits
      rw [parsed]
    unfold offer routeRow
    rw [parsed]
    refine Ends.bind (Ends.tryCatch_iff.2 (Ends.map_iff.2 (Ends.pure_iff.2 ?_)))
    refine Ends.ite_iff.2 ⟨fun still => Ends.pure_iff.2 ⟨?_, .nil rfl (.refl _)⟩, fun waiting => ?_⟩
    · simp [Turn.starts, waits, Option.isNone_iff_eq_none.1 still]
    · have waiting : row.waits event = true := by
        rw [waits]
        exact Option.isSome_iff_ne_none.2 (by simpa using waiting)
      refine Ends.tryCatch_iff.2 (Ends.map_iff.2 ((ends_startRow mild parsed).imp ?_ ?_))
      · rintro id t ⟨granted, yields⟩
        exact ⟨by simp [Turn.starts, waiting, granted], yields⟩
      · rintro f t ⟨⟨refused, p, rfl, -⟩, yields⟩
        refine Ends.bind ((yields_note t).imp (fun _ u more => ?_) fun _ _ h => h)
        exact Ends.pure_iff.2 ⟨by simp [Turn.starts, refused], yields.trans more⟩
  | error f =>
    have waits : row.waits event = false := by
      unfold Store.WorkflowRow.waits
      rw [parsed]
    obtain ⟨p, rfl⟩ : ∃ p, f = .program p := by
      unfold Store.WorkflowRow.reads at reads
      rw [parsed] at reads
      cases f with
      | program p => exact ⟨p, rfl⟩
      | _ => cases reads
    unfold offer routeRow
    rw [parsed]
    refine Ends.bind (Ends.tryCatch_iff.2 (Ends.map_iff.2 (Ends.throw_iff.2 ?_)))
    refine Ends.bind ((yields_note e).imp (fun _ t yields => ?_) fun _ _ h => h)
    exact Ends.pure_iff.2 (Ends.pure_iff.2 ⟨by simp [Turn.starts, waits], yields⟩)

/-- All rows have their turns, and what is started is told in their order. -/
theorem ends_offers {rows : List Store.WorkflowRow} (mild : e.storage.Mild)
    (reads : ∀ row ∈ rows, row.reads = true) :
    Ends (rows.mapM (offer event payload module item)) e
      (fun answers t => ∃ own : List (String × String), own.map (·.1) = answers.filterMap (fun x => x) ∧
        own.map (·.2) = (((turns event payload module item rows e).filter (·.starts event)).map (·.row.id)) ∧
        Yields own e t) never := by
  induction rows generalizing e with
  | nil => exact Ends.pure_iff.2 ⟨[], rfl, rfl, .nil rfl (.refl _)⟩
  | cons row rest ih =>
    rw [List.mapM_cons]
    refine Ends.bind (((ends_offer mild (reads row (.head _))).and (ends_leftBy e _)).imp ?_
      fun _ _ h => h.1)
    rintro started t ⟨⟨answered, yields⟩, left⟩
    refine Ends.bind ((ih (yields.mild mild) fun row later => reads row (.tail _ later)).imp ?_
      fun _ _ h => h)
    rintro answers u ⟨own, ids, workflows, more⟩
    refine Ends.pure_iff.2 ⟨_, ?_, ?_, yields.trans more⟩
    · cases started <;> simp [ids]
    · rw [turns, left, List.filter_cons, ← answered, List.map_append, workflows]
      cases started <;> simp

theorem row_turns (rows : List Store.WorkflowRow) (e : Engine) :
    (turns event payload module item rows e).map (·.row) = rows := by
  induction rows generalizing e with
  | nil => rfl
  | cons row rest ih => rw [turns, List.map_cons, ih]

/-- No turn plans an outage. -/
theorem planned_turns {rows : List Store.WorkflowRow} (mild : e.storage.Mild)
    (reads : ∀ row ∈ rows, row.reads = true) : ∀ turn ∈ turns event payload module item rows e,
      turn.engine.storage.planned = e.storage.planned := by
  induction rows generalizing e with
  | nil => exact fun _ there => by cases there
  | cons row rest ih =>
    have left : (e.leftBy (offer event payload module item row)).storage.planned = e.storage.planned :=
      leftBy_of_keeps (I := fun t => t.storage.planned = e.storage.planned)
        ((ends_offer mild (reads row (.head _))).imp (fun _ _ h => h.2.planned) fun _ _ h => h.elim)
    intro turn there
    rcases List.mem_cons.1 there with rfl | later
    · rfl
    · refine (ih (Storage.mild_iff.2 ?_) (fun row later => reads row (.tail _ later)) turn later).trans left
      rw [left]
      exact Storage.mild_iff.1 mild

/-- While no outage is planned for creating executions, what waits is started. -/
theorem starts_turns {rows : List Store.WorkflowRow} (mild : e.storage.Mild)
    (reads : ∀ row ∈ rows, row.reads = true)
    (free : ∀ p ∈ e.storage.planned, p.1 ≠ "create execution") :
    ((turns event payload module item rows e).filter (·.starts event)).map (·.row) =
      rows.filter (·.waits event) := by
  have granted : ∀ turn ∈ turns event payload module item rows e,
      turn.starts event = turn.row.waits event := by
    intro turn there
    rw [Turn.starts, Storage.grants_of_unplanned (planned_turns mild reads turn there ▸ free), Bool.and_true]
  rw [List.filter_congr granted, ← Function.comp_def (fun row : Store.WorkflowRow => row.waits event) Turn.row,
    ← List.filter_map, row_turns]

/-- The engine once the rows of a module's active workflows are loaded. -/
def loaded (e : Engine) (module : String) : Engine :=
  e.leftBy (liftM (Storage.activeWorkflows module) : Run (List Store.WorkflowRow))

/-- What has become of an event that was offered to rows in turns. -/
structure Routed (event : String) (rows : List Store.WorkflowRow) (turns : List Turn) (ids : List String)
    (e t : Engine) : Prop where
  /-- Every row had its turn. -/
  each : turns.map (·.row) = rows
  /-- The ids are those of one execution for each turn in which the workflow is started, in the order
  of the rows, and no other came into being but those that actions ask for. -/
  own : ∃ own : List (String × String), own.map (·.1) = ids ∧
    own.map (·.2) = (turns.filter (·.starts event)).map (·.row.id) ∧ Yields own e t
  /-- While no outage is planned for creating executions, these are all that wait for the event. -/
  free : (∀ p ∈ e.storage.planned, p.1 ≠ "create execution") →
    (turns.filter (·.starts event)).map (·.row) = rows.filter (·.waits event)

/-- Loading the active rows fails only when the session for it is refused. -/
theorem ends_activeWorkflows (mild : e.storage.Mild) :
    Ends (liftM (Storage.activeWorkflows module) : Run (List Store.WorkflowRow)) e
      (fun rows t => e.storage.refuses "find active workflows" = false ∧
        rows = e.storage.tables.active module ∧ Yields [] e t)
      fun f t => e.storage.refuses "find active workflows" = true ∧ f.IsStorage ∧
        t.storage.born = e.storage.born := by
  have struck : Storage.Bears [] e.storage { e.storage with
      outages := (Store.Outage.strike "find active workflows" e.storage.outages).2 } :=
    ⟨(List.append_nil _).symm, by simp, List.nodup_nil, Nat.le_refl _, Storage.planned_strike ..⟩
  refine ends_storage.2 (Ends.bind (Ends.bind (Ends.get_iff.2 (Ends.bind (Ends.modify_iff.2 ?_)))))
  cases hit : (Store.Outage.strike "find active workflows" e.storage.outages).1 with
  | none => exact Ends.pure_iff.2 ⟨by simp [Storage.refuses, hit], rfl, .nil rfl struck⟩
  | some o =>
    exact Ends.throw_iff.2 ⟨by simp [Storage.refuses, hit], Store.Outage.isStorage_failure
      (mild o (Store.Outage.mem_of_strike hit)) _, rfl⟩

variable (event payload module item) in
/-- Routing an event never fails. Unless the active rows cannot be loaded, one execution is started
for each of them whose workflow waits for the event and whose execution can be created in its turn,
and none for any other. -/
theorem routes_to_waiting (mild : e.storage.Mild)
    (reads : ∀ row ∈ e.storage.tables.active module, row.reads = true) :
    ∃ ids t, trigger module (some event) (payload.elim .null .dict) (.ofText? item) e = .ok ids t ∧
      if e.storage.refuses "find active workflows" then ids = [] ∧ t.storage.born = e.storage.born
      else Routed event (e.storage.tables.active module)
        (turns event payload module item (e.storage.tables.active module) (e.loaded module)) ids e t := by
  refine Ends.exists_ok ?_
  refine Ends.bind (Ends.tryCatch_iff.2 (Ends.map_iff.2 (((ends_activeWorkflows mild).and
    (ends_leftBy e _)).imp ?_ ?_)))
  · rintro _ t ⟨⟨passed, rfl, yields⟩, left⟩
    have still := yields.mild mild
    refine Ends.bind ((ends_offers still reads).imp ?_ fun _ _ h => h)
    rintro answers u ⟨own, ids, workflows, more⟩
    refine Ends.bind ((yields_note u).imp (fun _ v noted => Ends.pure_iff.2 ?_) fun _ _ h => h)
    rw [if_neg (by simp [passed]), loaded, left]
    refine ⟨row_turns _ t, ⟨own, ids, workflows, ?_⟩, fun free => starts_turns still reads ?_⟩
    · have whole := (yields.trans more).trans noted
      rwa [List.nil_append, List.append_nil] at whole
    · exact yields.planned ▸ free
  · rintro f t ⟨⟨refused, ⟨p, rfl, -⟩, same⟩, -⟩
    refine Ends.bind (Ends.modify_iff.2 (Ends.pure_iff.2 (Ends.pure_iff.2 ?_)))
    rw [if_pos refused]
    exact ⟨rfl, same⟩

end Event

/-- A row whose workflow waits for the event that something was created. -/
def waitingRow (id : String) (nodes : List Value) (connections : List Value) : Store.WorkflowRow where
  id := id
  tenant := "t"
  name := id
  description := none
  module := "tickets"
  status := "active"
  nodes := .list (Workflow.writtenNode "T" "trigger" [("triggerType", .text "created")] :: nodes)
  connections := .list connections
  vars := .list []
  version := .int 1

/-- An engine with workflows of all sorts. Executions cannot be created three times in a row, and each
entry that is to be logged is refused once. -/
def crowded : Engine := { bare with storage := { bare.storage with
  outages := [⟨"create execution", 0, 3, .storage, []⟩, ⟨"append execution log", 0, 1, .storage, [(1, 1)]⟩]
  tables := { bare.storage.tables with workflows := [
    waitingRow "W1" [] [],
    { waitingRow "W2" [] [] with nodes := .int 1 },
    { waitingRow "W3" [] [] with status := "draft" },
    { waitingRow "W4" [] [] with module := "assets" },
    waitingRow "W5" [Workflow.writtenNode "A" "action" [("actionType", .text "unknown"), ("config", .record [])]]
      [Workflow.writtenConnection "T" "A" .null],
    { waitingRow "W6" [] [] with nodes := .list [Workflow.writtenNode "T" "trigger"
      [("triggerType", .text "closed")]] },
    waitingRow "W7" [] []] } } }

set_option maxRecDepth 100000 in
theorem routes_to_waiting_crowded :
    crowded.storage.Mild ∧ (∀ row ∈ crowded.storage.tables.active "tickets", row.reads = true) ∧
    (crowded.storage.tables.active "tickets").map (·.id) = ["W1", "W2", "W5", "W6", "W7"] ∧
    ∃ (ids : List String) (t : Engine) (own : List (String × String)),
      trigger "tickets" (some "created") .null .null crowded = .ok ids t ∧
      own.map (·.1) = ids ∧ own.map (·.2) = ["W5", "W7"] ∧ Yields own crowded t := by
  have mild : crowded.storage.Mild := by
    unfold Storage.Mild
    decide +kernel
  have reads : ∀ row ∈ crowded.storage.tables.active "tickets", row.reads = true := by decide +kernel
  refine ⟨mild, reads, by decide +kernel, ?_⟩
  obtain ⟨ids, t, run, routed⟩ := routes_to_waiting "created" none "tickets" none mild reads
  rw [if_neg (by decide +kernel)] at routed
  obtain ⟨own, names, workflows, yields⟩ := routed.own
  refine ⟨ids, t, own, run, names, workflows.trans ?_, yields⟩
  decide +kernel

end Engine

end Runbook
