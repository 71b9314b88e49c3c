import Runbook.Proofs.Course.Footing
import Runbook.Proofs.Registry

/-!
The log of an execution as its trail. As long as an engine goes on, everything that is done with it
leads on, and so every execution that begins meanwhile has proceeded from a beginning without a path
and without a log. Its path can be read from its log, and as long as no entry gets lost the stored log
is the same.
-/
namespace Runbook

/-- An operation of an engine that goes on: no new one takes its place or takes up what another one has
left, no one else writes to the stored log, and nothing is deleted from it. -/
def Operation.isOngoing : Operation → Bool
  | .delete _ | .appendLog _ _ _ | .restart _ | .resume => false
  | _ => true

/-- What actions say they still say when handlers were registered. -/
theorem Action.Registry.Says.offer {r : Action.Registry} {text : String} (said : r.Says text)
    (o : Action.Registry.Offer) : (r.offer o).Says text := by
  obtain ⟨actionType, config, caller, value, answer, isText⟩ := said
  refine ⟨actionType, config, caller, value, ?_, isText⟩
  unfold Action.Registry.script at answer ⊢
  cases found : r.handler? actionType with
  | none =>
    rw [found] at answer
    cases answer
  | some handler =>
    rw [found] at answer
    have kept : (r.offer o).handler? actionType = some handler :=
      Action.Registry.handler?_offers found [o]
    rw [kept]
    exact answer

namespace Storage

/-- What a query answers it has read, and it fails only where the storage refuses it or cannot read. -/
theorem ends_query_read {α : Type} (s : Storage) (operation table : String)
    (read : Store → Except Store.Refusal α) :
    Ends (query operation table read) s (fun a _ => read s.tables = .ok a)
      fun _ _ => s.refuses operation = true ∨ ∃ refusal, read s.tables = .error refusal := by
  refine Ends.bind ?_
  unfold Ends
  rw [openSession_eq]
  unfold refuses
  cases (Store.Outage.strike operation s.outages).1 with
  | some o => exact .inl rfl
  | none =>
    dsimp only
    rw [transact_eq]
    dsimp only
    cases answer : read s.tables with
    | ok a => rfl
    | error refusal => cases refusal <;> exact .inr ⟨_, rfl⟩

/-- The entries of an execution are listed as they are stored, unless the storage refuses to. -/
theorem ends_listLogs_rows (s : Storage) (id : String) :
    Ends (listLogs id) s
      (fun entries _ => entries = (s.tables.logs.filter (·.execution == id)).map (·.entry))
      fun _ _ => s.refuses "list execution logs" = true := by
  refine (ends_query_read s _ _ _).imp (fun _ _ read => (Except.ok.inj read).symm) fun _ _ failed => ?_
  exact failed.resolve_right fun ⟨_, no⟩ => by cases no

end Storage

namespace Engine

variable {e t : Engine} {id : String} {x : Execution}

/-! Operations. -/

theorem onward_execute (workflow : String) (payload module item : Value) :
    Keeps e.Proceeds (execute workflow payload module item) :=
  .bind (onward_loadWorkflow _) fun w =>
    onward_startExecution (fun _ => onward_launch) w payload module item

theorem onward_onProgramError {α : Type} {y : Run α} {handle : ProgramError → Run α}
    (first : Keeps e.Proceeds y) (next : ∀ p, Keeps e.Proceeds (handle p)) :
    Keeps e.Proceeds (onProgramError y handle) :=
  .tryCatch first fun f => by
    cases f with
    | program p => exact next p
    | _ => exact .throw _

theorem onward_routeRow (event : Option String) (payload module item : Value) (row : Store.WorkflowRow) :
    Keeps e.Proceeds (routeRow event payload module item row) := by
  have noted {level : Level} {message : String} :
      Keeps e.Proceeds (note level routerLogger message []) := onward_note (by decide)
  refine .bind (onward_onProgramError (.map (.ofExcept _)) fun _ => .bind noted fun _ => .pure _) fun parsed => ?_
  cases parsed with
  | none => exact .pure _
  | some w =>
    refine .ite (fun _ => .pure _) fun _ => onward_onProgramError (.map ?_) fun _ => .bind noted fun _ => .pure _
    exact onward_startExecution (fun _ => onward_launch) w payload module item

theorem onward_trigger (module : String) (event : Option String) (payload item : Value) :
    Keeps e.Proceeds (trigger module event payload item) := by
  have noted {level : Level} {message : String} :
      Keeps e.Proceeds (note level routerLogger message []) := onward_note (by decide)
  refine .bind (onward_onProgramError (.map (onward_errand (.activeWorkflows module)))
    fun _ => .bind noted fun _ => .pure _) fun rows => ?_
  cases rows with
  | none => exact .pure _
  | some rows =>
    exact .bind (.mapM _ fun row => onward_routeRow event payload _ item row) fun _ =>
      .bind noted fun _ => .pure _

theorem onward_continueAfter (due : Timer) : Keeps e.Proceeds (continueAfter due) := by
  refine .bind ((manner_proceeds e).alter (by intro; rfl)) fun _ => .bind (.isActive _) fun _ =>
    .ite (fun _ => ?_) fun _ => .pure _
  refine .bind (onward_aside (r := .resumed due.node) rfl) fun _ => .bind (.onStorageError ?_ fun _ =>
    (manner_proceeds e).noted) fun _ => .bind (.execution _) fun _ => ?_
  · exact onward_errand (.clearMarker _)
  · exact onward_follow (fun _ node => onward_walk (fun _ => onward_launch) _ node) due.node

theorem onward_fire (due : Timer) : Keeps e.Proceeds (fire due) :=
  .get fun _ => .ite (fun _ => (manner_proceeds e).runBranch trivial (onward_continueAfter due) _) fun _ =>
    (manner_proceeds e).noted

theorem onward_moveTo (now : Float) : Keeps e.Proceeds (moveTo now) :=
  .get fun _ => .bind ((manner_proceeds e).clock _) fun _ => .forM _ onward_fire

theorem onward_register (name : Value) (candidate : Action.Candidate) (description : Value) :
    Keeps e.Proceeds (register name candidate description) := by
  refine onward fun t vacant => Ends.bind (Ends.get_iff.2 (Ends.bind (Ends.modify_iff.2 ?_)))
  have registered : t.Proceeds { t with registry := (t.registry.register name candidate description).2 } :=
    .aside vacant (.of_eq rfl) (fun _ said => said.offer ⟨name, candidate, description⟩) fun _ => rfl
  exact ends_ofExcept.2 ⟨fun _ _ => registered, fun _ _ => registered⟩

theorem onward_notifyFields (fields : Dict) : Keeps e.Proceeds (notifyFields fields) := by
  refine .bind (.ofExcept _) fun announcement => ?_
  cases Announcement.items? (Dict.getD fields "recipients") with
  | some recipients => exact onward_errand (.notify _)
  | none =>
    exact .bind (onward_quiet (fun _ _ => Storage.twins_openSession _ (by decide) (by decide) _)
      (.openSession _ _)) fun _ => .throw _

theorem onward_listLogs (id : String) :
    Keeps e.Proceeds (liftM (Storage.listLogs id) : Run (List LogEntry)) := by
  refine onward_lift fun s => ((Storage.ends_listLogs id).and (Storage.Quiet.query _ _ _).bears).imp ?_ ?_ <;>
    exact fun _ _ h => .of_bears h.1.2 h.2

theorem onward_logsOf (id : String) : Keeps e.Proceeds (logsOf id) :=
  .bind (onward_errand (.loadExecution id)) fun _ => .get fun _ =>
    .ite (fun _ => onward_listLogs id) fun _ => .pure _

theorem onward_statusOf (id : String) : Keeps e.Proceeds (statusOf id) :=
  .get fun t => by
    cases t.liveExecution? id with
    | some x => exact .pure _
    | none => exact .bind (onward_errand (.loadExecution id)) fun _ => .pure _

theorem onward_createExecution (workflow tenant data module item : Value) :
    Keeps e.Proceeds (liftM (Storage.createExecution workflow tenant data module item) : Run String) :=
  onward_lift fun _ => (Storage.heard_createExecution workflow tenant data module item).imp
    (fun _ _ h => h.1) fun _ _ h => h

/-- Whatever is done with an engine that goes on leads on. -/
theorem onward_carryOut {op : Operation} (ongoing : op.isOngoing = true) :
    Keeps e.Proceeds (carryOut op) := by
  cases op with
  | save definition =>
    exact .bind (.ofExcept _) fun w => .bind (onward_quiet (fun _ _ => Storage.twins_saveWorkflow w)
      (Storage.quiet_saveWorkflow w)) fun _ => .pure _
  | saveRaw row => exact onward_quiet (fun _ _ => Storage.twins_saveRaw row) (Storage.quiet_saveRaw row)
  | load id => exact .bind (onward_loadWorkflow id) fun _ => .pure _
  | update id definition =>
    exact .bind (.ofExcept _) fun w => onward_quiet (fun _ _ => Storage.twins_updateWorkflow id w)
      (Storage.quiet_updateWorkflow id w)
  | clone id name =>
    exact .bind (onward_quiet (fun _ _ => Storage.twins_cloneWorkflow id name)
      (Storage.quiet_cloneWorkflow id name)) fun _ => .pure _
  | «exists» id =>
    exact .bind (onward_quiet (fun _ _ => Storage.twins_workflowExists id) (.query _ _ _)) fun _ => .pure _
  | activeWorkflows module => exact .bind (onward_errand (.activeWorkflows module)) fun _ => .pure _
  | listWorkflows module tenant =>
    exact .bind (onward_quiet (fun _ _ => Storage.twins_listWorkflows module tenant) (.query _ _ _))
      fun _ => .pure _
  | setStatus id status =>
    exact .bind (onward_quiet (fun _ _ => Storage.twins_setWorkflowStatus id status)
      (Storage.quiet_setWorkflowStatus id status)) fun _ => .pure _
  | createExecution workflow tenant module data item =>
    exact .bind (onward_createExecution workflow tenant data module item) fun _ => .pure _
  | loadExecution id => exact .bind (onward_errand (.loadExecution id)) fun _ => .pure _
  | listExecutions workflow limit offset =>
    exact .bind (onward_quiet (fun _ _ => Storage.twins_listExecutions workflow limit offset) (.query _ _ _))
      fun _ => .pure _
  | setExecutionStatus id status error time =>
    exact .bind (onward_errand (.setStatus id status error time)) fun _ => .pure _
  | saveMarker id node resumeAt context =>
    exact .bind (onward_errand (.saveMarker id node resumeAt context)) fun _ => .pure _
  | clearMarker id => exact .bind (onward_errand (.clearMarker id)) fun _ => .pure _
  | clearMarkers id => exact .bind (onward_errand (.clearMarkers id)) fun _ => .pure _
  | listMarkers id =>
    exact .bind (onward_quiet (fun _ _ => Storage.twins_listMarkers id) (.query _ _ _)) fun _ => .pure _
  | listLogs id => exact .bind (onward_listLogs id) fun _ => .pure _
  | logs id => exact .bind (onward_logsOf id) fun _ => .pure _
  | createTicket fields =>
    exact .bind (.ofExcept _) fun t => .bind (onward_errand (.createTicket t)) fun _ => .pure _
  | findTicket id => exact onward_quiet (fun _ _ => Storage.twins_findTicket id) (.query _ _ _)
  | updateTicket id updates => exact .bind (onward_errand (.updateTicket id updates)) fun _ => .pure _
  | assignTicket id assignee => exact .bind (onward_errand (.assignTicket id assignee)) fun _ => .pure _
  | notify fields => exact .bind (onward_notifyFields fields) fun _ => .pure _
  | createArticle fields =>
    exact .bind (.ofExcept _) fun t => .bind (onward_errand (.createArticle t)) fun _ => .pure _
  | register name candidate description =>
    exact .bind (onward_register name candidate description) fun _ => .pure _
  | actionTypes => exact .get fun _ => .pure _
  | dispatch execution actionType config =>
    exact onward fun _ vacant => (ends_dispatched (fun _ => onward_launch) vacant actionType config).imp
      (fun _ _ done => done.1) fun _ _ failed => failed
  | execute workflow payload module item =>
    exact .bind (onward_execute workflow payload module item) fun _ => .pure _
  | trigger module event payload item =>
    exact .bind (onward_trigger module event payload item) fun _ => .pure _
  | cancel id => exact .bind (onward_cancel id) fun _ => .pure _
  | cancelAll workflow =>
    exact .bind (.get fun _ => .bind (.mapM _ onward_cancel) fun _ => .pure _) fun _ => .pure _
  | status id => exact .bind (onward_statusOf id) fun _ => .pure _
  | active => exact .get fun _ => .pure _
  | advance seconds => exact .bind (.get fun _ => onward_moveTo _) fun _ => .pure _
  | shutdown => exact .bind (manner_proceeds e).shutdown fun _ => .pure _
  | outage o =>
    refine .bind (onward fun _ vacant => Ends.modify_iff.2 (.serve vacant ?_)) fun _ => .pure _
    exact ⟨Nat.le_refl _, fun _ there => .inl there, by simp, .inl rfl⟩
  | delete | appendLog | restart | resume => cases ongoing

theorem proceeds_afterAll (vacant : e.Vacant) (ops : List Operation)
    (ongoing : ∀ op ∈ ops, op.isOngoing = true) : e.Proceeds (e.afterAll ops) := by
  suffices further : ∀ t : Engine, e.Proceeds t → e.Proceeds (t.afterAll ops) from further e (.refl vacant)
  induction ops with
  | nil => exact fun _ reached => reached
  | cons op rest ih =>
    intro t reached
    have proceeds := after_of_ends (onward_carryOut (ongoing op (.head _)) t reached)
    exact ih (fun op later => ongoing op (.tail _ later)) _ proceeds

/-- Where every entry is stored, the same are listed that are remembered, if there were none. -/
theorem Proceeds.remembered_eq (proceeds : e.Proceeds t) (none : e.LosesNone t)
    (unknown : e.execution? id = Option.none) (known : t.execution? id = some x)
    (unheard : e.storedLog id = []) : (t.storedLog id).map (·.entry) = x.logs := by
  obtain ⟨made, logs, rows⟩ := proceeds.mirrors none id
  have before : e.remembered id = [] := by
    unfold remembered
    rw [unknown]
    rfl
  have after : t.remembered id = x.logs := by
    unfold remembered
    rw [known]
    rfl
  rw [rows, unheard, ← after, logs, before]
  rfl

/-- No entry is lost where entries are stored and no outage is planned that hits that. -/
theorem losesNone_afterAll (stores : e.storesLog = true) (faultless : e.storage.echo.faults = [])
    {ops : List Operation} (ongoing : ∀ op ∈ ops, op.isOngoing = true)
    (spare : ∀ op ∈ ops, op.sparesLog = true) : e.LosesNone (e.afterAll ops) := by
  let tie (p _ : Storage.Echo) : Prop := p.faults = [] ∧
    p.rows.length + e.storage.journal.spoken.length = e.storage.tables.logs.length + p.spoken.length
  have hears : Storage.Echo.Hears true true tie := by
    rintro p _ row p' _ ⟨none, count⟩ left _
    refine ⟨left.faultless none, ?_⟩
    obtain ⟨-, rows⟩ | ⟨impossible | some, -⟩ := left.rows
    · rw [rows, left.spoken]
      simp only [List.length_append, List.length_singleton]
      omega
    · cases impossible
    · exact absurd none some
  have bear : ∀ op ∈ ops, op.Bears tie := by
    intro op there
    have goes := ongoing op there
    cases op with
    | delete | appendLog => cases goes
    | outage o => exact Operation.bears_outage (spare _ there)
    | _ => trivial
  have begun : e.Abreast true true tie e := .alone stores faultless ⟨faultless, rfl⟩
  exact (begun.afterAll hears bear).matched.tied.2

/-- The log of an execution that begins while an engine goes on is its trail. The path of each entry is
one by which every later entry goes on. The path of the execution is made of the nodes whose entering
the entries tell of, in their order; from a log in which no summary of an action looks like such an
entry it can be read. As long as no entry gets lost, just the entries that were made are listed, in
the order in which they were made; none gets lost where no outage is planned for their storing. -/
theorem log_faithful {e : Engine} (vacant : e.Vacant)
    (unheard : ∀ n, e.storage.nextId ≤ n → e.storedLog (idText n) = []) (ops : List Operation)
    (ongoing : ∀ op ∈ ops, op.isOngoing = true) {id : String} (unknown : e.execution? id = none)
    {x : Execution} (known : (e.afterAll ops).execution? id = some x) :
    let t := e.afterAll ops
    x.logs.Pairwise (fun l m => l.path <+: m.path) ∧
    (∃ told : List Remark, x.logs = Remark.trail [] told ∧ x.path = told.filterMap Remark.arrival? ∧
      ∀ r ∈ told, r.Genuine t.registry.Says x.workflow) ∧
    ((∀ text, t.registry.Says text → "Processing ".toList.isPrefixOf text.toList = false) →
      x.path = (x.logs.filter LogEntry.arrives).map (·.node)) ∧
    (e.LosesNone t → Ends (Storage.listLogs id) t.storage (fun entries _ => entries = x.logs)
      fun _ _ => t.storage.refuses "list execution logs" = true) ∧
    (e.storesLog = true → e.storage.echo.faults = [] → (∀ op ∈ ops, op.sparesLog = true) →
      e.LosesNone t) := by
  intro t
  have proceeds : e.Proceeds t := proceeds_afterAll vacant ops ongoing
  obtain ⟨⟨n, late, rfl⟩, y, path, logs, onward⟩ := proceeds.born id x unknown known
  obtain ⟨told, logs', path', genuine⟩ := onward.trail
  rw [logs, path, List.nil_append] at logs'
  rw [path, List.nil_append] at path'
  rw [← onward.workflow] at genuine
  refine ⟨?_, ⟨told, logs', path', genuine⟩, fun unlike => ?_, fun none => ?_,
    fun stores faultless spare => losesNone_afterAll stores faultless ongoing spare⟩
  · rw [logs']
    exact Remark.pairwise_trail [] told
  · rw [logs', path']
    exact (Remark.arrivals_of_trail [] fun node text there => unlike text (genuine _ there)).symm
  · refine (Storage.ends_listLogs_rows t.storage _).imp (fun entries _ listed => ?_) fun _ _ h => h
    exact listed.trans (proceeds.remembered_eq none unknown known (unheard n late))

/-- No built-in action says what looks like the entry of a node that is entered. -/
theorem unlike_standard {timeout : Value} {text : String}
    (said : (Action.Registry.standard timeout).Says text) :
    "Processing ".toList.isPrefixOf text.toList = false := by
  refine Bool.eq_false_iff.2 fun tells => Action.not_says_standard timeout (fun head known => ?_) said
  have apart : ∀ head ∈ "Action completed: " :: Action.builtinHeads, Remark.clash head "Processing " = true := by
    decide
  exact Remark.not_isPrefixOf_of_clash (apart head known) tells

theorem Fresh.registry_afterAll (fresh : e.Fresh) {ops : List Operation}
    (work : ∀ op ∈ ops, op.isWork = true) : (e.afterAll ops).registry = e.registry :=
  ((deeds_afterAll ops work e fresh.proper fresh.accepting).keeps fresh.proper).registry

/-- A run through a loop in the body of another one. -/
def nestRun : List Operation := onceThrough Workflow.writtenNest 0.0

set_option maxRecDepth 100000 in
theorem log_faithful_nest : ∃ x, (bare.afterAll nestRun).execution? "id-1" = some x ∧
    x.path = ["T", "A", "B", "J", "J", "B"] ∧ x.path = (x.logs.filter LogEntry.arrives).map (·.node) ∧
    x.logs.length = 18 ∧ x.logs.Pairwise (fun l m => l.path <+: m.path) ∧
    Ends (Storage.listLogs "id-1") (bare.afterAll nestRun).storage (fun entries _ => entries = x.logs)
      fun _ _ => (bare.afterAll nestRun).storage.refuses "list execution logs" = true := by
  have work : ∀ op ∈ nestRun, op.isWork = true := isWork_onceThrough _ _
  have ongoing : ∀ op ∈ nestRun, op.isOngoing = true := by
    simp [nestRun, onceThrough, Operation.isOngoing]
  have spare : ∀ op ∈ nestRun, op.sparesLog = true := by simp [nestRun, onceThrough, Operation.sparesLog]
  obtain ⟨x, known⟩ : ∃ x, (bare.afterAll nestRun).execution? "id-1" = some x :=
    Option.isSome_iff_exists.1 (by decide +kernel)
  have ends : ((bare.afterAll nestRun).execution? "id-1").all fun x =>
      x.path = ["T", "A", "B", "J", "J", "B"] ∧ x.logs.length = 18 := by decide +kernel
  rw [known, Option.all_some, decide_eq_true_eq] at ends
  have registry := fresh_bare.registry_afterAll work
  have vacant : bare.Vacant := fun _ _ => rfl
  have unheard (n : Nat) (_ : bare.storage.nextId ≤ n) : bare.storedLog (idText n) = [] := rfl
  have run := log_faithful vacant unheard nestRun ongoing rfl known
  -- From here on it does not matter which operations have led there.
  generalize bare.afterAll nestRun = t at known ends registry run ⊢
  obtain ⟨grows, -, reads, listed, whole⟩ := run
  refine ⟨x, known, ends.1, reads fun text said => ?_, ends.2, grows, listed (whole rfl rfl spare)⟩
  rw [registry] at said
  exact unlike_standard said

end Engine

end Runbook
