import Runbook.Proofs.Course.Twins

/-!
What two engines have to share for all that executions do to be the same in both: they agree in all
that is looked at on the way, and each elementary step bears it. Then executions walk, wait and end
alike in both, and where the creation of executions bears it as well, they begin alike and are taken
up alike after a restart.
-/
namespace Runbook

namespace Action

/-- A script may ask for the start of a workflow, depending on what it is answered. -/
inductive Script.MayStart {α : Type} (workflow : Value) : Script α → Prop where
  | here {payload : Value} {next : Except Failure String → Script α} :
    (Script.ask (.start workflow payload) next).MayStart workflow
  | put {key : Key} {v : Value} {next : Script α} (later : next.MayStart workflow) :
    (Script.put key v next).MayStart workflow
  | ask {r : Request} {next : Except Failure r.Answer → Script α} (given : Except Failure r.Answer)
      (later : (next given).MayStart workflow) : (Script.ask r next).MayStart workflow

/-- An action may ask for the start of a workflow. -/
def Registry.MayStart (r : Registry) (workflow : Value) : Prop :=
  ∃ actionType config caller, (r.script actionType config caller).MayStart workflow

end Action

/-- What the engine asks of the storage, besides creating executions and telling what they do. -/
inductive Storage.Errand : {α : Type} → StorageM α → Prop where
  | loadWorkflow (id : String) : Errand (loadWorkflow id)
  | activeWorkflows (module : String) : Errand (activeWorkflows module)
  | loadExecution (id : String) : Errand (loadExecution id)
  | listMarkers : Errand (listMarkers none)
  | setStatus (id : String) (status error time : Value) : Errand (setExecutionStatus id status error time)
  | saveMarker (id node : String) (resumeAt : Instant) (context : Value) :
    Errand (saveMarker id node resumeAt context)
  | clearMarker (id : Int) : Errand (clearMarker id)
  | clearMarkers (id : String) : Errand (clearMarkers id)
  | createTicket (t : TicketDraft) : Errand (createTicket t)
  | updateTicket (id : String) (updates : Dict) : Errand (updateTicket id updates)
  | assignTicket (id : String) (assignee : Value) : Errand (assignTicket id assignee)
  | notify (a : Announcement) : Errand (notify a)
  | createArticle (a : ArticleDraft) : Errand (createArticle a)

namespace Engine

/-- What is done with a log entry besides keeping it in memory. -/
def tell (id tenant : String) (workflow : Value) (entry : LogEntry) : Run Unit := do
  note (processLevel entry.level) "deskflow.execution" entry.message [
    (.text "execution_id", .text id), (.text "workflow_id", workflow),
    (.text "tenant_id", .text tenant), (.text "node_id", .text entry.node)]
  if (← get).storesLog then
    onStorageError (Storage.appendLog id (.text tenant) entry) fun e =>
      note .error "deskflow.core.context"
        ("Failed to persist log entry for execution " ++ id ++ ": " ++ e.text) []

theorem log_eq (level : LogLevel) (id message node : String) : log level id message node = (do
    let x ← execution id
    let node := if node = "" then x.path.getLast?.getD "" else node
    modifyExecution id fun x' => { x' with logs := x'.logs ++ [⟨level, message, node, x.path⟩] }
    tell id x.workflow.tenant (.ofText? x.workflow.id) ⟨level, message, node, x.path⟩) := rfl

/-- What comes after an execution is created: it becomes live and walks from its trigger. -/
def setOff (launch : Launch) (w : Workflow) (payload : Dict) (module item : Value) (id : String) :
    Run String := do
  modify fun e => (e.putExecution {
    id, workflow := w, module, item, triggerData := payload
    vars := initialVariables payload w.vars })
  modify fun e => { e with live := e.live ++ [id] }
  note .info logger ("Started execution " ++ id ++ " of workflow " ++ w.id.getD "") []
  logInfo id ("Workflow execution started: " ++ w.name) ""
  match w.trigger? with
  | none =>
    logError id "No trigger node found in workflow" ""
    fail id "No trigger node found in workflow"
  | some trigger => submit launch id trigger.id
  return id

theorem startExecution_eq (launch : Launch) (w : Workflow) (payload module item : Value) :
    startExecution launch w payload module item = (do
      let payload ← ofExcept payload.toDict
      let id ← Storage.createExecution (.ofText? w.id) (.text w.tenant) (.dict payload) module item
      setOff launch w payload module item id) := rfl

/-- Engines are bound together when they agree in all that executions look at, and every elementary
step that executions take binds the engines again. Actions start none but certain workflows. -/
structure Bond (started : Value → Prop) (R : Engine → Engine → Prop) : Prop where
  executions {e d : Engine} : R e d → d.executions = e.executions
  live {e d : Engine} : R e d → d.live = e.live
  clock {e d : Engine} : R e d → d.clock = e.clock
  accepting {e d : Engine} : R e d → d.accepting = e.accepting
  loopLimit {e d : Engine} : R e d → d.loopLimit = e.loopLimit
  registry {e d : Engine} : R e d → d.registry = e.registry
  network {e d : Engine} : R e d → d.network = e.network
  starts {e d : Engine} : R e d → ∀ w, e.registry.MayStart w → started w
  /-- Something else than the storage and the registry changes. -/
  change {f : Engine → Engine} (apart : ∀ (e : Engine) s b,
      f { e with storage := s, storesLog := b } = { f e with storage := s, storesLog := b })
    (registry : ∀ e, (f e).registry = e.registry) {e d : Engine} : R e d → R (f e) (f d)
  /-- Fields that hang on the ones of two other engines are bound to the records of the process log. -/
  bind (fields : Dict → Dict) {e d u v : Engine} : R e d → R u v →
    R { u with storage := { u.storage with journal := { u.storage.journal with
        bound := fields e.storage.journal.bound } } }
      { v with storage := { v.storage with journal := { v.storage.journal with
        bound := fields d.storage.journal.bound } } }
  note {level : Level} {logger message : String} {context : Dict} (other : logger ≠ "deskflow.execution") :
    Twins R (note level logger message context) (note level logger message context)
  tell (id tenant : String) (workflow : Value) (entry : LogEntry) :
    Twins R (tell id tenant workflow entry) (tell id tenant workflow entry)
  errand {α : Type} {x : StorageM α} : Storage.Errand x → Twins R (liftM x : Run α) (liftM x : Run α)

variable {α : Type} {R : Engine → Engine → Prop} {started : Value → Prop}

theorem twins_onStorageError {x : Run Unit} {handle : ProgramError → Run Unit} (twins : Twins R x x)
    (handled : ∀ p, Twins R (handle p) (handle p)) :
    Twins R (onStorageError x handle) (onStorageError x handle) := by
  refine .tryCatch twins fun f => ?_
  cases f with
  | program p => exact .ite (fun _ => handled p) fun _ => .throw _
  | _ => exact .throw _

theorem twins_onProgramError {x : Run α} {handle : ProgramError → Run α} (twins : Twins R x x)
    (handled : ∀ p, Twins R (handle p) (handle p)) :
    Twins R (onProgramError x handle) (onProgramError x handle) := by
  refine .tryCatch twins fun f => ?_
  cases f with
  | program p => exact handled p
  | _ => exact .throw _

namespace Bond

variable (bond : Bond started R)

include bond

section Fields

variable {e d : Engine}

theorem execution? (related : R e d) (id : String) : d.execution? id = e.execution? id := by
  unfold Engine.execution?
  rw [bond.executions related]

theorem liveExecution? (related : R e d) (id : String) : d.liveExecution? id = e.liveExecution? id := by
  unfold Engine.liveExecution?
  rw [bond.live related, bond.execution? related]

theorem activeIds (related : R e d) : d.activeIds = e.activeIds := by
  unfold Engine.activeIds
  rw [bond.live related]
  exact congrArg (List.filter · e.live) (funext fun id => by rw [bond.execution? related])

end Fields

theorem modified {f : Engine → Engine} (apart : ∀ (e : Engine) s b,
      f { e with storage := s, storesLog := b } = { f e with storage := s, storesLog := b })
    (registry : ∀ e, (f e).registry = e.registry) : Twins R (modify f) (modify f) :=
  Leads.modify fun _ _ related => bond.change apart registry related

theorem execution (id : String) : Twins R (execution id) (execution id) := by
  refine .bind .get fun e d related => ?_
  rw [bond.execution? related]
  cases e.execution? id with
  | none => exact .throw _
  | some x => exact .pure rfl

theorem isActive (id : String) : Twins R (isActive id) (isActive id) :=
  .then_ (bond.execution id) fun _ => .pure rfl

theorem modifyExecution (id : String) (f : Execution → Execution) :
    Twins R (modifyExecution id f) (modifyExecution id f) :=
  bond.modified (fun _ _ _ => rfl) fun _ => rfl

theorem log (level : LogLevel) (id message node : String) :
    Twins R (log level id message node) (log level id message node) :=
  .then_ (bond.execution id) fun _ => .then_ (bond.modifyExecution id _) fun _ => bond.tell _ _ _ _

theorem withFields {x : Run α} (fields : Dict) (twins : Twins R x x) :
    Twins R (withFields fields x) (withFields fields x) := by
  refine .bind .get fun e d related => ?_
  have bound (g : Dict → Dict) : Twins R
      (modify fun u => { u with storage := { u.storage with
        journal := { u.storage.journal with bound := g e.storage.journal.bound } } } : Run Unit)
      (modify fun u => { u with storage := { u.storage with
        journal := { u.storage.journal with bound := g d.storage.journal.bound } } } : Run Unit) :=
    Leads.modify fun _ _ inner => bond.bind g related inner
  exact .then_ (bound fun old => Dict.merge old fields) fun _ => .andAlways twins (bound id)

/-! How executions end. -/

theorem dropTimers (id : String) : Twins R (dropTimers id) (dropTimers id) :=
  .then_ (bond.execution id) fun _ => .then_ (bond.modifyExecution id _) fun _ =>
    bond.modified (fun _ _ _ => rfl) fun _ => rfl

theorem dropPending (id : String) : Twins R (dropPending id) (dropPending id) :=
  .then_ (bond.dropTimers id) fun _ => twins_onStorageError
    (.then_ (bond.errand (.clearMarkers id)) fun _ => .pure rfl) fun _ => bond.note (by decide)

theorem finalize (id : String) : Twins R (finalize id) (finalize id) := by
  refine .then_ (bond.execution id) fun x => .andAlways (twins_onStorageError
    (bond.errand (.setStatus _ _ _ _)) fun _ => bond.note (by decide)) ?_
  exact .then_ (bond.modifyExecution id _) fun _ =>
    .then_ (bond.modified (fun _ _ _ => rfl) fun _ => rfl) fun _ => bond.note (by decide)

theorem fail (id message : String) : Twins R (fail id message) (fail id message) :=
  .then_ (bond.isActive id) fun _ => .ite
    (fun _ => .then_ (bond.modifyExecution id _) fun _ => .then_ (bond.dropPending id) fun _ =>
      bond.finalize id)
    fun _ => .pure rfl

theorem branchFinished (id : String) : Twins R (branchFinished id) (branchFinished id) :=
  .then_ (bond.execution id) fun _ => .then_ (bond.modifyExecution id _) fun _ => .ite
    (fun _ => .then_ (bond.log _ _ _ _) fun _ => bond.finalize id) fun _ => .pure rfl

theorem cancel (id : String) : Twins R (cancel id) (cancel id) := by
  refine .bind .get fun e d related => ?_
  rw [bond.liveExecution? related]
  cases e.liveExecution? id with
  | none => exact .then_ (bond.note (by decide)) fun _ => .pure rfl
  | some x =>
    refine .ite (fun _ => .pure rfl) fun _ => .then_ (bond.modifyExecution id _) fun _ => ?_
    exact .then_ (bond.dropPending id) fun _ => .then_ (bond.log _ _ _ _) fun _ =>
      .then_ (bond.finalize id) fun _ => .then_ (bond.note (by decide)) fun _ => .pure rfl

theorem cancelAll (workflow : String) : Twins R (cancelAll workflow) (cancelAll workflow) := by
  refine .bind .get fun e d related => ?_
  have same : (fun id => (d.execution? id).any (·.workflow.id == some workflow)) =
      fun id => (e.execution? id).any (·.workflow.id == some workflow) :=
    funext fun id => by rw [bond.execution? related]
  rw [bond.live related, same]
  exact .then_ (.mapM _ fun id _ => bond.cancel id) fun _ => .pure rfl

theorem runBranch (id report : String) {branch : Run Unit} (twins : Twins R branch branch) :
    Twins R (runBranch id report branch) (runBranch id report branch) := by
  refine .then_ (bond.execution id) fun x => .then_ (.observe (.andAlways ?_ (bond.branchFinished id)))
    fun _ => .pure rfl
  refine .tryCatch (bond.withFields _ twins) fun f => ?_
  exact .then_ (bond.note (by decide)) fun _ => bond.fail id f.text

/-! The walk. -/

theorem scheduleContinuation (id node : String) (seconds : Float) (marker : Nat) :
    Twins R (scheduleContinuation id node seconds marker)
      (scheduleContinuation id node seconds marker) := by
  refine .then_ (bond.isActive id) fun _ => .ite (fun _ => .bind .get fun e d related => ?_)
    fun _ => .pure rfl
  rw [bond.clock related]
  exact .then_ (bond.modified (fun _ _ _ => rfl) fun _ => rfl) fun _ => bond.modifyExecution id _

theorem runDelay (id : String) (n : Node) (amount : Value) (unit : String) :
    Twins R (runDelay id n amount unit) (runDelay id n amount unit) := by
  refine .then_ (bond.execution id) fun x => .then_ (.ofExcept _) fun seconds => ?_
  refine .bind .get fun e d related => ?_
  rw [bond.clock related]
  refine .then_ (.ofExcept _) fun resumeAt => ?_
  exact .then_ (bond.errand (.saveMarker _ _ _ _)) fun marker =>
    .then_ (bond.log _ _ _ _) fun _ => bond.scheduleContinuation _ _ _ _

section Launch

variable {launch : Launch}
  (launches : ∀ workflow, started workflow → ∀ payload,
    Twins R (launch workflow payload) (launch workflow payload))

include launches

theorem perform {r : Action.Request} (asked : ∀ workflow payload, r = .start workflow payload →
    started workflow) : Twins R (perform launch r) (perform launch r) := by
  cases r with
  | cancel execution => exact bond.cancel _
  | start workflow payload => exact launches workflow (asked workflow payload rfl) payload
  | createTicket draft => exact bond.errand (.createTicket draft)
  | updateTicket id updates => exact bond.errand (.updateTicket id updates)
  | assignTicket id assignee => exact bond.errand (.assignTicket id _)
  | notify announcement => exact bond.errand (.notify announcement)
  | createArticle draft => exact bond.errand (.createArticle draft)
  | http method url headers body timeout =>
    refine .bind .get fun e d related => ?_
    rw [bond.network related]
    refine .then_ (.ofExcept _) fun request => .bind .get fun e d related => ?_
    rw [bond.network related]
    exact .then_ (bond.modified (fun _ _ _ => rfl) fun _ => rfl) fun _ => .ofExcept _

/-- An action does the same, since it is told the same. -/
theorem script (id : String) (script : Action.Script α) (asked : ∀ w, script.MayStart w → started w) :
    Twins R (script.run (Engine.perform launch) (putVariable id))
      (script.run (Engine.perform launch) (putVariable id)) := by
  induction script with
  | done a => exact .pure rfl
  | fail f => exact .throw f
  | put key v next ih => exact .then_ (bond.modifyExecution id _) fun _ => ih fun w later => asked w (.put later)
  | ask r next ih =>
    refine .then_ (.observe (bond.perform launches fun w payload same => ?_)) fun given =>
      ih given fun w later => asked w (.ask given later)
    subst same
    exact asked w .here

theorem dispatch (id actionType : String) (config : Dict) :
    Twins R (dispatch launch id actionType config) (dispatch launch id actionType config) := by
  refine .bind .get fun e d related => ?_
  rw [bond.registry related]
  exact .then_ (bond.execution id) fun x => bond.script launches id _ fun w may =>
    bond.starts related w ⟨_, _, _, may⟩

/-- A walk does the same in both. -/
theorem guide (id : String) : Guide R Eq {} launch launch id where
  execution := bond.execution id
  resembles x _ same := same ▸ .refl _ x
  roles _ _ _ _ _ := trivial
  leads _ _ _ _ _ _ := trivial
  worded _ _ := trivial
  limit _ _ related := bond.loopLimit related
  say r _ := bond.log r.level id r.message r.node
  move f _ := bond.modifyExecution id f
  forget _ _ same := same ▸ bond.modifyExecution id _
  act _ _ _ _ := bond.dispatch launches id _ _
  delay n amount unit _ _ _ := (bond.runDelay id n amount unit).before fun _ _ related => related.1
  fail text := bond.fail id text

theorem walk (id : String) (depth : Nat) (node : String) :
    Twins R (walk launch id depth node) (walk launch id depth node) :=
  (bond.guide launches id).walk depth trivial

theorem submit (id node : String) : Twins R (submit launch id node) (submit launch id node) := by
  refine .bind .get fun e d related => ?_
  rw [bond.accepting related]
  refine .ite (fun _ => bond.runBranch id _ ?_) fun _ =>
    .then_ (bond.log _ _ _ _) fun _ => bond.fail id _
  exact .then_ (bond.execution id) fun _ => bond.walk launches id _ node

end Launch

/-! Markers are taken up. -/

theorem rebuild (id : String) (first : Store.Marker) (markers : List Store.Marker) :
    Twins R (rebuild id first markers) (rebuild id first markers) := by
  have discard : Twins R
      (do let _ ← (Storage.clearMarkers id : Run Nat); return (none : Option Execution))
      (do let _ ← (Storage.clearMarkers id : Run Nat); return (none : Option Execution)) :=
    .then_ (bond.errand (.clearMarkers id)) fun _ => .pure rfl
  have found : Twins R (findRecord id) (findRecord id) :=
    twins_onProgramError (.map (bond.errand (.loadExecution id)) fun _ _ same => congrArg some same)
      fun _ => .ite (fun _ => .pure rfl) fun _ => .throw _
  refine .then_ found fun record => ?_
  cases record with
  | none => exact discard
  | some record =>
    refine .ite (fun _ => discard) fun _ => ?_
    refine .then_ (twins_onProgramError (.map (bond.errand (.loadWorkflow _))
      fun _ _ same => congrArg Except.ok same) fun _ => .pure rfl) fun w => ?_
    cases w with
    | error e =>
      exact .then_ (bond.note (by decide)) fun _ => .then_ discard fun _ =>
        .then_ (bond.errand (.setStatus _ _ _ _)) fun _ => .pure rfl
    | ok w =>
      exact .then_ (.ofExcept _) fun s => .then_ (.ofExcept _) fun x =>
        .then_ (bond.modified (fun _ _ _ => rfl) fun _ => rfl) fun _ =>
          .then_ (bond.modified (fun _ _ _ => rfl) fun _ => rfl) fun _ => .pure rfl

theorem resumeGroup (now : Instant) (group : String × List Store.Marker) :
    Twins R (resumeGroup now group) (resumeGroup now group) := by
  obtain ⟨id, ms⟩ := group
  cases ms with
  | nil => exact .pure rfl
  | cons first rest =>
    refine .then_ (bond.rebuild id first (first :: rest)) fun rebuilt => ?_
    cases rebuilt with
    | none => exact .pure rfl
    | some x =>
      refine .then_ (.forM _ fun m _ => ?_) fun _ => .then_ (bond.branchFinished id) fun _ => .pure rfl
      exact .then_ (bond.log _ _ _ _) fun _ => bond.scheduleContinuation _ _ _ _

theorem resume : Twins R resume resume := by
  refine .bind .get fun e d related => ?_
  rw [bond.live related]
  refine .then_ (bond.errand .listMarkers) fun markers => ?_
  refine .bind .get fun e d related => ?_
  rw [bond.clock related]
  refine .then_ (.ofExcept _) fun now => ?_
  refine .then_ (.mapM _ fun group _ => bond.resumeGroup now group) fun counts => ?_
  exact .ite (fun _ => .then_ (bond.note (by decide)) fun _ => .pure rfl) fun _ => .pure rfl

theorem shutdown : Twins R shutdown shutdown := by
  refine .bind .get fun e d related => ?_
  rw [bond.live related]
  exact .then_ (.forM _ fun id _ => bond.dropTimers id) fun _ =>
    .then_ (bond.modified (fun _ _ _ => rfl) fun _ => rfl) fun _ => bond.note (by decide)

theorem restart (now : Float) : Twins R (restart now) (restart now) :=
  .then_ bond.shutdown fun _ => .then_ (bond.modified (fun _ _ _ => rfl) fun _ => rfl) fun _ =>
    bond.note (by decide)

/-! Executions begin. -/

theorem setOff {launch : Launch} (launches : ∀ workflow, started workflow → ∀ payload,
      Twins R (launch workflow payload) (launch workflow payload))
    (w : Workflow) (payload : Dict) (module item : Value) (id : String) :
    Twins R (setOff launch w payload module item id) (setOff launch w payload module item id) := by
  refine .then_ (bond.modified (fun _ _ _ => rfl) fun _ => rfl) fun _ =>
    .then_ (bond.modified (fun _ _ _ => rfl) fun _ => rfl) fun _ => ?_
  refine .then_ (bond.note (by decide)) fun _ => .then_ (bond.log _ _ _ _) fun _ => ?_
  cases w.trigger? with
  | none =>
    exact .then_ (bond.log .error id _ _) fun _ => .then_ (bond.fail id _) fun _ => .pure rfl
  | some trigger => exact .then_ (bond.submit launches id trigger.id) fun _ => .pure rfl

section Starts

variable (creates : ∀ workflow tenant data module item, Twins R
  (liftM (Storage.createExecution workflow tenant data module item) : Run String)
  (liftM (Storage.createExecution workflow tenant data module item) : Run String))

include creates

theorem startExecution {launch : Launch} (launches : ∀ workflow, started workflow → ∀ payload,
      Twins R (launch workflow payload) (launch workflow payload))
    (w : Workflow) (payload module item : Value) :
    Twins R (startExecution launch w payload module item)
      (startExecution launch w payload module item) :=
  .then_ (.ofExcept _) fun payload => .then_ (creates _ _ _ _ _) fun id =>
    bond.setOff launches w payload module item id

theorem launchAt (depth : Nat) (workflow payload : Value) :
    Twins R (launchAt depth workflow payload) (launchAt depth workflow payload) := by
  induction depth generalizing workflow payload with
  | zero => exact .throw _
  | succ depth ih =>
    exact .then_ (bond.errand (.loadWorkflow _)) fun w =>
      bond.startExecution creates (fun w _ payload => ih w payload) w payload childModule .null

theorem launch (workflow payload : Value) : Twins R (launch workflow payload) (launch workflow payload) :=
  bond.launchAt creates nesting workflow payload

theorem execute (workflow : String) (payload module item : Value) :
    Twins R (execute workflow payload module item) (execute workflow payload module item) :=
  .then_ (bond.errand (.loadWorkflow _)) fun w =>
    bond.startExecution creates (fun w _ => bond.launch creates w) w payload module item

theorem routeRow (event : Option String) (payload module item : Value) (row : Store.WorkflowRow) :
    Twins R (routeRow event payload module item row) (routeRow event payload module item row) := by
  refine .then_ (twins_onProgramError (.map (.ofExcept _) fun _ _ same => congrArg some same) fun _ =>
    .then_ (bond.note (by decide)) fun _ => .pure rfl) fun parsed => ?_
  cases parsed with
  | none => exact .pure rfl
  | some w =>
    dsimp only
    refine .ite (fun _ => .pure rfl) fun _ => ?_
    exact twins_onProgramError (.map (bond.startExecution creates (fun w _ => bond.launch creates w) w
      payload module item) fun _ _ same => congrArg some same) fun _ =>
      .then_ (bond.note (by decide)) fun _ => .pure rfl

theorem trigger (module : String) (event : Option String) (payload item : Value) :
    Twins R (trigger module event payload item) (trigger module event payload item) := by
  refine .then_ (twins_onProgramError (.map (bond.errand (.activeWorkflows module))
    fun _ _ same => congrArg some same) fun _ => .then_ (bond.note (by decide)) fun _ => .pure rfl)
    fun rows => ?_
  cases rows with
  | none => exact .pure rfl
  | some rows =>
    exact .then_ (.mapM rows fun row _ => bond.routeRow creates event payload (.text module) item row)
      fun started => .then_ (bond.note (by decide)) fun _ => .pure rfl

/-! Timers fire. -/

theorem continueAfter (t : Timer) : Twins R (continueAfter t) (continueAfter t) := by
  refine .then_ (bond.modifyExecution _ _) fun _ => .then_ (bond.isActive _) fun _ =>
    .ite (fun _ => ?_) fun _ => .pure rfl
  refine .then_ (bond.log _ _ _ _) fun _ => .then_ (twins_onStorageError
    (bond.errand (.clearMarker _)) fun _ => bond.note (by decide)) fun _ => ?_
  refine .then_ (bond.execution _) fun x => ?_
  have guide := bond.guide (fun w _ => bond.launch creates w) t.execution
  exact guide.follow (fun _ => guide.walk (depthOf x)) fun _ _ _ _ _ => trivial

theorem fire (t : Timer) : Twins R (fire t) (fire t) := by
  refine .bind .get fun e d related => ?_
  rw [bond.accepting related]
  exact .ite (fun _ => bond.runBranch _ _ (bond.continueAfter creates t)) fun _ => bond.note (by decide)

theorem moveTo (now : Float) : Twins R (moveTo now) (moveTo now) := by
  refine .bind .get fun e d related => ?_
  rw [bond.clock related]
  exact .then_ (bond.modified (fun _ _ _ => rfl) fun _ => rfl) fun _ =>
    .forM _ fun t _ => bond.fire creates t

theorem advance (seconds : Float) : Twins R (advance seconds) (advance seconds) := by
  refine .bind .get fun e d related => ?_
  rw [bond.clock related]
  exact bond.moveTo creates _

end Starts

end Bond

end Engine

end Runbook
