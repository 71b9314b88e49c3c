import Runbook.Proofs.Course.Twins
import Runbook.Proofs.Course.Outages

/-!
The stored log apart. Storages are akin when nothing differs in them but what became of log entries.
No operation on other tables looks at the stored log, and none of them adds to it; so such an
operation ends alike in storages that are akin, whether its sessions are refused or not, and leaves
the stored log as it was.
-/
namespace Runbook

namespace Store

/-- A stored log entry as the process log tells it. -/
def LogRow.spoken (r : LogRow) : Spoken := r.entry.spoken r.execution

/-- The tables without the stored log. -/
def sansLogs (s : Store) : Store := { s with logs := [] }

/-- Work that neither sees nor changes the stored log. -/
def Blind {α : Type} (work : Store → Except Refusal (α × Store)) : Prop :=
  ∀ s, work s = (work s.sansLogs).map fun (a, t) => (a, { t with logs := s.logs })

namespace Blind

variable {α β : Type}

theorem ok {a : α} {f : Store → Store} (same : ∀ s, f s = { f s.sansLogs with logs := s.logs }) :
    Blind fun s => .ok (a, f s) := fun s => congrArg (fun t => Except.ok (a, t)) (same s)

theorem error {r : Refusal} : Blind fun _ => (.error r : Except Refusal (α × Store)) := fun _ => rfl

/-- Cells are made before the tables are looked at. -/
theorem bind {cell : Except Refusal β} {work : β → Store → Except Refusal (α × Store)}
    (each : ∀ b, Blind (work b)) : Blind fun s => cell >>= fun b => work b s := by
  intro s
  cases cell with
  | ok b => exact each b s
  | error r => rfl

theorem ite {c : Prop} [Decidable c] {yes no : Store → Except Refusal (α × Store)}
    (first : Blind yes) (second : Blind no) : Blind fun s => if c then yes s else no s := by
  intro s
  by_cases holds : c
  · simpa only [if_pos holds] using first s
  · simpa only [if_neg holds] using second s

theorem read {read : Store → Except Refusal α} (same : ∀ s, read s = read s.sansLogs) :
    Blind fun s => do return (← read s, s) := by
  intro s
  change (read s).bind _ = ((read s.sansLogs).bind _).map _
  rw [← same]
  cases read s <;> rfl

end Blind

namespace Outage

/-- It hits the storing of log entries. -/
def hitsLog (o : Outage) : Bool := o.operation == "append execution log"

/-- It hits neither the storing nor the reading of log entries. -/
def isElse (o : Outage) : Bool :=
  o.operation != "append execution log" && o.operation != "list execution logs"

theorem operation_pass (o : Outage) : o.pass.2.operation = o.operation := by
  unfold pass
  split <;> rfl

variable {p : Outage → Bool} (operation : String)

/-- Among the outages of some operations, those of one of them are found as among all. -/
theorem strike_filter (named : ∀ o o' : Outage, o'.operation = o.operation → p o' = p o)
    (own : ∀ o : Outage, o.operation = operation → p o = true) (os : List Outage) :
    strike operation (os.filter p) =
      ((strike operation os).1, (strike operation os).2.filter p) := by
  induction os with
  | nil => rfl
  | cons o rest ih =>
    by_cases hit : o.operation = operation
    · have kept := own o hit
      have still : p o.pass.2 = true := (named o _ o.operation_pass).trans kept
      rw [List.filter_cons_of_pos kept, strike_of_eq hit, strike_of_eq hit,
        List.filter_cons_of_pos still]
    · rw [strike_of_ne hit]
      cases kept : p o with
      | true =>
        rw [List.filter_cons_of_pos kept, strike_of_ne hit, ih, List.filter_cons_of_pos kept]
      | false =>
        have dropped : ¬p o = true := by simp [kept]
        rw [List.filter_cons_of_neg dropped, ih, List.filter_cons_of_neg dropped]

/-- The outages of other operations are left as they are. -/
theorem filter_strike (named : ∀ o o' : Outage, o'.operation = o.operation → p o' = p o)
    (other : ∀ o : Outage, o.operation = operation → p o = false) (os : List Outage) :
    (strike operation os).2.filter p = os.filter p := by
  induction os with
  | nil => rfl
  | cons o rest ih =>
    by_cases hit : o.operation = operation
    · have dropped := other o hit
      have still : p o.pass.2 = false := (named o _ o.operation_pass).trans dropped
      rw [strike_of_eq hit, List.filter_cons_of_neg (by simp [still]),
        List.filter_cons_of_neg (by simp [dropped])]
    · rw [strike_of_ne hit, List.filter_cons, List.filter_cons, ih]

theorem hitsLog_congr (o o' : Outage) (same : o'.operation = o.operation) : o'.hitsLog = o.hitsLog := by
  unfold hitsLog
  rw [same]

theorem isElse_congr (o o' : Outage) (same : o'.operation = o.operation) : o'.isElse = o.isElse := by
  unfold isElse
  rw [same]

end Outage

end Store

namespace Storage

/-- What became of the log entries: those that are stored, those that were made, and the outages by
which they may still get lost. -/
structure Echo where
  rows : List Store.LogRow
  spoken : List Spoken
  faults : List Store.Outage

def echo (s : Storage) : Echo where
  rows := s.tables.logs
  spoken := s.journal.spoken
  faults := s.outages.filter Store.Outage.hitsLog

/-- Storages that differ in nothing but what became of log entries. -/
structure Akin (s u : Storage) : Prop where
  tables : u.tables.sansLogs = s.tables.sansLogs
  next : u.nextId = s.nextId
  outages : u.outages.filter Store.Outage.isElse = s.outages.filter Store.Outage.isElse

/-- Log entries get lost by storage errors only. -/
def Echo.Mild (p : Echo) : Prop := ∀ o ∈ p.faults, o.kind = .storage

/-- Some stored entries are deleted. -/
def Echo.keep (p : Echo) (wanted : Store.LogRow → Bool) : Echo := { p with rows := p.rows.filter wanted }

/-- A log entry is made, and is stored or gets lost. -/
structure Echo.Told (stores : Bool) (row : Store.LogRow) (p q : Echo) : Prop where
  spoken : q.spoken = p.spoken ++ [row.spoken]
  rows : stores = true ∧ q.rows = p.rows ++ [row] ∨
    (stores = false ∨ p.faults ≠ []) ∧ q.rows = p.rows
  faultless : p.faults = [] → q.faults = []
  mild : p.Mild → q.Mild

theorem Akin.refl (s : Storage) : s.Akin s := ⟨rfl, rfl, rfl⟩

theorem Akin.symm {s u : Storage} (akin : s.Akin u) : u.Akin s :=
  ⟨akin.tables.symm, akin.next.symm, akin.outages.symm⟩

theorem Akin.trans {s t u : Storage} (first : s.Akin t) (second : t.Akin u) : s.Akin u :=
  ⟨second.tables.trans first.tables, second.next.trans first.next, second.outages.trans first.outages⟩

/-- Storages that are akin, with what became of the log entries in each. -/
structure Near (p q : Echo) (s u : Storage) : Prop where
  akin : s.Akin u
  left : s.echo = p
  right : u.echo = q

variable {α β : Type} {p q : Echo} {operation table : String}

theorem twins_freshId : Twins (Near p q) freshId freshId := by
  rintro s u ⟨akin, rfl, rfl⟩
  refine Meets.answer (congrArg (fun n => "id-" ++ toString n) akin.next.symm) ⟨⟨?_, ?_, ?_⟩, rfl, rfl⟩
  · exact akin.tables
  · exact congrArg Nat.succ akin.next
  · exact akin.outages

theorem twins_freshIds (n : Nat) : Twins (Near p q) (freshIds n) (freshIds n) := by
  induction n with
  | zero => exact .pure rfl
  | succ n ih => exact .then_ twins_freshId fun id => .then_ ih fun ids => .pure rfl

/-- What is written to the process log, and how long is waited, does not matter. -/
theorem twins_aside {f : Storage → Storage} (tables : ∀ s, (f s).tables = s.tables)
    (next : ∀ s, (f s).nextId = s.nextId) (outages : ∀ s, (f s).outages = s.outages)
    (spoken : ∀ s, (f s).journal.spoken = s.journal.spoken) :
    Twins (Near p q) (modify f) (modify f) := by
  refine .modify fun s u near => ?_
  have same (t : Storage) : (f t).echo = t.echo := by unfold echo; rw [tables, outages, spoken]
  refine ⟨⟨?_, ?_, ?_⟩, (same s).trans near.left, (same u).trans near.right⟩
  · rw [tables, tables]; exact near.akin.tables
  · rw [next, next]; exact near.akin.next
  · rw [outages, outages]; exact near.akin.outages

theorem twins_note {level : Level} {logger message : String} (other : logger ≠ "deskflow.execution") :
    Twins (Near p q) (note level logger message) (note level logger message) :=
  twins_aside (fun _ => rfl) (fun _ => rfl) (fun _ => rfl)
    fun _ => Journal.spoken_write_of_ne _ _ _ _ _ other

theorem openSession_eq (operation table : String) (s : Storage) :
    openSession operation table s =
      match (Store.Outage.strike operation s.outages).1 with
      | some o => .error (o.failure table) { s with outages := (Store.Outage.strike operation s.outages).2 }
      | none => .ok () { s with outages := (Store.Outage.strike operation s.outages).2 } := by
  have run : openSession operation table s =
      (match (Store.Outage.strike operation s.outages).1 with
        | some o => (throw (o.failure table) : StorageM Unit)
        | none => pure ()) { s with outages := (Store.Outage.strike operation s.outages).2 } := rfl
  rw [run]
  cases (Store.Outage.strike operation s.outages).1 <;> rfl

theorem transact_eq (operation table : String) (work : Store → Except Store.Refusal (α × Store))
    (s : Storage) :
    transact operation table work s =
      match work s.tables with
      | .ok (a, tables) => .ok a { s with tables }
      | .error .rejected => .error (.program (.storage operation table none)) { s with
          journal := s.journal.write .error logger ("Database error during " ++ operation) [] none }
      | .error (.raised f) => .error f s := by
  have run : transact operation table work s =
      (match work s.tables with
        | .ok (a, tables) => do
          modify fun s => { s with tables }
          return a
        | .error .rejected => do
          note .error logger ("Database error during " ++ operation)
          throw (.program (.storage operation table none))
        | .error (.raised f) => throw f : StorageM α) s := rfl
  rw [run]
  cases work s.tables with
  | ok done => rfl
  | error r => cases r <;> rfl

/-- A session for anything but log entries is refused in both storages, or opened in both. -/
theorem twins_openSession (operation : String) (storing : operation ≠ "append execution log")
    (reading : operation ≠ "list execution logs") (table : String) :
    Twins (Near p q) (openSession operation table) (openSession operation table) := by
  rintro s u ⟨akin, rfl, rfl⟩
  have found (os : List Store.Outage) := Store.Outage.strike_filter operation
    Store.Outage.isElse_congr (fun o own => by simp [Store.Outage.isElse, own, storing, reading]) os
  have faults (os : List Store.Outage) := Store.Outage.filter_strike operation
    Store.Outage.hitsLog_congr (fun o own => by simp [Store.Outage.hitsLog, own, storing]) os
  have both := (found u.outages).symm.trans ((congrArg _ akin.outages).trans (found s.outages))
  obtain ⟨hit, left⟩ := Prod.mk.inj both
  have same (t : Storage) : { t with
      outages := (Store.Outage.strike operation t.outages).2 }.echo = t.echo :=
    congrArg (Echo.mk t.tables.logs t.journal.spoken) (faults t.outages)
  have near : Near s.echo u.echo { s with outages := (Store.Outage.strike operation s.outages).2 }
      { u with outages := (Store.Outage.strike operation u.outages).2 } :=
    ⟨⟨akin.tables, akin.next, left⟩, same s, same u⟩
  rw [openSession_eq, openSession_eq, hit]
  cases (Store.Outage.strike operation s.outages).1 with
  | some o => exact .failure near
  | none => exact .answer rfl near

theorem twins_transact {work : Store → Except Store.Refusal (α × Store)} (blind : Store.Blind work) :
    Twins (Near p q) (transact operation table work) (transact operation table work) := by
  rintro s u ⟨akin, rfl, rfl⟩
  have left := blind s.tables
  have right := blind u.tables
  rw [akin.tables] at right
  rw [transact_eq, transact_eq, left, right]
  cases work s.tables.sansLogs with
  | ok done => exact .answer rfl ⟨⟨rfl, akin.next, akin.outages⟩, rfl, rfl⟩
  | error r =>
    cases r with
    | rejected =>
      have same (t : Storage) : { t with
          journal := t.journal.write .error logger ("Database error during " ++ operation) []
            none }.echo = t.echo :=
        congrArg (fun l => Echo.mk t.tables.logs l (t.outages.filter Store.Outage.hitsLog))
          (Journal.spoken_write_of_ne _ _ _ _ _ (by decide))
      exact .failure ⟨⟨akin.tables, akin.next, akin.outages⟩, same s, same u⟩
    | raised f => exact .failure ⟨akin, rfl, rfl⟩

theorem twins_session (operation : String) {work : Store → Except Store.Refusal (α × Store)} (blind : Store.Blind work)
    (storing : operation ≠ "append execution log") (reading : operation ≠ "list execution logs")
    (table : String) :
    Twins (Near p q) (session operation table work) (session operation table work) :=
  .then_ (twins_openSession operation storing reading table) fun _ => twins_transact blind

theorem twins_query (operation : String) {read : Store → Except Store.Refusal α} (same : ∀ s, read s = read s.sansLogs)
    (storing : operation ≠ "append execution log") (reading : operation ≠ "list execution logs")
    (table : String) :
    Twins (Near p q) (query operation table read) (query operation table read) :=
  twins_session operation (.read same) storing reading table

theorem twins_awaitRetry (name : String) (attempt : Nat) (f : Failure) :
    Twins (Near p q) (awaitRetry name attempt f) (awaitRetry name attempt f) := by
  refine .then_ (twins_aside (fun _ => rfl) (fun _ => rfl) (fun _ => rfl) fun _ =>
    Journal.spoken_write_of_ne _ _ _ _ _ (retryLogger_ne name)) fun _ => ?_
  cases writePolicy.delay 0.0 attempt with
  | ok d => exact twins_aside (fun _ => rfl) (fun _ => rfl) (fun _ => rfl) fun _ => rfl
  | error g => exact .throw g

/-- What is tried again ends alike when each attempt does. -/
theorem twins_retrying {call : StorageM α} (name : String) (each : Twins (Near p q) call call) :
    Twins (Near p q) (retrying name call) (retrying name call) := by
  suffices tried : ∀ left attempt, Twins (Near p q)
      (writePolicy.attempts {
        failed := awaitRetry name
        gaveUp := fun used f => modify fun s => { s with
          journal := Retry.reportGaveUp s.journal name name used f } } call left attempt)
      (writePolicy.attempts {
        failed := awaitRetry name
        gaveUp := fun used f => modify fun s => { s with
          journal := Retry.reportGaveUp s.journal name name used f } } call left attempt) from
    tried _ _
  intro left
  induction left with
  | zero =>
    intro attempt
    refine .tryCatch each fun f => .ite (fun _ => ?_) fun _ => .throw f
    exact .then_ (twins_aside (fun _ => rfl) (fun _ => rfl) (fun _ => rfl) fun _ =>
      Journal.spoken_write_of_ne _ _ _ _ _ (retryLogger_ne name)) fun _ => .throw f
  | succ left ih =>
    intro attempt
    refine .tryCatch each fun f => .ite (fun _ => ?_) fun _ => .throw f
    exact .then_ (twins_awaitRetry name attempt f) fun _ => ih (attempt + 1)

/-! Each operation on other tables than that of the log. -/

theorem twins_saveWorkflow (w : Workflow) : Twins (Near p q) (saveWorkflow w) (saveWorkflow w) := by
  have store (id : String) : Twins (Near p q)
      (do
        session "save workflow" "workflows" fun s => do
          let version ← Store.versionCell (.int w.version)
          return ((), s.putWorkflow (.ofWorkflow id w version))
        note .info logger ("Saved workflow " ++ id ++ " (" ++ w.name ++ ")")
        return id)
      (do
        session "save workflow" "workflows" fun s => do
          let version ← Store.versionCell (.int w.version)
          return ((), s.putWorkflow (.ofWorkflow id w version))
        note .info logger ("Saved workflow " ++ id ++ " (" ++ w.name ++ ")")
        return id) :=
    .then_ (twins_session _ (.bind fun _ => .ok fun _ => rfl) (by decide) (by decide) _) fun _ =>
      .then_ (twins_note (by decide)) fun _ => .pure rfl
  unfold saveWorkflow
  dsimp only
  split
  · split
    · exact .then_ twins_freshId store
    · exact .then_ (.pure rfl) store
  · exact .then_ twins_freshId store

theorem twins_updateWorkflow (id : String) (w : Workflow) :
    Twins (Near p q) (updateWorkflow id w) (updateWorkflow id w) := by
  refine .then_ (twins_session "update workflow" ?_ (by decide) (by decide) _)
    fun version => .then_ (twins_note (by decide)) fun _ => .pure rfl
  intro s
  have same : s.sansLogs.workflow? id = s.workflow? id := rfl
  dsimp only
  rw [same]
  cases s.workflow? id with
  | none => rfl
  | some row =>
    dsimp only
    cases Store.nextVersion row.version with
    | error r => rfl
    | ok version =>
      change (Store.versionCell version).bind _ = ((Store.versionCell version).bind _).map _
      cases Store.versionCell version <;> rfl

theorem twins_loadWorkflow (id : String) :
    Twins (Near p q) (loadWorkflow id) (loadWorkflow id) := by
  refine .then_ (twins_query _ (fun _ => rfl) (by decide) (by decide) _) fun row => ?_
  cases Workflow.parse row.record with
  | ok w => exact .pure rfl
  | error f => exact .throw f

theorem twins_cloneWorkflow (id : String) (name : Option String) :
    Twins (Near p q) (cloneWorkflow id name) (cloneWorkflow id name) :=
  .then_ (twins_loadWorkflow id) fun _ => twins_saveWorkflow _

theorem twins_workflowExists (id : String) :
    Twins (Near p q) (workflowExists id) (workflowExists id) :=
  twins_query _ (fun _ => rfl) (by decide) (by decide) _

theorem twins_saveRaw (d : Dict) : Twins (Near p q) (saveRaw d) (saveRaw d) := by
  have blind (id : Value) (isNew : Store → Bool) (same : ∀ s, isNew s = isNew s.sansLogs) :
      Store.Blind fun s => do
        return ((), s.putWorkflow (← Store.WorkflowRow.ofRaw id d (isNew s))) := by
    intro s
    dsimp only
    rw [same s]
    cases Store.WorkflowRow.ofRaw id d (isNew s.sansLogs) <;> rfl
  unfold saveRaw
  dsimp only
  split
  · exact .then_ (.pure rfl) fun id => .then_ (twins_session _ (blind id _ fun _ => rfl) (by decide)
      (by decide) _) fun _ => .pure rfl
  · exact .then_ (.map twins_freshId fun _ _ same => congrArg _ same) fun id => .then_ (twins_session _
      (blind id _ fun _ => rfl) (by decide) (by decide) _) fun _ => .pure rfl

theorem twins_activeWorkflows (module : String) :
    Twins (Near p q) (activeWorkflows module) (activeWorkflows module) :=
  twins_query _ (fun _ => rfl) (by decide) (by decide) _

theorem twins_listWorkflows (module tenant : Option String) :
    Twins (Near p q) (listWorkflows module tenant) (listWorkflows module tenant) :=
  twins_query _ (fun _ => rfl) (by decide) (by decide) _

theorem twins_setWorkflowStatus (id : String) (status : Value) :
    Twins (Near p q) (setWorkflowStatus id status) (setWorkflowStatus id status) := by
  refine .then_ (twins_session "update workflow status" ?_ (by decide) (by decide) _)
    fun _ => twins_note (by decide)
  intro s
  have same : s.sansLogs.workflow? id = s.workflow? id := rfl
  dsimp only
  rw [same]
  cases s.workflow? id with
  | none => rfl
  | some row =>
    cases status with
    | text name =>
      dsimp only
      split <;> rfl
    | _ => rfl

theorem twins_createExecution (workflow tenant triggerData module item : Value) :
    Twins (Near p q) (createExecution workflow tenant triggerData module item)
      (createExecution workflow tenant triggerData module item) := by
  refine twins_retrying _ (.then_ twins_freshId fun id => ?_)
  exact .then_ (twins_session "create execution"
    (.bind fun row => .ok fun _ => rfl) (by decide) (by decide) _) fun _ => .pure rfl

theorem twins_loadExecution (id : String) :
    Twins (Near p q) (loadExecution id) (loadExecution id) :=
  twins_query _ (fun _ => rfl) (by decide) (by decide) _

theorem twins_listExecutions (workflow : String) (limit offset : Int) :
    Twins (Near p q) (listExecutions workflow limit offset) (listExecutions workflow limit offset) :=
  twins_query _ (fun _ => rfl) (by decide) (by decide) _

theorem twins_setExecutionStatus (id : String) (status error time : Value) :
    Twins (Near p q) (setExecutionStatus id status error time)
      (setExecutionStatus id status error time) := by
  refine twins_retrying _ ?_
  cases ExecutionStatus.read status
  case' error f =>
    refine .then_ (.throw f) fun status => twins_session _ (fun s => ?_) (by decide) (by decide) _
  case' ok status =>
    refine .then_ (.pure rfl) fun status => twins_session _ (fun s => ?_) (by decide) (by decide) _
  all_goals
    have same : s.sansLogs.execution? id = s.execution? id := rfl
    dsimp only
    rw [same]
    cases s.execution? id with
    | none => rfl
    | some row =>
      dsimp only
      cases error.isNull <;> cases time.isNull <;> cases Store.textCell error <;>
        cases Store.wholeCell time <;> rfl

theorem twins_saveMarker (execution node : String) (resumeAt : Instant) (context : Value) :
    Twins (Near p q) (saveMarker execution node resumeAt context)
      (saveMarker execution node resumeAt context) :=
  twins_retrying _ (twins_session _ (fun _ => rfl) (by decide) (by decide) _)

theorem twins_clearMarker (id : Int) : Twins (Near p q) (clearMarker id) (clearMarker id) :=
  twins_session _ (.ite .error (.ok fun _ => rfl)) (by decide) (by decide) _

theorem twins_clearMarkers (id : String) : Twins (Near p q) (clearMarkers id) (clearMarkers id) :=
  twins_session _ (fun _ => rfl) (by decide) (by decide) _

theorem twins_listMarkers (id : Option String) : Twins (Near p q) (listMarkers id) (listMarkers id) :=
  twins_query _ (fun _ => rfl) (by decide) (by decide) _

theorem twins_createTicket (t : TicketDraft) : Twins (Near p q) (createTicket t) (createTicket t) :=
  .then_ twins_freshId fun id => .then_ (twins_session "create ticket"
    (.bind fun row => .ok fun _ => rfl) (by decide) (by decide) _) fun _ =>
    .then_ (twins_note (serviceLogger_ne _)) fun _ => .pure rfl

theorem twins_findTicket (id : String) : Twins (Near p q) (findTicket id) (findTicket id) :=
  twins_query _ (fun _ => rfl) (by decide) (by decide) _

theorem twins_updateTicket (id : String) (updates : Dict) :
    Twins (Near p q) (updateTicket id updates) (updateTicket id updates) := by
  refine .then_ (twins_session "update ticket" ?_ (by decide) (by decide) _) fun _ => ?_
  · intro s
    have same : s.sansLogs.ticket? id = s.ticket? id := rfl
    dsimp only
    rw [same]
    cases s.ticket? id with
    | none => rfl
    | some t =>
      dsimp only
      cases t.change updates <;> rfl
  · cases changedNames updates with
    | ok names => exact twins_note (serviceLogger_ne _)
    | error f => exact .throw f

theorem twins_assignTicket (id : String) (assignee : Value) :
    Twins (Near p q) (assignTicket id assignee) (assignTicket id assignee) := by
  refine .then_ (twins_session "assign ticket" ?_ (by decide) (by decide) _)
    fun _ => twins_note (serviceLogger_ne _)
  intro s
  have same : s.sansLogs.ticket? id = s.ticket? id := rfl
  dsimp only
  rw [same]
  cases s.ticket? id with
  | none => rfl
  | some t =>
    dsimp only
    cases Store.textCell assignee <;> rfl

theorem twins_notify (a : Announcement) : Twins (Near p q) (notify a) (notify a) :=
  .then_ (twins_openSession _ (by decide) (by decide) _) fun _ => .then_ (twins_freshIds _) fun ids =>
    .then_ (twins_transact (.bind fun rows => .ok fun _ => rfl)) fun _ =>
      .then_ (twins_note (serviceLogger_ne _)) fun _ => .pure rfl

/-! What is done with the log itself. -/

/-- Nothing has changed but that sessions on the log may have been used up. -/
structure Worn (s t : Storage) : Prop where
  akin : s.Akin t
  rows : t.tables.logs = s.tables.logs
  spoken : t.journal.spoken = s.journal.spoken
  faultless : s.echo.faults = [] → t.echo.faults = []
  mild : s.echo.Mild → t.echo.Mild

theorem Worn.refl (s : Storage) : s.Worn s := ⟨.refl s, rfl, rfl, id, id⟩

theorem Worn.trans {s t u : Storage} (first : s.Worn t) (second : t.Worn u) : s.Worn u :=
  ⟨first.akin.trans second.akin, second.rows.trans first.rows, second.spoken.trans first.spoken,
    fun none => second.faultless (first.faultless none), fun mild => second.mild (first.mild mild)⟩

/-- A record of the process log that tells of no execution makes no difference. -/
theorem Worn.noted {s t : Storage} {j : Journal} (worn : s.Worn t) (same : j.spoken = t.journal.spoken) :
    s.Worn { t with journal := j } :=
  ⟨⟨worn.akin.tables, worn.akin.next, worn.akin.outages⟩, worn.rows, same.trans worn.spoken,
    worn.faultless, worn.mild⟩

/-- The same tables and outages, and the same told. -/
theorem Worn.of_part {s t : Storage} (part : t.part = s.part) (tables : t.tables = s.tables)
    (outages : t.outages = s.outages) : s.Worn t := by
  have faults : t.echo.faults = s.echo.faults := congrArg (List.filter _) outages
  refine ⟨⟨by rw [tables], congrArg Part.next part, by rw [outages]⟩, by rw [tables],
    congrArg Part.spoken part, fun none => faults.trans none, fun mild => ?_⟩
  unfold Echo.Mild
  rw [faults]
  exact mild

/-- A session for log entries leaves the outages of all others as they are. -/
theorem worn_strike (s : Storage) :
    s.Worn { s with outages := (Store.Outage.strike "append execution log" s.outages).2 } := by
  have found := Store.Outage.strike_filter "append execution log"
    Store.Outage.hitsLog_congr (fun o same => by simp [Store.Outage.hitsLog, same]) s.outages
  have left : _ = (Store.Outage.strike "append execution log" s.outages).2.filter
    Store.Outage.hitsLog := congrArg Prod.snd found
  refine ⟨⟨rfl, rfl, Store.Outage.filter_strike _ Store.Outage.isElse_congr
    (fun o same => by simp [Store.Outage.isElse, same]) _⟩, rfl, rfl, fun none => ?_, fun mild o there => ?_⟩
  · change (Store.Outage.strike "append execution log" s.outages).2.filter Store.Outage.hitsLog = []
    have none : s.outages.filter Store.Outage.hitsLog = [] := none
    rw [← left, none]
    rfl
  · change o ∈ (Store.Outage.strike "append execution log" s.outages).2.filter
      Store.Outage.hitsLog at there
    rw [← left] at there
    obtain ⟨o', was, kind⟩ := Store.Outage.kind_of_mem_strike there
    exact kind ▸ mild o' was

/-- A log entry is stored at the end of the log, or is refused with a storage error. -/
theorem ends_appendLog_worn {s : Storage} (mild : s.echo.Mild) (execution tenant : String)
    (entry : LogEntry) :
    Ends (appendLog execution (.text tenant) entry) s
      (fun _ t => s.Worn { t with tables := s.tables } ∧
        t.tables = { s.tables with logs := s.tables.logs ++ [⟨execution, tenant, entry⟩] })
      (fun f t => s.Worn t ∧ f.IsStorage ∧ s.echo.faults ≠ []) := by
  suffices tried : Ends (appendLog execution (.text tenant) entry) s
      (fun _ t => s.Worn { t with tables := s.tables } ∧
        t.tables = { s.tables with logs := s.tables.logs ++ [⟨execution, tenant, entry⟩] })
      (fun f t => (s.Worn t ∧ t.tables = s.tables) ∧ f.IsStorage ∧ s.echo.faults ≠ []) from
    tried.imp (fun _ _ h => h) fun _ _ h => ⟨h.1.1, h.2⟩
  refine ends_retrying_of_kept (fun t => s.Worn t ∧ t.tables = s.tables)
    (fun f => f.IsStorage ∧ s.echo.faults ≠ [])
    (fun t u part tables outages kept =>
      ⟨kept.1.trans (.of_part part tables outages), tables.trans kept.2⟩) _ ?_ ⟨.refl s, rfl⟩
  rintro t ⟨worn, tables⟩
  have struck := worn.trans (worn_strike t)
  refine Ends.bind ?_
  unfold Ends
  rw [openSession_eq]
  cases hit : (Store.Outage.strike "append execution log" t.outages).1 with
  | some o =>
    have among : o ∈ t.echo.faults := by
      suffices struck : (Store.Outage.strike "append execution log" t.echo.faults).1 = some o from
        Store.Outage.mem_of_strike struck
      have found := Store.Outage.strike_filter "append execution log"
        Store.Outage.hitsLog_congr (fun o same => by simp [Store.Outage.hitsLog, same]) t.outages
      exact (congrArg Prod.fst found).trans hit
    refine ⟨⟨struck, tables⟩, Store.Outage.isStorage_failure (worn.mild mild o among) _, fun none => ?_⟩
    rw [worn.faultless none] at among
    cases among
  | none =>
    refine ⟨?_, ?_⟩
    · change s.Worn { t with
        tables := s.tables, outages := (Store.Outage.strike "append execution log" t.outages).2 }
      rw [← tables]
      exact struck
    · change { t.tables with logs := t.tables.logs ++ [(⟨execution, tenant, entry⟩ : Store.LogRow)] } = _
      rw [tables]

/-- What anybody else stores in the log, or fails to, makes no other difference. -/
theorem ends_appendLog_akin {s : Storage} (mild : s.echo.Mild) (execution : String) (tenant : Value)
    (entry : LogEntry) :
    Ends (appendLog execution tenant entry) s (fun _ t => s.Akin t ∧ t.echo.Mild)
      fun _ t => s.Akin t ∧ t.echo.Mild := by
  suffices tried : Ends (appendLog execution tenant entry) s (fun _ t => s.Akin t ∧ t.echo.Mild)
      fun _ t => (s.Akin t ∧ t.echo.Mild) ∧ True from tried.imp (fun _ _ h => h) fun _ _ h => h.1
  refine ends_retrying_of_kept (fun t => s.Akin t ∧ t.echo.Mild) (fun _ => True)
    (fun t u part tables outages kept => ?_) _ ?_ ⟨.refl s, mild⟩
  · have worn := Worn.of_part part tables outages
    exact ⟨kept.1.trans worn.akin, worn.mild kept.2⟩
  · rintro t ⟨akin, mild⟩
    have struck := worn_strike t
    have apart := akin.trans struck.akin
    have mild := struck.mild mild
    refine Ends.bind ?_
    unfold Ends
    rw [openSession_eq]
    cases (Store.Outage.strike "append execution log" t.outages).1 with
    | some o => exact ⟨⟨apart, mild⟩, trivial⟩
    | none =>
      dsimp only
      rw [transact_eq]
      cases Store.textCell tenant with
      | error r =>
        cases r with
        | rejected => exact ⟨⟨⟨apart.tables, apart.next, apart.outages⟩, mild⟩, trivial⟩
        | raised f => exact ⟨⟨apart, mild⟩, trivial⟩
      | ok cell =>
        cases cell with
        | none => exact ⟨⟨⟨apart.tables, apart.next, apart.outages⟩, mild⟩, trivial⟩
        | some tenant => exact ⟨⟨apart.tables, apart.next, apart.outages⟩, mild⟩

/-- Reading the log changes nothing but that sessions are used up. -/
theorem ends_listLogs {s : Storage} (execution : String) :
    Ends (listLogs execution) s (fun _ t => s.Akin t ∧ t.echo = s.echo)
      fun _ t => s.Akin t ∧ t.echo = s.echo := by
  let t : Storage := { s with outages := (Store.Outage.strike "list execution logs" s.outages).2 }
  have struck : s.Akin t ∧ t.echo = s.echo := by
    refine ⟨⟨rfl, rfl, Store.Outage.filter_strike _ Store.Outage.isElse_congr
      (fun o same => by simp [Store.Outage.isElse, same]) _⟩, ?_⟩
    exact congrArg (Echo.mk s.tables.logs s.journal.spoken) (Store.Outage.filter_strike _
      Store.Outage.hitsLog_congr (fun o same => by simp [Store.Outage.hitsLog, same]) _)
  refine Ends.bind ?_
  unfold Ends
  rw [openSession_eq]
  cases (Store.Outage.strike "list execution logs" s.outages).1 with
  | some o => exact struck
  | none => exact struck

/-- An outage of something else is planned. -/
theorem Near.plan {s u : Storage} (near : Near p q s u) {o : Store.Outage} (other : o.hitsLog = false) :
    Near p q { s with outages := o.plan s.outages } { u with outages := o.plan u.outages } := by
  have faults (os : List Store.Outage) :
      (o.plan os).filter Store.Outage.hitsLog = os.filter Store.Outage.hitsLog := by
    unfold Store.Outage.plan
    rw [List.filter_append, List.filter_cons_of_neg (by simp [other]), List.filter_filter]
    refine (List.append_nil _).trans (List.filter_congr fun o' _ => ?_)
    cases hit : o'.hitsLog with
    | false => rfl
    | true =>
      have apart : o'.operation ≠ o.operation := by
        intro same
        rw [Store.Outage.hitsLog_congr o o' same, other] at hit
        cases hit
      simp [apart]
  have rest (os : List Store.Outage) : (o.plan os).filter Store.Outage.isElse =
      (o.plan (os.filter Store.Outage.isElse)).filter Store.Outage.isElse := by
    unfold Store.Outage.plan
    rw [List.filter_append, List.filter_append, List.filter_filter, List.filter_filter,
      List.filter_filter]
    simp only [Bool.and_comm, Bool.and_self, Bool.and_left_comm]
  have same (t : Storage) : { t with outages := o.plan t.outages }.echo = t.echo :=
    congrArg (Echo.mk t.tables.logs t.journal.spoken) (faults t.outages)
  refine ⟨⟨near.akin.tables, near.akin.next, ?_⟩, (same s).trans near.left, (same u).trans near.right⟩
  change (o.plan u.outages).filter _ = (o.plan s.outages).filter _
  rw [rest, near.akin.outages, ← rest]

/-- Storages that are akin, where what became of the log entries is tied together. -/
structure Matched (F : Echo → Echo → Prop) (s u : Storage) : Prop where
  akin : s.Akin u
  mild : s.echo.Mild ∧ u.echo.Mild
  tied : F s.echo u.echo

/-- What leaves the log alone keeps any tie. -/
theorem twins_matched {F : Echo → Echo → Prop} {x y : StorageM α} (each : ∀ p q, Twins (Near p q) x y) :
    Twins (Matched F) x y := by
  intro s u matched
  have met := each s.echo u.echo s u ⟨matched.akin, rfl, rfl⟩
  have kept {t w : Storage} (near : Near s.echo u.echo t w) : Matched F t w :=
    ⟨near.akin, ⟨near.left ▸ matched.mild.1, near.right ▸ matched.mild.2⟩,
      near.left ▸ near.right ▸ matched.tied⟩
  generalize x s = r at met ⊢
  generalize y u = r' at met ⊢
  cases met with
  | answer alike near => exact .answer alike (kept near)
  | failure near => exact .failure (kept near)

/-- With a workflow the log entries of its executions are deleted, the same from both logs. -/
theorem twins_deleteWorkflow {F : Echo → Echo → Prop}
    (closed : ∀ p q wanted, F p q → F (p.keep wanted) (q.keep wanted)) (id : String) :
    Twins (Matched F) (deleteWorkflow id) (deleteWorkflow id) := by
  refine .then_ (.then_ (twins_matched fun _ _ => twins_openSession "delete workflow"
    (by decide) (by decide) _) fun _ => ?_) fun count => .then_ (twins_matched fun _ _ =>
    twins_note (by decide)) fun _ => .pure rfl
  intro s u matched
  have found : u.tables.workflow? id = s.tables.workflow? id :=
    congrArg (fun t => t.workflow? id) matched.akin.tables
  have executions : u.tables.executions = s.tables.executions :=
    congrArg (·.executions) matched.akin.tables
  rw [transact_eq, transact_eq, found, executions]
  cases (s.tables.workflow? id).isSome with
  | false => exact .failure matched
  | true =>
    let wanted (l : Store.LogRow) : Bool :=
      !((s.tables.executions.filter (·.workflow == id)).map (·.id)).contains l.execution
    refine .answer rfl ⟨⟨?_, matched.akin.next, matched.akin.outages⟩, matched.mild, ?_⟩
    · exact congrArg (fun t => (t.deleteWorkflow id).sansLogs) matched.akin.tables
    · have tied := closed _ _ wanted matched.tied
      have right : { u with tables := u.tables.deleteWorkflow id }.echo = u.echo.keep wanted := by
        unfold echo Store.deleteWorkflow
        dsimp only
        rw [executions]
        rfl
      rw [right]
      exact tied

theorem twins_createArticle (a : ArticleDraft) : Twins (Near p q) (createArticle a) (createArticle a) :=
  .then_ twins_freshId fun id => .then_ (twins_session "create knowledge article"
    (.bind fun row => .ok fun _ => rfl) (by decide) (by decide) _) fun _ =>
    .then_ (twins_note (serviceLogger_ne _)) fun _ => .pure rfl

end Storage

end Runbook
