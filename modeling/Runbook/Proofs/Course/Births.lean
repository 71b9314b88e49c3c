import Runbook.Proofs.Course.Bond
import Runbook.Proofs.Course.Outages
import Runbook.Proofs.Course.Restart

/-!
Which executions come into being. Executions are created in store one after the other, each under a
new id, and are never removed; nothing but the start of an execution creates one, and once it is
created its start does not fail any more, whatever is refused.
-/
namespace Runbook

/-- What was parsed from a row has the id of the row, and its tenant. -/
theorem Store.WorkflowRow.names_of_parse {row : Store.WorkflowRow} {w : Workflow}
    (parsed : Workflow.parse row.record = .ok w) : w.id = some row.id ∧ w.tenant = row.tenant := by
  unfold Workflow.parse at parsed
  split at parsed
  · rename_i accepted
    cases parsed
    obtain ⟨d, own, fields⟩ := Workflow.read_eq_accepted accepted
    obtain rfl := Value.dict.inj own
    have named : Reading.accepted w.id = .accepted (some row.id) := fields.id.symm
    have owned : Reading.accepted w.tenant = .accepted row.tenant := fields.tenant.symm
    exact ⟨Reading.accepted.inj named, Reading.accepted.inj owned⟩
  all_goals cases parsed

theorem Store.WorkflowRow.id_of_parse {row : Store.WorkflowRow} {w : Workflow}
    (parsed : Workflow.parse row.record = .ok w) : w.id = some row.id :=
  row.names_of_parse parsed |>.1

namespace Storage

/-- The executions in store in the order in which they were created, each with its workflow. -/
def born (s : Storage) : List (String × String) := s.tables.executions.map fun r => (r.id, r.workflow)

/-- For which operations outages are planned, and of which kinds. -/
def planned (s : Storage) : List (String × Store.OutageKind) :=
  s.outages.map fun o => (o.operation, o.kind)

/-- Executions are born under new ids, and outages are only used up. -/
structure Bears (l : List (String × String)) (s t : Storage) : Prop where
  born : t.born = s.born ++ l
  new : ∀ c ∈ l, ∃ n, s.nextId ≤ n ∧ n < t.nextId ∧ c.1 = idText n
  distinct : (l.map (·.1)).Nodup
  later : s.nextId ≤ t.nextId
  planned : t.planned = s.planned

theorem mild_iff {s : Storage} : s.Mild ↔ ∀ p ∈ s.planned, p.2 = .storage := by
  unfold Mild planned
  simp

variable {α : Type} {s t u : Storage} {l m : List (String × String)}

namespace Bears

theorem refl (s : Storage) : Bears [] s s :=
  ⟨(List.append_nil _).symm, by simp, List.nodup_nil, Nat.le_refl _, rfl⟩

/-- The same tables and outages, and no id that is free again. -/
theorem of_eq (tables : t.tables = s.tables) (later : s.nextId ≤ t.nextId)
    (outages : t.outages = s.outages) : Bears [] s t :=
  ⟨by rw [Storage.born, tables]; exact (List.append_nil _).symm, by simp, List.nodup_nil, later,
    by rw [Storage.planned, outages]; rfl⟩

theorem trans (first : Bears l s t) (second : Bears m t u) : Bears (l ++ m) s u where
  born := by rw [second.born, first.born, List.append_assoc]
  new c there := by
    rcases List.mem_append.1 there with old | new
    · obtain ⟨n, late, early, same⟩ := first.new c old
      exact ⟨n, late, Nat.lt_of_lt_of_le early second.later, same⟩
    · obtain ⟨n, late, early, same⟩ := second.new c new
      exact ⟨n, Nat.le_trans first.later late, early, same⟩
  distinct := by
    rw [List.map_append, List.nodup_append']
    refine ⟨first.distinct, second.distinct, fun k old new => ?_⟩
    obtain ⟨c, there, rfl⟩ := List.mem_map.1 old
    obtain ⟨c', there', same⟩ := List.mem_map.1 new
    obtain ⟨n, -, early, name⟩ := first.new c there
    obtain ⟨n', late, -, name'⟩ := second.new c' there'
    have number : n' = n := Scene.idText_inj (name'.symm.trans (same.trans name))
    omega
  later := Nat.le_trans first.later second.later
  planned := second.planned.trans first.planned

theorem after (second : Bears m t u) (first : Bears [] s t) : Bears m s u := first.trans second

theorem mild (bears : Bears l s t) (mild : s.Mild) : t.Mild := by
  rw [mild_iff, bears.planned]
  exact mild_iff.1 mild

end Bears

theorem planned_strike (operation : String) (os : List Store.Outage) :
    (Store.Outage.strike operation os).2.map (fun o => (o.operation, o.kind)) =
      os.map fun o => (o.operation, o.kind) := by
  induction os with
  | nil => rfl
  | cons o rest ih =>
    by_cases hit : o.operation = operation
    · have name : o.pass.2.operation = o.operation := by
        unfold Store.Outage.pass
        split <;> rfl
      rw [Store.Outage.strike_of_eq hit, List.map_cons, List.map_cons, name, o.kind_pass]
    · rw [Store.Outage.strike_of_ne hit, List.map_cons, List.map_cons, ih]

/-- A session is opened, or refused by an outage that is planned for it. -/
theorem bears_openSession (operation table : String) :
    Ends (openSession operation table) s
      (fun _ t => Bears [] s t ∧ t.tables = s.tables ∧ t.nextId = s.nextId)
      fun f t => Bears [] s t ∧ ∃ o ∈ s.outages, o.operation = operation ∧ f = o.failure table := by
  refine Ends.bind (Ends.get_iff.2 (Ends.bind (Ends.modify_iff.2 ?_)))
  have struck : Bears [] s { s with outages := (Store.Outage.strike operation s.outages).2 } :=
    ⟨(List.append_nil _).symm, by simp, List.nodup_nil, Nat.le_refl _, planned_strike ..⟩
  cases hit : (Store.Outage.strike operation s.outages).1 with
  | none => exact Ends.pure_iff.2 ⟨struck, rfl, rfl⟩
  | some o =>
    exact Ends.throw_iff.2 ⟨struck, o, Store.Outage.mem_of_strike hit,
      Store.Outage.operation_of_strike hit, rfl⟩

/-- The work of a session is done on the tables, or fails and leaves them. -/
theorem bears_transact {work : Store → Except Store.Refusal (α × Store)} (operation table : String) :
    Ends (transact operation table work) s
      (fun a t => work s.tables = .ok (a, t.tables) ∧ t.nextId = s.nextId ∧ t.planned = s.planned)
      fun f t => Bears [] s t ∧ ((f.IsStorage ∧ work s.tables = .error .rejected) ∨
        work s.tables = .error (.raised f)) := by
  unfold transact
  rw [Ends.bind_iff, Ends.get_iff]
  cases outcome : work s.tables with
  | ok done => exact Ends.bind (Ends.modify_iff.2 (Ends.pure_iff.2 ⟨rfl, rfl, rfl⟩))
  | error r =>
    cases r with
    | rejected =>
      exact Ends.bind (Ends.modify_iff.2 (Ends.throw_iff.2
        ⟨.of_eq rfl (Nat.le_refl _) rfl, .inl ⟨⟨_, rfl, rfl⟩, rfl⟩⟩))
    | raised f => exact Ends.throw_iff.2 ⟨.refl s, .inr rfl⟩

/-- A session has its effect on the tables, or fails, refused or not, and leaves them. -/
theorem bears_session {work : Store → Except Store.Refusal (α × Store)} (operation table : String) :
    Ends (session operation table work) s
      (fun a t => work s.tables = .ok (a, t.tables) ∧ t.nextId = s.nextId ∧ t.planned = s.planned)
      fun f t => Bears [] s t ∧ ((∃ o ∈ s.outages, o.operation = operation ∧ f = o.failure table) ∨
        (f.IsStorage ∧ work s.tables = .error .rejected) ∨ work s.tables = .error (.raised f)) := by
  refine Ends.bind ((bears_openSession operation table).imp ?_ fun _ _ h => ⟨h.1, .inl h.2⟩)
  rintro _ t ⟨opened, tables, next⟩
  refine (bears_transact operation table).imp ?_ ?_
  · rintro a u ⟨done, later, planned⟩
    exact ⟨tables ▸ done, later.trans next, planned.trans opened.planned⟩
  · rintro f u ⟨kept, failure⟩
    exact ⟨kept.after opened, .inr (tables ▸ failure)⟩

/-- Whether work on tables leaves the executions there, as far as they are followed. -/
def Childless (work : Store → Except Store.Refusal (α × Store)) : Prop :=
  ∀ v a w, work v = .ok (a, w) →
    w.executions.map (fun r => (r.id, r.workflow)) = v.executions.map fun r => (r.id, r.workflow)

/-- Where the work leaves the executions, none is born. -/
theorem Childless.bears {work : Store → Except Store.Refusal (α × Store)} (childless : Childless work)
    {a : α} (done : work s.tables = .ok (a, t.tables)) (next : t.nextId = s.nextId)
    (planned : t.planned = s.planned) : Bears [] s t :=
  ⟨(childless _ _ _ done).trans (List.append_nil _).symm, by simp, List.nodup_nil,
    Nat.le_of_eq next.symm, planned⟩

theorem Childless.session {work : Store → Except Store.Refusal (α × Store)} (childless : Childless work)
    (operation table : String) :
    Ends (session operation table work) s (fun _ t => Bears [] s t) fun _ t => Bears [] s t :=
  (bears_session operation table).imp (fun _ _ h => childless.bears h.1 h.2.1 h.2.2) fun _ _ h => h.1

theorem Quiet.bears {x : StorageM α} (quiet : Quiet x) :
    Ends x s (fun _ t => Bears [] s t) fun _ t => Bears [] s t := by
  induction quiet generalizing s with
  | pure a => exact .refl s
  | throw f => exact .refl s
  | bind first next ih ihNext =>
    exact Ends.bind (ih.imp (fun a _ kept => (ihNext a).imp (fun _ _ more => more.after kept)
      fun _ _ more => more.after kept) fun _ _ kept => kept)
  | freshId =>
    exact Ends.bind (Ends.get_iff.2 (Ends.bind (Ends.modify_iff.2
      (Ends.pure_iff.2 (.of_eq rfl (Nat.le_succ _) rfl)))))
  | note other => exact Ends.modify_iff.2 (.of_eq rfl (Nat.le_refl _) rfl)
  | openSession operation table =>
    exact (bears_openSession operation table).imp (fun _ _ h => h.1) fun _ _ h => h.1
  | transact aside =>
    have childless : Childless _ := fun v a w done => by rw [(aside v a w done).1]
    exact (bears_transact _ _).imp (fun _ _ h => childless.bears h.1 h.2.1 h.2.2) fun _ _ h => h.1

/-- What is tried again leaves nothing behind when no attempt does. -/
theorem bears_retrying {call : StorageM α} {good : α → Storage → Prop} (failing : Failure → Prop)
    (name : String)
    (each : ∀ t, Bears [] s t → Ends call t good fun f u => Bears [] t u ∧ failing f) :
    Ends (retrying name call) s good fun f t => Bears [] s t ∧ failing f := by
  refine ends_retrying_of_kept (Bears [] s) failing (fun t u part tables outages kept => ?_) name
    (fun t kept => (each t kept).imp (fun _ _ h => h) fun _ _ h => ⟨h.1.after kept, h.2⟩) (.refl s)
  exact (Bears.of_eq tables (Nat.le_of_eq (congrArg Part.next part).symm) outages).after kept

theorem bears_retried {call : StorageM α} (name : String)
    (each : ∀ t, Ends call t (fun _ u => Bears [] t u) fun _ u => Bears [] t u) :
    Ends (retrying name call) s (fun _ t => Bears [] s t) fun _ t => Bears [] s t := by
  refine (bears_retrying (fun _ => True) name fun t kept => ?_).imp (fun _ _ h => h) fun _ _ h => h.1
  exact (each t).imp (fun _ _ more => more.after kept) fun _ _ more => ⟨more, trivial⟩

theorem born_updateExecution (v : Store) (id : String) {f : Store.ExecutionRow → Store.ExecutionRow}
    (same : ∀ r, ((f r).id, (f r).workflow) = (r.id, r.workflow)) :
    (v.updateExecution id f).executions.map (fun r => (r.id, r.workflow)) =
      v.executions.map fun r => (r.id, r.workflow) := by
  unfold Store.updateExecution
  rw [List.map_map]
  refine List.map_congr_left fun r _ => ?_
  dsimp only [Function.comp]
  split
  · exact same r
  · rfl

theorem bears_setExecutionStatus (id : String) (status error time : Value) :
    Ends (setExecutionStatus id status error time) s (fun _ t => Bears [] s t) fun _ t => Bears [] s t := by
  refine bears_retried _ fun t => ?_
  cases ExecutionStatus.read status with
  | error f => exact Ends.bind (Ends.throw_iff.2 (.refl t))
  | ok status =>
    refine Ends.bind (Ends.pure_iff.2 (Childless.session (fun v a w done => ?_) _ _))
    split at done
    · cases done
    · dsimp only at done
      split at done <;> obtain ⟨error, -, done⟩ := bind_eq_ok done <;> split at done <;>
      · obtain ⟨time, -, done⟩ := bind_eq_ok done
        cases done
        exact born_updateExecution v id fun _ => rfl

theorem bears_appendLog (execution : String) (tenant : Value) (entry : LogEntry) :
    Ends (appendLog execution tenant entry) s (fun _ t => Bears [] s t) fun _ t => Bears [] s t := by
  refine bears_retried _ fun t => Childless.session (fun v a w done => ?_) _ _
  obtain ⟨cell, -, done⟩ := bind_eq_ok done
  obtain ⟨tenant, -, done⟩ := bind_eq_ok done
  cases done
  rfl

/-- No execution is born of anything but its creation. -/
theorem Errand.bears {x : StorageM α} (errand : Errand x) :
    Ends x s (fun _ t => Bears [] s t) fun _ t => Bears [] s t := by
  cases errand with
  | loadWorkflow id => exact (quiet_loadWorkflow id).bears
  | activeWorkflows | loadExecution | listMarkers => exact (Quiet.query _ _ _).bears
  | setStatus => exact bears_setExecutionStatus _ _ _ _
  | saveMarker =>
    refine bears_retried _ fun t => Childless.session (fun v a w done => ?_) _ _
    cases done
    rfl
  | clearMarker =>
    refine Childless.session (fun v a w done => ?_) _ _
    split at done <;> cases done
    rfl
  | clearMarkers =>
    refine Childless.session (fun v a w done => ?_) _ _
    cases done
    rfl
  | createTicket t => exact (quiet_createTicket t).bears
  | updateTicket id updates => exact (quiet_updateTicket id updates).bears
  | assignTicket id assignee => exact (quiet_assignTicket id assignee).bears
  | notify a => exact (quiet_notify a).bears
  | createArticle a => exact (quiet_createArticle a).bears

/-- The row of an execution that has just begun is that of its workflow. -/
theorem workflow_of_opening {id : String} {workflow tenant data module item : Value}
    {row : Store.ExecutionRow}
    (opening : Store.ExecutionRow.opening id workflow tenant data module item = .ok row) :
    row.id = id ∧ Store.textCell workflow = .ok (some row.workflow) := by
  unfold Store.ExecutionRow.opening at opening
  obtain ⟨cell, isCell, opening⟩ := bind_eq_ok opening
  obtain ⟨_, -, opening⟩ := bind_eq_ok opening
  obtain ⟨_, -, opening⟩ := bind_eq_ok opening
  obtain ⟨_, -, opening⟩ := bind_eq_ok opening
  obtain ⟨name, isName, opening⟩ := bind_eq_ok opening
  obtain ⟨_, -, opening⟩ := bind_eq_ok opening
  obtain ⟨_, -, opening⟩ := bind_eq_ok opening
  cases opening
  cases cell with
  | none => cases isName
  | some c =>
    cases isName
    exact ⟨rfl, isCell⟩

/-- An execution is born under a new id, or only ids are taken. -/
theorem bears_createExecution (workflow tenant data module item : Value) :
    Ends (createExecution workflow tenant data module item) s
      (fun id t => ∃ w, Store.textCell workflow = .ok (some w) ∧ Bears [(id, w)] s t)
      fun _ t => Bears [] s t := by
  refine (bears_retrying (fun _ => True) _ fun t kept => ?_).imp (fun _ _ h => h) fun _ _ h => h.1
  refine Ends.bind (Ends.bind (Ends.get_iff.2 (Ends.bind (Ends.modify_iff.2 (Ends.pure_iff.2 ?_)))))
  have taken : Bears [] t { t with nextId := t.nextId + 1 } := .of_eq rfl (Nat.le_succ _) rfl
  refine Ends.bind ((bears_session _ _).imp ?_ fun _ _ h => ⟨h.1.after taken, trivial⟩)
  rintro _ u ⟨done, next, planned⟩
  obtain ⟨row, opening, done⟩ := bind_eq_ok done
  obtain ⟨own, cell⟩ := workflow_of_opening opening
  have tables := (Prod.mk.inj (Except.ok.inj done)).2
  refine Ends.pure_iff.2 ⟨row.workflow, cell, Bears.after ?_ kept⟩
  refine ⟨?_, fun c there => ?_, List.nodup_singleton _, ?_, planned⟩
  · unfold Storage.born
    rw [← tables, List.map_append, List.map_singleton, own]
  · rw [List.mem_singleton.1 there]
    exact ⟨t.nextId, Nat.le_refl _, next ▸ Nat.lt_succ_self _, rfl⟩
  · exact next ▸ Nat.le_succ _

/-! Whether what is tried again can be done depends on the outages for it alone. -/

/-- What is tried again until it succeeds or no attempt is left. -/
theorem ends_retrying_left {call : StorageM α} {good : α → Storage → Prop} (kept : Nat → Storage → Prop)
    (failing : Failure → Prop) (again : ∀ f, failing f → writePolicy.accepts f = true)
    (lasting : ∀ n (t u : Storage), u.tables = t.tables → u.outages = t.outages → kept n t → kept n u)
    (name : String) (each : ∀ n t, kept (n + 1) t → Ends call t good fun f u => kept n u ∧ failing f)
    (start : kept 3 s) : Ends (retrying name call) s good fun f t => kept 0 t ∧ failing f := by
  suffices tried : ∀ left attempt (t : Storage), 1 ≤ attempt → attempt + left = 3 → kept (left + 1) t →
      Ends (writePolicy.attempts {
        failed := awaitRetry name
        gaveUp := fun used f => modify fun s => { s with
          journal := Retry.reportGaveUp s.journal name name used f } } call left attempt) t good
        fun f u => kept 0 u ∧ failing f from tried 2 1 s (Nat.le_refl _) rfl start
  intro left
  induction left with
  | zero =>
    intro attempt t _ _ start
    refine Ends.tryCatch_iff.2 ((each 0 t start).imp (fun _ _ h => h) fun f u ⟨still, why⟩ => ?_)
    simp only [again f why, if_true]
    exact Ends.bind (Ends.modify_iff.2 (Ends.throw_iff.2 ⟨lasting 0 u _ rfl rfl still, why⟩))
  | succ left ih =>
    intro attempt t first few start
    refine Ends.tryCatch_iff.2 ((each _ t start).imp (fun _ _ h => h) fun f u ⟨still, why⟩ => ?_)
    simp only [again f why, if_true]
    refine Ends.bind ((ends_awaitRetry name (by omega) f).imp ?_ fun _ _ h => h.elim)
    rintro _ w ⟨-, tables, outages⟩
    exact ih (attempt + 1) w (by omega) (by omega) (lasting _ u w tables outages still)

/-- Whether one of some attempts to open a session is let pass. -/
def lets (operation : String) : Nat → List Store.Outage → Bool
  | 0, _ => false
  | n + 1, os => (Store.Outage.strike operation os).1.isNone ||
    lets operation n (Store.Outage.strike operation os).2

/-- An operation that is tried again gets a session. -/
def grants (s : Storage) (operation : String) : Bool := lets operation 3 s.outages

/-- A storage failure that is worth another attempt. -/
def Passing (f : Failure) : Prop := f.IsStorage ∧ writePolicy.accepts f = true

theorem passing_failure {o : Store.Outage} (kind : o.kind = .storage) (table : String) :
    Passing (o.failure table) := by
  refine ⟨Store.Outage.isStorage_failure kind table, ?_⟩
  unfold Store.Outage.failure
  rw [kind]
  rfl

/-- A session is opened, or refused in a way that is worth another attempt. -/
theorem lets_openSession (mild : s.Mild) (operation table : String) :
    Ends (openSession operation table) s
      (fun _ _ => ∀ n, lets operation (n + 1) s.outages = true)
      fun f t => Passing f ∧ t.Mild ∧ ∀ n, lets operation (n + 1) s.outages = lets operation n t.outages := by
  refine Ends.bind (Ends.get_iff.2 (Ends.bind (Ends.modify_iff.2 ?_)))
  cases hit : (Store.Outage.strike operation s.outages).1 with
  | none => exact Ends.pure_iff.2 fun n => by simp [lets, hit]
  | some o =>
    exact Ends.throw_iff.2 ⟨passing_failure (mild o (Store.Outage.mem_of_strike hit)) _,
      (stays_strike operation).mild mild, fun n => by simp [lets, hit]⟩

/-- An execution is created as soon as it gets a session. -/
theorem grants_createExecution (mild : s.Mild) {workflow tenant data module item : Value}
    (opens : ∀ id, ∃ row, Store.ExecutionRow.opening id workflow tenant data module item = .ok row) :
    Ends (createExecution workflow tenant data module item) s
      (fun _ _ => s.grants "create execution" = true)
      fun f _ => s.grants "create execution" = false ∧ f.IsStorage := by
  refine (ends_retrying_left (fun n t => t.Mild ∧
    lets "create execution" n t.outages = s.grants "create execution") Passing (fun _ h => h.2) ?_ _ ?_
      ⟨mild, rfl⟩).imp (fun _ _ h => h) fun _ _ h => ⟨h.1.2.symm, h.2.1⟩
  · rintro n t u - outages ⟨mild, same⟩
    exact ⟨fun o there => mild o (outages ▸ there), outages ▸ same⟩
  · rintro n t ⟨mild, same⟩
    refine Ends.bind (Ends.bind (Ends.get_iff.2 (Ends.bind (Ends.modify_iff.2 (Ends.pure_iff.2 ?_)))))
    refine Ends.bind (Ends.bind ((lets_openSession (s := { t with nextId := t.nextId + 1 }) mild _ _).imp
      (fun _ u passed => ?_) fun _ u ⟨passing, mild, left⟩ => ⟨⟨mild, (left n).symm.trans same⟩, passing⟩))
    refine (bears_transact "create execution" "workflow_executions").imp
      (fun _ _ _ => Ends.pure_iff.2 (same.symm.trans (passed n))) fun _ v ⟨_, failed⟩ => ?_
    obtain ⟨row, opening⟩ := opens (idText t.nextId)
    have written : (do
        let row ← Store.ExecutionRow.opening (idText t.nextId) workflow tenant data module item
        return ((), { u.tables with executions := u.tables.executions ++ [row] })) =
      (.ok ((), { u.tables with executions := u.tables.executions ++ [row] }) :
        Except Store.Refusal (Unit × Store)) := by rw [opening]; rfl
    rcases failed with ⟨-, rejected⟩ | raised
    · cases written.symm.trans rejected
    · cases written.symm.trans raised

/-- What no outage is planned for gets a session. -/
theorem grants_of_unplanned {operation : String} (unplanned : ∀ p ∈ s.planned, p.1 ≠ operation) :
    s.grants operation = true := by
  have missed : (Store.Outage.strike operation s.outages).1 = none := by
    cases hit : (Store.Outage.strike operation s.outages).1 with
    | none => rfl
    | some o =>
      exact absurd (Store.Outage.operation_of_strike hit)
        (unplanned _ (List.mem_map.2 ⟨o, Store.Outage.mem_of_strike hit, rfl⟩))
  unfold grants lets
  rw [missed]
  rfl

/-- Storing how an execution in store ended fails only when no session is let pass. -/
theorem isStorage_setExecutionStatus {id w : String} (mild : s.Mild) (stored : (id, w) ∈ s.born)
    (status : ExecutionStatus) (error : Option String) :
    Ends (setExecutionStatus id (.text status.name) (.ofText? error) (.int 0)) s (fun _ _ => True)
      fun f t => Bears [] s t ∧ f.IsStorage := by
  have read : ExecutionStatus.read (.text status.name) = .ok status := by cases status <;> rfl
  refine bears_retrying Failure.IsStorage _ fun t kept => ?_
  simp only [read]
  refine Ends.bind (Ends.pure_iff.2 ((bears_session _ _).imp (fun _ _ _ => trivial) ?_))
  rintro f u ⟨same, ⟨o, there, -, rfl⟩ | ⟨failure, -⟩ | raised⟩
  · exact ⟨same, Store.Outage.isStorage_failure (kept.mild mild o there) _⟩
  · exact ⟨same, failure⟩
  · have found : (t.tables.execution? id).isSome := by
      have there : (id, w) ∈ t.born := by rw [kept.born]; exact List.mem_append_left _ stored
      obtain ⟨row, listed, own⟩ := List.mem_map.1 there
      refine List.find?_isSome.2 ⟨row, listed, ?_⟩
      simpa using congrArg Prod.fst own
    obtain ⟨row, found⟩ := Option.isSome_iff_exists.1 found
    simp only [found] at raised
    cases error <;> cases raised

/-- What is loaded has the id that was asked for. -/
theorem id_loadWorkflow (id : String) :
    Ends (loadWorkflow id) s (fun w _ => w.id = some id) fun _ _ => True := by
  refine Ends.bind ((bears_session _ _).imp ?_ fun _ _ _ => trivial)
  rintro row t ⟨done, -, -⟩
  obtain ⟨found, isFound, done⟩ := bind_eq_ok done
  cases (Prod.mk.inj (Except.ok.inj done)).1
  dsimp only at isFound
  split at isFound
  · rename_i here
    cases isFound
    have own : row.id = id := by simpa using List.find?_some here
    split
    · rename_i parsed
      exact Ends.pure_iff.2 (own ▸ row.id_of_parse parsed)
    · exact Ends.throw_iff.2 trivial
  · cases isFound

end Storage

namespace Engine

variable {α : Type} {e t u : Engine} {l m : List (String × String)}

/-- Between two states, executions came into being only because actions may ask for them. -/
structure Spawns (e t : Engine) (l : List (String × String)) : Prop where
  bears : Storage.Bears l e.storage t.storage
  asked : ∀ c ∈ l, ∃ w, e.registry.MayStart w ∧ c.2 = w.display
  registry : t.registry = e.registry

/-- The same, whichever they are. -/
def Spawning (e t : Engine) : Prop := ∃ l, e.Spawns t l

theorem Spawns.trans (first : e.Spawns t l) (second : t.Spawns u m) : e.Spawns u (l ++ m) where
  bears := first.bears.trans second.bears
  asked c there := by
    rcases List.mem_append.1 there with old | new
    · exact first.asked c old
    · exact first.registry ▸ second.asked c new
  registry := second.registry.trans first.registry

theorem spawning_refl (e : Engine) : e.Spawning e := ⟨[], .refl _, by simp, rfl⟩

theorem Spawning.trans : e.Spawning t → t.Spawning u → e.Spawning u
  | ⟨_, first⟩, ⟨_, second⟩ => ⟨_, first.trans second⟩

/-- Nothing comes into being while the storage bears nothing. -/
theorem Spawning.bears (spawning : e.Spawning t) (bears : Storage.Bears [] t.storage u.storage)
    (registry : u.registry = t.registry) : e.Spawning u :=
  spawning.trans ⟨[], bears, by simp, registry⟩

/-- What asks the storage for nothing that bears leaves the engine as it was, in this respect. -/
theorem spawning_lift {x : StorageM α}
    (bears : ∀ s, Ends x s (fun _ t => Storage.Bears [] s t) fun _ t => Storage.Bears [] s t) :
    Keeps e.Spawning (liftM x : Run α) :=
  fun t spawning => ends_storage.2 ((bears t.storage).imp (fun _ _ more => spawning.bears more rfl)
    fun _ _ more => spawning.bears more rfl)

theorem spawning_tell (id tenant : String) (workflow : Value) (entry : LogEntry) :
    Keeps e.Spawning (tell id tenant workflow entry) := by
  have noted {level : Level} {logger message : String} {context : Dict} :
      Keeps e.Spawning (note level logger message context) := fun t spawning =>
    Ends.modify_iff.2 (spawning.bears (.of_eq rfl (Nat.le_refl _) rfl) rfl)
  refine .bind noted fun _ => .get fun _ => .ite (fun _ => ?_) fun _ => .pure _
  refine .tryCatch (spawning_lift fun s => Storage.bears_appendLog _ _ _) fun f => ?_
  cases f with
  | program p => exact .ite (fun _ => noted) fun _ => .throw _
  | _ => exact .throw _

/-- Whatever an execution does, others come into being only because actions ask for them. -/
theorem bond_spawning (e : Engine) :
    Bond e.registry.MayStart fun t u => u = t ∧ e.Spawning t where
  executions h := h.1 ▸ rfl
  live h := h.1 ▸ rfl
  clock h := h.1 ▸ rfl
  accepting h := h.1 ▸ rfl
  loopLimit h := h.1 ▸ rfl
  registry h := h.1 ▸ rfl
  network h := h.1 ▸ rfl
  starts := by
    rintro t u ⟨-, l, spawns⟩ w may
    exact spawns.registry ▸ may
  change := by
    rintro f apart registry t u ⟨rfl, spawning⟩
    refine ⟨rfl, spawning.bears ?_ (registry _)⟩
    have same : (f u).storage = u.storage := by
      conv_lhs => rw [apart u u.storage u.storesLog]
    exact .of_eq (congrArg Storage.tables same) (Nat.le_of_eq (congrArg Storage.nextId same).symm)
      (congrArg Storage.outages same)
  bind := by
    rintro fields t _ u _ ⟨rfl, -⟩ ⟨rfl, spawning⟩
    exact ⟨rfl, spawning.bears (.of_eq rfl (Nat.le_refl _) rfl) rfl⟩
  note _ := Keeps.twins fun t spawning =>
    Ends.modify_iff.2 (spawning.bears (.of_eq rfl (Nat.le_refl _) rfl) rfl)
  tell id tenant workflow entry := (spawning_tell id tenant workflow entry).twins
  errand errand := (spawning_lift fun s => errand.bears).twins

/-- An action may start an execution that starts others, which are of workflows that actions ask for. -/
theorem spawning_launchAt (depth : Nat) {workflow : Value} (may : e.registry.MayStart workflow)
    (payload : Value) : Keeps e.Spawning (launchAt depth workflow payload) := by
  induction depth generalizing workflow payload with
  | zero => exact .throw _
  | succ depth ih =>
    intro t spawning
    have launches : ∀ w, e.registry.MayStart w → ∀ payload,
        Twins (fun t u => u = t ∧ e.Spawning t) (launchAt depth w payload) (launchAt depth w payload) :=
      fun w may payload => (ih may payload).twins
    have loaded : Ends (liftM (Storage.loadWorkflow workflow.display) : Run Workflow) t
        (fun w _ => w.id = some workflow.display) fun _ _ => True :=
      ends_storage.2 (Storage.id_loadWorkflow workflow.display)
    have kept := spawning_lift (fun s => (Storage.Errand.loadWorkflow workflow.display).bears) t spawning
    refine Ends.bind ((kept.and loaded).imp ?_ fun _ _ h => h.1)
    rintro w u ⟨spawning, own⟩
    rw [startExecution_eq]
    refine Keeps.bind (.ofExcept _) (fun payload => ?_) u spawning
    intro u spawning
    refine Ends.bind (ends_storage.2 ((Storage.bears_createExecution ..).imp ?_
      fun _ _ more => spawning.bears more rfl))
    rintro id s ⟨name, cell, born⟩
    rw [own] at cell
    have same : name = workflow.display := Option.some.inj (Except.ok.inj cell).symm
    have begun : e.Spawning { u with storage := s } := by
      obtain ⟨l, spawns⟩ := spawning
      refine ⟨_, spawns.trans ⟨born, fun c there => ?_, rfl⟩⟩
      exact ⟨workflow, spawns.registry ▸ may, by rw [List.mem_singleton.1 there, same]⟩
    exact Keeps.of_twin ((bond_spawning e).setOff launches w payload _ _ id) _ begun

/-- From the moment that it is created, an execution may have others started by its actions. -/
theorem spawns_setOff (w : Workflow) (payload : Dict) (module item : Value) (id : String) :
    Ends (setOff launch w payload module item id) e (fun _ t => e.Spawning t) fun _ t => e.Spawning t :=
  Keeps.of_twin ((bond_spawning e).setOff
    (fun _ may payload => (spawning_launchAt nesting may payload).twins) w payload module item id) e
    (spawning_refl e)

end Engine

end Runbook
