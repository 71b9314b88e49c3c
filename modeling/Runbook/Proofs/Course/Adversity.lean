import Runbook.Proofs.Course.Settlement

/-!
What adversity leaves of a delay. Whatever is refused while delays are resumed, and however often that is
tried, an execution that is stored as running keeps its row and its markers as long as its workflow is there
and the loading of workflows is not what is refused. Once the trouble is over, it is taken up.
-/
namespace Runbook

/-- What is stored of an execution is as it was, and so are the workflows. -/
structure Store.Retains (s : Store) (id : String) (t : Store) : Prop where
  row : t.execution? id = s.execution? id
  markers : t.markers.filter (·.execution == id) = s.markers.filter (·.execution == id)
  workflows : t.workflows = s.workflows

/-- No outage makes an execution seem missing. -/
theorem Store.Outage.kind_failure {o : Store.Outage} {table : String} {p : ProgramError}
    (failed : o.failure table = .program p) : p.kind ≠ .executionNotFound := by
  unfold Store.Outage.failure at failed
  dsimp only at failed
  split at failed <;> cases failed <;> exact fun same => by cases same

namespace Storage

variable {s : Storage} {id : String}

/-- A query answers what it reads, or is refused by an outage that is planned for it, or cannot read. -/
theorem ends_query_refused {α : Type} (s : Storage) (operation table : String)
    (read : Store → Except Store.Refusal α) :
    Ends (query operation table read) s (fun a _ => read s.tables = .ok a)
      fun f _ => (∃ o ∈ s.outages, o.operation = operation ∧ f = o.failure table) ∨
        (f.IsStorage ∧ read s.tables = .error .rejected) ∨ read s.tables = .error (.raised f) := by
  refine (bears_session operation table).imp (fun a t h => ?_) fun f t h => ?_
  · obtain ⟨b, answer, done⟩ := bind_eq_ok h.1
    obtain ⟨rfl, -⟩ := Prod.mk.inj (Except.ok.inj done)
    exact answer
  · refine h.2.imp_right fun failed => ?_
    cases answer : read s.tables with
    | ok a =>
      rw [answer] at failed
      rcases failed with ⟨-, no⟩ | no <;> cases no
    | error refusal =>
      rw [answer] at failed
      refine failed.imp (fun ⟨storage, same⟩ => ⟨storage, ?_⟩) fun same => ?_ <;> cases same <;> rfl

/-- A stored execution is loaded; where it is not, this is not because it is missing. -/
theorem ends_loadExecution_stored {row : Store.ExecutionRow} (stored : s.tables.execution? id = some row) :
    Ends (loadExecution id) s (fun record _ => record.row = row)
      fun f _ => ∀ p, f = .program p → p.kind ≠ .executionNotFound := by
  refine (ends_query_refused s _ _ _).imp (fun record _ read => ?_) fun f _ failed => ?_
  · rw [stored] at read
    rcases load_row row with ⟨data, loaded⟩ | ⟨f, refused, -⟩
    · obtain rfl := Except.ok.inj (loaded.symm.trans read)
      rfl
    · cases refused.symm.trans read
  · rw [stored] at failed
    rcases failed with ⟨o, -, -, rfl⟩ | ⟨⟨p, rfl, kind⟩, -⟩ | read
    · exact fun p failed => Store.Outage.kind_failure failed
    · rintro _ ⟨⟩ missing
      cases kind.symm.trans missing
    · rcases load_row row with ⟨data, loaded⟩ | ⟨g, refused, other⟩
      · cases loaded.symm.trans read
      · obtain rfl : g = f := by
          cases refused.symm.trans read
          rfl
        exact fun p same => absurd same (other p)

/-- A stored workflow is loaded, if that is not what is refused. -/
theorem ends_loadWorkflow_spared {workflow : String} {w : Workflow}
    (defined : Store.definition? s.tables.workflows workflow = some w)
    (spared : ∀ p ∈ s.planned, p.1 ≠ "load workflow") :
    Ends (loadWorkflow workflow) s (fun v _ => v = w) never := by
  obtain ⟨row, found, parsed⟩ := Option.bind_eq_some_iff.1 defined
  have stored : s.tables.workflow? workflow = some row := found
  refine Ends.bind ((ends_query_refused s _ _ _).imp (fun r t read => ?_) fun f _ failed => ?_)
  · rw [stored] at read
    obtain rfl := Except.ok.inj read
    cases read : Workflow.parse row.record with
    | ok v =>
      rw [read] at parsed
      exact Ends.pure_iff.2 (Option.some.inj parsed)
    | error f =>
      rw [read] at parsed
      cases parsed
  · rw [stored] at failed
    rcases failed with ⟨o, there, hits, -⟩ | ⟨-, no⟩ | no
    · exact spared _ (List.mem_map_of_mem there) hits
    · cases no
    · cases no

end Storage

namespace Engine

variable {α : Type} {s : Store} {e t : Engine} {id k : String} {row : Store.ExecutionRow} {w : Workflow}
  {now : Instant}

/-- What is stored of an execution that is running, with a workflow that loads, is as it was, and no outage is
planned for the loading of workflows. -/
structure Retains (s : Store) (id : String) (e : Engine) : Prop where
  tables : s.Retains id e.storage.tables
  spared : ∀ p ∈ e.storage.planned, p.1 ≠ "load workflow"

theorem retains_lift {x : StorageM α} (preserves : Storage.Preserves (s.Retains id) x)
    (bears : ∀ u : Storage, Ends x u (fun _ t => Storage.Bears [] u t) fun _ t => Storage.Bears [] u t) :
    Keeps (Retains s id) (liftM x : Run α) := fun e retains =>
  ends_storage.2 (((preserves e.storage retains.tables).and (bears e.storage)).imp
    (fun _ _ h => ⟨h.1, h.2.planned ▸ retains.spared⟩) fun _ _ h => ⟨h.1, h.2.planned ▸ retains.spared⟩)

theorem retains_modify {f : Engine → Engine} (tables : ∀ e, (f e).storage.tables = e.storage.tables)
    (outages : ∀ e, (f e).storage.outages = e.storage.outages) : Keeps (Retains s id) (modify f) := by
  refine fun e retains => Ends.modify_iff.2 ⟨?_, ?_⟩
  · rw [tables]
    exact retains.tables
  · unfold Storage.planned
    rw [outages]
    exact retains.spared

theorem retains_note {level : Level} {logger message : String} {context : Dict} :
    Keeps (Retains s id) (note level logger message context) :=
  retains_modify (fun _ => rfl) fun _ => rfl

theorem retains_modifyExecution (k : String) (f : Execution → Execution) :
    Keeps (Retains s id) (modifyExecution k f) :=
  retains_modify (fun _ => rfl) fun _ => rfl

/-- Entries are stored in the log. -/
theorem retains_log (level : LogLevel) (k message node : String) :
    Keeps (Retains s id) (log level k message node) := by
  refine .bind (.execution k) fun x => .bind (retains_modifyExecution k _) fun _ => .bind retains_note fun _ =>
    .get fun _ => .ite (fun _ => .onStorageError ?_ fun _ => retains_note) fun _ => .pure _
  refine retains_lift (.appendLog (fun _ _ _ kept => ?_) _ _) fun _ => Storage.bears_appendLog _ _ _
  exact ⟨kept.row, kept.markers, kept.workflows⟩

theorem retains_clearMarkers (other : k ≠ id) :
    Keeps (Retains s id) (liftM (Storage.clearMarkers k) : Run Nat) := by
  refine retains_lift (.clearMarkers fun u kept => ⟨kept.row, ?_, kept.workflows⟩) fun _ =>
    (Storage.Errand.clearMarkers k).bears
  rw [← kept.markers, List.filter_filter]
  refine List.filter_congr fun m _ => ?_
  by_cases own : m.execution = id <;> simp [own, other.symm]

theorem retains_setStatus (other : k ≠ id) (status error time : Value) :
    Keeps (Retains s id) (liftM (Storage.setExecutionStatus k status error time) : Run Unit) := by
  refine retains_lift (.setExecutionStatus (fun u _ _ _ kept => ⟨?_, kept.markers, kept.workflows⟩) _ _ _)
    fun _ => Storage.bears_setExecutionStatus _ _ _ _
  refine (Store.execution?_updateExecution ?_ u k id).trans ((if_neg other.symm).trans kept.row)
  exact fun _ => rfl

theorem retains_query {operation table : String} {read : Store → Except Store.Refusal α} :
    Keeps (Retains s id) (liftM (Storage.query operation table read) : Run α) :=
  retains_lift (.query _ _ _) fun _ => (Storage.Quiet.query _ _ _).bears

theorem retains_loadWorkflow (workflow : String) :
    Keeps (Retains s id) (liftM (Storage.loadWorkflow workflow) : Run Workflow) :=
  retains_lift (.loadWorkflow _) fun _ => (Storage.quiet_loadWorkflow _).bears

/-! Others are taken up, or given up. -/

theorem retains_branchFinished (other : k ≠ id) : Keeps (Retains s id) (branchFinished k) := by
  refine .bind (.execution k) fun _ => .bind (retains_modifyExecution k _) fun _ =>
    .ite (fun _ => ?_) fun _ => .pure _
  refine .bind (retains_log _ _ _ _) fun _ => .bind (.execution k) fun _ => .andAlways ?_ ?_
  · exact .onStorageError (retains_setStatus other _ _ _) fun _ => retains_note
  · exact .bind (retains_modifyExecution k _) fun _ => .bind
      (retains_modify (fun _ => rfl) fun _ => rfl) fun _ => retains_note

theorem retains_reschedule (now : Instant) (m : Store.Marker) : Keeps (Retains s id) (reschedule now m) := by
  refine .bind (retains_log _ _ _ _) fun _ => .bind (.isActive _) fun _ =>
    .ite (fun _ => .get fun _ => ?_) fun _ => .pure _
  exact .bind (retains_modify (fun _ => rfl) fun _ => rfl) fun _ => retains_modifyExecution _ _

theorem retains_findRecord (k : String) : Keeps (Retains s id) (findRecord k) :=
  keeps_onProgramError (.map retains_query) fun _ => .ite (fun _ => .pure _) fun _ => .throw _

theorem retains_rebuild (other : k ≠ id) (first : Store.Marker) (ms : List Store.Marker) :
    Keeps (Retains s id) (rebuild k first ms) := by
  have discards : Keeps (Retains s id) (do
      let _ ← (Storage.clearMarkers k : Run Nat)
      return (none : Option Execution)) := .bind (retains_clearMarkers other) fun _ => .pure _
  refine .bind (retains_findRecord k) fun r => ?_
  cases r with
  | none => exact discards
  | some record =>
    refine .ite (fun _ => discards) fun _ => .bind (keeps_onProgramError (.map (retains_loadWorkflow _))
      fun _ => .pure _) fun r => ?_
    cases r with
    | error p =>
      exact .bind retains_note fun _ => .bind discards fun _ =>
        .bind (retains_setStatus other _ _ _) fun _ => .pure _
    | ok w =>
      refine .bind (.ofExcept _) fun _ => .bind (.ofExcept _) fun _ => .bind ?_ fun _ => .bind ?_ fun _ => .pure _
      · exact retains_modify (fun _ => rfl) fun _ => rfl
      · exact retains_modify (fun _ => rfl) fun _ => rfl

/-! What is running itself is taken up, or left as it is. -/

/-- An execution is live, and a number of branches are not finished yet. As long as these are more than one, the
branch that is counted off when delays are resumed does not complete it. -/
def Branched (id : String) (n : Int) (e : Engine) : Prop :=
  ∃ x, e.execution? id = some x ∧ x.isActive = true ∧ x.branches = n

/-- The record of a stored execution is found, unless it cannot be read. -/
theorem finds_stored (retains : e.Retains s id) (stored : s.execution? id = some row) :
    Ends (findRecord id) e (fun r t => t.Retains s id ∧ ∃ record, r = some record ∧ record.row = row)
      fun _ t => t.Retains s id := by
  have kept : Ends (liftM (Storage.loadExecution id) : Run Store.ExecutionRecord) e (fun _ t => t.Retains s id)
      fun _ t => t.Retains s id := retains_query e retains
  have loads : Ends (liftM (Storage.loadExecution id) : Run Store.ExecutionRecord) e
      (fun record _ => record.row = row) fun f _ => ∀ p, f = .program p → p.kind ≠ .executionNotFound :=
    ends_storage.2 (Storage.ends_loadExecution_stored (retains.tables.row.trans stored))
  refine Ends.tryCatch_iff.2 (Ends.map_iff.2 ((kept.and loads).imp (fun r t h => ⟨h.1, r, rfl, h.2⟩) ?_))
  rintro f t ⟨retains, present⟩
  cases f with
  | program p =>
    refine Ends.ite_iff.2 ⟨fun missing => ?_, fun _ => Ends.throw_iff.2 retains⟩
    exact absurd missing (present p rfl)
  | _ => exact Ends.throw_iff.2 retains

theorem loads_defined (retains : e.Retains s id) {workflow : String}
    (defined : Store.definition? s.workflows workflow = some w) :
    Ends (onProgramError (Except.ok <$> (Storage.loadWorkflow workflow : Run Workflow))
        fun p => pure (.error p)) e (fun r t => t.Retains s id ∧ r = .ok w) never := by
  have kept : Ends (liftM (Storage.loadWorkflow workflow) : Run Workflow) e (fun _ t => t.Retains s id)
      fun _ t => t.Retains s id := retains_loadWorkflow workflow e retains
  have loads : Ends (liftM (Storage.loadWorkflow workflow) : Run Workflow) e (fun v _ => v = w) never :=
    ends_storage.2 (Storage.ends_loadWorkflow_spared (retains.tables.workflows ▸ defined) retains.spared)
  exact Ends.tryCatch_iff.2 (Ends.map_iff.2 ((kept.and loads).imp (fun v t h => ⟨h.1, congrArg _ h.2⟩)
    fun _ _ h => h.2.elim))

/-! A branch is added for each timer that is set. -/

theorem branched_modify {n : Int} {f : Execution → Execution} (named : ∀ x, (f x).id = x.id)
    (same : ∀ x, (f x).status = x.status ∧ (f x).branches = x.branches) :
    Keeps (Branched id n) (modifyExecution id f) := by
  rintro e ⟨x, known, active, branches⟩
  refine Ends.modify_iff.2 ⟨f x, ?_, ?_, (same x).2.trans branches⟩
  · exact (execution?_modify named e id id).trans (by rw [if_pos rfl, known]; rfl)
  · unfold Execution.isActive
    rw [(same x).1]
    exact active

theorem branched_log {n : Int} (level : LogLevel) (message node : String) :
    Keeps (Branched id n) (log level id message node) := by
  have notes {level : Level} {logger message : String} {context : Dict} :
      Keeps (Branched id n) (note level logger message context) := fun _ holds => Ends.modify_iff.2 holds
  refine .bind (.execution id) fun x => .bind (branched_modify (fun _ => rfl) fun _ => ⟨rfl, rfl⟩) fun _ =>
    .bind notes fun _ => .get fun _ =>
    .ite (fun _ => .onStorageError (fun e holds => ?_) fun _ => notes) fun _ => .pure _
  exact ends_storage.2 ((Storage.bears_appendLog _ _ _).imp (fun _ _ _ => holds) fun _ _ _ => holds)

/-- The timer of a marker is set. -/
theorem branched_reschedule {n : Int} {m : Store.Marker} (retains : e.Retains s id) (holds : e.Branched id n)
    (own : m.execution = id) (now : Instant) :
    Ends (reschedule now m) e (fun _ t => t.Retains s id ∧ t.Branched id (n + 1)) fun _ t => t.Retains s id := by
  subst own
  refine Ends.bind (((retains_log _ _ _ _ e retains).and (branched_log _ _ _ e holds)).imp ?_ fun _ _ h => h.1)
  rintro _ t ⟨retains, x, known, active, branches⟩
  refine Ends.bind (Ends.bind (Ends.bind (Ends.get_iff.2 ?_)))
  rw [known]
  refine Ends.pure_iff.2 (Ends.pure_iff.2 (Ends.ite_iff.2 ⟨fun _ => ?_, fun done => absurd active done⟩))
  refine Ends.bind (Ends.get_iff.2 (Ends.bind (Ends.modify_iff.2 (Ends.modify_iff.2 ?_))))
  refine ⟨⟨retains.tables, retains.spared⟩, _, (execution?_modify ?_ _ _ _).trans (if_pos rfl) |>.trans
    (congrArg (Option.map _) known), active, ?_⟩
  · exact fun _ => rfl
  · exact congrArg (· + 1) branches

theorem branched_branchFinished {n : Int} (retains : e.Retains s id) (holds : e.Branched id n) (more : 1 < n) :
    Ends (branchFinished id) e (fun _ t => t.Retains s id) fun _ t => t.Retains s id := by
  obtain ⟨x, known, active, branches⟩ := holds
  refine Ends.bind (Ends.bind (Ends.get_iff.2 ?_))
  rw [known]
  refine Ends.pure_iff.2 ?_
  have waits : (decide (x.branches - 1 ≤ 0) && x.isActive) = false := by
    rw [branches, decide_eq_false (by omega)]
    rfl
  simp only [waits, Bool.false_eq_true, if_false]
  exact Keeps.bind (retains_modifyExecution id _) (fun _ => .pure _) e retains

theorem branched_rescheduleAll {n : Int} {ms : List Store.Marker} (retains : e.Retains s id)
    (holds : e.Branched id n) (own : ∀ m ∈ ms, m.execution = id) (now : Instant) :
    Ends (ms.forM (reschedule now)) e (fun _ t => t.Retains s id ∧ t.Branched id (n + ms.length))
      fun _ t => t.Retains s id := by
  induction ms generalizing n e with
  | nil => exact Ends.pure_iff.2 ⟨retains, by simpa using holds⟩
  | cons m rest ih =>
    have first := branched_reschedule retains holds (own m (.head _)) now
    refine Ends.bind (first.imp (fun _ t h => ?_) fun _ _ h => h)
    refine (ih h.1 h.2 fun k later => own k (.tail _ later)).imp (fun _ u kept => ⟨kept.1, ?_⟩) fun _ _ h => h
    have count : n + (m :: rest).length = n + 1 + rest.length := by
      rw [List.length_cons]
      push_cast
      omega
    exact count ▸ kept.2

/-- A stored execution that is running is made live, or nothing of it changes. -/
theorem branched_rebuild (retains : e.Retains s id) (stored : s.execution? id = some row)
    (running : row.status = .running) (defined : Store.definition? s.workflows row.workflow = some w)
    (first : Store.Marker) (rest : List Store.Marker) :
    Ends (rebuild id first (first :: rest)) e (fun r t => r.isSome ∧ t.Retains s id ∧ t.Branched id 1)
      fun _ t => t.Retains s id := by
  refine Ends.bind ((finds_stored retains stored).imp ?_ fun _ _ h => h)
  rintro r t ⟨retains, record, rfl, same⟩
  have open_ : (record.row.status != .running) = false := by simp [same, running]
  simp only [open_, Bool.false_eq_true, if_false]
  refine Ends.bind ((loads_defined retains (same.symm ▸ defined)).imp ?_ fun _ _ h => h.elim)
  rintro r t ⟨retains, rfl⟩
  refine Ends.bind (ends_ofExcept.2 ⟨fun c read => ?_, fun _ _ => retains⟩)
  refine Ends.bind (ends_ofExcept.2 ⟨fun x absorbed => ?_, fun _ _ => retains⟩)
  have sound : w.Sound := Store.sound_of_loaded (Store.loaded_iff.2 defined)
  have anew : x.Anew id := Execution.Restored.anew ⟨first, rest, w, c, rfl, sound, read, absorbed⟩
  refine Ends.bind (Ends.modify_iff.2 (Ends.bind (Ends.modify_iff.2 (Ends.pure_iff.2 ?_))))
  refine ⟨rfl, ⟨retains.tables, retains.spared⟩, x, ?_, anew.active, anew.branches⟩
  exact (execution?_replace t x id).trans (if_pos anew.named.symm)

/-- Its timers are set, or nothing of it changes. -/
theorem retains_resumeOwn (retains : e.Retains s id) (stored : s.execution? id = some row)
    (running : row.status = .running) (defined : Store.definition? s.workflows row.workflow = some w)
    {ms : List Store.Marker} (own : ∀ m ∈ ms, m.execution = id) (now : Instant) :
    Ends (resumeGroup now (id, ms)) e (fun _ t => t.Retains s id) fun _ t => t.Retains s id := by
  cases ms with
  | nil => exact Ends.pure_iff.2 retains
  | cons first rest =>
    refine Ends.bind ((branched_rebuild retains stored running defined first rest).imp ?_ fun _ _ h => h)
    rintro r t ⟨made, retains, holds⟩
    obtain ⟨x, rfl⟩ := Option.isSome_iff_exists.1 made
    refine Ends.bind ((branched_rescheduleAll retains holds own now).imp (fun _ u h => ?_) fun _ _ h => h)
    have more : 1 < (1 : Int) + (first :: rest).length := by
      rw [List.length_cons]
      push_cast
      omega
    exact Ends.bind ((branched_branchFinished h.1 h.2 more).imp (fun _ _ h => Ends.pure_iff.2 h) fun _ _ h => h)

theorem retains_resumeOther (other : k ≠ id) (now : Instant) (ms : List Store.Marker) :
    Keeps (Retains s id) (resumeGroup now (k, ms)) := by
  cases ms with
  | nil => exact .pure _
  | cons first rest =>
    refine .bind (retains_rebuild other first _) fun r => ?_
    cases r with
    | none => exact .pure _
    | some x =>
      exact .bind (.forM _ (retains_reschedule now)) fun _ => .bind (retains_branchFinished other) fun _ => .pure _

/-- Whatever becomes of the others, a stored execution that is running is taken up, or it is left as it is. -/
theorem retains_resume (stored : s.execution? id = some row) (running : row.status = .running)
    (defined : Store.definition? s.workflows row.workflow = some w) : Keeps (Retains s id) resume := by
  have groups (now : Instant) (gs : List (String × List Store.Marker))
      (each : ∀ g ∈ gs, ∀ m ∈ g.2, m.execution = g.1) :
      Keeps (Retains s id) (gs.mapM (resumeGroup now)) := by
    induction gs with
    | nil => exact .pure _
    | cons g rest ih =>
      rw [List.mapM_cons]
      refine .bind ?_ fun _ => .bind (ih fun g later => each g (.tail _ later)) fun _ => .pure _
      obtain ⟨k, ms⟩ := g
      by_cases same : k = id
      · subst same
        exact fun e retains => retains_resumeOwn retains stored running defined (each _ (.head _)) now
      · exact retains_resumeOther same now ms
  refine .get fun e => .bind retains_query fun ms =>
    .get fun _ => .bind (.ofExcept _) fun now => .bind (groups now _ fun g group m there => ?_) fun _ =>
      .ite (fun _ => .bind retains_note fun _ => .pure _) fun _ => .pure _
  rw [((groups_groupMarkers _).2.1 g group).1] at there
  exact eq_of_beq (List.mem_filter.1 there).2

theorem retains_restart (now : Float) : Keeps (Retains s id) (restart now) := by
  have drops (k : String) : Keeps (Retains s id) (dropTimers k) :=
    .bind (.execution k) fun _ => .bind (retains_modifyExecution k _) fun _ =>
      retains_modify (fun _ => rfl) fun _ => rfl
  refine .bind (.get fun e => .bind (.forM _ drops) fun _ => .bind ?_ fun _ => retains_note) fun _ =>
    .bind ?_ fun _ => retains_note
  · exact retains_modify (fun _ => rfl) fun _ => rfl
  · exact retains_modify (fun _ => rfl) fun _ => rfl

end Engine

/-- Delays are resumed, in this life or in the next one, while anything but the loading of workflows is refused. -/
def Operation.Retries : Operation → Prop
  | .resume | .restart _ => True
  | .outage o => o.operation ≠ "load workflow"
  | _ => False

/-- An execution that is stored as running is taken up when it has markers and what is stored can be read. -/
theorem Scene.exists_take {rows : List Store.WorkflowRow} {v : Scene} {id : String} {row : Store.ExecutionRow}
    {w : Workflow} (whole : ∀ m ∈ v.markers, m.saved.Whole) (stored : v.row? id = some row)
    (running : row.status = .running) (defined : Store.definition? rows row.workflow = some w)
    (waits : v.listed id ≠ []) : ∃ x, v.verdict rows id = .take x := by
  obtain ⟨first, rest, listed⟩ := List.exists_cons_of_ne_nil waits
  obtain ⟨x, made⟩ := exists_remade w (fun m there _ => whole m there) listed
  refine ⟨x, ?_⟩
  unfold verdict
  rw [stored, listed]
  dsimp only
  rw [if_pos running, Store.loaded_iff.2 defined]
  dsimp only
  rw [made]

namespace Engine

variable {e : Engine} {id : String} {row : Store.ExecutionRow} {w : Workflow} {ops : List Operation}
  {now : Instant}

theorem retains_carryOut {s : Store} (stored : s.execution? id = some row) (running : row.status = .running)
    (defined : Store.definition? s.workflows row.workflow = some w) {op : Operation} (retries : op.Retries) :
    Keeps (Retains s id) (carryOut op) := by
  cases op with
  | resume => exact .bind (retains_resume stored running defined) fun _ => .pure _
  | restart now => exact .bind (retains_restart now) fun _ => .pure _
  | outage o =>
    refine .bind (fun e retains => Ends.modify_iff.2 ⟨retains.tables, fun p there => ?_⟩) fun _ => .pure _
    obtain ⟨o', planned, rfl⟩ := List.mem_map.1 there
    rcases List.mem_append.1 planned with old | new
    · exact retains.spared _ (List.mem_map_of_mem (List.mem_filter.1 old).1)
    · exact List.mem_singleton.1 new ▸ retries
  | _ => exact retries.elim

theorem Retains.afterAll {s : Store} (stored : s.execution? id = some row) (running : row.status = .running)
    (defined : Store.definition? s.workflows row.workflow = some w) (retains : e.Retains s id)
    (retries : ∀ op ∈ ops, op.Retries) : (e.afterAll ops).Retains s id := by
  induction ops generalizing e with
  | nil => exact retains
  | cons op rest ih =>
    refine ih (after_of_ends ?_) fun op later => retries op (.tail _ later)
    exact retains_carryOut stored running defined (retries op (.head _)) e retains

/-- The engine when nothing is refused any more. -/
def unhindered (e : Engine) : Engine := { e with storage := { e.storage with outages := [] } }

/-- What an execution waits for is waited for, where what is stored can be read. -/
theorem ends_resume_retained {s : Store} (stored : s.execution? id = some row) (running : row.status = .running)
    (defined : Store.definition? s.workflows row.workflow = some w) (retains : e.Retains s id)
    (intelligible : e.scene.Intelligible s.workflows) (reads : Instant.ofSeconds e.clock.now = .ok now)
    (idle : e.live.contains id = false) (marked : ∃ m ∈ s.markers, m.execution = id) :
    Ends resume e (fun _ t => t.Retains s id ∧ t.live.contains id = true ∧ ∀ m ∈ s.markers,
      m.execution = id → ∃ r ∈ t.clock.timers, r.call = m.opened.call now e.clock.now) never := by
  have there {m : Store.MarkerRow} (mine : m ∈ s.markers) (own : m.execution = id) : m ∈ e.scene.markers := by
    have kept : m ∈ s.markers.filter (·.execution == id) := List.mem_filter.2 ⟨mine, beq_iff_eq.2 own⟩
    rw [← retains.tables.markers] at kept
    exact (List.mem_filter.1 kept).1
  have waits : e.scene.listed id ≠ [] := by
    obtain ⟨m, mine, own⟩ := marked
    refine List.ne_nil_of_mem (a := m.opened) (List.mem_map_of_mem (List.mem_filter.2 ⟨?_, beq_iff_eq.2 own⟩))
    exact mem_sortBy.2 (there mine own)
  have row : e.scene.row? id = some row := retains.tables.row.trans stored
  obtain ⟨x, taken⟩ := Scene.exists_take intelligible.whole row running defined waits
  have takes : (e.scene.verdict s.workflows id).takes = true := Scene.takes_cases.2 ⟨x, taken⟩
  have settles := ends_resume_settles (retains.tables.workflows.symm ▸ intelligible) reads
  rw [retains.tables.workflows] at settles
  refine ((retains_resume stored running defined e retains).and settles).imp ?_ fun _ _ h => h.2
  rintro n t ⟨retains, settles, -⟩
  refine ⟨retains, ?_, fun m mine own => ?_⟩
  · refine (settles.live id).trans ?_
    rw [takes, Bool.or_true]
  · obtain ⟨set, added, calls, -⟩ := settles.timers
    have resumed : m ∈ e.scene.resuming s.workflows := by
      refine List.mem_filter.2 ⟨there mine own, ?_⟩
      rw [own, takes, show e.scene.live.contains id = false from idle]
      rfl
    obtain ⟨r, new, call⟩ := List.mem_map.1 (calls.mem_iff.2 (List.mem_map_of_mem resumed))
    refine ⟨r, ?_, call⟩
    rw [show t.clock.timers = e.scene.clock.timers ++ set from added]
    exact List.mem_append_right _ new

/-- Whatever is refused while delays are resumed, unless it is the loading of workflows, an execution that is
stored as running keeps its row and its markers when its workflow loads. Once nothing is refused any more, it is
taken up, and a timer is set for each of its markers. -/
theorem resume_endures (stored : e.storage.tables.execution? id = some row) (running : row.status = .running)
    (defined : Store.definition? e.storage.tables.workflows row.workflow = some w)
    (spared : ∀ p ∈ e.storage.planned, p.1 ≠ "load workflow") (retries : ∀ op ∈ ops, op.Retries) :
    e.storage.tables.Retains id (e.afterAll ops).storage.tables ∧
    ((e.afterAll ops).unhindered.scene.Intelligible e.storage.tables.workflows →
      Instant.ofSeconds (e.afterAll ops).clock.now = .ok now → (e.afterAll ops).live.contains id = false →
      (∃ m ∈ e.storage.tables.markers, m.execution = id) →
      Ends resume (e.afterAll ops).unhindered (fun _ t => e.storage.tables.Retains id t.storage.tables ∧
        t.live.contains id = true ∧ ∀ m ∈ e.storage.tables.markers, m.execution = id →
          ∃ r ∈ t.clock.timers, r.call = m.opened.call now (e.afterAll ops).clock.now) never) := by
  have retains : (e.afterAll ops).Retains e.storage.tables id :=
    .afterAll stored running defined ⟨⟨rfl, rfl, rfl⟩, spared⟩ retries
  refine ⟨retains.tables, fun intelligible reads idle marked => ?_⟩
  have still : (e.afterAll ops).unhindered.Retains e.storage.tables id := ⟨retains.tables, nofun⟩
  exact (ends_resume_retained stored running defined still intelligible reads idle marked).imp
    (fun _ _ h => ⟨h.1.tables, h.2⟩) fun _ _ h => h

end Engine

end Runbook
