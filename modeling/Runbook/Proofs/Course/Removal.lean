import Runbook.Proofs.Course.Roots

/-!
Deleting a workflow. First its live executions are cancelled, which writes only what is deleted
afterwards; then its row goes, with the rows of its executions, their log and their markers. What is
left is what there was besides, and of the deleted executions nothing is left that could still write.
-/
namespace Runbook

namespace Store

variable {v : Store} {w id : String}

/-- The ids of the executions of a workflow. -/
def runs (v : Store) (w : String) : List String :=
  (v.executions.filter (·.workflow == w)).map (·.id)

/-- Everything in store refers to what is in store. -/
structure Whole (v : Store) : Prop where
  executions : ∀ r ∈ v.executions, (v.workflow? r.workflow).isSome
  logs : ∀ r ∈ v.logs, (v.execution? r.execution).isSome
  markers : ∀ r ∈ v.markers, (v.execution? r.execution).isSome

/-- An execution is in store, and is one of a workflow. -/
structure RunsOnly (v : Store) (w id : String) : Prop where
  stored : ∃ r ∈ v.executions, r.id = id
  only : ∀ r ∈ v.executions, r.id = id → r.workflow = w

theorem RunsOnly.contains_runs (only : v.RunsOnly w id) : (v.runs w).contains id = true := by
  obtain ⟨r, there, named⟩ := only.stored
  apply List.contains_iff_mem.2
  refine List.mem_map.2 ⟨r, List.mem_filter.2 ⟨there, ?_⟩, named⟩
  simpa using only.only r there named

/-- What is written of an execution goes when its workflow is deleted. -/
theorem RunsOnly.deleteWorkflow_log (only : v.RunsOnly w id) (tenant : String) (entry : LogEntry) :
    Store.deleteWorkflow { v with logs := v.logs ++ [⟨id, tenant, entry⟩] } w = v.deleteWorkflow w := by
  have listed : ((v.executions.filter (·.workflow == w)).map (·.id)).contains id = true :=
    only.contains_runs
  unfold deleteWorkflow
  dsimp only
  rw [List.filter_append, List.filter_singleton]
  simp only [listed, Bool.not_true, cond_false, List.append_nil]

theorem RunsOnly.deleteWorkflow_markers (only : v.RunsOnly w id) :
    Store.deleteWorkflow { v with markers := v.markers.filter (·.execution != id) } w =
      v.deleteWorkflow w := by
  have listed : ((v.executions.filter (·.workflow == w)).map (·.id)).contains id = true :=
    only.contains_runs
  unfold deleteWorkflow
  dsimp only
  rw [List.filter_filter]
  congr 1
  refine List.filter_congr fun m _ => ?_
  by_cases own : m.execution = id
  · simp only [own, listed, Bool.not_true, Bool.false_and]
  · simp [own]

variable {f : ExecutionRow → ExecutionRow}

theorem RunsOnly.deleteWorkflow_update (only : v.RunsOnly w id)
    (same : ∀ r, (f r).id = r.id ∧ (f r).workflow = r.workflow) :
    (v.updateExecution id f).deleteWorkflow w = v.deleteWorkflow w := by
  have workflow (r : ExecutionRow) : (if r.id == id then f r else r).workflow = r.workflow := by
    split
    · exact (same r).2
    · rfl
  have named (r : ExecutionRow) : (if r.id == id then f r else r).id = r.id := by
    split
    · exact (same r).1
    · rfl
  have gone : ((v.updateExecution id f).executions.filter (·.workflow == w)).map (·.id) =
      (v.executions.filter (·.workflow == w)).map (·.id) := by
    unfold updateExecution
    rw [List.filter_map, List.map_map]
    simp only [Function.comp_def, workflow, named]
  have rest : (v.updateExecution id f).executions.filter (·.workflow != w) =
      v.executions.filter (·.workflow != w) := by
    unfold updateExecution
    rw [List.filter_map]
    simp only [Function.comp_def, workflow]
    refine (List.map_congr_left fun r there => ?_).trans (List.map_id _)
    obtain ⟨listed, other⟩ := List.mem_filter.1 there
    have apart : r.id ≠ id := fun own => by simp [only.only r listed own] at other
    simp [apart]
  unfold deleteWorkflow
  dsimp only
  rw [gone, rest]
  rfl

theorem RunsOnly.update (only : v.RunsOnly w id)
    (same : ∀ r, (f r).id = r.id ∧ (f r).workflow = r.workflow) :
    (v.updateExecution id f).RunsOnly w id := by
  constructor
  · obtain ⟨r, there, named⟩ := only.stored
    refine ⟨_, List.mem_map_of_mem there, ?_⟩
    split
    · exact (same r).1.trans named
    · exact named
  · intro r there named
    obtain ⟨r', listed, rfl⟩ := List.mem_map.1 there
    by_cases own : r'.id = id
    · rw [if_pos (by simpa using own), (same r').2]
      exact only.only r' listed own
    · rw [if_neg (by simpa using own)] at named
      exact absurd named own

end Store

namespace Engine

variable {e t u : Engine} {gone : String → Prop} {id w : String} {ids : List String}

/-- Between two requests: every execution that is live waits, and everything in store is rooted. -/
structure Tidy (gone : String → Prop) (e : Engine) : Prop where
  guarded : e.Guarded [] []
  rooted : e.Rooted [] gone []

theorem Rooted.steady_scene {kept busy : List String} (rooted : e.Rooted kept gone busy) :
    e.scene.faulty = false := by
  have none : e.storage.outages = [] := List.map_eq_nil_iff.1 rooted.steady
  simp [scene, Storage.part, none]

theorem stored_of_enrolled (known : id ∈ e.storage.enrolled) :
    (e.storage.tables.execution? id).isSome := by
  obtain ⟨c, born, rfl⟩ := List.mem_map.1 known
  obtain ⟨r, listed, rfl⟩ := List.mem_map.1 born
  exact List.find?_isSome.2 ⟨r, listed, by simp⟩

/-- What is in store under an id is there once. -/
theorem Rooted.runsOnly {kept busy : List String} (rooted : e.Rooted kept gone busy)
    (born : (id, w) ∈ e.storage.born) : e.storage.tables.RunsOnly w id := by
  obtain ⟨r, listed, same⟩ := List.mem_map.1 born
  have named : r.id = id := congrArg Prod.fst same
  refine ⟨⟨r, listed, named⟩, fun q there own => ?_⟩
  have once : (q.id, q.workflow) = (r.id, r.workflow) := by
    refine List.inj_on_of_nodup_map rooted.distinct (List.mem_map.2 ⟨q, there, rfl⟩)
      (List.mem_map.2 ⟨r, listed, rfl⟩) ?_
    exact own.trans named.symm
  exact (congrArg Prod.snd once).trans (congrArg Prod.snd same)

theorem Rooted.whole {kept busy : List String} (rooted : e.Rooted kept gone busy) :
    e.storage.tables.Whole where
  executions r there := by
    obtain ⟨row, listed, named⟩ := List.mem_map.1 (rooted.sown _ (List.mem_map.2 ⟨r, there, rfl⟩))
    exact List.find?_isSome.2 ⟨row, listed, by simpa using named⟩
  logs r there := stored_of_enrolled (rooted.logs r there)
  markers r there := stored_of_enrolled (rooted.markers r there)

/-! Cancelling touches nothing but what is deleted. -/

section Tables

variable {α : Type} {p : Store → Prop}

theorem tables_lift {x : StorageM α} (preserves : Storage.Preserves p x) :
    Keeps (fun e => p e.storage.tables) (liftM x : Run α) :=
  fun e holds => ends_storage.2 (preserves e.storage holds)

theorem tables_modify {f : Engine → Engine} (same : ∀ e, (f e).storage.tables = e.storage.tables) :
    Keeps (fun e => p e.storage.tables) (modify f) :=
  fun e holds => Ends.modify_iff.2 (show p (f e).storage.tables by rw [same]; exact holds)

theorem tables_execution (id : String) : Keeps (fun e => p e.storage.tables) (execution id) :=
  .get fun e => by
    cases e.execution? id with
    | some x => exact .pure x
    | none => exact .throw _

/-- What cancelling an execution keeps of the tables hangs on what is written of it. -/
theorem tables_cancel (log : ∀ tenant entry, Storage.Preserves p (Storage.appendLog id tenant entry))
    (status : ∀ status error time,
      Storage.Preserves p (Storage.setExecutionStatus id status error time))
    (markers : Storage.Preserves p (Storage.clearMarkers id)) :
    Keeps (fun e => p e.storage.tables) (cancel id) := by
  have noted {level : Level} {logger message : String} {context : Dict} :
      Keeps (fun e => p e.storage.tables) (note level logger message context) :=
    tables_modify fun _ => rfl
  have change (f : Execution → Execution) :
      Keeps (fun e => p e.storage.tables) (modifyExecution id f) := tables_modify fun _ => rfl
  refine .get fun e => ?_
  cases e.liveExecution? id with
  | none => exact .bind noted fun _ => .pure _
  | some x =>
    refine .ite (fun _ => .pure _) fun _ => .bind (change _) fun _ => .bind ?_ fun _ => .bind ?_ fun _ =>
      .bind ?_ fun _ => .bind noted fun _ => .pure _
    · refine .bind (.bind (tables_execution id) fun _ => .bind (change _) fun _ =>
        tables_modify fun _ => rfl) fun _ => ?_
      exact Keeps.onStorageError (.bind (tables_lift markers) fun _ => .pure _) fun _ => noted
    · refine .bind (tables_execution id) fun x => .bind (change _) fun _ => .bind noted fun _ =>
        .get fun _ => .ite (fun _ => ?_) fun _ => .pure _
      exact Keeps.onStorageError (tables_lift (log _ _)) fun _ => noted
    · refine .bind (tables_execution id) fun x => .andAlways ?_ ?_
      · exact Keeps.onStorageError (tables_lift (status _ _ _)) fun _ => noted
      · exact .bind (change _) fun _ => .bind (tables_modify fun _ => rfl) fun _ => noted

end Tables

/-- Cancelling an execution changes nothing but what goes with its workflow. -/
theorem spares_cancel (only : e.storage.tables.RunsOnly w id) :
    Ends (cancel id) e
      (fun _ t => t.storage.tables.deleteWorkflow w = e.storage.tables.deleteWorkflow w)
      fun _ t => t.storage.tables.deleteWorkflow w = e.storage.tables.deleteWorkflow w := by
  let p (v : Store) : Prop :=
    v.RunsOnly w id ∧ v.deleteWorkflow w = e.storage.tables.deleteWorkflow w
  have kept : Keeps (fun e => p e.storage.tables) (cancel id) := by
    refine tables_cancel (fun tenant entry => .appendLog ?_ tenant entry)
      (fun status error time => .setExecutionStatus ?_ status error time) (.clearMarkers ?_)
    · rintro v tenant entry ⟨only, same⟩
      exact ⟨⟨only.stored, only.only⟩, (only.deleteWorkflow_log tenant entry).trans same⟩
    · rintro v status error time ⟨only, same⟩
      refine ⟨only.update ?_, (only.deleteWorkflow_update ?_).trans same⟩ <;>
      · exact fun _ => ⟨rfl, rfl⟩
    · rintro v ⟨only, same⟩
      exact ⟨⟨only.stored, only.only⟩, only.deleteWorkflow_markers.trans same⟩
  exact (kept e ⟨only, rfl⟩).imp (fun _ _ h => h.2) fun _ _ h => h.2

/-- Neither workflows nor executions come or go when an execution is cancelled. -/
theorem listed_cancel (id : String) : Ends (cancel id) e
    (fun _ t => t.storage.tables.workflows = e.storage.tables.workflows ∧ t.storage.born = e.storage.born)
    fun _ t => t.storage.tables.workflows = e.storage.tables.workflows ∧
      t.storage.born = e.storage.born := by
  let p (v : Store) : Prop := v.workflows = e.storage.tables.workflows ∧
    v.executions.map (fun r => (r.id, r.workflow)) = e.storage.born
  have kept : Keeps (fun t => p t.storage.tables) (cancel id) := by
    refine tables_cancel (fun tenant entry => .appendLog (fun _ _ _ same => same) tenant entry)
      (fun status error time => .setExecutionStatus ?_ status error time)
      (.clearMarkers fun _ same => same)
    rintro v status error time ⟨workflows, same⟩
    refine ⟨workflows, (Storage.born_updateExecution v id ?_).trans same⟩
    exact fun _ => rfl
  exact kept e ⟨rfl, rfl⟩

/-- What is different after some executions of a workflow were cancelled. -/
structure Cancels (w : String) (ids : List String) (e t : Engine) : Prop where
  live : t.live = e.live.filter fun id => !ids.contains id
  clock : t.clock =
    { e.clock with timers := e.clock.timers.filter fun s => !ids.contains s.execution }
  ended : ∀ id ∈ ids, ∃ x, t.execution? id = some x ∧ x.status = .cancelled ∧ x.timers = []
  others : ∀ id, id ∉ ids → t.execution? id = e.execution? id
  tables : t.storage.tables.deleteWorkflow w = e.storage.tables.deleteWorkflow w
  workflows : t.storage.tables.workflows = e.storage.tables.workflows
  born : t.storage.born = e.storage.born

theorem Cancels.refl (w : String) (e : Engine) : e.Cancels w [] e := by
  refine ⟨?_, ?_, nofun, fun _ _ => rfl, rfl, rfl, rfl⟩ <;> simp

theorem Cancels.trans (first : e.Cancels w [id] t) (second : t.Cancels w ids u) :
    e.Cancels w (id :: ids) u where
  live := by
    rw [second.live, first.live, List.filter_filter]
    refine List.filter_congr fun k _ => ?_
    simp [Bool.and_comm]
  clock := by
    rw [second.clock, first.clock]
    simp only [List.filter_filter]
    congr 1
    refine List.filter_congr fun s _ => ?_
    simp [Bool.and_comm]
  ended k there := by
    by_cases later : k ∈ ids
    · exact second.ended k later
    · obtain rfl : k = id := (List.mem_cons.1 there).resolve_right later
      rw [second.others k later]
      exact first.ended k (.head _)
  others k absent := by
    rw [second.others k fun later => absent (.tail _ later)]
    apply first.others k
    exact fun same => absent (List.mem_singleton.1 same ▸ .head _)
  tables := second.tables.trans first.tables
  workflows := second.workflows.trans first.workflows
  born := second.born.trans first.born

/-- A live execution is cancelled, with its timers. -/
theorem cancels_cancel (tidy : e.Tidy gone) (live : id ∈ e.live) (born : (id, w) ∈ e.storage.born) :
    Ends (cancel id) e (fun b t => b = true ∧ e.Cancels w [id] t) never := by
  obtain ⟨⟨l, -, unpicked, guards, sound⟩, rooted⟩ := tidy
  obtain ⟨x, known, holds⟩ := sound.living id (guards.live ▸ live)
  obtain ⟨y, there, rfl⟩ := guards.execution known
  have played : Ends (cancel id) e (fun b t => b = true ∧ t.scene = e.scene.cancel id) never :=
    (plays_cancel_of_active (v := e.scene) there (List.contains_iff_mem.2 live) holds.active
      (stored_of_enrolled (List.mem_map.2 ⟨_, born, rfl⟩)) rooted.steady_scene e rfl).2
  have spared := spares_cancel (rooted.runsOnly born)
  refine ((played.and spared).and (listed_cancel id)).imp ?_ fun _ _ h => h.1.1
  rintro b t ⟨⟨⟨rfl, scene⟩, tables⟩, workflows, still⟩
  have executions (k : String) : t.execution? k = (e.scene.cancel id).execution? k :=
    congrFun (congrArg Scene.execution? scene) k
  have there : e.scene.execution? id = some y := there
  refine ⟨rfl, ?_, ?_, ?_, ?_, tables, workflows, still⟩
  · refine (congrArg Scene.live scene).trans (List.filter_congr fun k _ => ?_)
    by_cases same : k = id <;> simp [same]
  · have clock : t.clock = e.clock.cancel (y.timers.flatMap (·.2)) := by
      refine (congrArg Scene.clock scene).trans ?_
      simp [Scene.cancel, Scene.halt, Scene.untime, there]
      rfl
    rw [clock]
    unfold Clock.cancel
    congr 1
    refine List.filter_congr fun s set => ?_
    have mine := sound.mem_pending holds (List.mem_append_left l.picked (guards.timers ▸ set))
    have numbers : y.timers.flatMap (·.2) = y.stand.numbers := rfl
    rw [numbers]
    by_cases whose : s.execution = id <;> simp [mine, whose]
  · intro k here
    obtain rfl := List.mem_singleton.1 here
    rw [executions]
    simp [Scene.cancel, Scene.halt, there]
  · intro k absent
    have other : k ≠ id := fun same => absent (List.mem_singleton.2 same)
    rw [executions]
    simp [Scene.cancel, Scene.halt, other]
    rfl

theorem keeps_tidy {α : Type} {x : Run α} (guarded : Keeps (Guarded [] []) x)
    (rooted : Keeps (Rooted [] gone []) x) : Keeps (Tidy gone) x := fun e tidy =>
  ((guarded e tidy.guarded).and (rooted e tidy.rooted)).imp (fun _ _ h => ⟨h.1, h.2⟩)
    fun _ _ h => ⟨h.1, h.2⟩

theorem tidy_cancel (id : String) : Keeps (Tidy gone) (cancel id) :=
  keeps_tidy (keeps_cancel id) (rooted_cancel id)

theorem cancels_mapM (tidy : e.Tidy gone) (once : ids.Nodup) (live : ids ⊆ e.live)
    (born : ∀ id ∈ ids, (id, w) ∈ e.storage.born) :
    Ends (ids.mapM cancel) e (fun bs t => bs = ids.map (fun _ => true) ∧ e.Cancels w ids t ∧ t.Tidy gone)
      never := by
  induction ids generalizing e with
  | nil =>
    rw [List.mapM_nil]
    exact Ends.pure_iff.2 ⟨rfl, .refl w e, tidy⟩
  | cons id rest ih =>
    rw [List.mapM_cons]
    obtain ⟨first, once⟩ := List.nodup_cons.1 once
    refine Ends.bind (((cancels_cancel tidy (live (.head _)) (born id (.head _))).and
      (tidy_cancel id e tidy)).imp ?_ fun _ _ h => h.1)
    rintro b t ⟨⟨rfl, cancels⟩, tidy⟩
    have live : rest ⊆ t.live := fun k later => by
      rw [cancels.live]
      refine List.mem_filter.2 ⟨live (.tail _ later), ?_⟩
      have other : k ≠ id := fun same => first (same ▸ later)
      simpa using other
    refine Ends.bind ((ih tidy once live fun k later => ?_).imp ?_ fun _ _ h => h)
    · rw [cancels.born]
      exact born k (.tail _ later)
    · rintro bs u ⟨rfl, others, tidy⟩
      exact Ends.pure_iff.2 ⟨rfl, cancels.trans others, tidy⟩

/-- The live executions of a workflow. -/
def liveRuns (e : Engine) (w : String) : List String :=
  e.live.filter fun id => (e.storage.tables.runs w).contains id

/-- An execution that is live is one of the workflow that its row tells. -/
theorem liveRuns_eq (tidy : e.Tidy gone) :
    (e.live.filter fun id => (e.execution? id).any (·.workflow.id == some w)) = e.liveRuns w := by
  refine List.filter_congr fun id live => ?_
  obtain ⟨l, -, -, guards, sound⟩ := tidy.guarded
  obtain ⟨x, known, -⟩ := sound.living id (guards.live ▸ live)
  obtain ⟨y, there, -⟩ := guards.execution known
  obtain ⟨w', born, own⟩ := tidy.rooted.living id live
  have only := tidy.rooted.runsOnly born
  rw [there, Option.any_some, own y there]
  by_cases same : w' = w
  · subst same
    rw [only.contains_runs]
    simp
  · have absent : (e.storage.tables.runs w).contains id = false := by
      apply Bool.eq_false_iff.2
      intro present
      obtain ⟨r, listed, named⟩ := List.mem_map.1 (List.contains_iff_mem.1 present)
      obtain ⟨listed, one⟩ := List.mem_filter.1 listed
      have one : r.workflow = w := by simpa using one
      exact same ((only.only r listed named).symm.trans one)
    rw [absent]
    simp [same]

theorem cancels_cancelAll (tidy : e.Tidy gone) (w : String) :
    Ends (cancelAll w) e (fun n t => n = (e.liveRuns w).length ∧ e.Cancels w (e.liveRuns w) t ∧
      t.Tidy gone) never := by
  refine Ends.bind (Ends.get_iff.2 ?_)
  dsimp only
  rw [liveRuns_eq tidy]
  refine Ends.bind ((cancels_mapM (w := w) tidy (List.filter_sublist.nodup tidy.rooted.once)
    (List.filter_sublist.subset) fun id there => ?_).imp ?_ fun _ _ h => h)
  · obtain ⟨r, listed, named⟩ := List.mem_map.1
      (List.contains_iff_mem.1 (List.mem_filter.1 there).2)
    obtain ⟨listed, one⟩ := List.mem_filter.1 listed
    have one : r.workflow = w := by simpa using one
    exact List.mem_map.2 ⟨r, listed, by rw [named, one]⟩
  · rintro bs t ⟨rfl, cancels, tidy⟩
    refine Ends.pure_iff.2 ⟨?_, cancels, tidy⟩
    rw [List.countP_map]
    exact List.countP_eq_length.2 fun _ _ => rfl

/-- One engine is what another was before a workflow was deleted, less all that belonged to it: its
live executions are cancelled, and everything else is as it was. -/
structure Without (w : String) (e t : Engine) : Prop where
  workflows : t.storage.tables.workflows = e.storage.tables.workflows.filter (·.id != w)
  executions : t.storage.tables.executions = e.storage.tables.executions.filter (·.workflow != w)
  logs : t.storage.tables.logs =
    e.storage.tables.logs.filter fun r => !(e.storage.tables.runs w).contains r.execution
  markers : t.storage.tables.markers =
    e.storage.tables.markers.filter fun r => !(e.storage.tables.runs w).contains r.execution
  records : t.storage.tables.tickets = e.storage.tables.tickets ∧
    t.storage.tables.notifications = e.storage.tables.notifications ∧
    t.storage.tables.articles = e.storage.tables.articles
  live : t.live = e.live.filter fun id => !(e.storage.tables.runs w).contains id
  clock : t.clock = { e.clock with
    timers := e.clock.timers.filter fun s => !(e.storage.tables.runs w).contains s.execution }
  cancelled : ∀ id ∈ e.live, id ∈ e.storage.tables.runs w →
    ∃ x, t.execution? id = some x ∧ x.status = .cancelled ∧ x.timers = []
  others : ∀ id, id ∉ e.storage.tables.runs w → t.execution? id = e.execution? id

/-! The rows are deleted. -/

theorem mem_runs : id ∈ e.storage.tables.runs w ↔ (id, w) ∈ e.storage.born := by
  unfold Store.runs Storage.born
  simp only [List.mem_map, List.mem_filter, beq_iff_eq, Prod.mk.injEq]
  constructor
  · rintro ⟨r, ⟨listed, own⟩, named⟩
    exact ⟨r, listed, named, own⟩
  · rintro ⟨r, listed, named, own⟩
    exact ⟨r, ⟨listed, own⟩, named⟩

/-- When no execution of a workflow is live, its rows can go, and their ids do not come back. -/
theorem Tidy.remove (tidy : e.Tidy gone) (idle : ∀ id ∈ e.live, id ∉ e.storage.tables.runs w)
    {s : Storage} (tables : s.tables = e.storage.tables.deleteWorkflow w)
    (next : s.nextId = e.storage.nextId) (outages : s.outages = e.storage.outages) :
    { e with storage := s }.Tidy fun k => gone k ∨ k ∈ e.storage.tables.runs w := by
  obtain ⟨⟨l, busy, picked, guards, sound⟩, rooted⟩ := tidy
  have markers : s.tables.markers =
      l.markers.filter fun r => !(e.storage.tables.runs w).contains r.execution := by
    rw [tables, ← guards.markers]
    rfl
  constructor
  · have mild : s.Mild := by
      unfold Storage.Mild
      rw [outages]
      exact guards.mild
    have guarded := guards.storage mild (Nat.le_of_eq next.symm) fun r there =>
      .inl (List.mem_filter.1 (markers ▸ there)).1
    rw [markers] at guarded
    refine ⟨{ l with markers := l.markers.filter fun r =>
        !(e.storage.tables.runs w).contains r.execution }, busy, picked, guarded,
      sound.filterMarkers _ fun s _ live r _ _ whose => ?_⟩
    have apart := idle s.execution (guards.live ▸ live)
    rw [whose, Bool.not_eq_true', ← Bool.not_eq_true, List.contains_iff_mem]
    exact apart
  · have born : s.born = e.storage.born.filter (·.2 != w) := by
      unfold Storage.born
      rw [tables, List.filter_map]
      rfl
    have enrolled (k : String) (known : k ∈ e.storage.enrolled)
        (apart : k ∉ e.storage.tables.runs w) : k ∈ s.enrolled := by
      obtain ⟨⟨_, w'⟩, there, rfl⟩ := List.mem_map.1 known
      refine List.mem_map.2 ⟨_, born ▸ List.mem_filter.2 ⟨there, ?_⟩, rfl⟩
      have other : w' ≠ w := fun same => apart (mem_runs.2 (same ▸ there))
      simpa using other
    have fewer : s.enrolled.Sublist e.storage.enrolled := by
      unfold Storage.enrolled
      rw [born]
      exact List.filter_sublist.map _
    have still (k : String) (present : k ∈ s.enrolled) : k ∉ e.storage.tables.runs w := by
      intro gone
      obtain ⟨c, there, rfl⟩ := List.mem_map.1 present
      obtain ⟨there, other⟩ := List.mem_filter.1 (born ▸ there)
      have same := List.inj_on_of_nodup_map rooted.distinct there (mem_runs.1 gone) rfl
      have one : c.2 = w := congrArg Prod.snd same
      simp [one] at other
    refine ⟨?_, List.nil_subset _, fun c there => ?_, fewer.nodup rooted.distinct, fun k there => ?_,
      fun r there => ?_, fun r there => ?_, List.nil_subset _, rooted.once, fun k live => ?_,
      fun k past => ?_⟩
    · change s.planned = []
      unfold Storage.planned
      rw [outages]
      exact rooted.steady
    · obtain ⟨there, other⟩ := List.mem_filter.1 (born ▸ there)
      obtain ⟨r, listed, named⟩ := List.mem_map.1 (rooted.sown c there)
      refine List.mem_map.2 ⟨r, ?_, named⟩
      have kept : r ∈ e.storage.tables.workflows.filter (·.id != w) :=
        List.mem_filter.2 ⟨listed, by rw [named]; exact other⟩
      rw [show ({ e with storage := s } : Engine).storage.tables = _ from tables]
      exact kept
    · obtain ⟨n, early, same⟩ := rooted.named k (fewer.subset there)
      exact ⟨n, next ▸ early, same⟩
    · rw [show ({ e with storage := s } : Engine).storage.tables = _ from tables] at there
      obtain ⟨there, apart⟩ := List.mem_filter.1 there
      rw [Bool.not_eq_true', ← Bool.not_eq_true, List.contains_iff_mem] at apart
      exact enrolled _ (rooted.logs r there) apart
    · rw [show ({ e with storage := s } : Engine).storage.tables = _ from tables] at there
      obtain ⟨there, apart⟩ := List.mem_filter.1 there
      rw [Bool.not_eq_true', ← Bool.not_eq_true, List.contains_iff_mem] at apart
      exact enrolled _ (rooted.markers r there) apart
    · obtain ⟨w', there, own⟩ := rooted.living k live
      refine ⟨w', born ▸ List.mem_filter.2 ⟨there, ?_⟩, own⟩
      have other : w' ≠ w := fun same => idle k live (mem_runs.2 (same ▸ there))
      simpa using other
    · have early : ∃ n < e.storage.nextId, k = idText n := by
        rcases past with old | new
        · exact (rooted.gone k old).2
        · exact rooted.named k (List.mem_map.2 ⟨_, mem_runs.1 new, rfl⟩)
      refine ⟨fun present => ?_, next ▸ early⟩
      rcases past with old | new
      · exact (rooted.gone k old).1 (fewer.subset present)
      · exact still k present new

/-- A stored workflow is deleted together with its executions, after these were cancelled. -/
theorem ends_removal (tidy : e.Tidy gone) (stored : (e.storage.tables.workflow? w).isSome) :
    Ends (do
      let cancelled ← cancelAll w
      let deleted ← (Storage.deleteWorkflow w : Run Nat)
      return (cancelled, deleted)) e
      (fun p t => p = ((e.liveRuns w).length, (e.storage.tables.runs w).length) ∧ e.Without w t ∧
        t.Tidy fun k => gone k ∨ k ∈ e.storage.tables.runs w) never := by
  refine Ends.bind ((cancels_cancelAll tidy w).imp ?_ fun _ _ h => h)
  rintro _ t ⟨rfl, cancels, tidied⟩
  have runs : t.storage.tables.runs w = e.storage.tables.runs w := by
    have same (v : Storage) : v.tables.runs w = (v.born.filter (·.2 == w)).map (·.1) := by
      unfold Store.runs Storage.born
      rw [List.filter_map, List.map_map]
      rfl
    rw [same, same, cancels.born]
  have still : (t.storage.tables.workflow? w).isSome := by
    unfold Store.workflow?
    rw [cancels.workflows]
    exact stored
  have idle : ∀ id ∈ t.live, id ∉ t.storage.tables.runs w := by
    intro id live one
    rw [cancels.live] at live
    obtain ⟨live, spared⟩ := List.mem_filter.1 live
    rw [Bool.not_eq_true', ← Bool.not_eq_true, List.contains_iff_mem] at spared
    exact spared (List.mem_filter.2 ⟨live, List.contains_iff_mem.2 (runs ▸ one)⟩)
  have deletes : Ends (Storage.deleteWorkflow w) t.storage
      (fun n s => n = (e.storage.tables.runs w).length ∧ s.tables = t.storage.tables.deleteWorkflow w ∧
        s.nextId = t.storage.nextId ∧ s.outages = t.storage.outages) never := by
    refine Ends.bind ((Storage.ends_session tidied.rooted.steady_scene _ _
      (if_pos still)).imp ?_ fun _ _ h => h)
    rintro _ s ⟨rfl, rfl⟩
    refine Ends.bind (Ends.modify_iff.2 (Ends.pure_iff.2 ⟨?_, rfl, rfl, rfl⟩))
    rw [← runs]
    exact (List.length_map _).symm
  refine Ends.bind (ends_storage.2 (deletes.imp ?_ fun _ _ h => h))
  rintro n s ⟨rfl, tables, next, outages⟩
  have tidy' := tidied.remove idle tables next outages
  rw [runs] at tidy'
  refine Ends.pure_iff.2 ⟨rfl, ?_, tidy'⟩
  have left : s.tables = e.storage.tables.deleteWorkflow w := tables.trans cancels.tables
  have listed (id : String) : id ∈ e.liveRuns w ↔ id ∈ e.live ∧ id ∈ e.storage.tables.runs w := by
    unfold liveRuns
    rw [List.mem_filter, List.contains_iff_mem]
  constructor
  · exact congrArg Store.workflows left
  · exact congrArg Store.executions left
  · exact congrArg Store.logs left
  · exact congrArg Store.markers left
  · show s.tables.tickets = _ ∧ s.tables.notifications = _ ∧ s.tables.articles = _
    rw [left]
    exact ⟨rfl, rfl, rfl⟩
  · refine cancels.live.trans (List.filter_congr fun id live => ?_)
    rw [Bool.eq_iff_iff]
    simp [listed, live]
  · refine cancels.clock.trans (congrArg (fun timers => { e.clock with timers }) ?_)
    refine List.filter_congr fun s set => ?_
    obtain ⟨l, -, -, guards, sound⟩ := tidy.guarded
    have live : s.execution ∈ e.live := by
      by_contra idle
      exact (sound.still s.execution (guards.live ▸ idle)).1 s (guards.timers ▸ set) rfl
    rw [Bool.eq_iff_iff]
    simp [listed, live]
  · exact fun id live one => cancels.ended id ((listed id).2 ⟨live, one⟩)
  · exact fun id other => cancels.others id fun there => other ((listed id).1 there).2

end Engine

end Runbook
