import Runbook.Proofs.Course.Endurance
import Runbook.Proofs.Course.Habit

/-!
What rows refer to. The tables do not enforce it, but the engine does: an execution is written for a
stored workflow only, and log entries and markers only for an execution that is in store. It holds
because every execution that is live, that a branch runs for or that a timer is about to fire for is
in store, and because an id that was given up is never given away again.
-/
namespace Runbook

namespace Store

/-- What work on behalf of some executions leaves of the tables: every workflow stays under its id,
and log entries and markers come in for these executions only. -/
structure Attends (about : String → Prop) (s t : Store) : Prop where
  workflows : s.workflows.map (·.id) ⊆ t.workflows.map (·.id)
  logs : ∀ r ∈ t.logs, r ∈ s.logs ∨ about r.execution
  markers : ∀ r ∈ t.markers, r ∈ s.markers ∨ about r.execution

variable {about : String → Prop} {s t u : Store}

theorem Attends.refl (s : Store) : s.Attends about s :=
  ⟨fun _ there => there, fun _ there => .inl there, fun _ there => .inl there⟩

theorem Attends.trans (first : s.Attends about t) (second : t.Attends about u) : s.Attends about u where
  workflows := List.Subset.trans first.workflows second.workflows
  logs r there := (second.logs r there).elim (first.logs r) .inr
  markers r there := (second.markers r there).elim (first.markers r) .inr

/-- Nothing that is referred to or refers changes. -/
theorem Attends.of_eq (workflows : t.workflows.map (·.id) = s.workflows.map (·.id))
    (logs : t.logs = s.logs) (markers : t.markers = s.markers) : s.Attends about t :=
  ⟨workflows ▸ fun _ there => there, fun _ there => .inl (logs ▸ there),
    fun _ there => .inl (markers ▸ there)⟩

end Store

namespace Storage

open Store (Attends)

/-- The ids of the stored workflows. -/
def planted (s : Storage) : List String := s.tables.workflows.map (·.id)

/-- The ids of the stored executions. -/
def enrolled (s : Storage) : List String := s.born.map (·.1)

/-- An operation keeps what is true of the tables, whether it succeeds or fails. -/
def Preserves (p : Store → Prop) {α : Type} (x : StorageM α) : Prop :=
  ∀ s, p s.tables → Ends x s (fun _ t => p t.tables) fun _ t => p t.tables

namespace Preserves

variable {α β : Type} {p : Store → Prop} {x : StorageM α}

theorem pure (a : α) : Preserves p (Pure.pure a : StorageM α) := fun _ holds => holds

theorem throw (f : Failure) : Preserves p (MonadExcept.throw f : StorageM α) := fun _ holds => holds

theorem bind {k : α → StorageM β} (first : Preserves p x) (next : ∀ a, Preserves p (k a)) :
    Preserves p (x >>= k) := fun s holds =>
  Ends.bind ((first s holds).imp (fun a t holds => next a t holds) fun _ _ holds => holds)

theorem freshId : Preserves p freshId := fun _ holds =>
  Ends.bind (Ends.get_iff.2 (Ends.bind (Ends.modify_iff.2 (Ends.pure_iff.2 holds))))

theorem freshIds (n : Nat) : Preserves p (freshIds n) := by
  induction n with
  | zero => exact pure _
  | succ n ih => exact bind freshId fun _ => bind ih fun _ => pure _

theorem note (level : Level) (logger message : String) : Preserves p (note level logger message) :=
  fun _ holds => Ends.modify_iff.2 holds

theorem openSession (operation table : String) : Preserves p (openSession operation table) := by
  intro s holds
  refine Ends.bind (Ends.get_iff.2 (Ends.bind (Ends.modify_iff.2 ?_)))
  cases (Store.Outage.strike operation s.outages).1 with
  | none => exact Ends.pure_iff.2 holds
  | some o => exact Ends.throw_iff.2 holds

theorem transact {work : Store → Except Store.Refusal (α × Store)}
    (each : ∀ v a w, p v → work v = .ok (a, w) → p w) (operation table : String) :
    Preserves p (transact operation table work) := by
  intro s holds
  unfold Storage.transact
  rw [Ends.bind_iff, Ends.get_iff]
  cases outcome : work s.tables with
  | ok done =>
    exact Ends.bind (Ends.modify_iff.2 (Ends.pure_iff.2 (each _ _ _ holds outcome)))
  | error r =>
    cases r with
    | rejected => exact Ends.bind (Ends.modify_iff.2 (Ends.throw_iff.2 holds))
    | raised f => exact Ends.throw_iff.2 holds

theorem session {work : Store → Except Store.Refusal (α × Store)}
    (each : ∀ v a w, p v → work v = .ok (a, w) → p w) (operation table : String) :
    Preserves p (session operation table work) :=
  bind (openSession operation table) fun _ => transact each operation table

theorem query (operation table : String) (read : Store → Except Store.Refusal α) :
    Preserves p (query operation table read) := by
  refine session (fun v a w holds done => ?_) operation table
  obtain ⟨b, -, done⟩ := bind_eq_ok done
  cases done
  exact holds

theorem loadWorkflow (id : String) : Preserves p (loadWorkflow id) := by
  refine .bind (.query _ _ _) fun row => ?_
  split
  · exact .pure _
  · exact .throw _

theorem retrying {call : StorageM α} (each : Preserves p call) (name : String) :
    Preserves p (retrying name call) := by
  intro s holds
  have tried : Ends (Storage.retrying name call) s (fun _ t => p t.tables)
      fun _ t => p t.tables ∧ True := by
    refine ends_retrying_of_kept (fun t => p t.tables) (fun _ => True)
      (fun t u _ tables _ kept => by rwa [tables]) name (fun t kept => ?_) holds
    exact (each t kept).imp (fun _ _ more => more) fun _ _ more => ⟨more, trivial⟩
  exact tried.imp (fun _ _ h => h) fun _ _ h => h.1

/-- The status of an execution is set in its row. -/
theorem setExecutionStatus {id : String}
    (each : ∀ v status error time, p v → p (v.updateExecution id fun r => { r with
      status, error, time, ended := r.ended || status.isTerminal })) (status error time : Value) :
    Preserves p (setExecutionStatus id status error time) := by
  refine retrying ?_ _
  cases ExecutionStatus.read status with
  | error f => exact fun _ holds => holds
  | ok status =>
    refine bind (pure status) fun status => session (fun v a w holds done => ?_) _ _
    split at done
    · cases done
    · dsimp only at done
      split at done <;> obtain ⟨error, -, done⟩ := bind_eq_ok done <;> split at done <;>
      · obtain ⟨time, -, done⟩ := bind_eq_ok done
        cases done
        exact each v _ _ _ holds

/-- An entry comes in at the end of the log. -/
theorem appendLog {execution : String}
    (each : ∀ v tenant entry, p v → p { v with logs := v.logs ++ [⟨execution, tenant, entry⟩] })
    (tenant : Value) (entry : LogEntry) : Preserves p (appendLog execution tenant entry) := by
  refine retrying (session (fun v a w holds done => ?_) _ _) _
  obtain ⟨cell, -, done⟩ := bind_eq_ok done
  obtain ⟨tenant, -, done⟩ := bind_eq_ok done
  cases done
  exact each v _ _ holds

theorem clearMarkers {execution : String}
    (each : ∀ v, p v → p { v with markers := v.markers.filter (·.execution != execution) }) :
    Preserves p (clearMarkers execution) := by
  refine session (fun v a w holds done => ?_) _ _
  cases done
  exact each v holds

end Preserves

/-! What the operations leave of the tables. -/

section Attending

variable {α : Type} {about : String → Prop} (v : Store)

theorem attends_session {work : Store → Except Store.Refusal (α × Store)}
    (aside : ∀ u a w, work u = .ok (a, w) → u.Attends about w) (operation table : String) :
    Preserves (v.Attends about) (session operation table work) :=
  .session (fun u a w kept done => kept.trans (aside u a w done)) operation table

/-- Work on tables of neither workflows nor what belongs to executions. -/
theorem attends_elsewhere {work : Store → Except Store.Refusal (α × Store)}
    (aside : ∀ u a w, work u = .ok (a, w) →
      w.workflows = u.workflows ∧ w.logs = u.logs ∧ w.markers = u.markers)
    (operation table : String) : Preserves (v.Attends about) (session operation table work) := by
  refine attends_session v (fun u a w done => ?_) operation table
  obtain ⟨workflows, logs, markers⟩ := aside u a w done
  exact .of_eq (by rw [workflows]) logs markers

theorem planted_updateWorkflow (id : String) {f : Store.WorkflowRow → Store.WorkflowRow}
    (named : ∀ r, r.id = id → (f r).id = id) :
    (v.updateWorkflow id f).workflows.map (·.id) = v.workflows.map (·.id) := by
  unfold Store.updateWorkflow
  rw [List.map_map]
  refine List.map_congr_left fun r _ => ?_
  by_cases own : r.id = id
  · simp [own, named r own]
  · simp [own]

theorem planted_putWorkflow (r : Store.WorkflowRow) :
    v.workflows.map (·.id) ⊆ (v.putWorkflow r).workflows.map (·.id) := by
  intro k there
  obtain ⟨w, listed, rfl⟩ := List.mem_map.1 there
  unfold Store.putWorkflow
  split
  · rw [List.map_map]
    refine List.mem_map.2 ⟨w, listed, ?_⟩
    by_cases own : w.id = r.id <;> simp [own]
  · exact List.mem_map.2 ⟨w, List.mem_append_left _ listed, rfl⟩

theorem attends_saveWorkflow (w : Workflow) : Preserves (v.Attends about) (saveWorkflow w) := by
  have store (id : String) : Preserves (v.Attends about) (do
      session "save workflow" "workflows" fun s => do
        let version ← Store.versionCell (.int w.version)
        return ((), s.putWorkflow (.ofWorkflow id w version))
      note .info logger ("Saved workflow " ++ id ++ " (" ++ w.name ++ ")")
      return id) := by
    refine .bind (attends_session v (fun u a t done => ?_) _ _) fun _ => .bind (.note _ _ _) fun _ =>
      .pure _
    obtain ⟨version, -, done⟩ := bind_eq_ok done
    cases done
    refine ⟨planted_putWorkflow u _, fun r there => .inl ?_, fun r there => .inl ?_⟩ <;>
    · unfold Store.putWorkflow at there
      exact there
  unfold saveWorkflow
  dsimp only
  split
  · split
    · exact .bind .freshId store
    · exact .bind (.pure _) store
  · exact .bind .freshId store

theorem attends_updateWorkflow (id : String) (w : Workflow) :
    Preserves (v.Attends about) (updateWorkflow id w) := by
  refine .bind (attends_session v (fun u a t done => ?_) _ _) fun _ => .bind (.note _ _ _) fun _ =>
    .pure _
  split at done
  · cases done
  · obtain ⟨version, -, done⟩ := bind_eq_ok done
    obtain ⟨cell, -, done⟩ := bind_eq_ok done
    cases done
    exact .of_eq (planted_updateWorkflow u id fun _ _ => rfl) rfl rfl

theorem attends_setWorkflowStatus (id : String) (status : Value) :
    Preserves (v.Attends about) (setWorkflowStatus id status) := by
  refine .bind (attends_session v (fun u a t done => ?_) _ _) fun _ => .note _ _ _
  split at done
  · cases done
  · split at done
    · split at done
      · cases done
        exact .of_eq (planted_updateWorkflow u id fun _ own => own) rfl rfl
      · cases done
    · cases done

theorem attends_cloneWorkflow (id : String) (name : Option String) :
    Preserves (v.Attends about) (cloneWorkflow id name) :=
  .bind (.loadWorkflow id) fun _ => attends_saveWorkflow v _

theorem attends_createExecution (workflow tenant data module item : Value) :
    Preserves (v.Attends about) (createExecution workflow tenant data module item) := by
  refine .retrying (.bind .freshId fun id => .bind (attends_elsewhere v (fun u a t done => ?_) _ _)
    fun _ => .pure _) _
  obtain ⟨row, -, done⟩ := bind_eq_ok done
  cases done
  exact ⟨rfl, rfl, rfl⟩

theorem attends_setExecutionStatus (id : String) (status error time : Value) :
    Preserves (v.Attends about) (setExecutionStatus id status error time) :=
  .setExecutionStatus (fun _ _ _ _ kept => kept.trans (.of_eq rfl rfl rfl)) status error time

theorem attends_saveMarker (execution node : String) (resumeAt : Instant) (context : Value) :
    Preserves (v.Attends (· = execution)) (saveMarker execution node resumeAt context) := by
  refine .retrying (attends_session v (fun u a w done => ?_) _ _) _
  cases done
  refine ⟨fun _ there => there, fun _ there => .inl there, fun r there => ?_⟩
  rcases List.mem_append.1 there with old | new
  · exact .inl old
  · exact .inr (List.mem_singleton.1 new ▸ rfl)

theorem attends_clearMarker (id : Int) : Preserves (v.Attends about) (clearMarker id) := by
  refine attends_session v (fun u a w done => ?_) _ _
  split at done <;> cases done
  exact ⟨fun _ there => there, fun _ there => .inl there,
    fun _ there => .inl (List.mem_filter.1 there).1⟩

theorem attends_clearMarkers (execution : String) :
    Preserves (v.Attends about) (clearMarkers execution) :=
  .clearMarkers fun _ kept => kept.trans ⟨fun _ there => there, fun _ there => .inl there,
    fun _ there => .inl (List.mem_filter.1 there).1⟩

theorem attends_appendLog (execution : String) (tenant : Value) (entry : LogEntry) :
    Preserves (v.Attends (· = execution)) (appendLog execution tenant entry) := by
  refine .appendLog (fun u tenant entry kept => kept.trans ⟨fun _ there => there, fun r there => ?_,
    fun _ there => .inl there⟩) tenant entry
  rcases List.mem_append.1 there with old | new
  · exact .inl old
  · exact .inr (List.mem_singleton.1 new ▸ rfl)

theorem attends_createTicket (t : TicketDraft) : Preserves (v.Attends about) (createTicket t) := by
  refine .bind .freshId fun id => .bind (attends_elsewhere v (fun u a w done => ?_) _ _) fun _ =>
    .bind (.note _ _ _) fun _ => .pure _
  obtain ⟨row, -, done⟩ := bind_eq_ok done
  cases done
  exact ⟨rfl, rfl, rfl⟩

theorem attends_updateTicket (id : String) (updates : Dict) :
    Preserves (v.Attends about) (updateTicket id updates) := by
  refine .bind (attends_elsewhere v (fun u a w done => ?_) _ _) fun _ => ?_
  · split at done
    · cases done
    · obtain ⟨row, -, done⟩ := bind_eq_ok done
      cases done
      exact ⟨rfl, rfl, rfl⟩
  · split
    · exact .note _ _ _
    · exact .throw _

theorem attends_assignTicket (id : String) (assignee : Value) :
    Preserves (v.Attends about) (assignTicket id assignee) := by
  refine .bind (attends_elsewhere v (fun u a w done => ?_) _ _) fun _ => .note _ _ _
  split at done
  · cases done
  · obtain ⟨row, -, done⟩ := bind_eq_ok done
    cases done
    exact ⟨rfl, rfl, rfl⟩

theorem attends_notify (a : Announcement) : Preserves (v.Attends about) (notify a) := by
  refine .bind (.openSession _ _) fun _ => .bind (.freshIds _) fun ids => .bind
    (.transact (fun u b w kept done => ?_) _ _) fun _ => .bind (.note _ _ _) fun _ => .pure _
  obtain ⟨rows, -, done⟩ := bind_eq_ok done
  cases done
  exact kept.trans (.of_eq rfl rfl rfl)

theorem attends_createArticle (a : ArticleDraft) : Preserves (v.Attends about) (createArticle a) := by
  refine .bind .freshId fun id => .bind (attends_elsewhere v (fun u b w done => ?_) _ _) fun _ =>
    .bind (.note _ _ _) fun _ => .pure _
  obtain ⟨row, -, done⟩ := bind_eq_ok done
  cases done
  exact ⟨rfl, rfl, rfl⟩

end Attending

/-- What is loaded is the workflow that is stored under the id. -/
theorem planted_loadWorkflow (id : String) (s : Storage) :
    Ends (loadWorkflow id) s (fun w t => w.id = some id ∧ id ∈ t.planted) fun _ _ => True := by
  refine Ends.bind ((bears_session _ _).imp ?_ fun _ _ _ => trivial)
  rintro row t ⟨done, -, -⟩
  obtain ⟨found, isFound, done⟩ := bind_eq_ok done
  obtain ⟨rfl, tables⟩ := Prod.mk.inj (Except.ok.inj done)
  dsimp only at isFound
  split at isFound
  · rename_i here
    cases isFound
    have own : found.id = id := by simpa using List.find?_some here
    split
    · rename_i parsed
      refine Ends.pure_iff.2 ⟨own ▸ found.id_of_parse parsed, ?_⟩
      unfold planted
      rw [← tables]
      exact List.mem_map.2 ⟨found, List.mem_of_find?_eq_some here, own⟩
    · exact Ends.throw_iff.2 trivial
  · cases isFound

end Storage

namespace Engine

/-- What is in store refers to what is in store. Certain workflows are kept, and branches run for
executions in store only; what lives is in store with its workflow, and ids that are gone do not come
back. -/
structure Rooted (kept : List String) (gone : String → Prop) (busy : List String) (e : Engine) :
    Prop where
  steady : e.storage.planned = []
  kept : kept ⊆ e.storage.planted
  sown : ∀ c ∈ e.storage.born, c.2 ∈ e.storage.planted
  distinct : e.storage.enrolled.Nodup
  named : ∀ id ∈ e.storage.enrolled, ∃ n < e.storage.nextId, id = idText n
  logs : ∀ r ∈ e.storage.tables.logs, r.execution ∈ e.storage.enrolled
  markers : ∀ r ∈ e.storage.tables.markers, r.execution ∈ e.storage.enrolled
  busy : busy ⊆ e.storage.enrolled
  once : e.live.Nodup
  living : ∀ id ∈ e.live, ∃ w, (id, w) ∈ e.storage.born ∧
    ∀ x, e.execution? id = some x → x.workflow.id = some w
  gone : ∀ id, gone id → id ∉ e.storage.enrolled ∧ ∃ n < e.storage.nextId, id = idText n

variable {α : Type} {e t : Engine} {kept busy : List String} {gone : String → Prop} {id : String}

namespace Rooted

/-- Work of the storage on behalf of executions in store. -/
theorem serve (rooted : e.Rooted kept gone busy) {s : Storage} (bears : Storage.Bears [] e.storage s)
    (attends : e.storage.tables.Attends (· ∈ e.storage.enrolled) s.tables) :
    { e with storage := s }.Rooted kept gone busy := by
  have born : s.born = e.storage.born := bears.born.trans (List.append_nil _)
  have enrolled : s.enrolled = e.storage.enrolled := by rw [Storage.enrolled, born]; rfl
  refine ⟨bears.planned.trans rooted.steady, List.Subset.trans rooted.kept attends.workflows, ?_, ?_,
    ?_, ?_, ?_, ?_, rooted.once, ?_, ?_⟩
  · exact fun c there => attends.workflows (rooted.sown c (born ▸ there))
  · exact enrolled ▸ rooted.distinct
  · intro k there
    obtain ⟨n, early, same⟩ := rooted.named k (enrolled ▸ there)
    exact ⟨n, Nat.lt_of_lt_of_le early bears.later, same⟩
  · exact fun r there => enrolled ▸ (attends.logs r there).elim (rooted.logs r) fun known => known
  · exact fun r there => enrolled ▸ (attends.markers r there).elim (rooted.markers r) fun known => known
  · exact enrolled ▸ rooted.busy
  · exact fun k live => born ▸ rooted.living k live
  · intro k past
    obtain ⟨absent, n, early, same⟩ := rooted.gone k past
    exact ⟨enrolled ▸ absent, n, Nat.lt_of_lt_of_le early bears.later, same⟩

/-- Executions change in memory, but not their workflows, and none becomes live. -/
theorem change (rooted : e.Rooted kept gone busy) (storage : t.storage = e.storage)
    (live : t.live.Sublist e.live)
    (same : ∀ k x, t.execution? k = some x → ∃ y, e.execution? k = some y ∧ y.workflow = x.workflow) :
    t.Rooted kept gone busy := by
  refine ⟨storage ▸ rooted.steady, storage ▸ rooted.kept, storage ▸ rooted.sown,
    storage ▸ rooted.distinct, storage ▸ rooted.named, storage ▸ rooted.logs,
    storage ▸ rooted.markers, storage ▸ rooted.busy, live.nodup rooted.once, fun k there => ?_,
    storage ▸ rooted.gone⟩
  obtain ⟨w, born, own⟩ := rooted.living k (live.subset there)
  refine ⟨w, storage ▸ born, fun x known => ?_⟩
  obtain ⟨y, known, workflow⟩ := same k x known
  exact workflow ▸ own y known

/-- Other branches run, for executions that are in store. -/
theorem attend {busy' : List String} (rooted : e.Rooted kept gone busy)
    (known : busy' ⊆ e.storage.enrolled) : e.Rooted kept gone busy' :=
  { rooted with busy := known }

theorem leave (rooted : e.Rooted kept gone (id :: busy)) : e.Rooted kept gone busy :=
  rooted.attend fun _ there => rooted.busy (.tail _ there)

theorem enrolled_of_live (rooted : e.Rooted kept gone busy) (live : id ∈ e.live) :
    id ∈ e.storage.enrolled := by
  obtain ⟨w, born, -⟩ := rooted.living id live
  exact List.mem_map.2 ⟨_, born, rfl⟩

/-- The id of a new execution was never given away. -/
theorem ne_of_early {s : Storage} {w k : String} (bears : Storage.Bears [(id, w)] e.storage s)
    (early : ∃ n < e.storage.nextId, k = idText n) : k ≠ id := by
  obtain ⟨m, before, rfl⟩ := early
  obtain ⟨n, late, -, name⟩ := bears.new _ (.head _)
  intro same
  have number := Scene.idText_inj (same.trans name)
  omega

/-- A new execution is in store. -/
theorem enrol (rooted : e.Rooted kept gone busy) {s : Storage} {w : String}
    (bears : Storage.Bears [(id, w)] e.storage s)
    (attends : e.storage.tables.Attends (· ∈ e.storage.enrolled) s.tables)
    (planted : w ∈ e.storage.planted) : { e with storage := s }.Rooted kept gone (id :: busy) := by
  have enrolled : s.enrolled = e.storage.enrolled ++ [id] := by
    rw [Storage.enrolled, bears.born, List.map_append]
    rfl
  obtain ⟨n, -, early, name⟩ := bears.new _ (.head _)
  refine ⟨bears.planned.trans rooted.steady, List.Subset.trans rooted.kept attends.workflows, ?_, ?_,
    ?_, ?_, ?_, ?_, rooted.once, ?_, ?_⟩
  · intro c there
    rcases List.mem_append.1 (bears.born ▸ there) with old | new
    · exact attends.workflows (rooted.sown c old)
    · exact attends.workflows (List.mem_singleton.1 new ▸ planted)
  · rw [show ({ e with storage := s } : Engine).storage.enrolled = _ from enrolled, List.nodup_append]
    refine ⟨rooted.distinct, List.nodup_singleton _, fun k old k' new same => ?_⟩
    exact ne_of_early bears (rooted.named k old) (same.trans (List.mem_singleton.1 new))
  · intro k there
    rcases List.mem_append.1 (enrolled ▸ there) with old | new
    · obtain ⟨m, before, same⟩ := rooted.named k old
      exact ⟨m, Nat.lt_of_lt_of_le before bears.later, same⟩
    · exact ⟨n, early, (List.mem_singleton.1 new).trans name⟩
  · intro r there
    have known := (attends.logs r there).elim (rooted.logs r) fun known => known
    exact enrolled ▸ List.mem_append_left _ known
  · intro r there
    have known := (attends.markers r there).elim (rooted.markers r) fun known => known
    exact enrolled ▸ List.mem_append_left _ known
  · intro k there
    rw [show ({ e with storage := s } : Engine).storage.enrolled = _ from enrolled]
    rcases List.mem_cons.1 there with rfl | old
    · exact List.mem_append_right _ (.head _)
    · exact List.mem_append_left _ (rooted.busy old)
  · intro k live
    obtain ⟨w, born, own⟩ := rooted.living k live
    exact ⟨w, bears.born ▸ List.mem_append_left _ born, own⟩
  · intro k past
    obtain ⟨absent, m, before, same⟩ := rooted.gone k past
    refine ⟨fun there => ?_, m, Nat.lt_of_lt_of_le before bears.later, same⟩
    rcases List.mem_append.1 (enrolled ▸ there) with old | new
    · exact absent old
    · exact ne_of_early bears ⟨m, before, same⟩ (List.mem_singleton.1 new)

/-- An execution in store becomes live, as one of its workflow. -/
theorem revive (rooted : e.Rooted kept gone busy) {x : Execution} {w : String}
    (born : (x.id, w) ∈ e.storage.born) (own : x.workflow.id = some w) {live : List String}
    (fewer : live.Sublist e.live) (other : x.id ∉ live) :
    { e.putExecution x with live := live ++ [x.id] }.Rooted kept gone busy := by
  refine ⟨rooted.steady, rooted.kept, rooted.sown, rooted.distinct, rooted.named, rooted.logs,
    rooted.markers, rooted.busy, ?_, fun k there => ?_, rooted.gone⟩
  · rw [List.nodup_append]
    refine ⟨fewer.nodup rooted.once, List.nodup_singleton _, fun k old k' new same => ?_⟩
    exact other ((List.mem_singleton.1 new) ▸ same ▸ old)
  have found (y : Execution) (known : (e.putExecution x).execution? k = some y) :
      (k = x.id ∧ y = x) ∨ (k ≠ x.id ∧ e.execution? k = some y) := by
    rw [execution?_replace] at known
    by_cases same : k = x.id
    · rw [if_pos same] at known
      exact .inl ⟨same, (Option.some.inj known).symm⟩
    · rw [if_neg same] at known
      exact .inr ⟨same, known⟩
  by_cases same : k = x.id
  · subst same
    refine ⟨w, born, fun y known => ?_⟩
    rcases found y known with ⟨-, rfl⟩ | ⟨other, -⟩
    · exact own
    · exact absurd rfl other
  · have old : k ∈ e.live := by
      rcases List.mem_append.1 there with old | new
      · exact fewer.subset old
      · exact absurd (List.mem_singleton.1 new) same
    obtain ⟨w', born', own'⟩ := rooted.living k old
    refine ⟨w', born', fun y known => ?_⟩
    rcases found y known with ⟨same', -⟩ | ⟨-, known⟩
    · exact absurd same' same
    · exact own' y known

end Rooted

/-! The elementary operations. -/

theorem rooted_lift {about : String → Prop} {x : StorageM α}
    (bears : ∀ s, Ends x s (fun _ t => Storage.Bears [] s t) fun _ t => Storage.Bears [] s t)
    (attends : ∀ v : Store, Storage.Preserves (v.Attends about) x) (known : ∀ k, about k → k ∈ busy) :
    Keeps (Rooted kept gone busy) (liftM x : Run α) := by
  intro e rooted
  have widen {v : Store} (attends : e.storage.tables.Attends about v) :
      e.storage.tables.Attends (· ∈ e.storage.enrolled) v :=
    ⟨attends.workflows, fun r there => (attends.logs r there).imp_right fun h => rooted.busy (known _ h),
      fun r there => (attends.markers r there).imp_right fun h => rooted.busy (known _ h)⟩
  apply ends_storage.2
  refine ((bears e.storage).and (attends _ e.storage (.refl _))).imp ?_ ?_ <;>
  · rintro _ s ⟨bears, attends⟩
    exact rooted.serve bears (widen attends)

/-- The same when nothing is written on behalf of any execution. -/
theorem rooted_aside {x : StorageM α}
    (bears : ∀ s, Ends x s (fun _ t => Storage.Bears [] s t) fun _ t => Storage.Bears [] s t)
    (attends : ∀ v : Store, Storage.Preserves (v.Attends fun _ => False) x) :
    Keeps (Rooted kept gone busy) (liftM x : Run α) :=
  rooted_lift bears attends fun _ no => no.elim

theorem rooted_quiet {x : StorageM α} (quiet : Storage.Quiet x)
    (attends : ∀ v : Store, Storage.Preserves (v.Attends fun _ => False) x) :
    Keeps (Rooted kept gone busy) (liftM x : Run α) :=
  rooted_aside (fun _ => quiet.bears) attends

/-- What is only read, with the tables that it is read from. -/
theorem rooted_query (rooted : e.Rooted kept gone busy) (operation table : String)
    (read : Store → Except Store.Refusal α) :
    Ends (liftM (Storage.query operation table read) : Run α) e
      (fun a t => t.Rooted kept gone busy ∧ read e.storage.tables = .ok a ∧
        t.storage.tables = e.storage.tables) fun _ t => t.Rooted kept gone busy := by
  have still : Keeps (Rooted kept gone busy) (liftM (Storage.query operation table read) : Run α) :=
    rooted_quiet (.query _ _ _) fun _ => .query _ _ _
  have answers : Ends (liftM (Storage.query operation table read) : Run α) e
      (fun a t => read e.storage.tables = .ok a ∧ t.storage.tables = e.storage.tables)
      fun _ _ => True := by
    refine ends_storage.2 ((Storage.bears_session _ _).imp ?_ fun _ _ _ => trivial)
    rintro a s ⟨done, -, -⟩
    obtain ⟨found, isFound, done⟩ := bind_eq_ok done
    obtain ⟨rfl, tables⟩ := Prod.mk.inj (Except.ok.inj done)
    exact ⟨isFound, tables.symm⟩
  exact ((still e rooted).and answers).imp (fun _ _ h => h) fun _ _ h => h.1

theorem rooted_modify {f : Engine → Engine} (storage : ∀ e, (f e).storage = e.storage)
    (live : ∀ e, (f e).live.Sublist e.live)
    (same : ∀ e k x, (f e).execution? k = some x → ∃ y, e.execution? k = some y ∧
      y.workflow = x.workflow) : Keeps (Rooted kept gone busy) (modify f) :=
  fun e rooted => Ends.modify_iff.2 (rooted.change (storage e) (live e) (same e))

theorem rooted_modifyExecution (id : String) {f : Execution → Execution} (named : ∀ x, (f x).id = x.id)
    (workflow : ∀ x, (f x).workflow = x.workflow) :
    Keeps (Rooted kept gone busy) (modifyExecution id f) := by
  refine rooted_modify (fun _ => rfl) (fun _ => .refl _) fun e k x known => ?_
  rw [execution?_modify named] at known
  split at known
  · obtain ⟨y, there, rfl⟩ := Option.map_eq_some_iff.1 known
    exact ⟨y, there, (workflow y).symm⟩
  · exact ⟨x, known, rfl⟩

/-- Each elementary step keeps what is in store rooted. -/
theorem habit_rooted : Habit (Rooted kept gone busy) (· ∈ busy) where
  alter outward := rooted_modifyExecution _ outward.id outward.workflow
  clock _ := rooted_modify (fun _ => rfl) (fun _ => .refl _) fun _ _ x known => ⟨x, known, rfl⟩
  network _ := rooted_modify (fun _ => rfl) (fun _ => .refl _) fun _ _ x known => ⟨x, known, rfl⟩
  retire _ := rooted_modify (fun _ => rfl) (fun _ => List.filter_sublist)
    fun _ _ x known => ⟨x, known, rfl⟩
  stop _ _ := rooted_modify (fun _ => rfl) (fun _ => List.nil_sublist _)
    fun _ _ x known => ⟨x, known, rfl⟩
  close := rooted_modify (fun _ => rfl) (fun _ => .refl _) fun _ _ x known => ⟨x, known, rfl⟩
  journal _ e rooted := Ends.modify_iff.2
    (rooted.serve (.of_eq rfl (Nat.le_refl _) rfl) (Store.Attends.refl e.storage.tables))
  appendLog known _ _ := rooted_lift (fun _ => Storage.bears_appendLog ..)
    (fun v => Storage.attends_appendLog v _ _ _) fun _ same => same ▸ known
  saveMarker known _ _ rooted _ _ _ := rooted_lift (fun _ => (Storage.Errand.saveMarker ..).bears)
    (fun v => Storage.attends_saveMarker v _ _ _ _) (fun _ same => same ▸ known) _ rooted
  clearMarker _ := rooted_aside (fun _ => (Storage.Errand.clearMarker _).bears)
    fun v => Storage.attends_clearMarker v _
  clearMarkers id := rooted_aside (fun _ => (Storage.Errand.clearMarkers id).bears)
    fun v => Storage.attends_clearMarkers v id
  setStatus _ _ _ _ := rooted_aside (fun _ => Storage.bears_setExecutionStatus ..)
    fun v => Storage.attends_setExecutionStatus v _ _ _ _

/-- Only what is live is cancelled, and that is in store. -/
theorem rooted_cancel (id : String) : Keeps (Rooted kept gone busy) (cancel id) := by
  intro e rooted
  refine Ends.bind (Ends.get_iff.2 ?_)
  cases found : e.liveExecution? id with
  | none => exact Keeps.bind (habit_rooted.note) (fun _ => .pure _) e rooted
  | some x =>
    have live : id ∈ e.live := by
      unfold liveExecution? at found
      split at found
      · rename_i live
        exact List.contains_iff_mem.1 live
      · cases found
    have attended : e.Rooted kept gone (id :: busy) := rooted.attend fun k there => by
      rcases List.mem_cons.1 there with rfl | old
      · exact rooted.enrolled_of_live live
      · exact rooted.busy old
    exact (habit_rooted.cancelled (.head _) x e attended).imp (fun _ _ rooted => rooted.leave)
      fun _ _ rooted => rooted.leave

/-! Walks. -/

/-- Starts on behalf of actions keep what is in store rooted. -/
def Plants (gone : String → Prop) (launch : Launch) : Prop :=
  ∀ kept busy workflow payload, Keeps (Rooted kept gone busy) (launch workflow payload)

theorem rooted_perform {launch : Launch} (plants : Plants gone launch) (r : Action.Request) :
    Keeps (Rooted kept gone busy) (perform launch r) := by
  cases r with
  | cancel other => exact rooted_cancel _
  | start workflow payload => exact plants _ _ _ _
  | createTicket draft =>
    exact rooted_quiet (Storage.quiet_createTicket draft)
      fun v => Storage.attends_createTicket v draft
  | updateTicket ticket updates =>
    exact rooted_quiet (Storage.quiet_updateTicket ticket updates)
      fun v => Storage.attends_updateTicket v _ _
  | assignTicket ticket assignee =>
    exact rooted_quiet (Storage.quiet_assignTicket ticket (.text assignee))
      fun v => Storage.attends_assignTicket v _ _
  | notify announcement =>
    exact rooted_quiet (Storage.quiet_notify announcement)
      fun v => Storage.attends_notify v announcement
  | createArticle draft =>
    exact rooted_quiet (Storage.quiet_createArticle draft)
      fun v => Storage.attends_createArticle v draft
  | http method url headers body timeout =>
    exact .get fun _ => .bind (.ofExcept _) fun request => .get fun e =>
      .bind (habit_rooted.network fun _ => (e.network.send request).2) fun _ => .ofExcept _

theorem rooted_script {launch : Launch} (plants : Plants gone launch) (id : String)
    (script : Action.Script α) :
    Keeps (Rooted kept gone busy) (script.run (perform launch) (putVariable id)) := by
  induction script with
  | done a => exact .pure a
  | fail f => exact .throw f
  | put key value next ih =>
    exact .bind (rooted_modifyExecution id (by intro; rfl) (by intro; rfl)) fun _ => ih
  | ask r next ih => exact .bind (.observe (rooted_perform plants r)) ih

/-- A walk keeps what is in store rooted, whatever its actions do. -/
theorem guide_rooted {launch : Launch} (plants : Plants gone launch) (attended : id ∈ busy) :
    Guide (fun e d => d = e ∧ e.Rooted kept gone busy) Eq {} launch launch id where
  execution := (Keeps.execution id).twins
  resembles x _ same := same ▸ .refl _ x
  roles _ _ _ _ _ := trivial
  leads _ _ _ _ _ _ := trivial
  worded _ _ := trivial
  limit _ _ related := by rw [related.1]
  say r _ := (habit_rooted.log attended r.level r.message r.node).twins
  move f pace := (rooted_modifyExecution id (by cases pace <;> intro <;> rfl)
    (by cases pace <;> intro <;> rfl)).twins
  forget x _ same := same ▸ (rooted_modifyExecution id (by intro; rfl) (by intro; rfl)).twins
  act n actionType _ _ := (Keeps.get fun _ => .bind (.execution id) fun _ =>
    rooted_script plants id _).twins
  delay n amount unit _ _ _ := (habit_rooted.runDelay attended n amount unit).twins.before fun _ _ related => related.1
  fail text := (habit_rooted.fail id text).twins

theorem rooted_walk {launch : Launch} (plants : Plants gone launch) (attended : id ∈ busy) (depth : Nat)
    (node : String) : Keeps (Rooted kept gone busy) (walk launch id depth node) :=
  .of_twin ((guide_rooted plants attended).walk depth trivial)

theorem rooted_follow {launch : Launch} (plants : Plants gone launch) (attended : id ∈ busy)
    (depth : Nat) (node : String) :
    Keeps (Rooted kept gone busy) (follow (walk launch id depth) id node) :=
  .of_twin ((guide_rooted plants attended).follow
    (fun _ => (guide_rooted plants attended).walk depth) fun _ _ _ _ _ => trivial)

/-! Executions begin. -/

theorem rooted_submit {launch : Launch} (plants : Plants gone launch) (attended : id ∈ busy)
    (node : String) : Keeps (Rooted kept gone busy) (submit launch id node) := by
  refine .get fun e => .ite (fun _ => ?_) fun _ => .bind (habit_rooted.log attended _ _ _) fun _ => habit_rooted.fail _ _
  exact habit_rooted.runBranch attended (.bind (.execution id) fun x => rooted_walk plants attended _ _) _

/-- An execution starts for a workflow that is stored. -/
theorem rooted_startExecution {launch : Launch} (plants : Plants gone launch) {w : Workflow}
    (payload module item : Value) (rooted : e.Rooted kept gone busy) {i : String}
    (own : w.id = some i) (planted : i ∈ e.storage.planted) :
    Ends (startExecution launch w payload module item) e (fun _ t => t.Rooted kept gone busy)
      fun _ t => t.Rooted kept gone busy := by
  rw [startExecution_eq]
  refine Ends.bind (ends_ofExcept.2 ⟨fun payload _ => ?_, fun _ _ => rooted⟩)
  have attends {v : Store} (attends : e.storage.tables.Attends (fun _ => False) v) :
      e.storage.tables.Attends (· ∈ e.storage.enrolled) v :=
    ⟨attends.workflows, fun r there => (attends.logs r there).imp_right False.elim,
      fun r there => (attends.markers r there).imp_right False.elim⟩
  have creates : Storage.Preserves (e.storage.tables.Attends fun _ => False) (Storage.createExecution
      (.ofText? w.id) (.text w.tenant) (.dict payload) module item) :=
    Storage.attends_createExecution _ _ _ _ _ _
  refine Ends.bind (ends_storage.2 (((Storage.bears_createExecution ..).and
    (creates e.storage (.refl _))).imp ?_
    fun _ s h => rooted.serve h.1 (attends h.2)))
  rintro id s ⟨⟨i', cell, bears⟩, tends⟩
  obtain rfl : i' = i := by
    rw [own] at cell
    exact (Option.some.inj (Except.ok.inj cell)).symm
  have stored := rooted.enrol bears (attends tends) planted
  refine Ends.bind (Ends.modify_iff.2 (Ends.bind (Ends.modify_iff.2 ?_)))
  have begun := stored.revive (x := .opening id w module item payload (initialVariables payload w.vars))
    (bears.born ▸ List.mem_append_right _ (.head _)) own (.refl e.live)
    fun live => Rooted.ne_of_early bears (rooted.named id (rooted.enrolled_of_live live)) rfl
  refine Ends.imp ?_ (fun _ t (rooted : t.Rooted kept gone (id :: busy)) => rooted.leave)
    fun _ t (rooted : t.Rooted kept gone (id :: busy)) => rooted.leave
  refine Keeps.bind (I := Rooted kept gone (id :: busy)) habit_rooted.note
    (fun _ => .bind (habit_rooted.log (.head _) _ _ _) fun _ => ?_) _ begun
  cases w.trigger? with
  | none => exact .bind (habit_rooted.log (.head _) _ _ _) fun _ => .bind (habit_rooted.fail _ _) fun _ => .pure _
  | some trigger => exact .bind (rooted_submit plants (.head _) _) fun _ => .pure _

theorem rooted_executeWith {launch : Launch} (plants : Plants gone launch)
    (workflow payload module item : Value) :
    Keeps (Rooted kept gone busy) (executeWith launch workflow payload module item) := by
  intro e rooted
  have loaded := rooted_quiet (Storage.quiet_loadWorkflow workflow.display)
    (fun _ => .loadWorkflow _) e rooted
  have read : Ends (liftM (Storage.loadWorkflow workflow.display) : Run Workflow) e
      (fun w t => w.id = some workflow.display ∧ workflow.display ∈ t.storage.planted)
      fun _ _ => True := ends_storage.2 (Storage.planted_loadWorkflow _ _)
  refine Ends.bind ((loaded.and read).imp ?_ fun _ _ h => h.1)
  rintro w t ⟨rooted, own, planted⟩
  exact rooted_startExecution plants payload module item rooted own planted

theorem plants_launchAt (depth : Nat) : Plants gone (launchAt depth) := by
  induction depth with
  | zero => exact fun _ _ _ _ => .throw _
  | succ depth ih => exact fun _ _ workflow payload => rooted_executeWith ih workflow payload _ _

theorem plants_launch : Plants gone launch := plants_launchAt nesting

theorem rooted_execute (workflow : String) (payload module item : Value) :
    Keeps (Rooted kept gone busy) (execute workflow payload module item) :=
  rooted_executeWith plants_launch _ payload module item

theorem rooted_routeRow (event : Option String) (payload module item : Value) {row : Store.WorkflowRow}
    (planted : row.id ∈ kept) :
    Keeps (Rooted kept gone busy) (routeRow event payload module item row) := by
  intro e rooted
  have parse : Ends (onProgramError (some <$> ofExcept (Workflow.parse row.record)) fun e => do
        note .warning routerLogger ("Skipping malformed workflow " ++ row.id ++ ": " ++ e.text) []
        return none) e
      (fun r t => t.Rooted kept gone busy ∧ ∀ w, r = some w → w.id = some row.id)
      fun _ t => t.Rooted kept gone busy := by
    cases parsed : Workflow.parse row.record with
    | ok w =>
      refine ⟨rooted, ?_⟩
      rintro _ ⟨⟩
      exact row.id_of_parse parsed
    | error f =>
      refine Ends.tryCatch_iff.2 (Ends.map_iff.2 (Ends.throw_iff.2 ?_))
      cases f with
      | program p =>
        refine Ends.bind ((habit_rooted.note e rooted).imp (fun _ t rooted => ?_) fun _ _ h => h)
        exact Ends.pure_iff.2 ⟨rooted, fun _ no => by cases no⟩
      | _ => exact Ends.throw_iff.2 rooted
  refine Ends.bind (parse.imp ?_ fun _ _ h => h)
  rintro (_ | w) t ⟨rooted, own⟩
  · exact Ends.pure_iff.2 rooted
  refine Ends.ite_iff.2 ⟨fun _ => Ends.pure_iff.2 rooted, fun _ => ?_⟩
  have started := rooted_startExecution plants_launch payload module item rooted (own w rfl)
    (rooted.kept planted)
  refine Ends.tryCatch_iff.2 (Ends.map_iff.2 (started.imp (fun _ _ h => h) fun f u rooted => ?_))
  cases f with
  | program p => exact Keeps.bind (habit_rooted.note) (fun _ => .pure _) u rooted
  | _ => exact Ends.throw_iff.2 rooted

/-- The workflows that an event may start are stored, and stay. -/
theorem rooted_trigger (module : String) (event : Option String) (payload item : Value) :
    Keeps (Rooted kept gone busy) (trigger module event payload item) := by
  intro e rooted
  have listed : Ends (onProgramError (some <$> (Storage.activeWorkflows module : Run _)) fun e => do
        note .error routerLogger
          ("Failed to load active workflows for " ++ module ++ ": " ++ e.text) []
        return none) e
      (fun r t => t.Rooted kept gone busy ∧
        ∀ rows, r = some rows → ∀ row ∈ rows, row.id ∈ t.storage.planted)
      fun _ t => t.Rooted kept gone busy := by
    refine Ends.tryCatch_iff.2 (Ends.map_iff.2 ((rooted_query rooted _ _ _).imp ?_ fun f t rooted => ?_))
    · rintro rows t ⟨rooted, read, tables⟩
      refine ⟨rooted, ?_⟩
      rintro _ ⟨⟩ row there
      cases read
      refine List.mem_map.2 ⟨row, ?_, rfl⟩
      rw [tables]
      exact (List.mem_filter.1 there).1
    · cases f with
      | program p =>
        refine Ends.bind ((habit_rooted.note t rooted).imp (fun _ t rooted => ?_) fun _ _ h => h)
        exact Ends.pure_iff.2 ⟨rooted, fun _ no => by cases no⟩
      | _ => exact Ends.throw_iff.2 rooted
  refine Ends.bind (listed.imp ?_ fun _ _ h => h)
  rintro (_ | rows) t ⟨rooted, planted⟩
  · exact Ends.pure_iff.2 rooted
  -- While the executions are started, the workflows of all these rows have to stay.
  have rooted : t.Rooted (rows.map (·.id) ++ kept) gone busy :=
    { rooted with kept := List.append_subset.2 ⟨fun k there => by
        obtain ⟨row, listed, rfl⟩ := List.mem_map.1 there
        exact planted rows rfl row listed, rooted.kept⟩ }
  have goes : Keeps (Rooted (rows.map (·.id) ++ kept) gone busy) (do
      let started ← rows.mapM (routeRow event payload (.text module) item)
      let ids := started.filterMap fun x => x
      note .info routerLogger ("Trigger " ++ module ++ "/" ++ (event.getD "None") ++ " started " ++
        toString ids.length ++ " execution(s)") []
      return ids) := by
    refine .bind (.of_twin (Leads.mapM rows fun row there => ?_)) fun _ => .bind habit_rooted.note fun _ =>
      .pure _
    exact (rooted_routeRow event payload _ item
      (List.mem_append_left _ (List.mem_map_of_mem there))).twins
  have release (u : Engine) (rooted : u.Rooted (rows.map (·.id) ++ kept) gone busy) :
      u.Rooted kept gone busy :=
    { rooted with kept := List.Subset.trans (List.subset_append_right ..) rooted.kept }
  exact (goes t rooted).imp (fun _ u => release u) fun _ u => release u

/-! Timers fire. -/

theorem rooted_fire {s : Timer} (attended : s.execution ∈ busy) :
    Keeps (Rooted kept gone busy) (fire s) := by
  refine .get fun e => .ite (fun _ => habit_rooted.runBranch attended ?_ _) fun _ => habit_rooted.note
  refine .bind (rooted_modifyExecution _ (by intro; rfl) (by intro; rfl)) fun _ =>
    .bind (.isActive _) fun _ => .ite (fun _ => ?_) fun _ => .pure _
  refine .bind (habit_rooted.log attended _ _ _) fun _ => .bind (Keeps.onStorageError ?_ fun _ => habit_rooted.note)
    fun _ => .bind (.execution _) fun _ => rooted_follow plants_launch attended _ _
  exact rooted_aside (fun _ => (Storage.Errand.clearMarker _).bears)
    fun v => Storage.attends_clearMarker v _

/-- A timer that is set is set for a live execution, and that is in store. -/
theorem rooted_moveTo (guarded : e.Guarded [] []) (rooted : e.Rooted kept gone []) (now : Float) :
    Ends (moveTo now) e (fun _ t => t.Rooted kept gone []) fun _ t => t.Rooted kept gone [] := by
  refine Ends.bind (Ends.get_iff.2 (Ends.bind (Ends.modify_iff.2 ?_)))
  have set : ∀ s ∈ e.clock.timers, s.execution ∈ e.storage.enrolled := by
    obtain ⟨l, -, -, guards, sound⟩ := guarded
    intro s there
    apply rooted.enrolled_of_live
    by_contra idle
    exact (sound.still s.execution (guards.live ▸ idle)).1 s (guards.timers ▸ there) rfl
  have moved : Rooted kept gone ((e.clock.moveTo now).1.map (·.execution))
      { e with clock := (e.clock.moveTo now).2 } := by
    refine (rooted.change (t := { e with clock := (e.clock.moveTo now).2 }) rfl (.refl _)
      fun _ x known => ⟨x, known, rfl⟩).attend fun k there => ?_
    obtain ⟨s, due, rfl⟩ := List.mem_map.1 there
    apply set s
    unfold Clock.moveTo at due
    rw [List.partition_eq_filter_filter] at due
    exact (List.mem_filter.1 (mem_sortBy.1 due)).1
  have fires : Keeps (Rooted kept gone ((e.clock.moveTo now).1.map (·.execution)))
      ((e.clock.moveTo now).1.forM fire) :=
    .of_twin (Leads.forM _ fun s due => (rooted_fire (List.mem_map_of_mem due)).twins)
  exact (fires _ moved).imp (fun _ _ rooted => rooted.attend (List.nil_subset _))
    fun _ _ rooted => rooted.attend (List.nil_subset _)

/-! A new engine takes up what waits. -/

/-- Taking in markers only adds nodes that were not visited and sets counters. -/
theorem of_absorbed {p : Execution → Prop}
    (enters : ∀ x node, p x → x.visited.contains node = false → p { x with visited := x.visited ++ [node] })
    (counts : ∀ x node n, p x → p (x.setCounter node n)) {ms : List Store.Marker} {x y : Execution}
    (absorbed : ms.foldlM (fun (x : Execution) m => x.absorb m.context) x = .ok y) (holds : p x) : p y := by
  have kept {β : Type} {f : Execution → β → Execution} (each : ∀ x b, p x → p (f x b)) (items : List β)
      {x : Execution} (holds : p x) : p (items.foldl f x) := by
    induction items generalizing x with
    | nil => exact holds
    | cons b rest ih => exact ih (each x b holds)
  induction ms generalizing x with
  | nil =>
    cases absorbed
    exact holds
  | cons m rest ih =>
    rw [List.foldlM_cons] at absorbed
    obtain ⟨z, first, others⟩ := bind_eq_ok absorbed
    refine ih others ?_
    obtain ⟨items, -, first⟩ := bind_eq_ok first
    obtain ⟨more, -, first⟩ := bind_eq_ok first
    dsimp only at first
    split at first
    · obtain ⟨counters, -, first⟩ := bind_eq_ok first
      cases first
      refine kept (fun x c holds => counts x _ _ holds) counters (kept (fun x node holds => ?_) _ holds)
      split
      · exact holds
      · rename_i new
        exact enters x node holds (by simpa using new)
    · cases first

/-- What is made from markers belongs to the workflow it is made for. -/
theorem belongs_of_absorbed {ms : List Store.Marker} {x y : Execution}
    (absorbed : ms.foldlM (fun (x : Execution) m => x.absorb m.context) x = .ok y) :
    y.id = x.id ∧ y.workflow = x.workflow :=
  of_absorbed (p := fun y => y.id = x.id ∧ y.workflow = x.workflow) (fun _ _ same _ => same)
    (fun _ _ _ same => same) absorbed ⟨rfl, rfl⟩

/-- What is made live again from its markers is in store, and is made for its workflow. -/
theorem rooted_rebuild (id : String) (first : Store.Marker) (ms : List Store.Marker) :
    Keeps (Rooted kept gone busy) (rebuild id first ms) := by
  intro e rooted
  have discard : Keeps (Rooted kept gone busy) (do
      let _ ← (Storage.clearMarkers id : Run Nat)
      return (none : Option Execution)) := .bind (habit_rooted.clearMarkers id) fun _ => .pure _
  have found : Ends (findRecord id) e
      (fun r t => t.Rooted kept gone busy ∧
        ∀ record, r = some record → (id, record.row.workflow) ∈ t.storage.born)
      fun _ t => t.Rooted kept gone busy := by
    refine Ends.tryCatch_iff.2 (Ends.map_iff.2 ((rooted_query rooted _ _ _).imp ?_ fun f t rooted => ?_))
    · rintro record t ⟨rooted, read, tables⟩
      refine ⟨rooted, ?_⟩
      rintro _ ⟨⟩
      split at read
      · rename_i row here
        have same : record.row = row := by
          rcases Storage.load_row row with ⟨data, loaded⟩ | ⟨f, failed, -⟩
          · exact congrArg (·.row) (Except.ok.inj (read.symm.trans loaded))
          · cases read.symm.trans failed
        have named : row.id = id := by simpa using List.find?_some here
        unfold Storage.born
        rw [tables, same]
        exact List.mem_map.2 ⟨row, List.mem_of_find?_eq_some here, by rw [named]⟩
      · cases read
    · cases f with
      | program p =>
        exact Ends.ite_iff.2 ⟨fun _ => Ends.pure_iff.2 ⟨rooted, fun _ no => by cases no⟩,
          fun _ => Ends.throw_iff.2 rooted⟩
      | _ => exact Ends.throw_iff.2 rooted
  refine Ends.bind (found.imp ?_ fun _ _ h => h)
  rintro (_ | record) t ⟨rooted, born⟩
  · exact discard t rooted
  have born := born record rfl
  refine Ends.ite_iff.2 ⟨fun _ => discard t rooted, fun _ => ?_⟩
  have loaded : Ends (onProgramError
      (Except.ok <$> (Storage.loadWorkflow record.row.workflow : Run Workflow))
      fun p => pure (.error p)) t
      (fun r u => u.Rooted kept gone busy ∧ (id, record.row.workflow) ∈ u.storage.born ∧
        ∀ w, r = .ok w → w.id = some record.row.workflow)
      fun _ u => u.Rooted kept gone busy := by
    have kept := rooted_quiet (Storage.quiet_loadWorkflow record.row.workflow)
      (fun _ => .loadWorkflow _) t rooted
    have read : Ends (Storage.loadWorkflow record.row.workflow : Run Workflow) t
        (fun w u => w.id = some record.row.workflow ∧ (id, record.row.workflow) ∈ u.storage.born)
        fun _ u => (id, record.row.workflow) ∈ u.storage.born := by
      refine ends_storage.2 (((Storage.id_loadWorkflow _).and
        (Storage.quiet_loadWorkflow _).bears).imp ?_ ?_)
      · rintro w s ⟨own, bears⟩
        exact ⟨own, bears.born ▸ List.mem_append_left _ born⟩
      · rintro _ s ⟨-, bears⟩
        exact bears.born ▸ List.mem_append_left _ born
    refine Ends.tryCatch_iff.2 (Ends.map_iff.2 ((kept.and read).imp ?_ ?_))
    · rintro w u ⟨rooted, own, born⟩
      refine ⟨rooted, born, ?_⟩
      rintro _ ⟨⟩
      exact own
    · rintro f u ⟨rooted, born⟩
      cases f with
      | program p => exact Ends.pure_iff.2 ⟨rooted, born, fun w no => by cases no⟩
      | _ => exact Ends.throw_iff.2 rooted
  refine Ends.bind (loaded.imp ?_ fun _ _ h => h)
  rintro (p | w) u ⟨rooted, born, own⟩
  · refine Keeps.bind habit_rooted.note (fun _ => .bind discard fun _ => .bind ?_ fun _ => .pure _) u rooted
    exact habit_rooted.setStatus _ _ _ _
  · refine Ends.bind (ends_ofExcept.2 ⟨fun s _ => ?_, fun _ _ => rooted⟩)
    refine Ends.bind (ends_ofExcept.2 ⟨fun x absorbed => ?_, fun _ _ => rooted⟩)
    refine Ends.bind (Ends.modify_iff.2 (Ends.bind (Ends.modify_iff.2 (Ends.pure_iff.2 ?_))))
    obtain ⟨named, workflow⟩ := belongs_of_absorbed absorbed
    have named : x.id = id := named
    rw [← named] at born ⊢
    refine rooted.revive born (workflow ▸ own w rfl) List.filter_sublist fun there => ?_
    simpa using (List.mem_filter.1 there).2

theorem rooted_resumeGroup {id : String} {ms : List Store.Marker} (attended : id ∈ busy)
    (own : ∀ m ∈ ms, m.execution = id) (now : Instant) :
    Keeps (Rooted kept gone busy) (resumeGroup now (id, ms)) := by
  cases ms with
  | nil => exact .pure _
  | cons first rest =>
    refine .bind (rooted_rebuild id first _) fun r => ?_
    cases r with
    | none => exact .pure _
    | some x =>
      refine .bind (.of_twin (Leads.forM _ fun m there => Keeps.twins ?_)) fun _ =>
        .bind (habit_rooted.branchFinished attended) fun _ => .pure _
      exact .bind (habit_rooted.log (own m there ▸ attended) _ _ _) fun _ =>
        habit_rooted.scheduleContinuation _ _ _ _

theorem rooted_resume : Keeps (Rooted kept gone busy) resume := by
  intro e rooted
  refine Ends.bind (Ends.get_iff.2 (Ends.bind ((rooted_query rooted _ _ _).imp ?_ fun _ _ h => h)))
  rintro ms t ⟨rooted, read, tables⟩
  have stored : ∀ m ∈ ms, m.execution ∈ t.storage.enrolled := by
    intro m there
    obtain ⟨r, present, same⟩ := List.mem_map.1 ((Storage.perm_of_sortedMarkers read).mem_iff.1
      (List.mem_map.2 ⟨m, there, rfl⟩))
    have whose : r.execution = m.execution := congrArg (fun p => p.2.1) same
    rw [← whose]
    exact rooted.markers r (tables ▸ (List.mem_filter.1 present).1)
  have attending : Rooted kept gone (ms.map (·.execution) ++ busy) t :=
    rooted.attend (List.append_subset.2 ⟨fun k there => by
      obtain ⟨m, listed, rfl⟩ := List.mem_map.1 there
      exact stored m listed, rooted.busy⟩)
  have release (u : Engine) (rooted : u.Rooted kept gone (ms.map (·.execution) ++ busy)) :
      u.Rooted kept gone busy :=
    rooted.attend (List.Subset.trans (List.subset_append_right ..) rooted.busy)
  have goes (live : List String) : Keeps (Rooted kept gone (ms.map (·.execution) ++ busy)) (do
      let pending := groupMarkers (ms.filter fun m => !live.contains m.execution)
      let now ← ofExcept (Instant.ofSeconds (← get).clock.now)
      let counts ← pending.mapM (resumeGroup now)
      let total := counts.foldl Nat.add 0
      if total > 0 then
        note .info logger ("Resumed " ++ toString total ++ " pending delay(s)") []
      return total) := by
    refine .get fun _ => .bind (.ofExcept _) fun now => .bind (.of_twin (Leads.mapM _ fun g there => ?_))
      fun _ => .ite (fun _ => .bind habit_rooted.note fun _ => .pure _) fun _ => .pure _
    obtain ⟨own, some⟩ := (groups_groupMarkers _).2.1 g there
    have mine : ∀ m ∈ g.2, m ∈ ms ∧ m.execution = g.1 := fun m listed => by
      obtain ⟨wanted, whose⟩ := List.mem_filter.1 (own ▸ listed)
      exact ⟨(List.mem_filter.1 wanted).1, by simpa using whose⟩
    obtain ⟨m, listed⟩ := List.exists_mem_of_ne_nil _ some
    refine (rooted_resumeGroup (List.mem_append_left _ (List.mem_map.2 ⟨m, mine m listed⟩))
      (fun m listed => (mine m listed).2) now).twins
  exact (goes e.live t attending).imp (fun _ u => release u) fun _ u => release u

end Engine

end Runbook
