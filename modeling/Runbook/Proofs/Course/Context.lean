import Runbook.Proofs.Carrying
import Runbook.Proofs.Course.Recovery
import Runbook.Proofs.Course.Tenancy

/-!
Executions survive as snapshots. Of every execution that an engine with the built-in actions comes to know,
and of every one that a marker was saved for, a snapshot is read as it was written, but for dictionaries with
keys that are no texts and for a module that counts as false. Where an engine is given JSON only, such a key
can be nothing but the name that a workflow sets a variable under.
-/
namespace Runbook

namespace Store

/-- Tables that hold JSON, if JSON was given, and whose markers hold snapshots. -/
structure Readable (given : Prop) (s : Store) : Prop where
  workflows : given → ∀ r ∈ s.workflows, r.InJson
  markers : ∀ m ∈ s.markers, ∃ x : Execution, x.Fits given ∧ x.id = m.execution ∧
    m.context = x.snapshot.stored

/-- Definitions are old ones or hold JSON, and no marker is new. -/
structure Yields (s t : Store) : Prop where
  workflows : ∀ r ∈ t.workflows, r.InJson ∨ ∃ q ∈ s.workflows, r.nodes = q.nodes ∧ r.vars = q.vars
  markers : t.markers ⊆ s.markers

variable {given : Prop} {s t : Store}

theorem Readable.yield (readable : s.Readable given) (yields : s.Yields t) : t.Readable given where
  workflows h r there := by
    rcases yields.workflows r there with json | ⟨q, old, nodes, vars⟩
    · exact json
    · have json := readable.workflows h q old
      exact ⟨nodes ▸ json.nodes, vars ▸ json.vars⟩
  markers m there := readable.markers m (yields.markers there)

theorem Yields.of_eq (workflows : t.workflows = s.workflows) (markers : t.markers ⊆ s.markers) : s.Yields t where
  workflows r there := .inr ⟨r, workflows ▸ there, rfl, rfl⟩
  markers := markers

theorem yields_putWorkflow (s : Store) {r : WorkflowRow} (json : r.InJson) : s.Yields (s.putWorkflow r) := by
  refine ⟨fun q there => ?_, fun _ there => ?_⟩
  · unfold putWorkflow at there
    split at there
    · obtain ⟨old, listed, rfl⟩ := List.mem_map.1 there
      split
      · exact .inl json
      · exact .inr ⟨old, listed, rfl, rfl⟩
    · rcases List.mem_append.1 there with old | new
      · exact .inr ⟨q, old, rfl, rfl⟩
      · exact .inl (List.mem_singleton.1 new ▸ json)
  · unfold putWorkflow at there
    exact there

theorem yields_updateWorkflow (s : Store) (id : String) {f : WorkflowRow → WorkflowRow}
    (each : ∀ r, (f r).InJson ∨ (f r).nodes = r.nodes ∧ (f r).vars = r.vars) :
    s.Yields (s.updateWorkflow id f) := by
  refine ⟨fun q there => ?_, fun _ there => there⟩
  obtain ⟨old, listed, rfl⟩ := List.mem_map.1 there
  split
  · exact (each old).imp_right fun same => ⟨old, listed, same⟩
  · exact .inr ⟨old, listed, rfl, rfl⟩

end Store

namespace Storage

variable {α : Type} {given : Prop}

/-! What the operations leave of the tables. -/

theorem readable_session {work : Store → Except Store.Refusal (α × Store)}
    (aside : ∀ u a w, work u = .ok (a, w) → u.Yields w) (operation table : String) :
    Preserves (Store.Readable given) (session operation table work) :=
  .session (fun u a w readable done => readable.yield (aside u a w done)) operation table

/-- What is loaded was read from JSON. -/
theorem inJson_loadWorkflow (id : String) {s : Storage} (json : given → ∀ r ∈ s.tables.workflows, r.InJson) :
    Ends (loadWorkflow id) s (fun w _ => given → w.IsJson) fun _ _ => True :=
  (holds_loadWorkflow id s).imp (fun _ _ ⟨⟨row, there, parsed⟩, _⟩ h => (json h row there).parse parsed)
    fun _ _ _ => trivial

theorem readable_saveWorkflow (w : Workflow) : Preserves (Store.Readable given) (saveWorkflow w) := by
  have store (id : String) : Preserves (Store.Readable given) (do
      session "save workflow" "workflows" fun s => do
        let version ← Store.versionCell (.int w.version)
        return ((), s.putWorkflow (.ofWorkflow id w version))
      note .info logger ("Saved workflow " ++ id ++ " (" ++ w.name ++ ")")
      return id) := by
    refine .bind (readable_session (fun u a t done => ?_) _ _) fun _ => .bind (.note _ _ _) fun _ => .pure _
    obtain ⟨version, -, done⟩ := bind_eq_ok done
    cases done
    exact u.yields_putWorkflow (Store.WorkflowRow.inJson_ofWorkflow ..)
  unfold saveWorkflow
  dsimp only
  split
  · split
    · exact .bind .freshId store
    · exact .bind (.pure _) store
  · exact .bind .freshId store

theorem readable_updateWorkflow (id : String) (w : Workflow) :
    Preserves (Store.Readable given) (updateWorkflow id w) := by
  refine .bind (readable_session (fun u a t done => ?_) _ _) fun _ => .bind (.note _ _ _) fun _ => .pure _
  split at done
  · cases done
  · obtain ⟨version, -, done⟩ := bind_eq_ok done
    obtain ⟨cell, -, done⟩ := bind_eq_ok done
    cases done
    exact u.yields_updateWorkflow id fun _ => .inl (Store.WorkflowRow.inJson_ofWorkflow ..)

theorem readable_deleteWorkflow (id : String) : Preserves (Store.Readable given) (deleteWorkflow id) := by
  refine .bind (readable_session (fun u a t done => ?_) _ _) fun _ => .bind (.note _ _ _) fun _ => .pure _
  split at done
  · cases done
    exact ⟨fun r there => .inr ⟨r, (List.mem_filter.1 there).1, rfl, rfl⟩, List.filter_subset_self _⟩
  · cases done

theorem readable_saveRaw (d : Dict) : Preserves (Store.Readable given) (saveRaw d) := by
  unfold saveRaw
  dsimp only
  split
  all_goals
    refine .bind ?_ fun id => .bind (readable_session (fun u a t done => ?_) _ _) fun _ => .pure _
    rotate_left
    · obtain ⟨row, made, done⟩ := bind_eq_ok done
      cases done
      exact u.yields_putWorkflow (Store.WorkflowRow.inJson_ofRaw made)
  · exact .pure _
  · exact .bind .freshId fun _ => .pure _

theorem readable_setWorkflowStatus (id : String) (status : Value) :
    Preserves (Store.Readable given) (setWorkflowStatus id status) := by
  refine .bind (readable_session (fun u a t done => ?_) _ _) fun _ => .note _ _ _
  split at done
  · cases done
  · split at done
    · split at done
      · cases done
        exact u.yields_updateWorkflow id fun _ => .inr ⟨rfl, rfl⟩
      · cases done
    · cases done

theorem readable_createExecution (workflow tenant data module item : Value) :
    Preserves (Store.Readable given) (createExecution workflow tenant data module item) := by
  refine .retrying (.bind .freshId fun id => .bind (readable_session (fun u a t done => ?_) _ _)
    fun _ => .pure _) _
  obtain ⟨row, -, done⟩ := bind_eq_ok done
  cases done
  exact .of_eq rfl (List.Subset.refl _)

/-- Module and item fit into columns. -/
theorem cells_createExecution (workflow tenant data module item : Value) (s : Storage) :
    Ends (createExecution workflow tenant data module item) s (fun _ _ => module.IsJson ∧ item.IsJson)
      fun _ _ => True := by
  refine (ends_retrying_of_kept (fun _ => True) (fun _ => True) (fun _ _ _ _ _ h => h) _ (fun t _ => ?_)
    trivial).imp (fun _ _ h => h) fun _ _ _ => trivial
  refine Ends.bind (ends_freshId.imp ?_ fun _ _ h => h.elim)
  rintro id u -
  refine Ends.bind ((bears_session _ _).imp ?_ fun _ _ _ => ⟨trivial, trivial⟩)
  rintro _ v ⟨done, -, -⟩
  obtain ⟨row, opening, -⟩ := bind_eq_ok done
  unfold Store.ExecutionRow.opening at opening
  obtain ⟨_, -, opening⟩ := bind_eq_ok opening
  obtain ⟨_, -, opening⟩ := bind_eq_ok opening
  obtain ⟨_, ofModule, opening⟩ := bind_eq_ok opening
  obtain ⟨_, ofItem, -⟩ := bind_eq_ok opening
  exact Ends.pure_iff.2 ⟨Value.isJson_of_textCell ofModule, Value.isJson_of_textCell ofItem⟩

theorem readable_setExecutionStatus (id : String) (status error time : Value) :
    Preserves (Store.Readable given) (setExecutionStatus id status error time) :=
  .setExecutionStatus (fun _ _ _ _ readable => readable.yield (.of_eq rfl (List.Subset.refl _))) status error time

/-- A marker is saved with a snapshot. -/
theorem readable_saveMarker {x : Execution} (fits : x.Fits given) (node : String) (resumeAt : Instant) :
    Preserves (Store.Readable given) (saveMarker x.id node resumeAt x.snapshot) := by
  refine .retrying (.session (fun u a w readable done => ?_) _ _) _
  cases done
  refine ⟨readable.workflows, fun m there => ?_⟩
  rcases List.mem_append.1 there with old | new
  · exact readable.markers m old
  · rw [List.mem_singleton.1 new]
    exact ⟨x, fits, rfl, rfl⟩

theorem readable_clearMarker (id : Int) : Preserves (Store.Readable given) (clearMarker id) := by
  refine readable_session (fun u a w done => ?_) _ _
  split at done <;> cases done
  exact .of_eq rfl (List.filter_subset_self _)

theorem readable_clearMarkers (execution : String) :
    Preserves (Store.Readable given) (clearMarkers execution) :=
  .clearMarkers fun _ readable => readable.yield (.of_eq rfl (List.filter_subset_self _))

theorem readable_appendLog (execution : String) (tenant : Value) (entry : LogEntry) :
    Preserves (Store.Readable given) (appendLog execution tenant entry) :=
  .appendLog (fun _ _ _ readable => readable.yield (.of_eq rfl (List.Subset.refl _))) tenant entry

theorem readable_createTicket (t : TicketDraft) : Preserves (Store.Readable given) (createTicket t) := by
  refine .bind .freshId fun id => .bind (readable_session (fun u a w done => ?_) _ _) fun _ =>
    .bind (.note _ _ _) fun _ => .pure _
  obtain ⟨row, -, done⟩ := bind_eq_ok done
  cases done
  exact .of_eq rfl (List.Subset.refl _)

theorem readable_updateTicket (id : String) (updates : Dict) :
    Preserves (Store.Readable given) (updateTicket id updates) := by
  refine .bind (readable_session (fun u a w done => ?_) _ _) fun _ => ?_
  · split at done
    · cases done
    · obtain ⟨row, -, done⟩ := bind_eq_ok done
      cases done
      exact .of_eq rfl (List.Subset.refl _)
  · split
    · exact .note _ _ _
    · exact .throw _

theorem readable_assignTicket (id : String) (assignee : Value) :
    Preserves (Store.Readable given) (assignTicket id assignee) := by
  refine .bind (readable_session (fun u a w done => ?_) _ _) fun _ => .note _ _ _
  split at done
  · cases done
  · obtain ⟨row, -, done⟩ := bind_eq_ok done
    cases done
    exact .of_eq rfl (List.Subset.refl _)

theorem readable_notify (a : Announcement) : Preserves (Store.Readable given) (notify a) := by
  refine .bind (.openSession _ _) fun _ => .bind (.freshIds _) fun ids => .bind
    (.transact (fun u b w readable done => ?_) _ _) fun _ => .bind (.note _ _ _) fun _ => .pure _
  obtain ⟨rows, -, done⟩ := bind_eq_ok done
  cases done
  exact readable.yield (.of_eq rfl (List.Subset.refl _))

theorem readable_createArticle (a : ArticleDraft) : Preserves (Store.Readable given) (createArticle a) := by
  refine .bind .freshId fun id => .bind (readable_session (fun u b w done => ?_) _ _) fun _ =>
    .bind (.note _ _ _) fun _ => .pure _
  obtain ⟨row, -, done⟩ := bind_eq_ok done
  cases done
  exact .of_eq rfl (List.Subset.refl _)

end Storage

namespace Engine

/-- Only built-in actions run, the tables can be read, and so can a snapshot of every known execution. Certain
executions are of certain workflows. -/
structure Readable (given : Prop) (own : String → Workflow → Prop) (e : Engine) : Prop where
  registry : ∃ timeout, e.registry = .standard timeout
  tables : e.storage.tables.Readable given
  runs : ∀ k x, e.execution? k = some x → x.Fits given
  own : ∀ k x, e.execution? k = some x → ∀ w, own k w → x.workflow = w

variable {α : Type} {given : Prop} {own : String → Workflow → Prop} {e t : Engine} {id : String}

namespace Readable

/-- Executions change in memory. -/
theorem change (readable : e.Readable given own) (storage : t.storage = e.storage)
    (registry : t.registry = e.registry)
    (same : ∀ k x, t.execution? k = some x → x.Fits given ∧
      ∃ y, e.execution? k = some y ∧ x.workflow = y.workflow) : t.Readable given own where
  registry := registry ▸ readable.registry
  tables := storage ▸ readable.tables
  runs k x known := (same k x known).1
  own k x known w whose := by
    obtain ⟨-, y, there, workflow⟩ := same k x known
    exact workflow.trans (readable.own k y there w whose)

/-- Work of the storage. -/
theorem serve (readable : e.Readable given own) {s : Storage} (tables : s.tables.Readable given) :
    { e with storage := s }.Readable given own :=
  ⟨readable.registry, tables, readable.runs, readable.own⟩

/-- Nothing is said of what workflows executions are of. -/
theorem loose (readable : e.Readable given own) : e.Readable given fun _ _ => False :=
  { readable with own := fun _ _ _ _ no => no.elim }

/-- An execution becomes known. -/
theorem put (readable : e.Readable given fun _ _ => False) {x : Execution} (fits : x.Fits given) :
    (e.putExecution x).Readable given fun _ _ => False where
  registry := readable.registry
  tables := readable.tables
  runs k y known := by
    rw [execution?_replace] at known
    split at known
    · cases known
      exact fits
    · exact readable.runs k y known
  own _ _ _ _ no := no.elim

end Readable

theorem readable_lift {x : StorageM α} (preserves : Storage.Preserves (Store.Readable given) x) :
    Keeps (Readable given own) (liftM x : Run α) := fun e readable =>
  ends_storage.2 ((preserves e.storage readable.tables).imp (fun _ _ tables => readable.serve tables)
    fun _ _ tables => readable.serve tables)

theorem readable_modify {f : Engine → Engine} (storage : ∀ e, (f e).storage = e.storage)
    (registry : ∀ e, (f e).registry = e.registry) (executions : ∀ e, (f e).executions = e.executions) :
    Keeps (Readable given own) (modify f) := fun e readable => by
  refine Ends.modify_iff.2 (readable.change (storage e) (registry e) fun k x known => ?_)
  have known : e.execution? k = some x := by
    unfold execution? at known ⊢
    rwa [executions e] at known
  exact ⟨readable.runs k x known, x, known, rfl⟩

theorem readable_modifyExecution (id : String) {f : Execution → Execution} (named : ∀ x, (f x).id = x.id)
    (workflow : ∀ x, (f x).workflow = x.workflow)
    (fits : ∀ e x, Readable given own e → e.execution? id = some x → (f x).Fits given) :
    Keeps (Readable given own) (modifyExecution id f) := fun e readable => by
  refine Ends.modify_iff.2 (readable.change rfl rfl fun k x known => ?_)
  rw [execution?_modify named] at known
  split at known
  · rename_i same
    obtain ⟨y, there, rfl⟩ := Option.map_eq_some_iff.1 known
    exact ⟨fits e y readable (same ▸ there), y, there, workflow y⟩
  · exact ⟨readable.runs k x known, x, known, rfl⟩

/-- Each elementary step keeps all of it readable. -/
theorem habit_readable : Habit (Readable given own) fun _ => True where
  alter outward := readable_modifyExecution _ outward.id outward.workflow
    fun _ x readable known => (readable.runs _ x known).outward outward
  clock _ := readable_modify (fun _ => rfl) (fun _ => rfl) fun _ => rfl
  network _ := readable_modify (fun _ => rfl) (fun _ => rfl) fun _ => rfl
  retire _ := readable_modify (fun _ => rfl) (fun _ => rfl) fun _ => rfl
  stop _ _ := readable_modify (fun _ => rfl) (fun _ => rfl) fun _ => rfl
  close := readable_modify (fun _ => rfl) (fun _ => rfl) fun _ => rfl
  journal _ _ readable := Ends.modify_iff.2 (readable.serve readable.tables)
  appendLog _ _ _ := readable_lift (Storage.readable_appendLog _ _ _)
  saveMarker {id} _ {e x} readable known node resumeAt := by
    have named : x.id = id := by simpa using List.find?_some known
    exact named ▸ readable_lift (Storage.readable_saveMarker (readable.runs _ x known) node resumeAt) e readable
  clearMarker _ := readable_lift (Storage.readable_clearMarker _)
  clearMarkers _ := readable_lift (Storage.readable_clearMarkers _)
  setStatus _ _ _ _ := readable_lift (Storage.readable_setExecutionStatus _ _ _ _)

theorem readable_cancel (id : String) : Keeps (Readable given own) (cancel id) := by
  refine .get fun e => ?_
  cases e.liveExecution? id with
  | none => exact .bind habit_readable.note fun _ => .pure _
  | some x => exact habit_readable.cancelled trivial x

theorem readable_cancelAll (workflow : String) : Keeps (Readable given own) (cancelAll workflow) :=
  .get fun _ => .bind (.mapM _ readable_cancel) fun _ => .pure _

/-! Actions. -/

theorem readable_perform {launch : Launch} {config : Dict} {caller : Action.Caller} {actionType : String}
    {r : Action.Request} (errand : Action.Builtin.Errand config caller actionType r) :
    Keeps (Readable given own) (perform launch r) := by
  cases errand with
  | updateTicket updates => exact readable_lift (Storage.readable_updateTicket _ updates)
  | createTicket whose => exact readable_lift (Storage.readable_createTicket _)
  | assignTicket assignee => exact readable_lift (Storage.readable_assignTicket _ _)
  | notify whose => exact readable_lift (Storage.readable_notify _)
  | createArticle whose => exact readable_lift (Storage.readable_createArticle _)
  | http method url headers body timeout =>
    exact .get fun _ => .bind (.ofExcept _) fun request => .get fun e =>
      .bind (habit_readable.network fun _ => (e.network.send request).2) fun _ => .ofExcept _

/-- Answers hold JSON. -/
theorem given_perform (launch : Launch) (r : Action.Request) (e : Engine) :
    Ends (perform launch r) e (fun a _ => r.Given (.ok a)) fun _ _ => True := by
  cases r with
  | http method url headers body timeout =>
    refine Ends.bind (Ends.get_iff.2 (Ends.bind (ends_ofExcept.2 ⟨fun request _ => ?_, fun _ _ => trivial⟩)))
    refine Ends.bind (Ends.get_iff.2 (Ends.bind (Ends.modify_iff.2 ?_)))
    exact ends_ofExcept.2 ⟨fun a sent => Network.isJson_send sent, fun _ _ => trivial⟩
  | _ =>
    unfold Ends
    split <;> trivial

theorem readable_script {launch : Launch} {p : Key → Value → Prop} {script : Action.Script α}
    (asks : ∀ r, script.MayAsk r → Keeps (Readable given own) (perform launch r)) (writes : script.Writes p)
    (puts : ∀ k v, p k v → Keeps (Readable given own) (putVariable id k v)) :
    Keeps (Readable given own) (script.run (perform launch) (putVariable id)) := by
  induction script with
  | done a => exact .pure a
  | fail f => exact .throw f
  | put key value next ih =>
    exact .bind (puts key value writes.1) fun _ => ih (fun r later => asks r (.put later)) writes.2
  | ask r next ih =>
    intro e readable
    refine Ends.bind (ends_observe.2 (((asks r .here e readable).and (given_perform launch r e)).imp ?_ ?_))
    · exact fun a t h => ih (.ok a) (fun q later => asks q (.ask _ later)) (writes _ h.2) t h.1
    · refine fun f t h => ih (.error f) (fun q later => asks q (.ask _ later)) (writes _ ?_) t h.1
      cases r <;> trivial

/-- An action, on behalf of an execution. -/
theorem readable_dispatch {launch : Launch} {actionType : String} {config : Dict}
    (configured : given → config.Proper)
    (named : given → actionType = "set_variable" → ∀ e x, Readable given own e → e.execution? id = some x →
      x.workflow.Plain → ∃ s, Dict.getD config "name" = .text s) :
    Keeps (Readable given own) (dispatch launch id actionType config) := by
  intro e readable
  obtain ⟨timeout, standard⟩ := readable.registry
  refine Ends.bind (Ends.get_iff.2 (Keeps.lookUp (fun t x readable known => ?_) e readable))
  have puts (k : Key) (v : Value) (entry : given → Action.Builtin.Entry actionType config k v) :
      Keeps (Readable given own) (putVariable id k v) := by
    refine readable_modifyExecution id (by intro; rfl) (by intro; rfl) fun e x readable known => ?_
    refine (readable.runs id x known).assign fun h => ⟨(entry h).json, fun plain => ?_⟩
    rcases (entry h).named with text | ⟨sets, key⟩
    · exact text
    · obtain ⟨s, name⟩ := named h sets e x readable known plain
      rw [name] at key
      exact ⟨s, (Option.some.inj key).symm⟩
  cases registered : e.registry.handler? actionType with
  | none =>
    unfold Action.Registry.script
    rw [registered]
    exact Keeps.throw _ t readable
  | some handler =>
    obtain ⟨description, builtin⟩ := Action.mem_builtins_of_handler? (standard ▸ registered)
    have script : e.registry.script actionType config x.caller =
        Action.Registry.wrapScript actionType (handler config x.caller) := by
      unfold Action.Registry.script
      rw [registered]
    rw [script]
    refine readable_script (fun r asks => ?_) (Action.Script.writes_under fun h => ?_) puts t readable
    · exact readable_perform (Action.errand_of_mayAsk builtin (.of_wrapScript asks))
    · have vars : x.caller.vars.Proper := ((readable.runs id x known).carries h).vars
      exact (Action.writes_of_builtin builtin (configured h) vars).wrap

/-! Walks. -/

/-- While an execution is walked through it is of its workflow. -/
theorem Readable.within (readable : e.Readable given own) {x : Execution} (known : e.execution? id = some x) :
    e.Readable given fun k w => k = id ∧ w = x.workflow :=
  { readable with
    own := fun k y there w ⟨here, same⟩ => by
      rw [here, known] at there
      cases there
      exact same.symm }

theorem guide_readable (launch : Launch) {w : Workflow} (json : given → w.IsJson) :
    Guide (fun e d => d = e ∧ e.Readable given fun k v => k = id ∧ v = w)
      (fun x y => y = x ∧ x.workflow = w ∧ x.Fits given) { role := (· ∈ w.nodes) } launch launch id where
  execution := by
    rintro e _ ⟨rfl, readable⟩
    cases run : execution id _ with
    | error f t =>
      exact ((Keeps.execution id).twins _ _ ⟨rfl, readable⟩ |> fun met => by
        rw [run] at met
        cases met with
        | failure related => exact .failure related)
    | ok x t =>
      obtain ⟨rfl, known⟩ := known_of_execution run
      exact .answer ⟨rfl, readable.own id x known w ⟨rfl, rfl⟩, readable.runs id x known⟩ ⟨rfl, readable⟩
  resembles x _ same := by
    obtain ⟨rfl, -⟩ := same
    exact .refl _ _
  roles x _ same n part := same.2.1 ▸ part
  leads _ _ _ _ _ _ := trivial
  worded _ _ := trivial
  limit _ _ related := by rw [related.1]
  say r _ := (habit_readable.log trivial r.level r.message r.node).twins
  move f pace := (readable_modifyExecution id (by cases pace <;> intro <;> rfl)
    (by cases pace <;> intro <;> rfl) fun _ x readable known => (readable.runs _ x known).pace pace).twins
  forget x _ same := by
    obtain ⟨rfl, -, fits⟩ := same
    exact (readable_modifyExecution id (by intro; rfl) (by intro; rfl)
      fun _ z readable known => (readable.runs _ z known).forget fits).twins
  act n actionType part kind := (readable_dispatch (fun h => (json h).configs n part)
    fun _ sets e x readable known plain => by
      obtain rfl := readable.own id x known w ⟨rfl, rfl⟩
      exact plain n part (sets ▸ kind)).twins
  delay n amount unit _ _ _ := (habit_readable.runDelay trivial n amount unit).twins.before
    fun _ _ related => related.1
  fail text := (habit_readable.fail id text).twins

/-- A walk from what is known. -/
theorem readable_guided {x : Execution} {walks : Run Unit}
    (readable : e.Readable given fun _ _ => False) (known : e.execution? id = some x)
    (walk : ∀ {w : Workflow}, (given → w.IsJson) →
      Keeps (Readable given fun k v => k = id ∧ v = w) walks) :
    Ends walks e (fun _ t => t.Readable given fun _ _ => False) fun _ t => t.Readable given fun _ _ => False :=
  (walk (fun h => ((readable.runs id x known).carries h).workflow) e (readable.within known)).imp
    (fun _ _ readable => readable.loose) fun _ _ readable => readable.loose

/-! Executions begin. -/

/-- Nothing is fixed between one piece of work and the next. -/
abbrev Reads (given : Prop) : Engine → Prop := Readable given fun _ _ => False

theorem readable_submit (launch : Launch) (id node : String) : Keeps (Reads given) (submit launch id node) := by
  refine .get fun e => .ite (fun _ => ?_) fun _ => .bind (habit_readable.log trivial _ _ _) fun _ =>
    habit_readable.fail _ _
  refine habit_readable.runBranch trivial (.lookUp fun e x readable known => ?_) _
  exact readable_guided readable known fun json => .of_twin ((guide_readable launch json).walk _ trivial)

/-- An execution starts for a workflow. -/
theorem readable_startExecution (launch : Launch) {w : Workflow} {payload : Value} (module item : Value)
    (json : given → w.IsJson ∧ payload.IsJson) :
    Keeps (Reads given) (startExecution launch w payload module item) := by
  intro e readable
  rw [startExecution_eq]
  refine Ends.bind (ends_ofExcept.2 ⟨fun data made => ?_, fun _ _ => readable⟩)
  have creates : Storage.Preserves (Store.Readable given) (Storage.createExecution
      (.ofText? w.id) (.text w.tenant) (.dict data) module item) := Storage.readable_createExecution _ _ _ _ _
  refine Ends.bind (ends_storage.2 (((Storage.cells_createExecution _ _ _ _ _ _).and
    (creates e.storage readable.tables)).imp ?_ fun _ _ h => readable.serve h.2))
  rintro id u ⟨⟨ofModule, ofItem⟩, tables⟩
  refine Ends.bind (Ends.modify_iff.2 (Ends.bind (Ends.modify_iff.2 ?_)))
  have begun := (readable.serve tables).put (x := .opening id w module item data (initialVariables data w.vars))
    (.opening ofModule ofItem fun h => ⟨(json h).1, (json h).2.toDict made⟩)
  refine Keeps.bind habit_readable.note (fun _ => .bind (habit_readable.log trivial _ _ _) fun _ => ?_) _
    (begun.change rfl rfl fun k x known => ⟨begun.runs k x known, x, known, rfl⟩)
  cases w.trigger? with
  | none =>
    exact .bind (habit_readable.log trivial _ _ _) fun _ => .bind (habit_readable.fail _ _) fun _ => .pure id
  | some trigger => exact .bind (readable_submit launch _ _) fun _ => .pure id

/-- What is loaded was read from JSON. -/
theorem readable_loadWorkflow (workflow : String) (readable : e.Readable given own) :
    Ends (liftM (Storage.loadWorkflow workflow) : Run Workflow) e
      (fun w t => t.Readable given own ∧ (given → w.IsJson)) fun _ t => t.Readable given own :=
  ends_storage.2 (((Storage.Preserves.loadWorkflow workflow e.storage readable.tables).and
    (Storage.inJson_loadWorkflow workflow readable.tables.workflows)).imp
      (fun _ _ h => ⟨readable.serve h.1, h.2⟩) fun _ _ h => readable.serve h.1)

theorem readable_execute (workflow : String) {payload : Value} (module item : Value)
    (json : given → payload.IsJson) : Keeps (Reads given) (execute workflow payload module item) := by
  intro e readable
  refine Ends.bind ((readable_loadWorkflow workflow readable).imp ?_ fun _ _ h => h)
  rintro w t ⟨readable, own⟩
  exact readable_startExecution launch module item (fun h => ⟨own h, json h⟩) t readable

/-- What is only read, with the tables that it is read from. -/
theorem readable_query (readable : e.Readable given own) (operation table : String)
    (read : Store → Except Store.Refusal α) :
    Ends (liftM (Storage.query operation table read) : Run α) e
      (fun a t => t.Readable given own ∧ read e.storage.tables = .ok a) fun _ t => t.Readable given own := by
  have preserves : Storage.Preserves (Store.Readable given) (Storage.query operation table read) := .query _ _ _
  refine ends_storage.2 (((Storage.bears_session _ _).and (preserves e.storage readable.tables)).imp ?_
    fun _ _ h => readable.serve h.2)
  rintro a u ⟨⟨done, -, -⟩, tables⟩
  obtain ⟨found, isFound, done⟩ := bind_eq_ok done
  cases (Prod.mk.inj (Except.ok.inj done)).1
  exact ⟨readable.serve tables, isFound⟩

theorem readable_routeRow (event : Option String) {payload : Value} (module item : Value)
    {row : Store.WorkflowRow} (json : given → row.InJson ∧ payload.IsJson) :
    Keeps (Reads given) (routeRow event payload module item row) := by
  intro e readable
  have parse : Ends (onProgramError (some <$> ofExcept (Workflow.parse row.record)) fun e => do
        note .warning routerLogger ("Skipping malformed workflow " ++ row.id ++ ": " ++ e.text) []
        return none) e
      (fun r t => Reads given t ∧ ∀ w, r = some w → Workflow.parse row.record = .ok w)
      fun _ t => Reads given t := by
    cases parsed : Workflow.parse row.record with
    | ok w =>
      refine ⟨readable, ?_⟩
      rintro _ ⟨⟩
      rfl
    | error f =>
      refine Ends.tryCatch_iff.2 (Ends.map_iff.2 (Ends.throw_iff.2 ?_))
      cases f with
      | program p =>
        refine Ends.bind ((habit_readable.note e readable).imp (fun _ t readable => ?_) fun _ _ h => h)
        exact Ends.pure_iff.2 ⟨readable, fun _ no => by cases no⟩
      | _ => exact Ends.throw_iff.2 readable
  refine Ends.bind (parse.imp ?_ fun _ _ h => h)
  rintro (_ | w) t ⟨readable, parsed⟩
  · exact Ends.pure_iff.2 readable
  refine Ends.ite_iff.2 ⟨fun _ => Ends.pure_iff.2 readable, fun _ => ?_⟩
  have started : Keeps (Reads given) (startExecution launch w payload module item) :=
    readable_startExecution launch module item fun h => ⟨(json h).1.parse (parsed w rfl), (json h).2⟩
  refine Ends.tryCatch_iff.2 (Ends.map_iff.2 ((started t readable).imp (fun _ _ h => h)
    fun f u readable => ?_))
  cases f with
  | program p => exact Keeps.bind habit_readable.note (fun _ => .pure _) u readable
  | _ => exact Ends.throw_iff.2 readable

theorem readable_trigger (module : String) (event : Option String) {payload : Value} (item : Value)
    (json : given → payload.IsJson) : Keeps (Reads given) (trigger module event payload item) := by
  intro e readable
  have listed : Ends (onProgramError (some <$> (Storage.activeWorkflows module : Run _)) fun e => do
        note .error routerLogger
          ("Failed to load active workflows for " ++ module ++ ": " ++ e.text) []
        return none) e
      (fun r t => Reads given t ∧ ∀ rows, r = some rows → given → ∀ row ∈ rows, row.InJson)
      fun _ t => Reads given t := by
    refine Ends.tryCatch_iff.2 (Ends.map_iff.2 ((readable_query readable _ _ _).imp ?_ fun f t readable => ?_))
    · rintro rows t ⟨still, read⟩
      refine ⟨still, ?_⟩
      rintro _ ⟨⟩ h row there
      cases read
      exact readable.tables.workflows h row (List.mem_filter.1 there).1
    · cases f with
      | program p =>
        refine Ends.bind ((habit_readable.note t readable).imp (fun _ t readable => ?_) fun _ _ h => h)
        exact Ends.pure_iff.2 ⟨readable, fun _ no => by cases no⟩
      | _ => exact Ends.throw_iff.2 readable
  refine Ends.bind (listed.imp ?_ fun _ _ h => h)
  rintro (_ | rows) t ⟨readable, known⟩
  · exact Ends.pure_iff.2 readable
  refine Keeps.bind (.of_twin (Leads.mapM rows fun row there => ?_)) (fun _ => .bind habit_readable.note
    fun _ => .pure _) t readable
  exact (readable_routeRow event _ item fun h => ⟨known rows rfl h row there, json h⟩).twins

/-! Timers fire. -/

theorem readable_fire (timer : Timer) : Keeps (Reads given) (fire timer) := by
  refine .get fun e => .ite (fun _ => ?_) fun _ => habit_readable.note
  refine habit_readable.runBranch trivial (.bind (habit_readable.alter (by intro; rfl)) fun _ =>
    .bind (.isActive _) fun _ => .ite (fun _ => ?_) fun _ => .pure _) _
  refine .bind (habit_readable.log trivial _ _ _) fun _ => .bind (Keeps.onStorageError
    (habit_readable.clearMarker _) fun _ => habit_readable.note) fun _ => .lookUp fun e x readable known => ?_
  exact readable_guided readable known fun json => .of_twin ((guide_readable launch json).follow
    (fun _ => (guide_readable launch json).walk _) fun _ _ _ _ _ => trivial)

theorem readable_moveTo (now : Float) : Keeps (Reads given) (moveTo now) :=
  .get fun e => .bind (habit_readable.clock fun _ => (e.clock.moveTo now).2) fun _ =>
    .forM _ readable_fire

/-! A new engine takes up what waits. -/

/-- A marker as it was loaded from a snapshot. -/
def Recalls (given : Prop) (m : Store.Marker) : Prop :=
  ∃ x : Execution, x.Fits given ∧ x.id = m.execution ∧ m.context = x.kept

/-- What is made live again is made from a snapshot. -/
theorem readable_rebuild {first : Store.Marker} {ms : List Store.Marker}
    (recalls : ∀ m ∈ first :: ms, Recalls given m ∧ m.execution = id) :
    Keeps (Reads given) (rebuild id first (first :: ms)) := by
  intro e readable
  have discard : Keeps (Reads given) (do
      let _ ← (Storage.clearMarkers id : Run Nat)
      return (none : Option Execution)) := .bind (habit_readable.clearMarkers id) fun _ => .pure _
  have found : Keeps (Reads given) (findRecord id) := by
    refine .tryCatch (.map (fun e readable => (readable_query readable _ _ _).imp (fun _ _ h => h.1) fun _ _ h => h))
      fun f => ?_
    cases f with
    | program p => exact .ite (fun _ => .pure _) fun _ => .throw _
    | _ => exact .throw _
  refine Ends.bind ((found e readable).imp ?_ fun _ _ h => h)
  rintro (_ | record) t readable
  · exact discard t readable
  refine Ends.ite_iff.2 ⟨fun _ => discard t readable, fun _ => ?_⟩
  have loaded : Ends (onProgramError
      (Except.ok <$> (Storage.loadWorkflow record.row.workflow : Run Workflow))
      fun p => pure (.error p)) t
      (fun r u => Reads given u ∧ ∀ w, r = .ok w → given → w.IsJson) fun _ u => Reads given u := by
    refine Ends.tryCatch_iff.2 (Ends.map_iff.2 ((readable_loadWorkflow _ readable).imp ?_ ?_))
    · rintro w u ⟨readable, json⟩
      refine ⟨readable, ?_⟩
      rintro _ ⟨⟩
      exact json
    · rintro f u readable
      cases f with
      | program p => exact Ends.pure_iff.2 ⟨readable, fun w no => by cases no⟩
      | _ => exact Ends.throw_iff.2 readable
  refine Ends.bind (loaded.imp ?_ fun _ _ h => h)
  rintro (p | w) u ⟨readable, json⟩
  · exact Keeps.bind habit_readable.note (fun _ => .bind discard fun _ =>
      .bind (habit_readable.setStatus _ _ _ _) fun _ => .pure none) u readable
  · refine Ends.bind (ends_ofExcept.2 ⟨fun s read => ?_, fun _ _ => readable⟩)
    refine Ends.bind (ends_ofExcept.2 ⟨fun x absorbed => ?_, fun _ _ => readable⟩)
    refine Ends.bind (Ends.modify_iff.2 (Ends.bind (Ends.modify_iff.2 (Ends.pure_iff.2 ?_))))
    have last : latest first (first :: ms) ∈ first :: ms := by
      rcases List.mem_cons.1 (latest_mem first (first :: ms)) with same | there
      · rw [same]; exact .head _
      · exact there
    obtain ⟨⟨y, fits, named, context⟩, whose⟩ := recalls _ last
    obtain ⟨s', read', remade⟩ := fits.toLegible.read w
    rw [context, read'] at read
    cases read
    rw [named, whose] at remade
    have fits : x.Fits given := of_absorbed (p := Execution.Fits given) (fun _ _ fits new => fits.visit new)
      (fun _ node n fits => fits.count node n) absorbed (remade ▸ fits.remade (json w rfl))
    have put := readable.put fits
    exact put.change rfl rfl fun k y known => ⟨put.runs k y known, y, known, rfl⟩

theorem readable_resumeGroup {ms : List Store.Marker} (recalls : ∀ m ∈ ms, Recalls given m ∧ m.execution = id)
    (now : Instant) : Keeps (Reads given) (resumeGroup now (id, ms)) := by
  cases ms with
  | nil => exact .pure _
  | cons first rest =>
    refine .bind (readable_rebuild recalls) fun r => ?_
    cases r with
    | none => exact .pure _
    | some x =>
      refine .bind (.forM _ fun m => ?_) fun _ => .bind (habit_readable.branchFinished trivial) fun _ => .pure _
      exact .bind (habit_readable.log trivial _ _ _) fun _ => habit_readable.scheduleContinuation _ _ _ _

theorem readable_resume : Keeps (Reads given) resume := by
  intro e readable
  refine Ends.bind (Ends.get_iff.2 (Ends.bind ((readable_query readable _ _ _).imp ?_ fun _ _ h => h)))
  rintro ms t ⟨still, read⟩
  have recalls : ∀ m ∈ ms, Recalls given m := by
    refine Store.forall_of_mapM read fun r there m loaded => ?_
    obtain ⟨x, fits, named, context⟩ := readable.tables.markers r (List.mem_filter.1 (mem_sortBy.1 there)).1
    rw [Store.MarkerRow.load_of_dict (context.trans x.stored_snapshot)] at loaded
    cases loaded
    refine ⟨x, fits, named, ?_⟩
    unfold Store.MarkerRow.opened
    rw [context, x.stored_snapshot]
    rfl
  refine Keeps.get (fun _ => .bind (.ofExcept _) fun now => .bind (.of_twin (Leads.mapM _ fun g there => ?_))
    fun _ => .ite (fun _ => .bind habit_readable.note fun _ => .pure _) fun _ => .pure _) t still
  obtain ⟨own, -⟩ := (groups_groupMarkers _).2.1 g there
  refine (readable_resumeGroup (fun m listed => ?_) now).twins
  obtain ⟨wanted, whose⟩ := List.mem_filter.1 (own ▸ listed)
  exact ⟨recalls m (List.mem_filter.1 wanted).1, by simpa using whose⟩

end Engine

/-- Handlers are the built-in ones only, and markers are saved by delays only. -/
def Operation.Standard : Operation → Prop
  | .register _ _ _ | .saveMarker _ _ _ _ => False
  | _ => True

/-- What is handed over can be expressed in JSON, and a variable that is set directly is named by a text. -/
def Operation.InJson : Operation → Prop
  | .execute _ payload _ _ | .trigger _ _ payload _ => payload.IsJson
  | .dispatch _ actionType config => config.Proper ∧
      (actionType = "set_variable" → ∃ s, Dict.getD config "name" = .text s)
  | _ => True

namespace Engine

theorem readable_notifyFields (fields : Dict) : Keeps (Reads given) (notifyFields fields) := by
  refine .bind (.ofExcept _) fun a => ?_
  split
  · exact readable_lift (Storage.readable_notify _)
  · exact .bind (readable_lift (.openSession _ _)) fun _ => .throw _

/-- Whatever is asked of an engine, what it knows and stores stays readable. -/
theorem readable_carryOut {op : Operation} (standard : op.Standard) (json : given → op.InJson) :
    Keeps (Reads given) (carryOut op) := by
  cases op with
  | save definition =>
    exact .bind (.ofExcept _) fun w => .bind (readable_lift (Storage.readable_saveWorkflow w)) fun _ => .pure _
  | saveRaw row => exact readable_lift (Storage.readable_saveRaw row)
  | load id => exact .bind (readable_lift (.loadWorkflow id)) fun _ => .pure _
  | update id definition => exact .bind (.ofExcept _) fun w => readable_lift (Storage.readable_updateWorkflow id w)
  | delete id => exact .bind (readable_lift (Storage.readable_deleteWorkflow id)) fun _ => .pure _
  | clone id name =>
    exact .bind (readable_lift (.bind (.loadWorkflow id)
      fun _ => Storage.readable_saveWorkflow _)) fun _ => .pure _
  | «exists» id => exact .bind (readable_lift (.query _ _ _)) fun _ => .pure _
  | activeWorkflows module => exact .bind (readable_lift (.query _ _ _)) fun _ => .pure _
  | listWorkflows module tenant => exact .bind (readable_lift (.query _ _ _)) fun _ => .pure _
  | setStatus id status => exact .bind (readable_lift (Storage.readable_setWorkflowStatus id status)) fun _ => .pure _
  | createExecution workflow tenant module data item =>
    exact .bind (readable_lift (Storage.readable_createExecution _ _ _ _ _)) fun _ => .pure _
  | loadExecution id => exact .bind (readable_lift (.query _ _ _)) fun _ => .pure _
  | listExecutions workflow limit offset => exact .bind (readable_lift (.query _ _ _)) fun _ => .pure _
  | setExecutionStatus id status error time => exact .bind (habit_readable.setStatus _ _ _ _) fun _ => .pure _
  | saveMarker id node resumeAt context => exact standard.elim
  | clearMarker id => exact .bind (habit_readable.clearMarker _) fun _ => .pure _
  | clearMarkers id => exact .bind (habit_readable.clearMarkers _) fun _ => .pure _
  | listMarkers id => exact .bind (readable_lift (.query _ _ _)) fun _ => .pure _
  | appendLog id tenant entry =>
    exact .bind (.ofExcept _) fun entry => .bind (habit_readable.appendLog trivial _ _) fun _ => .pure _
  | listLogs id => exact .bind (readable_lift (.query _ _ _)) fun _ => .pure _
  | logs id =>
    refine .bind (.bind (readable_lift (.query _ _ _)) fun _ => .get fun e => .ite (fun _ => ?_) fun _ => .pure _)
      fun _ => .pure _
    exact readable_lift (.query _ _ _)
  | createTicket fields =>
    exact .bind (.ofExcept _) fun t => .bind (readable_lift (Storage.readable_createTicket t)) fun _ => .pure _
  | findTicket id => exact readable_lift (.query _ _ _)
  | updateTicket id updates => exact .bind (readable_lift (Storage.readable_updateTicket id updates)) fun _ => .pure _
  | assignTicket id assignee =>
    exact .bind (readable_lift (Storage.readable_assignTicket id assignee)) fun _ => .pure _
  | notify fields => exact .bind (readable_notifyFields fields) fun _ => .pure _
  | createArticle fields =>
    exact .bind (.ofExcept _) fun a => .bind (readable_lift (Storage.readable_createArticle a)) fun _ => .pure _
  | register name candidate description => exact standard.elim
  | actionTypes => exact .get fun _ => .pure _
  | dispatch execution actionType config =>
    exact readable_dispatch (fun h => (json h).1) fun h sets _ _ _ _ _ => (json h).2 sets
  | execute workflow payload module item =>
    exact .bind (readable_execute workflow module item json) fun _ => .pure _
  | trigger module event payload item => exact .bind (readable_trigger module event item json) fun _ => .pure _
  | cancel id => exact .bind (readable_cancel id) fun _ => .pure _
  | cancelAll workflow => exact .bind (readable_cancelAll workflow) fun _ => .pure _
  | status id =>
    refine .bind (.get fun e => ?_) fun _ => .pure _
    cases e.liveExecution? id with
    | some x => exact .pure _
    | none => exact .bind (readable_lift (.query _ _ _)) fun _ => .pure _
  | active => exact .get fun _ => .pure _
  | advance seconds => exact .bind (.get fun e => readable_moveTo _) fun _ => .pure _
  | restart now => exact .bind (habit_readable.restart now) fun _ => .pure _
  | resume => exact .bind readable_resume fun _ => .pure _
  | shutdown => exact .bind habit_readable.shutdown fun _ => .pure _
  | outage o =>
    exact .bind (fun e readable => Ends.modify_iff.2 (readable.serve readable.tables)) fun _ => .pure _

theorem Readable.afterAll {ops : List Operation} (readable : Reads given e)
    (standard : ∀ op ∈ ops, op.Standard) (json : given → ∀ op ∈ ops, op.InJson) :
    Reads given (e.afterAll ops) := by
  induction ops generalizing e with
  | nil => exact readable
  | cons op rest ih =>
    have kept := after_of_ends
      (readable_carryOut (standard op (.head _)) (fun h => json h op (.head _)) e readable)
    exact ih kept (fun op later => standard op (.tail _ later)) fun h op later =>
      json h op (.tail _ later)

end Engine

/-! What is written is read again. -/

/-- Among the markers in order there is one under the number that was given last. -/
theorem Store.filter_sortedMarkers {s : Store} {r : Store.MarkerRow} (last : r.id = s.nextMarker) :
    (Store.sortedMarkers (s.markers ++ [r])).filter (·.id == r.id) = [r] := by
  have alone : (s.markers ++ [r]).filter (·.id == r.id) = [r] := by
    rw [List.filter_append, List.filter_eq_nil_iff.2 fun m there => ?_]
    · simp
    · simpa [last] using Nat.ne_of_lt (Store.lt_nextMarker there)
  have sorted : ((Store.sortedMarkers (s.markers ++ [r])).filter (·.id == r.id)).Perm
      ((s.markers ++ [r]).filter (·.id == r.id)) := (sortBy_perm _ _).filter _
  rw [alone] at sorted
  exact List.perm_singleton.1 sorted

namespace Execution

variable {x : Execution}

/-- An execution that is made from a snapshot of another one, as one of a workflow: it has the variables as a
column gives them back, its own snapshot is the same just where JSON can express the dictionaries and the module
is kept, and references stand for the same unless they spell the name of a variable that is no text. -/
structure Restores (x : Execution) (w : Workflow) (y : Execution) : Prop where
  vars : y.vars = x.vars.stored
  snapshot : y.snapshot = x.snapshot ↔ (Value.dict x.vars).IsJson ∧ (Value.dict x.triggerData).IsJson ∧
    (x.module.isTruthy = true ∨ x.module = .text w.module)
  refers : x.vars.Proper → ∀ name, (∀ p ∈ x.vars, p.1.jsonText = name → p.1 = .text name) →
    Template.resolve y.vars (.text ("$" ++ name)) = Template.resolve x.vars (.text ("$" ++ name))

/-- Whenever a snapshot of an execution is stored as a marker beside others, it is listed under its number, and
the execution is restored from it. -/
def Survives (x : Execution) : Prop :=
  ∀ (s : Storage) (node : String) (resumeAt : Instant), s.outages = [] →
    (∀ m ∈ s.tables.markers, ∃ d, m.context = .dict d) →
    ∃ k t ms m, Storage.saveMarker x.id node resumeAt x.snapshot s = .ok k t ∧
      Storage.listMarkers none t = .ok ms t ∧ ms.filter (·.id == k) = [m] ∧
      ∀ w : Workflow, ∃ c, Snapshot.read w.module m.context = .ok c ∧ x.Restores w (.ofSnapshot x.id w c)

/-- What is read of a snapshot that alone is stored. -/
def ReadsAs (x y : Execution) : Prop :=
  ∃ k t ms m c, Storage.saveMarker x.id "D" ⟨0⟩ x.snapshot {} = .ok k t ∧ Storage.listMarkers none t = .ok ms t ∧
    ms.filter (·.id == k) = [m] ∧ Snapshot.read x.workflow.module m.context = .ok c ∧
    y = .ofSnapshot x.id x.workflow c

theorem restores_remade (x : Execution) (w : Workflow) : x.Restores w (x.remade w) where
  vars := rfl
  snapshot := x.snapshot_remade_iff w
  refers proper name own := by
    rw [Template.resolve_reference, Template.resolve_reference]
    unfold Dict.getD
    rw [show (x.remade w).vars = x.vars.stored from rfl, Dict.get?_stored proper own]

theorem Legible.survives (legible : x.Legible) : x.Survives := by
  intro s node resumeAt calm dicts
  have steady : s.part.faulty = false := by simp [Storage.part, calm]
  obtain ⟨k, t, saved, rfl, part⟩ := (Storage.ends_saveMarker steady x.id node resumeAt x.snapshot).exists_ok
  let r : Store.MarkerRow := ⟨s.tables.nextMarker, x.id, node, resumeAt, x.snapshot.stored⟩
  have markers : t.tables.markers = s.tables.markers ++ [r] := congrArg (·.markers) part
  have loads : ∀ m ∈ t.tables.markers, ∃ d, m.context = .dict d := by
    rw [markers]
    exact List.forall_mem_append.2 ⟨dicts, List.forall_mem_singleton.2 ⟨x.kept, x.stored_snapshot⟩⟩
  obtain ⟨ms, u, listed, rfl, rfl⟩ := (Storage.ends_listMarkers_ok (by rw [part]; exact steady) loads).exists_ok
  refine ⟨_, _, _, ⟨r.id, x.id, node, resumeAt, x.kept⟩, saved, listed, ?_, fun w => ?_⟩
  · have own : r.opened = ⟨r.id, x.id, node, resumeAt, x.kept⟩ :=
      congrArg (fun v : Value => (⟨r.id, x.id, node, resumeAt, v.entries⟩ : Store.Marker)) x.stored_snapshot
    rw [List.filter_map, markers, ← own]
    exact congrArg (List.map Store.MarkerRow.opened) (Store.filter_sortedMarkers (r := r) rfl)
  · obtain ⟨c, read, made⟩ := legible.read w
    exact ⟨c, read, made ▸ x.restores_remade w⟩

end Execution

namespace Engine

variable {e : Engine}

/-- An engine that stores JSON and is given JSON. -/
def Fed (e : Engine) (ops : List Operation) : Prop :=
  (∀ row ∈ e.storage.tables.workflows, row.InJson) ∧ ∀ op ∈ ops, op.InJson

theorem Fresh.reads (fresh : e.Fresh) (standard : ∃ timeout, e.registry = .standard timeout)
    {ops : List Operation} (usual : ∀ op ∈ ops, op.Standard) : Reads (e.Fed ops) (e.afterAll ops) := by
  have start : Reads (e.Fed ops) e := {
    registry := standard
    tables := {
      workflows := fun fed => fed.1
      markers := fun m there => by rw [fresh.markers] at there; cases there }
    runs := fun k x known => by rw [execution?, fresh.executions] at known; cases known
    own := fun _ _ _ _ no => no.elim }
  exact start.afterAll usual fun fed => fed.2

/-- Whatever an engine with the built-in actions is asked for, snapshots of the executions that it knows can be
stored and read, and so could those that markers were saved with. They are the same again if JSON can express
the variables and the trigger data and the module is not replaced. Where only JSON is given, values always can
be expressed, and names can unless a workflow names a variable by something that is no text. -/
theorem Fresh.snapshots_survive (fresh : e.Fresh) (standard : ∃ timeout, e.registry = .standard timeout)
    {ops : List Operation} (usual : ∀ op ∈ ops, op.Standard) :
    (∀ id x, (e.afterAll ops).execution? id = some x → x.Survives ∧ (e.Fed ops → x.Carries)) ∧
      ∀ m ∈ (e.afterAll ops).storage.tables.markers, ∃ x : Execution, x.id = m.execution ∧
        m.context = x.snapshot.stored ∧ x.Survives ∧ (e.Fed ops → x.Carries) := by
  have reads := fresh.reads standard usual
  refine ⟨fun id x known => ?_, fun m there => ?_⟩
  · have fits := reads.runs id x known
    exact ⟨fits.toLegible.survives, fits.carries⟩
  · obtain ⟨x, fits, named, context⟩ := reads.tables.markers m there
    exact ⟨x, named, context, fits.toLegible.survives, fits.carries⟩

/-- A workflow that names a variable by a number and then waits, and another that just waits. -/
def numbering : Engine where
  registry := .standard (.int 30)
  storage := {
    tables := {
      workflows := [{
        id := "wf", tenant := "tenant-1", name := "Keep", description := none, module := "tickets"
        status := "active", vars := .list [], version := .int 1
        nodes := .list [
          Workflow.writtenNode "T" "trigger" [("triggerType", .text "created")],
          Workflow.writtenNode "A" "action" [("actionType", .text "set_variable"),
            ("config", .record [("name", .int 5), ("value", .text "kept")])],
          Workflow.writtenNode "D" "delay" [("amount", .int 10), ("unit", .text "seconds")]]
        connections := .list [Workflow.writtenConnection "T" "A" .null,
          Workflow.writtenConnection "A" "D" .null] },
      { id := "idle", tenant := "tenant-1", name := "Wait", description := none, module := "tickets"
        status := "active", vars := .list [], version := .int 1
        nodes := .list [
          Workflow.writtenNode "T" "trigger" [("triggerType", .text "created")],
          Workflow.writtenNode "D" "delay" [("amount", .int 10), ("unit", .text "seconds")]]
        connections := .list [Workflow.writtenConnection "T" "D" .null] }] } }

theorem fresh_numbering : numbering.Fresh := by
  constructor <;> rfl

/-- The second one runs for a module without a name. -/
def numbered : List Operation :=
  [.execute "wf" .null (.text "tickets") .null, .execute "idle" .null (.text "") .null]

theorem standard_numbered : ∀ op ∈ numbered, op.Standard := by
  simp [numbered, Operation.Standard]

theorem fed_numbering : numbering.Fed numbered := by
  refine ⟨fun row there => ?_, fun op there => ?_⟩
  · simp only [numbering, List.mem_cons, List.not_mem_nil, or_false] at there
    rcases there with rfl | rfl <;> exact ⟨Value.stored_eq_self_iff.1 rfl, Value.stored_eq_self_iff.1 rfl⟩
  · simp only [numbered, List.mem_cons, List.not_mem_nil, or_false] at there
    rcases there with rfl | rfl <;> exact .null

set_option maxRecDepth 100000 in
theorem snapshots_survive_numbering : numbering.Fresh ∧ (∀ op ∈ numbered, op.Standard) ∧ numbering.Fed numbered ∧
    (∃ x, (numbering.afterAll numbered).execution? "id-2" = some x ∧ x.Survives ∧ x.Carries) ∧
    ∃ m ∈ (numbering.afterAll numbered).storage.tables.markers, ∃ x : Execution, x.id = m.execution ∧
      m.context = x.snapshot.stored ∧ x.Survives ∧ x.Carries := by
  obtain ⟨known, saved⟩ := fresh_numbering.snapshots_survive ⟨_, rfl⟩ standard_numbered
  obtain ⟨x, there⟩ : ∃ x, (numbering.afterAll numbered).execution? "id-2" = some x :=
    Option.isSome_iff_exists.1 (by decide +kernel)
  obtain ⟨m, listed⟩ : ∃ m, m ∈ (numbering.afterAll numbered).storage.tables.markers :=
    List.exists_mem_of_ne_nil _ (by
      rw [← List.isEmpty_eq_false_iff]
      decide +kernel)
  obtain ⟨survives, carries⟩ := known _ x there
  obtain ⟨y, named, context, survives', carries'⟩ := saved m listed
  exact ⟨fresh_numbering, standard_numbered, fed_numbering, ⟨x, there, survives, carries fed_numbering⟩,
    m, listed, y, named, context, survives', carries' fed_numbering⟩

set_option maxRecDepth 100000 in
/-- A variable that is named by a number comes back under a text, and a module without a name as that of the
workflow. -/
theorem snapshots_altered :
    (∃ x y, (numbering.afterAll numbered).execution? "id-1" = some x ∧ x.ReadsAs y ∧ y.snapshot ≠ x.snapshot ∧
      (Template.resolve x.vars (.text "$5")).isNull = true ∧
      (Template.resolve y.vars (.text "$5")).isNull = false) ∧
    ∃ x y, (numbering.afterAll numbered).execution? "id-2" = some x ∧ x.ReadsAs y ∧ y.snapshot ≠ x.snapshot ∧
      x.vars.isEmpty = true := by
  have reads (id : String) (x : Execution) (known : (numbering.afterAll numbered).execution? id = some x) :
      ∃ y, x.ReadsAs y ∧ x.Restores x.workflow y := by
    have legible := ((fresh_numbering.reads ⟨_, rfl⟩ standard_numbered).runs id x known).toLegible
    obtain ⟨k, t, ms, m, saved, listed, alone, each⟩ := legible.survives {} "D" ⟨0⟩ rfl fun m no => by cases no
    obtain ⟨c, read, restores⟩ := each x.workflow
    exact ⟨_, ⟨k, t, ms, m, c, saved, listed, alone, read, rfl⟩, restores⟩
  constructor
  · have seen : ((numbering.afterAll numbered).execution? "id-1").any (fun x =>
        x.vars.any (·.1.number?.isSome) && (Template.resolve x.vars (.text "$5")).isNull &&
        !(Template.resolve x.vars.stored (.text "$5")).isNull) = true := by decide +kernel
    obtain ⟨x, known, all⟩ := (Option.any_eq_true _ _).1 seen
    simp only [Bool.and_eq_true, Bool.not_eq_true'] at all
    obtain ⟨⟨numbers, unset⟩, told⟩ := all
    obtain ⟨y, read, restores⟩ := reads _ x known
    refine ⟨x, y, known, read, fun same => ?_, unset, restores.vars ▸ told⟩
    obtain ⟨p, there, number⟩ := List.any_eq_true.1 numbers
    obtain ⟨s, text⟩ := (Value.isJson_dict.1 (restores.snapshot.1 same).1).1 p there
    rw [text] at number
    cases number
  · have seen : ((numbering.afterAll numbered).execution? "id-2").any (fun x =>
        !x.module.isTruthy && !(Value.text x.workflow.module).same x.module && x.vars.isEmpty) = true := by
      decide +kernel
    obtain ⟨x, known, all⟩ := (Option.any_eq_true _ _).1 seen
    simp only [Bool.and_eq_true, Bool.not_eq_true'] at all
    obtain ⟨⟨falsy, other⟩, empty⟩ := all
    obtain ⟨y, read, restores⟩ := reads _ x known
    refine ⟨x, y, known, read, fun same => ?_, empty⟩
    rcases (restores.snapshot.1 same).2.2 with truthy | own
    · rw [falsy] at truthy
      cases truthy
    · rw [own] at other
      simp [Value.same] at other

end Engine

end Runbook
