import Runbook.Proofs.Course.Lane

/-!
Executions are isolated from one another. Of all that is asked of an engine, what concerns one execution
is asked of another engine on a storage with the same workflows; the execution is the same in both, after
every operation.
-/
namespace Runbook

open Store

namespace Engine

variable {rows : List WorkflowRow} {n : Nat} {id : String} {e d t : Engine} {workflow : String}
  {definition : Workflow} {payload module item : Value}

/-- The execution that begins is the one that was created. -/
theorem ends_setOff_child (data : Dict) :
    Ends (setOff launch definition data module item id) e (fun child _ => child = id) fun _ _ => True := by
  have anyhow {α : Type} {x : Run α} {k : α → Run String} (then_ : ∀ a u, Ends (k a) u (fun child _ => child = id)
      fun _ _ => True) (u : Engine) : Ends (x >>= k) u (fun child _ => child = id) fun _ _ => True := by
    refine Ends.bind ?_
    unfold Ends
    split
    · exact then_ _ _
    · trivial
  unfold setOff
  refine anyhow (fun _ => anyhow fun _ => anyhow fun _ => anyhow fun _ u => ?_) e
  split
  · exact anyhow (fun _ => anyhow fun _ _ => Ends.pure_iff.2 rfl) u
  · exact anyhow (fun _ _ => Ends.pure_iff.2 rfl) u

/-- What is loaded is what the rows define. -/
theorem defined_of_loaded {s : Storage} (steady : s.part.faulty = false) (stocks : s.tables.workflows = rows)
    (id : String) :
    Ends (Storage.loadWorkflow id) s (fun w _ => definition? rows id = some w) fun _ t => t.part = s.part := by
  refine Ends.bind ((Storage.ends_query steady _ _ _).imp ?_ fun _ _ h => h.2)
  rintro row t ⟨read, same⟩
  have found : rows.find? (·.id == id) = some row := by
    rw [← stocks]
    change s.tables.workflow? id = some row
    cases stored : s.tables.workflow? id with
    | none => rw [stored] at read; cases read
    | some r => rw [stored] at read; cases read; rfl
  cases parsed : Workflow.parse row.record with
  | ok w =>
    refine Ends.pure_iff.2 ?_
    unfold definition?
    rw [found, Option.bind_some, parsed]
    rfl
  | error f => exact Ends.throw_iff.2 same

section Begin

variable (steady : e.scene.faulty = false) (stocks : Stocks rows e)

include steady stocks

/-- An execution of a workflow that is defined begins with its definition. -/
theorem after_execute (defined : definition? rows workflow = some definition) {p : Engine → Prop}
    (ends : Ends (startExecution launch definition payload module item) e (fun _ t => p t) fun _ t => p t) :
    p (e.after (.execute workflow payload module item)) := by
  refine after_of_ends (Ends.bind (Ends.bind (ends_storage.2
    ((Storage.ends_loadWorkflow_ok steady stocks defined).imp ?_ fun _ _ h => h.elim))))
  rintro _ _ ⟨rfl, rfl⟩
  exact ends.imp (fun _ _ h => Ends.pure_iff.2 h) fun _ _ h => h

/-- Of one that is not defined none begins. -/
theorem after_execute_undefined (undefined : definition? rows workflow = none) :
    (e.after (.execute workflow payload module item)).scene = e.scene := by
  refine after_of_ends (p := fun t => t.scene = e.scene) (Ends.bind (Ends.bind (ends_storage.2
    ((defined_of_loaded steady stocks workflow).imp (fun w s defined => ?_) fun f s same => ?_))))
  · cases undefined.symm.trans defined
  · change { e.scene with toPart := s.part } = e.scene
    rw [same]
    rfl

end Begin

/-- What becomes of an engine `e` when an execution starts in it, besides an engine `d` that has nothing else
to do than the execution with a certain number. Either it is another one that starts, and the share of the
execution stays, or it is this one, and the other engine has to be asked for it. -/
inductive Stage (rows : List WorkflowRow) (n : Nat) (payload module item : Value) (e d t : Engine) : Prop where
  | other (lane : Lane rows n t d)
      (still : (t.execution? (idText n)).map (·.workflow) = (e.execution? (idText n)).map (·.workflow))
  | own {workflow : String} {x : Execution} (unknown : e.execution? (idText n) = none)
      (known : t.execution? (idText n) = some x) (names : x.workflow.id = some workflow)
      (lane : Lane rows n t (d.after (.execute workflow payload module item)))

/-- Ids may be used up in the first engine. -/
theorem Lane.serve (lane : Lane rows n e d) {next : Nat} (later : e.scene.next ≤ next)
    (here : t.scene = { e.scene with next }) (stocks : Stocks rows t) : Lane rows n t d where
  matched := by
    rw [here]
    exact ⟨lane.matched.calm.next later, lane.matched.calm', lane.matched.share⟩
  stocks := stocks
  stocks' := lane.stocks'
  early unknown := lane.early <| by
    have same : t.execution? = e.execution? := congrArg Scene.execution? here
    rw [← same]
    exact unknown
  blank := lane.blank

theorem Stage.serve (lane : Lane rows n e d) {next : Nat} (later : e.scene.next ≤ next)
    (here : t.scene = { e.scene with next }) (stocks : Stocks rows t) :
    Stage rows n payload module item e d t :=
  .other (lane.serve later here stocks) (by
    have same : t.execution? = e.execution? := congrArg Scene.execution? here
    rw [same])

theorem Stage.stocks (stage : Stage rows n payload module item e d t) : Stocks rows t := by
  cases stage with
  | other lane => exact lane.stocks
  | own _ _ _ lane => exact lane.stocks

/-- What is noted changes nothing of it. -/
theorem Stage.note (stage : Stage rows n payload module item e d t) {u : Engine} (here : u.scene = t.scene)
    (stocks : Stocks rows u) : Stage rows n payload module item e d u := by
  have same : u.execution? = t.execution? := congrArg Scene.execution? here
  cases stage with
  | other lane still => exact .other (lane.serve (Nat.le_refl _) here stocks) (by rw [same]; exact still)
  | own unknown known names lane =>
    exact .own unknown (by rw [same]; exact known) names (lane.serve (Nat.le_refl _) here stocks)

theorem keeps_stocks_start : Keeps (Stocks rows) (startExecution launch definition payload module item) :=
  .of_twin ((bond_stocks rows).startExecution stocks_creates
    (fun workflow _ payload => (bond_stocks rows).launch stocks_creates workflow payload) _ _ _ _)

/-- Data that no row can be made of start nothing. -/
theorem Lane.ends_refused (lane : Lane rows n e d) {data : Dict} (read : payload.toDict = .ok data)
    {r : Refusal} (opening : ExecutionRow.opening (idText e.scene.next) (.ofText? definition.id)
      (.text definition.tenant) (.dict data) module item = .error r) :
    Ends (startExecution launch definition payload module item) e (fun _ _ => False)
      fun _ t => Stage rows n payload module item e d t := by
  have rejects (id : String) : ∃ r, ExecutionRow.opening id (.ofText? definition.id) (.text definition.tenant)
      (.dict data) module item = .error r := by
    refine ⟨r, ?_⟩
    rw [ExecutionRow.opening_rename id (idText e.scene.next), opening]
    rfl
  have refused := Storage.ends_createExecution_refused lane.matched.calm.proper.steady rejects
  have created : Ends (liftM (Storage.createExecution (.ofText? definition.id) (.text definition.tenant)
      (.dict data) module item) : Run String) e (fun _ _ => False) fun _ t =>
        ∃ next, e.scene.next ≤ next ∧ t.scene = { e.scene with next } := by
    refine ends_storage.2 (refused.imp (fun _ _ h => h) ?_)
    rintro f s ⟨next, later, part⟩
    refine ⟨next, later, ?_⟩
    change { e.scene with toPart := s.part } = _
    rw [part]
    rfl
  have started : Ends (startExecution launch definition payload module item) e (fun _ _ => False) fun _ t =>
      ∃ next, e.scene.next ≤ next ∧ t.scene = { e.scene with next } := by
    rw [startExecution_eq, read]
    exact Ends.bind (Ends.pure_iff.2 (Ends.bind (created.imp (fun _ _ h => h.elim) fun _ _ h => h)))
  refine (started.and (keeps_stocks_start e lane.stocks)).imp (fun _ _ h => h.1) ?_
  rintro f t ⟨⟨next, later, here⟩, stocks⟩
  exact .serve lane later here stocks

/-- What a relation says of where two runs end is said of the first one and of the engine after an operation
that runs as the second one does. -/
theorem ends_leads {P Q : Engine → Engine → Prop} {x y : Run String} {op : Operation}
    {same : String → String → Prop} (leads : Leads P Q x y same) (related : P e d)
    (runs : ∀ p : Engine → Prop, Ends y d (fun _ t => p t) (fun _ t => p t) → p (d.after op)) :
    Ends x e (fun _ t => Q t (d.after op)) fun _ t => Q t (d.after op) := by
  have met := leads e d related
  have after (t : Engine) (there : Ends y d (fun _ u => Q t u) fun _ u => Q t u) : Q t (d.after op) :=
    runs (Q t) there
  unfold Ends at after ⊢
  generalize x e = r at met ⊢
  generalize y d = q at met after
  cases met with
  | answer _ related => exact after _ related
  | failure related => exact after _ related

/-- An execution that can be stored gets the id that is next. -/
theorem Ready.ends_start {row : ExecutionRow} {data : Dict} (ready : Ready rows n definition payload module item data row)
    (proper : e.scene.Proper) (now : e.scene.next = n) :
    Ends (startExecution launch definition payload module item) e (fun child _ => child = idText n)
      fun _ _ => True := by
  rw [startExecution_eq, ready.read]
  refine Ends.bind (Ends.pure_iff.2 (Ends.bind ((plays_createExecution_ok proper now ready.opening e rfl).2.imp ?_
    fun _ _ h => h.elim)))
  rintro _ t ⟨rfl, -⟩
  exact ends_setOff_child data

/-- When an execution begins, nothing happens to another one. -/
theorem Ready.blank_execute {row : ExecutionRow} {data : Dict} {k : String}
    (ready : Ready rows n definition payload module item data row) (defined : definition? rows workflow = some definition)
    (stocks : Stocks rows d) (now : d.scene.next = n) (other : k ≠ idText n) (blank : Blank rows d k) :
    Blank rows (d.after (.execute workflow payload module item)) k := by
  obtain ⟨b, matched, stocks', idle⟩ := blank
  have begun := (leads_start_other ready matched.calm now other).ends_left (e := d) (d := d) ⟨rfl, rfl⟩
  obtain ⟨_, apart⟩ := after_execute matched.calm.proper.steady stocks defined (p := fun t => ∃ u,
    Side (Scene.Apart rows (idText n) k (d.scene.share [] k) [] []) t u) begun
  exact ⟨b, ⟨apart.calm, matched.calm', matched.share.trans apart.share.symm⟩, stocks', idle⟩

/-- An execution starts in the first of two engines. -/
theorem Lane.ends_start (lane : Lane rows n e d) (assigning : Assigning rows)
    (defined : definition? rows workflow = some definition) :
    Ends (startExecution launch definition payload module item) e
      (fun _ t => Stage rows n payload module item e d t) fun _ t => Stage rows n payload module item e d t := by
  have calm := lane.matched.calm
  obtain ⟨names, gentle⟩ := assigning.of_defined defined
  have keeps : Ends (startExecution launch definition payload module item) e (fun _ t => Stocks rows t)
      fun _ t => Stocks rows t := keeps_stocks_start e lane.stocks
  cases read : payload.toDict with
  | error f =>
    rw [startExecution_eq, read]
    exact Ends.bind (Ends.throw_iff.2 (.serve lane (Nat.le_refl _) rfl lane.stocks))
  | ok data =>
  cases opening : ExecutionRow.opening (idText e.scene.next) (.ofText? definition.id)
      (.text definition.tenant) (.dict data) module item with
  | error r => exact (lane.ends_refused read opening).imp (fun _ _ h => h.elim) fun _ _ h => h
  | ok row =>
  obtain ⟨kept, held⟩ : row.Kept rows ∧ definition? rows row.workflow = some definition := by
    have opened := opening
    rw [names] at opened
    obtain ⟨loads, own⟩ := ExecutionRow.loads_of_opening opened
    exact ⟨⟨loads, definition, own ▸ defined, gentle⟩, own ▸ defined⟩
  by_cases now : e.scene.next = n
  · -- It is the execution itself that starts.
    have unknown : e.execution? (idText n) = none := (calm.proper.fresh n (Nat.le_of_eq now)).1
    have ready : Ready rows n definition payload module item data row := ⟨gentle, read, now ▸ opening, kept, held⟩
    have begun := ends_leads (leads_start_own ready lane.matched now (lane.early unknown).2) ⟨rfl, rfl⟩
      fun p ends => after_execute lane.matched.calm'.proper.steady lane.stocks' defined (p := p) ends
    have started := (plays_startExecution launches_launch definition payload module item gentle.1 calm.proper
      e rfl).2
    refine (((begun.and started).and (ready.ends_start calm.proper now)).and keeps).imp ?_ ?_
    · rintro child t ⟨⟨⟨matched, work⟩, rfl⟩, stocks⟩
      obtain ⟨x, known, own⟩ := work.begun calm.proper
      refine .own unknown known (own ▸ names) ⟨matched, stocks, stocks_after lane.stocks' rfl,
        fun absent => ?_, fun k other => ready.blank_execute defined lane.stocks' (lane.early unknown).2 other
          (lane.blank k other)⟩
      cases absent.symm.trans known
    · rintro f t ⟨⟨⟨-, next, later, here⟩, -⟩, stocks⟩
      exact .serve lane later here stocks
  · -- It is another one.
    have other : idText n ≠ idText e.scene.next := fun same => now (Scene.idText_inj same).symm
    have ready : Ready rows e.scene.next definition payload module item data row := ⟨gentle, read, opening, kept, held⟩
    have apart := (leads_start_other ready calm rfl other).ends_left (e := e) (d := e) ⟨rfl, rfl⟩
    have stage (t : Engine) (left : ∃ u, Side (Scene.Apart rows (idText e.scene.next) (idText n)
        (e.scene.share [] (idText n)) [] []) t u) (stocks : Stocks rows t) :
        Stage rows n payload module item e d t := by
      obtain ⟨_, apart⟩ := left
      have share : t.scene.share [] (idText n) = e.scene.share [] (idText n) := apart.share
      have same : (t.execution? (idText n)).map (·.untimed) = (e.execution? (idText n)).map (·.untimed) :=
        congrArg Share.execution? share
      refine .other ⟨⟨apart.calm, lane.matched.calm', lane.matched.share.trans share.symm⟩, stocks, lane.stocks',
        fun unknown => lane.early ?_, lane.blank⟩ ?_
      · rw [unknown] at same
        exact Option.map_eq_none_iff.1 same.symm
      · have workflow := congrArg (Option.map Execution.workflow) same
        rw [Option.map_map, Option.map_map] at workflow
        exact workflow
    exact (apart.and keeps).imp (fun _ t h => stage t h.1 h.2) fun _ t h => stage t h.1 h.2

/-- What is done next is done besides the engine that has been asked for the execution by then. -/
theorem Stage.then_ {α : Type} {x : Run α} (stage : Stage rows n payload module item e d t)
    (next : ∀ d, Lane rows n t d → Ends x t (fun _ u => Stage rows n payload module item t d u)
      fun _ u => Stage rows n payload module item t d u) :
    Ends x t (fun _ u => Stage rows n payload module item e d u)
      fun _ u => Stage rows n payload module item e d u := by
  cases stage with
  | other lane still =>
    have onwards (u : Engine) (later : Stage rows n payload module item t d u) :
        Stage rows n payload module item e d u := by
      cases later with
      | other lane same => exact .other lane (same.trans still)
      | own unknown known names lane =>
        rw [unknown] at still
        exact .own (Option.map_eq_none_iff.1 still.symm) known names lane
    exact (next d lane).imp (fun _ => onwards) fun _ => onwards
  | @own workflow x unknown known names lane =>
    have onwards (u : Engine) (later : Stage rows n payload module item t
        (d.after (.execute workflow payload module item)) u) : Stage rows n payload module item e d u := by
      cases later with
      | other lane same =>
        rw [known] at same
        obtain ⟨y, still, own⟩ := Option.map_eq_some_iff.1 same
        exact .own unknown still (own ▸ names) lane
      | own absent => cases absent.symm.trans known
    exact (next _ lane).imp (fun _ => onwards) fun _ => onwards

theorem ends_note {level : Level} {message : String} (stocks : Stocks rows e) :
    Ends (note level routerLogger message []) e (fun _ t => t.scene = e.scene ∧ Stocks rows t) never :=
  ((plays_note (by decide) e rfl).2.and (keeps_stocks_note e stocks)).imp (fun _ _ h => h) fun _ _ h => h.1

/-- A row that waits for an event starts. -/
theorem Lane.ends_routeRow (lane : Lane rows n e d) (assigning : Assigning rows) (event : Option String)
    {row : WorkflowRow} (there : row ∈ rows) :
    Ends (routeRow event payload module item row) e (fun _ t => Stage rows n payload module item e d t)
      fun _ t => Stage rows n payload module item e d t := by
  have stage {t : Engine} (here : t.scene = e.scene) (stocks : Stocks rows t) :
      Stage rows n payload module item e d t := .serve lane (Nat.le_refl _) here stocks
  refine Ends.bind (Ends.tryCatch_iff.2 (Ends.map_iff.2 (ends_ofExcept.2 ⟨fun w parsed => ?_, fun f _ => ?_⟩)))
  · refine Ends.ite_iff.2 ⟨fun _ => Ends.pure_iff.2 (stage rfl lane.stocks), fun _ => ?_⟩
    refine Ends.tryCatch_iff.2 (Ends.map_iff.2 ((lane.ends_start assigning
      (assigning.defined there parsed)).imp (fun _ _ begun => begun) fun f t later => ?_))
    cases f with
    | program p =>
      refine Ends.bind ((ends_note later.stocks).imp ?_ fun _ _ h => h.elim)
      rintro _ u ⟨here, stocks⟩
      exact Ends.pure_iff.2 (later.note here stocks)
    | _ => exact Ends.throw_iff.2 later
  · cases f with
    | program p =>
      refine Ends.bind ((ends_note lane.stocks).imp ?_ fun _ _ h => h.elim)
      rintro _ u ⟨here, stocks⟩
      exact Ends.pure_iff.2 (stage here stocks)
    | _ => exact Ends.throw_iff.2 (stage rfl lane.stocks)

/-- An event starts what waits for it. -/
theorem Lane.ends_trigger (lane : Lane rows n e d) (assigning : Assigning rows) (event : Option String)
    (module : String) : Ends (trigger module event payload item) e
      (fun _ t => Stage rows n payload (.text module) item e d t)
      fun _ t => Stage rows n payload (.text module) item e d t := by
  have stage {t : Engine} (here : t.scene = e.scene) (stocks : Stocks rows t) :
      Stage rows n payload (.text module) item e d t := .serve lane (Nat.le_refl _) here stocks
  have listed : Ends (liftM (Storage.activeWorkflows module) : Run (List WorkflowRow)) e
      (fun found t => (∀ row ∈ found, row ∈ rows) ∧ t.scene = e.scene ∧ Stocks rows t)
      fun _ t => t.scene = e.scene ∧ Stocks rows t := by
    have keeps : Keeps (Stocks rows) (liftM (Storage.activeWorkflows module) : Run (List WorkflowRow)) :=
      tables_lift (p := (·.workflows = rows)) (Storage.Errand.activeWorkflows module).stocked
    have whole {s : Storage} (same : s.part = e.storage.part) :
        ({ e with storage := s } : Engine).scene = e.scene := by
      change { e.scene with toPart := s.part } = e.scene
      rw [same]
      rfl
    have read : Ends (liftM (Storage.activeWorkflows module) : Run (List WorkflowRow)) e
        (fun found t => (∀ row ∈ found, row ∈ rows) ∧ t.scene = e.scene) fun _ t => t.scene = e.scene :=
      ends_storage.2 ((Storage.ends_query lane.matched.calm.proper.steady _ _ _).imp (fun found s h =>
        ⟨fun row there => by
          cases h.1
          exact lane.stocks ▸ (List.mem_filter.1 there).1, whole h.2⟩) fun _ _ h => whole h.2)
    exact (read.and (keeps e lane.stocks)).imp (fun _ _ h => ⟨h.1.1, h.1.2, h.2⟩) fun _ _ h => h
  refine Ends.bind (Ends.tryCatch_iff.2 (Ends.map_iff.2 (listed.imp ?_ ?_)))
  · rintro found t ⟨among, here, stocks⟩
    refine Ends.bind ((Ends.mapM (p := fun rest _ t => (∀ row ∈ rest, row ∈ rows) ∧
      Stage rows n payload (.text module) item e d t) found ⟨among, stage here stocks⟩
      fun row rest _ t later => ?_).imp ?_ fun _ _ h => h)
    · exact (later.2.then_ fun d lane => lane.ends_routeRow assigning event (later.1 row (.head _))).imp
        (fun _ _ next => ⟨fun row there => later.1 row (.tail _ there), next⟩) fun _ _ h => h
    · rintro _ t ⟨-, later⟩
      refine Ends.bind ((ends_note later.stocks).imp ?_ fun _ _ h => h.elim)
      rintro _ u ⟨here, stocks⟩
      exact Ends.pure_iff.2 (later.note here stocks)
  · rintro f t ⟨here, stocks⟩
    cases f with
    | program p =>
      refine Ends.bind (Ends.bind ((ends_note stocks).imp ?_ fun _ _ h => h.elim))
      rintro _ u ⟨same, stocks⟩
      exact Ends.pure_iff.2 (Ends.pure_iff.2 (stage (same.trans here) stocks))
    | _ => exact Ends.throw_iff.2 (stage here stocks)

/-- An operation that may start executions begins this one in the second engine, or does nothing there. -/
theorem Lane.stage_execute (lane : Lane rows n e d) (assigning : Assigning rows) (workflow : String)
    (payload module item : Value) :
    Stage rows n payload module item e d (e.after (.execute workflow payload module item)) := by
  have steady := lane.matched.calm.proper.steady
  cases defined : definition? rows workflow with
  | none =>
    exact .serve lane (Nat.le_refl _) (after_execute_undefined steady lane.stocks defined)
      (stocks_after lane.stocks rfl)
  | some definition => exact after_execute steady lane.stocks defined (lane.ends_start assigning defined)

theorem Lane.stage_trigger (lane : Lane rows n e d) (assigning : Assigning rows) (module : String)
    (event : Option String) (payload item : Value) :
    Stage rows n payload (.text module) item e d (e.after (.trigger module event payload item)) :=
  after_of_ends (Ends.bind ((lane.ends_trigger assigning event module).imp
    (fun _ _ stage => Ends.pure_iff.2 stage) fun _ _ stage => stage))

/-! Of operations, those that concern one execution. -/

/-- The workflow of an execution that begins with an operation. -/
def begun (e : Engine) (op : Operation) (id : String) : Option String :=
  if (e.execution? id).isSome then none else ((e.after op).execution? id).bind (·.workflow.id)

/-- What an operation asks for on behalf of one execution. It starts this execution or others, on its own
account or because an event is routed; it cancels this one or others; time passes, engines restart and
delays are resumed for all. -/
def concern (e : Engine) (id : String) (op : Operation) : List Operation :=
  match op with
  | .execute _ payload module item => (e.begun op id).toList.map (.execute · payload module item)
  | .trigger module _ payload item => (e.begun op id).toList.map (.execute · payload (.text module) item)
  | .cancel k => if k = id then [op] else []
  | .cancelAll workflow => if (e.execution? id).any (·.workflow.id == some workflow) then [op] else []
  | .advance _ | .restart _ | .resume => [op]
  | _ => []

/-- The operations that concern one execution, of those that are asked of an engine. -/
def concerns (e : Engine) (id : String) : List Operation → List Operation
  | [] => []
  | op :: rest => e.concern id op ++ (e.after op).concerns id rest

theorem Stage.lane {op : Operation} (stage : Stage rows n payload module item e d (e.after op)) :
    Lane rows n (e.after op)
      (d.afterAll ((e.begun op (idText n)).toList.map (.execute · payload module item))) := by
  cases stage with
  | other lane still =>
    have none : e.begun op (idText n) = none := by
      unfold begun
      split
      · rfl
      · rename_i unknown
        rw [Option.not_isSome_iff_eq_none.1 unknown] at still
        rw [Option.map_eq_none_iff.1 still]
        rfl
    rw [none]
    exact lane
  | @own workflow x unknown known names lane =>
    have some : e.begun op (idText n) = some workflow := by
      unfold begun
      rw [unknown, known]
      exact names
    rw [some]
    exact lane

/-- After every operation the execution has the same share in both engines, the second of which is asked
only for what concerns it. -/
theorem Lane.after (lane : Lane rows n e d) (assigning : Assigning rows) {op : Operation}
    (course : op.isCourse = true) (fit : ∀ m ∈ e.scene.markers, Store.fits m.id = true)
    (fit' : ∀ m ∈ d.scene.markers, Store.fits m.id = true) :
    Lane rows n (e.after op) (d.afterAll (e.concern (idText n) op)) := by
  cases op with
  | execute workflow payload module item => exact (lane.stage_execute assigning workflow payload module item).lane
  | trigger module event payload item => exact (lane.stage_trigger assigning module event payload item).lane
  | cancel k =>
    by_cases own : k = idText n
    · rw [show e.concern (idText n) (.cancel k) = [.cancel k] from if_pos own]
      exact lane.care rfl fit fit'
    · rw [show e.concern (idText n) (.cancel k) = [] from if_neg own]
      exact lane.cancel_of_ne (Ne.symm own)
  | cancelAll workflow =>
    cases own : (e.execution? (idText n)).any (·.workflow.id == some workflow) with
    | true =>
      rw [show e.concern (idText n) (.cancelAll workflow) = [.cancelAll workflow] from if_pos own]
      exact lane.care rfl fit fit'
    | false =>
      rw [show e.concern (idText n) (.cancelAll workflow) = [] from if_neg (by simp [own])]
      exact lane.cancelAll_of_not own
  | advance | restart | resume => exact lane.care rfl fit fit'
  | _ => cases course

theorem isCourse_concern {op : Operation} (course : op.isCourse = true) :
    ∀ asked ∈ e.concern id op, asked.isCourse = true := by
  intro asked there
  cases op with
  | execute | trigger =>
    obtain ⟨workflow, -, rfl⟩ := List.mem_map.1 there
    rfl
  | cancel | cancelAll =>
    obtain rfl := List.mem_singleton.1 (List.mem_ite_nil_right.1 there).2
    rfl
  | advance | restart | resume =>
    obtain rfl := List.mem_singleton.1 there
    rfl
  | _ => cases course

theorem moves_course {ops : List Operation} (calm : e.scene.Calm rows [] [])
    (course : ∀ op ∈ ops, op.isCourse = true) : Moves (fun _ => True) e.scene (e.afterAll ops).scene :=
  (events_afterAll ops (fun op there => Operation.isUse_of_isCourse (course op there)) e
    calm.orderly).moves calm.orderly

/-- The same after any operations, one after the other. -/
theorem Lane.afterAll (lane : Lane rows n e d) (assigning : Assigning rows) {ops : List Operation}
    (course : ∀ op ∈ ops, op.isCourse = true) (numbered : e.scene.Numbered) (numbered' : d.scene.Numbered)
    (few : Store.fits (e.afterAll ops).storage.journal.spoken.length = true) :
    Lane rows n (e.afterAll ops) (d.afterAll (e.concerns (idText n) ops)) := by
  induction ops generalizing e d with
  | nil => exact lane
  | cons op rest ih =>
    have calm := lane.matched.calm
    have room : Store.fits e.scene.spoken.length = true :=
      fits_of_le ((moves_course calm course).grows (k := "")).2.1.length_le few
    have first : ∀ asked ∈ [op], asked.isCourse = true := fun asked there =>
      List.mem_singleton.1 there ▸ course op (.head _)
    have concern : ∀ asked ∈ e.concern (idText n) op, asked.isCourse = true :=
      isCourse_concern (course op (.head _))
    have next : Lane rows n (e.after op) (d.afterAll (e.concern (idText n) op)) :=
      lane.after assigning (course op (.head _)) (fun m there => fits_of_le (numbered m there) room)
        fun m there => fits_of_le ((numbered' m there).trans lane.spoken_le) room
    rw [concerns, afterAll_append]
    exact ih next (fun op there => course op (.tail _ there)) ((moves_course calm first).numbered numbered)
      ((moves_course lane.matched.calm' concern).numbered numbered') few

/-- An engine that gives away a certain id next. -/
def giving (e : Engine) (n : Nat) : Engine := { e with storage := { e.storage with nextId := n } }

theorem Fresh.calm (fresh : e.Fresh) (assigns : e.registry.Assigns) : e.scene.Calm rows [] [] where
  accepting := fresh.accepting
  assigns := assigns
  gentle k x known := by simp [scene, execution?, fresh.executions] at known
  ordered := by simp [scene, Storage.part, fresh.markers]
  legible m there := by simp [scene, Storage.part, fresh.markers] at there
  kept k r stored := by simp [scene, Storage.part, Store.execution?, fresh.rows] at stored
  defined k x r known := by simp [scene, execution?, fresh.executions] at known
  proper := fresh.proper
  account := fresh.accounted
  timed _ there := by cases there

/-- The engine itself, besides one that has nothing else to do than a certain execution. -/
theorem Fresh.lane (fresh : e.Fresh) (assigns : e.registry.Assigns) (n : Nat) :
    Lane e.storage.tables.workflows n e (e.giving n) := by
  have fresh' : (e.giving n).Fresh := ⟨fresh.executions, fresh.live, fresh.timers, fresh.accepting, fresh.rows,
    fresh.markers, fresh.outages, fresh.spoken⟩
  have idle : (e.giving n).scene.Idle := ⟨fresh.live, fresh.timers, fresh.markers, fresh.spoken⟩
  exact ⟨⟨fresh.calm assigns, fresh'.calm assigns, rfl⟩, rfl, rfl, fun _ => ⟨idle, rfl⟩,
    fun _ _ => ⟨e.giving n, ⟨fresh'.calm assigns, fresh'.calm assigns, rfl⟩, rfl, idle⟩⟩

theorem Fresh.numbered_giving (fresh : e.Fresh) (n : Nat) : (e.giving n).scene.Numbered := by
  intro m there
  simp [giving, scene, Storage.part, fresh.markers] at there

/-- When each of the delays of an execution is due, with its node. -/
def delaysOf (e : Engine) (id : String) : List (String × Float) :=
  (e.clock.timers.filter (·.execution == id)).map fun t => (t.node, t.due)

theorem delaysOf_eq (e : Engine) (id : String) :
    e.delaysOf id = (e.scene.share [] id).pending.map fun d => (d.node, d.due) := by
  unfold delaysOf Scene.share
  rw [List.map_map]
  rfl

/-- What the markers of an execution keep. -/
def savedOf (e : Engine) (id : String) : List Saved :=
  (e.storage.tables.markers.filter (·.execution == id)).map (·.saved)

/-- Executions are isolated from one another. In a run on an engine whose workflows only assign variables,
executions are started, by themselves or by events, and cancelled, time passes, engines restart and delays
are resumed, in any order. An execution is in the end as in the run of only what concerns it, in which its
id is the first to be given away: it has taken the same path with the same variables, status and log, its
row and its delays are the same, and the same is told and kept of it. Only the numbers of its timers and
markers may differ; markers have numbers as long as there are fewer log entries than numbers. -/
theorem Fresh.isolated (fresh : e.Fresh) (assigns : e.registry.Assigns)
    (assigning : Assigning e.storage.tables.workflows) (n : Nat) (ops : List Operation)
    (course : ∀ op ∈ ops, op.isCourse = true)
    (few : Store.fits (e.afterAll ops).storage.journal.spoken.length = true) :
    let t := e.afterAll ops
    let u := (e.giving n).afterAll (e.concerns (idText n) ops)
    (u.execution? (idText n)).map Execution.untimed = (t.execution? (idText n)).map Execution.untimed ∧
      u.stored? (idText n) = t.stored? (idText n) ∧ u.delaysOf (idText n) = t.delaysOf (idText n) ∧
      u.wordsOf (idText n) = t.wordsOf (idText n) ∧ u.savedOf (idText n) = t.savedOf (idText n) := by
  intro t u
  have share := ((fresh.lane assigns n).afterAll assigning course fresh.numbered (fresh.numbered_giving n)
    few).matched.share
  refine ⟨congrArg Share.execution? share, congrArg Share.row? share, ?_, congrArg Share.spoken share,
    congrArg Share.saved share⟩
  rw [delaysOf_eq, delaysOf_eq, share]

/-- A row whose workflow assigns a variable, waits, and assigns another one. -/
def assigningRow (id : String) (seconds : Int) : WorkflowRow where
  id := id
  tenant := "main"
  name := id
  description := none
  module := "tickets"
  status := "active"
  nodes := .list [Workflow.writtenNode "T" "trigger" [("triggerType", .text "created")],
    Workflow.writtenNode "A" "action" [("actionType", .text "set_variable"),
      ("config", .record [("name", .text "x"), ("value", .text id)])],
    Workflow.writtenNode "D" "delay" [("amount", .int seconds), ("unit", .text "seconds")],
    Workflow.writtenNode "B" "action" [("actionType", .text "set_variable"),
      ("config", .record [("name", .text "y"), ("value", .text "$x")])]]
  connections := .list [Workflow.writtenConnection "T" "A" .null, Workflow.writtenConnection "A" "D" .null,
    Workflow.writtenConnection "D" "B" .null]
  vars := .list []
  version := .int 1

/-- An engine on two workflows that assign. -/
def crossing : Engine where
  registry := .standard (.int 30)
  storage := { tables := { workflows := [assigningRow "wf-1" 5, assigningRow "wf-2" 8] } }

/-- Executions of both workflows, with one of the first one in between. -/
def crossed : List Operation :=
  [.execute "wf-1" .null (.text "tickets") .null, .execute "wf-2" .null (.text "tickets") .null,
    .trigger "tickets" (some "created") .null .null, .cancel "id-1", .advance 3.0, .restart 1700000010.0,
    .resume, .cancelAll "wf-1", .advance 2.0]

/-- Whether the workflow of a row, if it has one, only assigns variables. -/
def onlyAssigns (row : WorkflowRow) : Bool :=
  (Workflow.parse row.record).toOption.all (·.nodes.all fun n => match n.kind with
    | .action actionType => actionType == "set_variable"
    | _ => true)

theorem assigning_of_onlyAssigns {rows : List WorkflowRow} (distinct : (rows.map (·.id)).Nodup)
    (gentle : rows.all onlyAssigns = true) : Assigning rows where
  distinct := distinct
  gentle := by
    intro row there w parsed n node actionType action
    have own := List.all_eq_true.1 gentle row there
    rw [onlyAssigns, parsed] at own
    have named := List.all_eq_true.1 own n node
    rw [action] at named
    exact eq_of_beq named

theorem assigning_crossing : Assigning crossing.storage.tables.workflows :=
  assigning_of_onlyAssigns (by decide) (by decide +kernel)

set_option maxRecDepth 100000 in
theorem isolated_crossing :
    (crossing.concerns "id-2" crossed).length = 5 ∧
    ((crossing.afterAll crossed).execution? "id-2").map (fun x => (x.path, x.status)) =
      some (["T", "A", "D", "B"], .completed) ∧
    (((crossing.giving 2).afterAll (crossing.concerns "id-2" crossed)).execution? "id-2").map
      Execution.untimed = ((crossing.afterAll crossed).execution? "id-2").map Execution.untimed := by
  have fresh : crossing.Fresh := by constructor <;> rfl
  refine ⟨by decide +kernel, by decide +kernel, ?_⟩
  exact (fresh.isolated rfl assigning_crossing 2 crossed
    (by simp [crossed, Operation.isCourse, Operation.isCare]) (by decide +kernel)).1

end Engine

end Runbook
