import Runbook.Proofs.Course.Resumption

/-!
What is taken up again. Where the workflows stay and every snapshot can be read, an engine that resumes
takes up each execution that waits. Which one is made of its markers, and which timers are set, can be
told from the share of the execution: the numbers of the markers only say which was saved before which.
-/
namespace Runbook

/-- The entries of a dictionary. -/
def Value.entries : Value → Dict
  | .dict d => d
  | _ => []

/-- A marker as it is loaded. -/
def Store.MarkerRow.opened (m : Store.MarkerRow) : Store.Marker :=
  ⟨m.id, m.execution, m.node, m.resumeAt, m.context.entries⟩

theorem Store.MarkerRow.load_of_dict {m : Store.MarkerRow} {d : Dict} (context : m.context = .dict d) :
    m.load = .ok m.opened := by
  unfold load opened
  rw [context]
  cases d <;> rfl

/-- A marker under another number. -/
def Store.Marker.renumber (f : Nat → Nat) (m : Store.Marker) : Store.Marker := { m with id := f m.id }

/-- What is kept at a place, as a marker with that number. -/
def Saved.marker (id : String) (s : Saved) (place : Nat) : Store.Marker :=
  ⟨place, id, s.node, s.resumeAt, s.context.entries⟩

/-- The order in which markers are due, and then in which they were saved. -/
def Saved.before (p q : Saved × Nat) : Bool :=
  decide (p.1.resumeAt.micros < q.1.resumeAt.micros) ||
    (p.1.resumeAt.micros == q.1.resumeAt.micros && decide (p.2 ≤ q.2))

/-- The execution that is made of markers: it goes on from the last one, with what the others add. -/
def Execution.remake (id : String) (w : Workflow) (first : Store.Marker) (ms : List Store.Marker) :
    Except Failure Execution := do
  let s ← Snapshot.read w.module (Engine.latest first ms).context
  ms.foldlM (fun (x : Execution) m => x.absorb m.context) (.ofSnapshot id w s)

namespace Share

/-- What an execution waits for, soonest first. -/
def waiting (a : Share) (id : String) : List Store.Marker :=
  (sortBy Saved.before a.saved.zipIdx).map fun p => p.1.marker id p.2

/-- The execution that is made of what was kept, when anything was. -/
def remade? (rows : List Store.WorkflowRow) (id : String) (a : Share) : Option Execution :=
  match a.waiting id with
  | [] => none
  | first :: rest => do
    let row ← a.row?
    let w ← Store.definition? rows row.workflow
    (Execution.remake id w first (first :: rest)).toOption

/-- An execution that waits is made live again, and its timers are set. -/
def takeUp (rows : List Store.WorkflowRow) (id : String) (now : Instant) (a : Share) : Share :=
  match a.remade? rows id with
  | none => a
  | some x =>
    (((a.waiting id).map fun m => (m.node, Engine.remaining now m, m.id)).foldl (rearm id)
      (a.revive x)).alter fun x => { x with branches := x.branches - 1 }

/-- What becomes of an execution when an engine resumes. -/
def resume (rows : List Store.WorkflowRow) (id : String) (a : Share) : Share :=
  match Instant.ofSeconds a.now with
  | .ok now => if a.live then a else a.takeUp rows id now
  | .error _ => a

theorem takeUp_of_none {rows : List Store.WorkflowRow} {id : String} {now : Instant} {a : Share}
    (none : a.saved = []) : a.takeUp rows id now = a := by
  unfold takeUp remade? waiting
  rw [none]
  rfl

end Share

/-- In a list in order each item stands where as many lower ones are. -/
theorem map_countP_eq_zipIdx {α β : Type} (key : α → Nat) {items : List α} (f : α → β)
    (ordered : items.Pairwise fun a b => key a < key b) (n : Nat) :
    items.map (fun a => (f a, items.countP (fun b => decide (key b < key a)) + n)) =
      (items.map f).zipIdx n := by
  induction items generalizing n with
  | nil => rfl
  | cons a rest ih =>
    obtain ⟨first, ordered⟩ := List.pairwise_cons.1 ordered
    have none : rest.countP (fun b => decide (key b < key a)) = 0 :=
      List.countP_eq_zero.2 fun b there => by
        have behind := first b there
        simp only [decide_eq_true_eq]
        omega
    rw [List.map_cons, List.map_cons, List.zipIdx_cons, ← ih ordered (n + 1), List.countP_cons, none]
    congr 1
    · simp
    · refine List.map_congr_left fun b there => ?_
      rw [List.countP_cons, if_pos (decide_eq_true (first b there))]
      congr 1
      omega

namespace Engine

theorem latest_mem (first : Store.Marker) (ms : List Store.Marker) : latest first ms ∈ first :: ms := by
  induction ms generalizing first with
  | nil => exact .head _
  | cons m rest ih =>
    rcases List.mem_cons.1 (ih (if first.id < m.id then m else first)) with same | later
    · have same : latest first (m :: rest) = if first.id < m.id then m else first := same
      rw [same]
      split
      · exact .tail _ (.head _)
      · exact .head _
    · exact .tail _ (.tail _ later)

/-- Which marker is the latest hangs on the order of the numbers alone. -/
theorem latest_renumber {f : Nat → Nat} {first : Store.Marker} {ms : List Store.Marker}
    (mono : ∀ m ∈ first :: ms, ∀ n ∈ first :: ms, f m.id < f n.id ↔ m.id < n.id) :
    latest (first.renumber f) (ms.map (·.renumber f)) = (latest first ms).renumber f := by
  induction ms generalizing first with
  | nil => rfl
  | cons m rest ih =>
    have same : (if (first.renumber f).id < (m.renumber f).id then m.renumber f else first.renumber f) =
        (if first.id < m.id then m else first).renumber f := by
      have order : (first.renumber f).id < (m.renumber f).id ↔ first.id < m.id :=
        mono first (.head _) m (.tail _ (.head _))
      by_cases before : first.id < m.id
      · rw [if_pos before, if_pos (order.2 before)]
      · rw [if_neg before, if_neg fun after => before (order.1 after)]
    have fewer : ∀ n ∈ (if first.id < m.id then m else first) :: rest, n ∈ first :: m :: rest := by
      intro n there
      rcases List.mem_cons.1 there with rfl | later
      · split
        · exact .tail _ (.head _)
        · exact .head _
      · exact .tail _ (.tail _ later)
    unfold latest at ih ⊢
    rw [List.map_cons, List.foldl_cons, List.foldl_cons, same]
    exact ih fun n there k present => mono n (fewer n there) k (fewer k present)

end Engine

/-- What is made of markers does not hang on their numbers. -/
theorem Execution.remake_renumber {f : Nat → Nat} {id : String} {w : Workflow} (first : Store.Marker)
    (ms : List Store.Marker) (mono : ∀ m ∈ first :: ms, ∀ n ∈ first :: ms, f m.id < f n.id ↔ m.id < n.id) :
    remake id w (first.renumber f) (ms.map (·.renumber f)) = remake id w first ms := by
  unfold remake
  rw [Engine.latest_renumber mono]
  simp only [List.foldlM_map]
  rfl

theorem Execution.restored_of_remake {id : String} {w : Workflow} {first : Store.Marker}
    {rest : List Store.Marker} {x : Execution} (sound : w.Sound)
    (made : remake id w first (first :: rest) = .ok x) : x.Restored id (first :: rest) := by
  obtain ⟨s, read, absorbed⟩ := bind_eq_ok made
  exact ⟨first, rest, w, s, rfl, sound, read, absorbed⟩

/-- It is of the workflow that it is made of. -/
theorem Execution.workflow_of_remake {id : String} {w : Workflow} {first : Store.Marker}
    {ms : List Store.Marker} {x : Execution} (made : remake id w first ms = .ok x) : x.workflow = w := by
  obtain ⟨s, -, absorbed⟩ := bind_eq_ok made
  exact (Engine.belongs_of_absorbed absorbed).2

namespace Scene

variable {rows : List Store.WorkflowRow} {v : Scene} {busy : List String} {picked : List Timer}
  {id : String} {x : Execution}

/-- The markers of an execution as they are listed. -/
def listed (v : Scene) (id : String) : List Store.Marker :=
  ((Store.sortedMarkers v.markers).filter (·.execution == id)).map (·.opened)

theorem mem_listed {m : Store.Marker} (there : m ∈ v.listed id) :
    ∃ row ∈ v.markers.filter (·.execution == id), m = row.opened := by
  obtain ⟨row, stored, rfl⟩ := List.mem_map.1 there
  obtain ⟨stored, own⟩ := List.mem_filter.1 stored
  exact ⟨row, List.mem_filter.2 ⟨mem_sortBy.1 stored, own⟩, rfl⟩

/-- The places of the markers of an execution are in the order of their numbers. -/
theorem place_lt_iff {m n : Store.Marker} (there : m ∈ v.listed id) :
    v.place id m.id < v.place id n.id ↔ m.id < n.id := by
  obtain ⟨row, stored, rfl⟩ := mem_listed there
  exact countP_lt_iff stored rfl

/-- They are listed in the order in which they are due. -/
theorem listed_eq (v : Scene) (id : String) :
    v.listed id = (Store.sortedMarkers (v.markers.filter (·.execution == id))).map (·.opened) := by
  have kept : (Store.sortedMarkers v.markers).filter (·.execution == id) =
      Store.sortedMarkers (v.markers.filter (·.execution == id)) := by
    refine filter_sortBy (fun m : Store.MarkerRow => toLex (m.resumeAt.micros, m.id))
      (fun a _ b _ => ?_) _
    rw [Prod.Lex.toLex_le_toLex]
    simp
  unfold listed
  rw [kept]

/-- What an execution waits for is what is listed, with places for numbers. -/
theorem waiting_share (ordered : (v.markers.map (·.id)).Pairwise (· < ·)) :
    (v.share picked id).waiting id = (v.listed id).map (·.renumber (v.place id)) := by
  let own := v.markers.filter (·.execution == id)
  have pairs : own.map (fun m => (m.saved, v.place id m.id)) = (own.map (·.saved)).zipIdx :=
    map_countP_eq_zipIdx (fun m : Store.MarkerRow => m.id) (fun m : Store.MarkerRow => m.saved)
      (List.pairwise_map.1 (ordered.sublist (List.filter_sublist.map _))) 0
  have sorted : (Store.sortedMarkers own).map (fun m => (m.saved, v.place id m.id)) =
      sortBy Saved.before (own.map fun m => (m.saved, v.place id m.id)) := by
    refine map_sortBy fun a _ b there => ?_
    have order : v.place id a.id ≤ v.place id b.id ↔ a.id ≤ b.id := by
      have order : v.place id b.id < v.place id a.id ↔ b.id < a.id := countP_lt_iff there rfl
      omega
    change (_ || (_ && decide (v.place id a.id ≤ v.place id b.id))) = _
    rw [decide_eq_decide.2 order]
    rfl
  unfold Share.waiting
  rw [listed_eq, show (v.share picked id).saved = own.map (·.saved) from rfl, ← pairs, ← sorted, List.map_map,
    List.map_map]
  refine List.map_congr_left fun m there => ?_
  have mine : m.execution = id := by simpa using (List.mem_filter.1 (mem_sortBy.1 there)).2
  subst mine
  rfl

/-- Of markers that keep snapshots an execution can be made. -/
theorem exists_remade (w : Workflow) {first : Store.Marker} {rest : List Store.Marker}
    (legible : ∀ m ∈ v.markers, m.execution = id → ∃ y : Execution, m.context = y.snapshot.stored)
    (some : v.listed id = first :: rest) : ∃ x, Execution.remake id w first (first :: rest) = .ok x := by
  have reads (m) (there : m ∈ v.listed id) : (∀ module, ∃ s, Snapshot.read module m.context = .ok s) ∧
      ∀ y : Execution, ∃ z, y.absorb m.context = .ok z := by
    obtain ⟨row, stored, rfl⟩ := mem_listed there
    obtain ⟨stored, own⟩ := List.mem_filter.1 stored
    obtain ⟨y, context⟩ := legible row stored (eq_of_beq own)
    obtain ⟨d, stored, readable⟩ := y.read_snapshot
    have entries : row.opened.context = d := by
      change row.context.entries = d
      rw [context, stored]
      rfl
    exact entries ▸ readable
  have last : Engine.latest first (first :: rest) ∈ v.listed id := by
    rw [some]
    rcases List.mem_cons.1 (Engine.latest_mem first (first :: rest)) with same | there
    · rw [same]; exact .head _
    · exact there
  have absorbs (ms : List Store.Marker) (all : ∀ m ∈ ms, m ∈ v.listed id) (y : Execution) :
      ∃ z, ms.foldlM (fun (x : Execution) m => x.absorb m.context) y = .ok z := by
    induction ms generalizing y with
    | nil => exact ⟨y, rfl⟩
    | cons m rest ih =>
      obtain ⟨z, first⟩ := (reads m (all m (.head _))).2 y
      obtain ⟨u, others⟩ := ih (fun n later => all n (.tail _ later)) z
      refine ⟨u, ?_⟩
      rw [List.foldlM_cons, first]
      exact others
  obtain ⟨s, read⟩ := (reads _ last).1 w.module
  obtain ⟨x, absorbed⟩ := absorbs (first :: rest) (fun m there => some ▸ there) (.ofSnapshot id w s)
  refine ⟨x, ?_⟩
  unfold Execution.remake
  rw [read]
  exact absorbed

/-- What waits can be made live again. -/
theorem Calm.remade (calm : v.Calm rows [] []) (waiting : v.Waiting id (v.listed id)) :
    ∃ first rest row data w x, v.listed id = first :: rest ∧ v.row? id = some row ∧
      row.status = .running ∧ row.load = .ok ⟨row, data⟩ ∧ Store.definition? rows row.workflow = some w ∧
      w.Gentle ∧ Execution.remake id w first (first :: rest) = .ok x ∧ x.Restored id (v.listed id) ∧
      x.workflow = w ∧ (v.share [] id).remade? rows id = some x := by
  obtain ⟨row, stored, running⟩ := (calm.account.dormant waiting).row
  have stored : v.row? id = some row := stored
  obtain ⟨⟨data, loads⟩, w, defined, gentle⟩ := calm.kept id row stored
  obtain ⟨first, rest, some⟩ := List.exists_cons_of_ne_nil waiting.some
  obtain ⟨x, made⟩ := exists_remade w (fun m there _ => calm.legible m there) some
  refine ⟨first, rest, row, data, w, x, some, stored, running, loads, defined, gentle, made, ?_,
    Execution.workflow_of_remake made, ?_⟩
  · exact some ▸ Execution.restored_of_remake gentle.sound made
  · have whole : (v.share [] id).waiting id =
        first.renumber (v.place id) :: rest.map (·.renumber (v.place id)) := by
      rw [waiting_share calm.ordered, some]
      rfl
    have again : Execution.remake id w (first.renumber (v.place id))
        (first.renumber (v.place id) :: rest.map (·.renumber (v.place id))) = .ok x := by
      refine (Execution.remake_renumber first (first :: rest) fun m there n _ => ?_).trans made
      refine place_lt_iff (some ▸ ?_)
      rcases List.mem_cons.1 there with rfl | there
      · exact .head _
      · exact there
    unfold Share.remade?
    rw [whole]
    dsimp only
    rw [show (v.share [] id).row? = Option.some row from stored]
    simp only [bind, Option.bind, defined, again]
    rfl

/-- An execution that is taken up again leaves the markers, and what else is live, as they were. -/
theorem frame_resumed (now : Instant) {ms : List Store.Marker} (own : ∀ m ∈ ms, m.execution = id)
    (anew : x.Anew id) (some : ms ≠ []) : (v.resumed now x ms).markers = v.markers ∧
      ∀ k, k ≠ id → (v.resumed now x ms).live.contains k = v.live.contains k := by
  obtain ⟨-, markers, live, -⟩ := frame_rearmAll (v.revive x) now ms
  rw [finish_resumed own anew some]
  refine ⟨markers, fun k other => ?_⟩
  change (ms.foldl (Scene.rearm now) (v.revive x)).live.contains k = _
  rw [live]
  simp [revive, anew.named, other]

/-- An execution that is taken up again has the share that its share before says. -/
theorem Calm.takeUp {now : Instant} (calm : v.Calm rows [] []) (waiting : v.Waiting id (v.listed id))
    (restored : x.Restored id (v.listed id)) (made : (v.share [] id).remade? rows id = some x) :
    (v.resumed now x (v.listed id)).share [] id = (v.share [] id).takeUp rows id now := by
  rw [share_resumed waiting.own restored.anew waiting.some]
  unfold Share.takeUp
  rw [made]
  dsimp only
  rw [waiting_share calm.ordered, List.map_map]
  rfl

end Scene

/-! The storage answers exactly what is stored. -/

namespace Storage

variable {s : Storage}

theorem ends_query_ok {α : Type} {read : Store → Except Store.Refusal α} {a : α}
    (steady : s.part.faulty = false) (operation table : String) (found : read s.tables = .ok a) :
    Ends (query operation table read) s (fun b t => b = a ∧ t = s) never := by
  refine ends_session steady operation table ?_
  rw [found]
  rfl

theorem ends_loadWorkflow_ok {rows : List Store.WorkflowRow} {id : String} {w : Workflow}
    (steady : s.part.faulty = false) (stocks : s.tables.workflows = rows)
    (defined : Store.definition? rows id = some w) :
    Ends (loadWorkflow id) s (fun b t => b = w ∧ t = s) never := by
  obtain ⟨row, found, parsed⟩ := Option.bind_eq_some_iff.1 defined
  have stored : s.tables.workflow? id = some row := by
    unfold Store.workflow?
    rw [stocks]
    exact found
  refine Ends.bind ((ends_query_ok (a := row) steady _ _ ?_).imp ?_ fun _ _ h => h)
  · rw [stored]
  · rintro _ t ⟨same, rfl⟩
    rw [same]
    cases read : Workflow.parse row.record with
    | ok u =>
      rw [read] at parsed
      exact Ends.pure_iff.2 ⟨Option.some.inj parsed, rfl⟩
    | error f =>
      rw [read] at parsed
      cases parsed

theorem ends_listMarkers_ok (steady : s.part.faulty = false)
    (dicts : ∀ m ∈ s.tables.markers, ∃ d, m.context = .dict d) :
    Ends (listMarkers none) s
      (fun ms t => ms = (Store.sortedMarkers s.tables.markers).map (·.opened) ∧ t = s) never := by
  refine ends_query_ok steady _ _ ?_
  change (Store.sortedMarkers (s.tables.markers.filter fun _ => true)).mapM _ = _
  rw [List.filter_true]
  have loads : ∀ m ∈ Store.sortedMarkers s.tables.markers, m.load = .ok m.opened := fun m there => by
    obtain ⟨d, context⟩ := dicts m (mem_sortBy.1 there)
    exact Store.MarkerRow.load_of_dict context
  generalize Store.sortedMarkers s.tables.markers = ms at loads
  induction ms with
  | nil => rfl
  | cons m rest ih =>
    rw [List.mapM_cons, loads m (.head _), ih fun n later => loads n (.tail _ later)]
    rfl

end Storage

namespace Engine

variable {rows : List Store.WorkflowRow} {id : String} {x : Execution} {e : Engine}

/-- What is taken up of one execution. -/
theorem ends_rebuild {first : Store.Marker} {rest : List Store.Marker} {row : Store.ExecutionRow}
    {data : Dict} {w : Workflow} (steady : e.scene.faulty = false) (stocks : Stocks rows e)
    (stored : e.scene.row? id = some row) (running : row.status = .running)
    (loads : row.load = .ok ⟨row, data⟩) (defined : Store.definition? rows row.workflow = some w)
    (made : Execution.remake id w first (first :: rest) = .ok x) (named : x.id = id) :
    Ends (rebuild id first (first :: rest)) e (fun r t => r = some x ∧ t.scene = e.scene.revive x)
      never := by
  have found : Ends (findRecord id) e (fun r t => r = some ⟨row, data⟩ ∧ t = e) never := by
    have read : Ends (Storage.loadExecution id) e.storage
        (fun r s => r = ⟨row, data⟩ ∧ s = e.storage) never := by
      refine Storage.ends_query_ok steady _ _ ?_
      rw [show e.storage.tables.execution? id = some row from stored]
      exact loads
    refine Ends.tryCatch_iff.2 (Ends.map_iff.2 (ends_storage.2 (read.imp ?_ fun _ _ h => h.elim)))
    rintro _ _ ⟨rfl, rfl⟩
    exact ⟨rfl, rfl⟩
  refine Ends.bind (found.imp ?_ fun _ _ h => h)
  intro r t here
  rw [here.1, here.2]
  refine Ends.ite_iff.2 ⟨fun closed => by simp [running] at closed, fun _ => ?_⟩
  have loaded : Ends (onProgramError
      (Except.ok <$> (Storage.loadWorkflow row.workflow : Run Workflow)) fun p => pure (.error p)) e
      (fun r t => r = .ok w ∧ t = e) never := by
    refine Ends.tryCatch_iff.2 (Ends.map_iff.2 (ends_storage.2
      ((Storage.ends_loadWorkflow_ok steady stocks defined).imp ?_ fun _ _ h => h.elim)))
    rintro _ _ ⟨rfl, rfl⟩
    exact ⟨rfl, rfl⟩
  refine Ends.bind (loaded.imp ?_ fun _ _ h => h)
  intro r t here
  rw [here.1, here.2]
  obtain ⟨s, read, absorbed⟩ := bind_eq_ok made
  refine Ends.bind (ends_ofExcept.2 ⟨fun s' read' => ?_, fun f failed => by cases read.symm.trans failed⟩)
  obtain rfl := Except.ok.inj (read.symm.trans read')
  refine Ends.bind (ends_ofExcept.2 ⟨fun y made' => ?_, fun f failed => by cases absorbed.symm.trans failed⟩)
  obtain rfl := Except.ok.inj (absorbed.symm.trans made')
  rw [← bind_assoc]
  refine Ends.bind ((named ▸ (plays_revive x e rfl).2).imp (fun _ t here => ?_) fun _ _ h => h)
  exact Ends.pure_iff.2 ⟨rfl, here⟩

/-- One execution is taken up, and the others stay as they are. -/
structure Takes (rows : List Store.WorkflowRow) (now : Instant) (ids : List String) (e t : Engine) : Prop where
  calm : t.scene.Calm rows [] []
  stocks : Stocks rows t
  share : ∀ k, t.scene.share [] k =
    if k ∈ ids then (e.scene.share [] k).takeUp rows k now else e.scene.share [] k
  markers : t.scene.markers = e.scene.markers
  live : ∀ k, k ∉ ids → t.scene.live.contains k = e.scene.live.contains k

theorem ends_resumeGroup (calm : e.scene.Calm rows [] []) (stocks : Stocks rows e)
    (waiting : e.scene.Waiting id (e.scene.listed id)) (now : Instant) :
    Ends (resumeGroup now (id, e.scene.listed id)) e (fun _ t => Takes rows now [id] e t) never := by
  obtain ⟨first, rest, row, data, w, x, listed, stored, running, loads, defined, gentle, made, restored,
    workflow, share⟩ := calm.remade waiting
  have anew := restored.anew
  have armed := plays_resumed now (listed ▸ waiting.own) anew (Option.isSome_of_eq_some stored)
    calm.proper.steady
  have done : Ends (resumeGroup now (id, e.scene.listed id)) e
      (fun _ t => t.scene = e.scene.resumed now x (e.scene.listed id)) never := by
    rw [show resumeGroup now (id, e.scene.listed id) = resumeGroup now (id, first :: rest) from by rw [listed]]
    refine Ends.bind ((ends_rebuild calm.proper.steady stocks stored running loads defined made
      anew.named).imp ?_ fun _ _ h => h)
    rintro _ t ⟨rfl, here⟩
    dsimp only
    rw [← bind_assoc]
    refine Ends.bind ((armed t here).2.imp (fun _ u made => ?_) fun _ _ h => h)
    exact Ends.pure_iff.2 (listed ▸ made)
  have kept : Keeps (Stocks rows) (resumeGroup now (id, e.scene.listed id)) :=
    .of_twin ((bond_stocks rows).resumeGroup now _)
  refine (done.and (kept e stocks)).imp ?_ fun _ _ h => h.1
  rintro _ t ⟨here, stocks⟩
  obtain ⟨markers, live⟩ := Scene.frame_resumed (v := e.scene) now waiting.own anew waiting.some
  refine ⟨?_, stocks, fun k => ?_, ?_, fun k other => ?_⟩
  · rw [here]
    refine calm.resumed waiting anew (workflow ▸ gentle) fun r there => ?_
    rw [← Option.some.inj (stored.symm.trans there), workflow]
    exact defined
  · rw [here]
    by_cases own : k = id
    · subst own
      rw [if_pos (.head _), calm.takeUp waiting restored share]
    · rw [if_neg (by simpa using own), Scene.share_resumed_of_ne waiting.own anew waiting.some own]
  · rw [here, markers]
  · rw [here]
    exact live k (by simpa using other)

/-- All groups of markers are taken up. -/
theorem ends_resumeGroups {ids : List String} (calm : e.scene.Calm rows [] []) (stocks : Stocks rows e)
    (distinct : ids.Nodup) (waiting : ∀ id ∈ ids, e.scene.Waiting id (e.scene.listed id)) (now : Instant) :
    Ends ((ids.map fun id => (id, e.scene.listed id)).mapM (resumeGroup now)) e
      (fun _ t => Takes rows now ids e t) never := by
  induction ids generalizing e with
  | nil => exact Ends.pure_iff.2 ⟨calm, stocks, fun _ => rfl, rfl, fun _ _ => rfl⟩
  | cons id rest ih =>
    obtain ⟨new, distinct⟩ := List.nodup_cons.1 distinct
    rw [List.map_cons, List.mapM_cons]
    refine Ends.bind ((ends_resumeGroup calm stocks (waiting id (.head _)) now).imp ?_ fun _ _ h => h)
    intro count t first
    have other {k : String} (later : k ∈ rest) : k ∉ [id] := fun own => by
      rw [List.mem_singleton.1 own] at later
      exact new later
    have listed (k : String) : t.scene.listed k = e.scene.listed k := by
      unfold Scene.listed
      rw [first.markers]
    have still (k) (later : k ∈ rest) : t.scene.Waiting k (t.scene.listed k) := by
      have before := waiting k (.tail _ later)
      rw [listed]
      exact ⟨(first.live k (other later)).trans before.still, before.some, before.own, first.markers ▸ before.rows⟩
    have others := ih first.calm first.stocks distinct still
    simp only [listed] at others
    refine Ends.bind (others.imp ?_ fun _ _ h => h)
    intro counts u next
    refine Ends.pure_iff.2 ⟨next.calm, next.stocks, fun k => ?_, next.markers.trans first.markers,
      fun k absent => ?_⟩
    · rw [next.share, first.share]
      by_cases later : k ∈ rest
      · rw [if_pos later, if_neg (other later), if_pos (.tail _ later)]
      · rw [if_neg later]
        exact if_congr (by simp [later]) rfl rfl
    · rw [List.mem_cons, not_or] at absent
      rw [next.live k absent.2, first.live k (by simpa using absent.1)]

/-- What an engine becomes that resumes. -/
structure Resumed (rows : List Store.WorkflowRow) (e t : Engine) : Prop where
  calm : t.scene.Calm rows [] []
  stocks : Stocks rows t
  share : ∀ k, t.scene.share [] k = (e.scene.share [] k).resume rows k

/-- The markers of executions that are not live, in groups. -/
def pendingGroups (v : Scene) : List (String × List Store.Marker) :=
  groupMarkers (((Store.sortedMarkers v.markers).map (·.opened)).filter fun m => !v.live.contains m.execution)

theorem nodup_pendingGroups (v : Scene) : ((pendingGroups v).map (·.1)).Nodup := (groups_groupMarkers _).1

/-- There is a group for each execution that has markers and is not live. -/
theorem mem_pendingGroups {v : Scene} {id : String} : id ∈ (pendingGroups v).map (·.1) ↔
    v.live.contains id = false ∧ ∃ m ∈ v.markers, m.execution = id := by
  obtain ⟨-, each, all⟩ := groups_groupMarkers
    (((Store.sortedMarkers v.markers).map (·.opened)).filter fun m => !v.live.contains m.execution)
  constructor
  · intro there
    obtain ⟨g, group, rfl⟩ := List.mem_map.1 there
    obtain ⟨members, some⟩ := each g group
    obtain ⟨m, present⟩ := List.exists_mem_of_ne_nil _ some
    rw [members, List.mem_filter, List.mem_filter, beq_iff_eq, Bool.not_eq_true'] at present
    obtain ⟨⟨listed, idle⟩, own⟩ := present
    obtain ⟨row, stored, rfl⟩ := List.mem_map.1 listed
    exact ⟨own ▸ idle, row, mem_sortBy.1 stored, own⟩
  · rintro ⟨idle, m, stored, rfl⟩
    obtain ⟨g, group, same⟩ := all m.opened (List.mem_filter.2
      ⟨List.mem_map_of_mem (mem_sortBy.2 stored), congrArg not idle⟩)
    exact List.mem_map.2 ⟨g, group, same⟩

/-- Each group holds the markers of its execution as they are listed. -/
theorem pendingGroups_eq (v : Scene) :
    pendingGroups v = ((pendingGroups v).map (·.1)).map fun id => (id, v.listed id) := by
  obtain ⟨-, each, -⟩ := groups_groupMarkers
    (((Store.sortedMarkers v.markers).map (·.opened)).filter fun m => !v.live.contains m.execution)
  rw [List.map_map]
  conv_lhs => rw [← List.map_id (pendingGroups v)]
  refine List.map_congr_left fun g there => ?_
  have idle := (mem_pendingGroups.1 (List.mem_map_of_mem there)).1
  refine Prod.ext rfl ((each g there).1.trans ?_)
  unfold Scene.listed
  rw [List.filter_filter, List.filter_map]
  congr 1
  refine List.filter_congr fun m _ => ?_
  change (m.execution == g.1 && !v.live.contains m.execution) = (m.execution == g.1)
  by_cases own : m.execution = g.1
  · rw [own, idle]
    simp
  · simp [own]

/-- Resuming takes up each group, and tells how many delays that were. -/
theorem ends_resume_of_groups {now : Instant} {good : List Nat → Engine → Prop}
    (steady : e.scene.faulty = false) (dicts : ∀ m ∈ e.scene.markers, ∃ d, m.context = .dict d)
    (reads : Instant.ofSeconds e.clock.now = .ok now)
    (groups : Ends ((pendingGroups e.scene).mapM (resumeGroup now)) e good never)
    (noted : ∀ counts t u, good counts t → u.scene = t.scene →
      u.storage.tables.workflows = t.storage.tables.workflows → good counts u) :
    Ends resume e (fun n t => ∃ counts, n = counts.foldl Nat.add 0 ∧ good counts t) never := by
  refine Ends.bind (Ends.get_iff.2 (Ends.bind (ends_storage.2
    ((Storage.ends_listMarkers_ok steady dicts).imp ?_ fun _ _ h => h))))
  rintro ms s ⟨rfl, rfl⟩
  refine Ends.bind (Ends.get_iff.2 (Ends.bind (ends_ofExcept.2 ⟨fun now' read => ?_, fun f failed => ?_⟩)))
  · obtain rfl := Except.ok.inj (reads.symm.trans read)
    refine Ends.bind (groups.imp (fun counts t holds => ?_) fun _ _ h => h)
    refine Ends.ite_iff.2 ⟨fun _ => ?_, fun _ => Ends.pure_iff.2 ⟨counts, rfl, holds⟩⟩
    refine Ends.bind (((plays_note ?_ t rfl).2.and (keeps_stocks_note t rfl)).imp ?_ fun _ _ h => h.1)
    · decide
    · rintro _ u ⟨here, stocks⟩
      exact Ends.pure_iff.2 ⟨counts, rfl, noted counts t u holds here stocks⟩
  · cases reads.symm.trans failed

theorem ends_resume (calm : e.scene.Calm rows [] []) (stocks : Stocks rows e) :
    Ends resume e (fun _ t => Resumed rows e t) fun _ t => Resumed rows e t := by
  let pending := pendingGroups e.scene
  have waiting (id) (there : id ∈ pending.map (·.1)) : e.scene.Waiting id (e.scene.listed id) := by
    have group : (id, e.scene.listed id) ∈ pending := by
      rw [show pending = _ from pendingGroups_eq e.scene]
      exact List.mem_map.2 ⟨id, there, rfl⟩
    refine waiting_groups ?_ group
    rw [List.map_map]
    exact (sortBy_perm _ _).map _
  have taken (t : Engine) (now : Instant) (read : Instant.ofSeconds e.clock.now = .ok now)
      (takes : Takes rows now (pending.map (·.1)) e t) : Resumed rows e t := by
    refine ⟨takes.calm, takes.stocks, fun k => ?_⟩
    rw [takes.share k]
    unfold Share.resume
    rw [show (e.scene.share [] k).now = e.clock.now from rfl, read]
    dsimp only
    by_cases there : k ∈ pending.map (·.1)
    · have still : (e.scene.share [] k).live = false := (waiting k there).still
      rw [if_pos there, still]
      rfl
    · rw [if_neg there]
      split
      · rfl
      · rename_i still
        refine (Share.takeUp_of_none (List.map_eq_nil_iff.2 (List.filter_eq_nil_iff.2 fun m stored own => ?_))).symm
        have mine : m.execution = k := by simpa using own
        exact there (mem_pendingGroups.2 ⟨Bool.eq_false_iff.2 still, m, stored, mine⟩)
  have dicts : ∀ m ∈ e.scene.markers, ∃ d, m.context = .dict d := fun m there => by
    obtain ⟨x, context⟩ := calm.legible m there
    exact ⟨x.kept, context.trans x.stored_snapshot⟩
  cases read : Instant.ofSeconds e.clock.now with
  | ok now =>
    have takes := ends_resumeGroups calm stocks (nodup_pendingGroups e.scene) waiting now
    rw [← pendingGroups_eq] at takes
    have groups : Ends ((pendingGroups e.scene).mapM (resumeGroup now)) e (fun _ t => Resumed rows e t) never :=
      takes.imp (fun _ t takes => taken t now read takes) fun _ _ h => h
    have resumed := ends_resume_of_groups calm.proper.steady dicts read groups fun _ t u resumed here workflows =>
      ⟨here ▸ resumed.calm, workflows.trans resumed.stocks, here ▸ resumed.share⟩
    exact resumed.imp (fun _ _ h => h.choose_spec.2) fun _ _ h => h.elim
  | error f =>
    refine Ends.bind (Ends.get_iff.2 (Ends.bind (ends_storage.2
      ((Storage.ends_listMarkers_ok calm.proper.steady dicts).imp ?_ fun _ _ h => h.elim))))
    rintro ms s ⟨rfl, rfl⟩
    refine Ends.bind (Ends.get_iff.2 (Ends.bind (ends_ofExcept.2 ⟨fun now read' => ?_, fun _ _ => ?_⟩)))
    · cases read.symm.trans read'
    · refine ⟨calm, stocks, fun k => ?_⟩
      unfold Share.resume
      rw [show (e.scene.share [] k).now = e.clock.now from rfl, read]

end Engine

end Runbook
