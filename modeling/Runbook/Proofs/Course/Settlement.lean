import Runbook.Proofs.Course.Remaking

/-!
What an engine settles that resumes. Each execution that has markers and is not live is taken up, fails in
store, or is dropped, and which of these can be told from its row, its markers and the stored workflows.
Nothing else changes, and when delays are resumed once more nothing is left to do.
-/
namespace Runbook

/-- The definition under an id as it is stored, or what its loading fails with. -/
def Store.loaded (rows : List Store.WorkflowRow) (id : String) : Except Failure Workflow :=
  match rows.find? (·.id == id) with
  | some row => Workflow.parse row.record
  | none => .error (.program (.workflowNotFound id))

theorem Store.sound_of_loaded {rows : List Store.WorkflowRow} {id : String} {w : Workflow}
    (loaded : Store.loaded rows id = .ok w) : w.Sound := by
  unfold Store.loaded at loaded
  split at loaded
  · exact Workflow.sound_of_parse loaded
  · cases loaded

theorem Store.loaded_iff {rows : List Store.WorkflowRow} {id : String} {w : Workflow} :
    Store.loaded rows id = .ok w ↔ Store.definition? rows id = some w := by
  unfold Store.loaded Store.definition?
  cases rows.find? (·.id == id) with
  | none => exact iff_of_false nofun nofun
  | some row =>
    rw [Option.bind_some]
    dsimp only
    cases Workflow.parse row.record with
    | ok v =>
      exact ⟨fun same => congrArg some (Except.ok.inj same), fun same => congrArg _ (Option.some.inj same)⟩
    | error f => exact iff_of_false nofun nofun

/-- What becomes of an execution whose markers are taken up. -/
inductive Verdict where
  /-- It is missing or over. -/
  | drop
  /-- Its workflow cannot be loaded. -/
  | fail (error : String)
  | take (x : Execution)

namespace Verdict

def takes : Verdict → Bool
  | take _ => true
  | _ => false

/-- The row of an execution after the verdict on it. -/
def close (d : Verdict) (row? : Option Store.ExecutionRow) : Option Store.ExecutionRow :=
  match d with
  | fail error => row?.map fun r => { r with status := .failed, error := some error, ended := true }
  | _ => row?

end Verdict

/-- When a timer is due, and what it stands for. -/
def Timer.call (t : Timer) : Float × String × String × Nat := (t.due, t.execution, t.node, t.marker)

/-- The timer that is set for a marker. -/
def Store.Marker.call (now : Instant) (start : Float) (m : Store.Marker) : Float × String × String × Nat :=
  (start + Engine.remaining now m, m.execution, m.node, m.id)

namespace Scene

variable {rows : List Store.WorkflowRow} {v w : Scene} {id k : String} {x : Execution} {now : Instant}

/-- An execution that is stored as running is made of its markers, if its workflow can be loaded. -/
def verdict (rows : List Store.WorkflowRow) (v : Scene) (id : String) : Verdict :=
  match v.row? id, v.listed id with
  | some row, first :: rest =>
    if row.status = .running then
      match Store.loaded rows row.workflow with
      | .ok w =>
        match Execution.remake id w first (first :: rest) with
        | .ok x => .take x
        | .error _ => .drop
      | .error f => .fail f.text
    else .drop
  | _, _ => .drop

/-- The verdict on an execution is carried out. -/
def settle (rows : List Store.WorkflowRow) (now : Instant) (v : Scene) (id : String) : Scene :=
  match v.verdict rows id with
  | .drop => v.wipe id
  | .fail error => v.abandon id error
  | .take x => v.resumed now x (v.listed id)

/-- The verdict hangs on the row and the markers of the execution alone. -/
theorem verdict_congr (row : w.row? id = v.row? id) (listed : w.listed id = v.listed id) :
    w.verdict rows id = v.verdict rows id := by
  unfold verdict
  rw [row, listed]

theorem takes_cases {d : Verdict} : d.takes = true ↔ ∃ x, d = .take x := by
  cases d <;> simp [Verdict.takes]

theorem verdict_of_take (taken : v.verdict rows id = .take x) : ∃ row w first rest,
    v.row? id = some row ∧ row.status = .running ∧ Store.loaded rows row.workflow = .ok w ∧
      v.listed id = first :: rest ∧ Execution.remake id w first (first :: rest) = .ok x := by
  unfold verdict at taken
  split at taken
  · rename_i row first rest stored listed
    split at taken
    · rename_i running
      cases load : Store.loaded rows row.workflow with
      | error f =>
        rw [load] at taken
        cases taken
      | ok w =>
        rw [load] at taken
        dsimp only at taken
        cases made : Execution.remake id w first (first :: rest) with
        | error f =>
          rw [made] at taken
          cases taken
        | ok y =>
          rw [made] at taken
          cases taken
          exact ⟨row, w, first, rest, stored, running, load, listed, made⟩
    · cases taken
  · cases taken

theorem own_listed {m : Store.Marker} (there : m ∈ v.listed id) : m.execution = id := by
  obtain ⟨row, stored, rfl⟩ := mem_listed there
  exact eq_of_beq (List.mem_filter.1 stored).2

/-- What is taken up is made anew. -/
theorem anew_of_take (taken : v.verdict rows id = .take x) : x.Anew id ∧ v.listed id ≠ [] := by
  obtain ⟨row, w, first, rest, -, -, loaded, listed, made⟩ := verdict_of_take taken
  refine ⟨(Execution.restored_of_remake (Store.sound_of_loaded loaded) made).anew, ?_⟩
  rw [listed]
  exact List.cons_ne_nil _ _

/-- Timers are set for markers of an execution. -/
theorem rearmAll_spec {ms : List Store.Marker} (now : Instant) (own : ∀ m ∈ ms, m.execution = id)
    (known : v.execution? id = some x) : ∃ set logs timers,
      (ms.foldl (rearm now) v).clock.timers = v.clock.timers ++ set ∧
      set.map Timer.call = ms.map (·.call now v.clock.now) ∧
      (ms.foldl (rearm now) v).clock.now = v.clock.now ∧
      (ms.foldl (rearm now) v).execution? id =
        some { x with logs, branches := x.branches + ms.length, timers } ∧
      ({ x with timers } : Execution).pending.Perm (x.pending ++ set.map fun t => (t.node, t.id)) ∧
      ∀ k, k ≠ id → (ms.foldl (rearm now) v).execution? k = v.execution? k := by
  induction ms generalizing v x with
  | nil =>
    refine ⟨[], x.logs, x.timers, (List.append_nil _).symm, rfl, rfl, ?_, ?_, fun _ _ => rfl⟩
    · rw [List.foldl_nil, known, List.length_nil, Int.natCast_zero, Int.add_zero]
    · rw [List.map_nil, List.append_nil]
  | cons m rest ih =>
    have mine := own m (.head _)
    have here : (rearm now v m).execution? id = some { x with
        logs := x.logs ++ [(Remark.restored m.node (Engine.remaining now m)).entry x.path]
        branches := x.branches + 1
        timers := Execution.addTimer x.timers m.node v.clock.nextTimer } := by
      rw [execution?_rearm, if_pos mine.symm, known]
      rfl
    obtain ⟨set, logs, timers, added, calls, time, there, pending, others⟩ :=
      ih (fun n later => own n (.tail _ later)) here
    refine ⟨⟨v.clock.nextTimer, v.clock.now + Engine.remaining now m, m.execution, m.node, m.id⟩ :: set,
      logs, timers, ?_, ?_, time, ?_, ?_, fun k other => ?_⟩
    · rw [List.foldl_cons, added]
      exact List.append_assoc _ [_] set
    · rw [List.map_cons, List.map_cons, calls]
      rfl
    · rw [List.foldl_cons, there]
      congr 2
      rw [List.length_cons]
      push_cast
      omega
    · refine pending.trans ?_
      rw [List.map_cons]
      refine ((Execution.flatMap_addTimer x.timers m.node v.clock.nextTimer).append_right _).trans ?_
      exact List.perm_middle.symm
    · rw [List.foldl_cons, others k other, execution?_rearm, if_neg fun same => other (same.trans mine)]

/-- The verdicts on executions were carried out, and nothing else has changed. -/
structure Settled (rows : List Store.WorkflowRow) (now : Instant) (v : Scene) (ids : List String) (w : Scene) :
    Prop where
  markers : w.markers = v.markers.filter fun m => !ids.contains m.execution || (v.verdict rows m.execution).takes
  row? : ∀ k, w.row? k = if k ∈ ids then (v.verdict rows k).close (v.row? k) else v.row? k
  live : ∀ k, w.live.contains k = (v.live.contains k || (ids.contains k && (v.verdict rows k).takes))
  time : w.clock.now = v.clock.now
  others : ∀ k, (k ∈ ids → (v.verdict rows k).takes = false) → w.execution? k = v.execution? k
  /-- Timers were set for the markers of what was taken up, which waits for them. -/
  timers : ∃ set, w.clock.timers = v.clock.timers ++ set ∧
    set.map Timer.call = ids.flatMap (fun id =>
      if (v.verdict rows id).takes then (v.listed id).map (·.call now v.clock.now) else []) ∧
    ∀ k ∈ ids, ∀ x, v.verdict rows k = .take x → ∃ logs timers,
      w.execution? k = some { x with logs, branches := (v.listed k).length, timers } ∧
      ({ x with timers } : Execution).pending.Perm
        ((set.filter (·.execution == k)).map fun t => (t.node, t.id))
  kept : w.faulty = v.faulty ∧ w.accepting = v.accepting ∧ w.limit = v.limit ∧ w.registry = v.registry ∧
    w.next = v.next

theorem settled_nil : Settled rows now v [] v where
  markers := (List.filter_eq_self.2 fun _ _ => rfl).symm
  row? _ := rfl
  live _ := (Bool.or_false _).symm
  time := rfl
  others _ _ := rfl
  timers := ⟨[], (List.append_nil _).symm, rfl, nofun⟩
  kept := ⟨rfl, rfl, rfl, rfl, rfl⟩

/-- What is not taken up is only written to the store. -/
theorem settled_of_passed (passed : (v.verdict rows id).takes = false)
    (markers : w.markers = v.markers.filter fun m => m.execution != id)
    (row : ∀ k, w.row? k = if k = id then (v.verdict rows id).close (v.row? k) else v.row? k)
    (same : w.live = v.live ∧ w.clock = v.clock ∧ w.execution? = v.execution?)
    (kept : w.faulty = v.faulty ∧ w.accepting = v.accepting ∧ w.limit = v.limit ∧
      w.registry = v.registry ∧ w.next = v.next) : Settled rows now v [id] w where
  markers := by
    refine markers.trans (List.filter_congr fun m _ => ?_)
    by_cases own : m.execution = id <;> simp [own, passed]
  row? k := by
    rw [row]
    by_cases own : k = id <;> simp [own]
  live k := by
    rw [same.1]
    by_cases own : k = id <;> simp [own, passed]
  time := congrArg Clock.now same.2.1
  others _ _ := congrFun same.2.2 _
  timers := by
    refine ⟨[], ?_, ?_, fun k own x taken => ?_⟩
    · rw [same.2.1, List.append_nil]
    · simp [passed]
    · rw [List.mem_singleton.1 own] at taken
      rw [taken] at passed
      cases passed
  kept := kept

/-- What is taken up has its timers set. -/
theorem settled_of_taken (taken : v.verdict rows id = .take x) :
    Settled rows now v [id] (v.resumed now x (v.listed id)) := by
  obtain ⟨anew, waits⟩ := anew_of_take taken
  have known : (v.revive x).execution? id = some x := by simp [revive, anew.named]
  obtain ⟨set, logs, timers, added, calls, time, there, pending, others⟩ :=
    rearmAll_spec now (fun _ => own_listed) known
  obtain ⟨rows', markers, live, accepting, limit, registry, faulty, next⟩ :=
    frame_rearmAll (v.revive x) now (v.listed id)
  have takes : (v.verdict rows id).takes = true := takes_cases.2 ⟨x, taken⟩
  rw [finish_resumed (fun _ => own_listed) anew waits]
  refine ⟨?_, fun k => ?_, fun k => ?_, time, fun k other => ?_, ⟨set, added, ?_, fun k own y judged => ?_⟩,
    faulty, accepting, limit, registry, next⟩
  · refine (markers.trans (List.filter_eq_self.2 fun m _ => ?_).symm)
    by_cases own : m.execution = id <;> simp [own, takes]
  · refine (congrFun rows' k).trans ?_
    by_cases own : k = id
    · rw [if_pos (List.mem_singleton.2 own), own, taken]
      rfl
    · rw [if_neg (by simpa using own)]
      rfl
  · refine (congrArg (·.contains k) live).trans ?_
    by_cases own : k = id <;> simp [revive, anew.named, own, takes]
  · have apart : k ≠ id := by
      rintro rfl
      cases (other (.head _)).symm.trans takes
    exact (if_neg apart).trans ((others k apart).trans (if_neg (anew.named ▸ apart)))
  · simp only [List.flatMap_cons, List.flatMap_nil, takes, if_true, List.append_nil]
    exact calls
  · obtain rfl := List.mem_singleton.1 own
    obtain rfl : x = y := by
      rw [taken] at judged
      cases judged
      rfl
    refine ⟨logs, timers, ?_, ?_⟩
    · have branches : x.branches + (v.listed k).length - 1 = (v.listed k).length := by
        rw [anew.branches]
        omega
      refine (if_pos rfl).trans ?_
      rw [there, Option.map_some]
      exact congrArg (fun n => some { x with logs, branches := n, timers }) branches
    · have whose : set.filter (·.execution == k) = set := by
        refine List.filter_eq_self.2 fun t there => ?_
        have listed := List.mem_map_of_mem (f := Timer.call) there
        rw [calls] at listed
        obtain ⟨m, there, same⟩ := List.mem_map.1 listed
        have same : m.execution = t.execution := congrArg (·.2.1) same
        exact beq_iff_eq.2 (same ▸ own_listed there)
      rw [whose]
      refine pending.trans (.of_eq ?_)
      unfold Execution.pending
      rw [anew.timers]
      rfl

theorem settled_settle : Settled rows now v [id] (v.settle rows now id) := by
  unfold settle
  cases judged : v.verdict rows id with
  | take x => exact settled_of_taken judged
  | drop =>
    refine settled_of_passed (by rw [judged]; rfl) rfl (fun k => ?_) ⟨rfl, rfl, rfl⟩ ⟨rfl, rfl, rfl, rfl, rfl⟩
    rw [judged]
    exact (ite_self _).symm
  | fail error =>
    refine settled_of_passed (by rw [judged]; rfl) rfl (fun k => ?_) ⟨rfl, rfl, rfl⟩ ⟨rfl, rfl, rfl, rfl, rfl⟩
    rw [judged]
    rfl

/-- Timers are set for nothing else. -/
theorem mem_of_calls {ids : List String} {set : List Timer} {start : Float}
    (calls : set.map Timer.call = ids.flatMap fun id =>
      if (v.verdict rows id).takes then (v.listed id).map (·.call now start) else []) :
    ∀ t ∈ set, t.execution ∈ ids := by
  intro t there
  have called := List.mem_map_of_mem (f := Timer.call) there
  rw [calls] at called
  obtain ⟨k, there, called⟩ := List.mem_flatMap.1 called
  split at called
  · obtain ⟨m, waits, same⟩ := List.mem_map.1 called
    have same : m.execution = t.execution := congrArg (·.2.1) same
    exact same ▸ own_listed waits ▸ there
  · cases called

/-- The verdicts on others stay what they are. -/
theorem Settled.verdict_of_not_mem {ids : List String} (settled : Settled rows now v ids w) (other : k ∉ ids) :
    w.row? k = v.row? k ∧ w.listed k = v.listed k ∧ w.verdict rows k = v.verdict rows k := by
  have row : w.row? k = v.row? k := (settled.row? k).trans (if_neg other)
  have listed : w.listed k = v.listed k := by
    rw [listed_eq, listed_eq, settled.markers, List.filter_filter]
    congr 2
    refine List.filter_congr fun m _ => ?_
    by_cases whose : m.execution = k <;> simp [whose, other]
  exact ⟨row, listed, verdict_congr row listed⟩

/-- Verdicts are carried out one after the other. -/
theorem Settled.cons {ids : List String} {u : Scene} (first : Settled rows now v [id] u)
    (second : Settled rows now u ids w) (apart : id ∉ ids) : Settled rows now v (id :: ids) w := by
  have other {k : String} (there : k ∈ ids) : k ≠ id := fun same => apart (same ▸ there)
  have still {k : String} (other : k ≠ id) := first.verdict_of_not_mem (k := k) (by simpa using other)
  have row {k : String} (other : k ≠ id) : u.row? k = v.row? k := (still other).1
  have listed {k : String} (other : k ≠ id) : u.listed k = v.listed k := (still other).2.1
  have judged {k : String} (other : k ≠ id) : u.verdict rows k = v.verdict rows k := (still other).2.2
  refine ⟨?_, fun k => ?_, fun k => ?_, second.time.trans first.time, fun k passed => ?_, ?_, ?_⟩
  · rw [second.markers, first.markers, List.filter_filter]
    refine List.filter_congr fun m _ => ?_
    by_cases own : m.execution = id
    · simp [own, apart]
    · simp [own, judged own]
  · rw [second.row?]
    by_cases later : k ∈ ids
    · rw [if_pos later, if_pos (.tail _ later), judged (other later), row (other later)]
    · rw [if_neg later, first.row?]
      exact if_congr (by simp [later]) rfl rfl
  · rw [second.live, first.live]
    by_cases own : k = id
    · simp [own, apart]
    · simp [own, judged own]
  · refine (second.others k fun later => ?_).trans (first.others k fun own => ?_)
    · exact (congrArg _ (judged (other later))).trans (passed (.tail _ later))
    · exact passed (List.mem_cons.2 (.inl (List.mem_singleton.1 own)))
  · obtain ⟨set, added, calls, each⟩ := first.timers
    obtain ⟨more, added', calls', each'⟩ := second.timers
    have own := mem_of_calls calls
    have others := mem_of_calls calls'
    refine ⟨set ++ more, ?_, ?_, fun k there x taken => ?_⟩
    · rw [added', added, List.append_assoc]
    · rw [List.map_append, calls, calls', first.time, List.flatMap_cons, List.flatMap_cons, List.flatMap_nil,
        List.append_nil]
      refine congrArg (_ ++ ·) (List.flatMap_congr fun k later => ?_)
      rw [judged (other later), listed (other later)]
    · rw [List.filter_append]
      rcases List.mem_cons.1 there with rfl | later
      · have none : more.filter (·.execution == k) = [] := List.filter_eq_nil_iff.2 fun t there whose =>
          apart (eq_of_beq whose ▸ others t there)
        rw [none, List.append_nil, second.others k fun later => absurd later apart]
        exact each k (.head _) x taken
      · have none : set.filter (·.execution == k) = [] := List.filter_eq_nil_iff.2 fun t there whose =>
          other later ((eq_of_beq whose).symm.trans (List.mem_singleton.1 (own t there)))
        rw [none, List.nil_append, ← listed (other later)]
        exact each' k later x ((judged (other later)).trans taken)
  · obtain ⟨faulty, accepting, limit, registry, next⟩ := first.kept
    obtain ⟨faulty', accepting', limit', registry', next'⟩ := second.kept
    exact ⟨faulty'.trans faulty, accepting'.trans accepting, limit'.trans limit, registry'.trans registry,
      next'.trans next⟩

/-- What is stored can be read: each marker keeps a snapshot, the row of each execution that is not live can be
loaded, and a workflow that is no definition is refused as one. -/
structure Intelligible (rows : List Store.WorkflowRow) (v : Scene) : Prop where
  steady : v.faulty = false
  whole : ∀ m ∈ v.markers, m.saved.Whole
  loads : ∀ m ∈ v.markers, v.live.contains m.execution = false →
    ∀ row, v.row? m.execution = some row → row.Loads
  parses : ∀ row ∈ rows, ∀ f, Workflow.parse row.record = .error f → ∃ p, f = .program p

theorem Settled.intelligible {ids : List String} (settled : Settled rows now v ids w)
    (intelligible : v.Intelligible rows) : w.Intelligible rows where
  steady := settled.kept.1.trans intelligible.steady
  whole m there := by
    rw [settled.markers] at there
    exact intelligible.whole m (List.mem_filter.1 there).1
  loads m there idle row stored := by
    rw [settled.markers, List.mem_filter] at there
    rw [settled.live, Bool.or_eq_false_iff] at idle
    rw [settled.row?] at stored
    refine intelligible.loads m there.1 idle.1 row ?_
    split at stored
    · rename_i own
      have passed : (v.verdict rows m.execution).takes = false := by simpa [own] using idle.2
      have kept := there.2
      simp [own, passed] at kept
    · exact stored
  parses := intelligible.parses

/-- What a calm scene stores can be read, if no workflow is refused but as one. -/
theorem Calm.intelligible {busy : List String} {picked : List Timer} (calm : v.Calm rows busy picked)
    (parses : ∀ row ∈ rows, ∀ f, Workflow.parse row.record = .error f → ∃ p, f = .program p) :
    v.Intelligible rows where
  steady := calm.proper.steady
  whole := calm.legible
  loads _ _ _ row stored := (calm.kept _ row stored).1
  parses := parses

end Scene

namespace Storage

variable {s : Storage}

/-- A query whose reading fails leaves everything as it was. -/
theorem ends_query_raised {α : Type} {read : Store → Except Store.Refusal α} {f : Failure}
    (steady : s.part.faulty = false) (operation table : String) (raised : read s.tables = .error (.raised f)) :
    Ends (query operation table read) s (fun _ _ => False) fun g t => g = f ∧ t = s := by
  refine Ends.bind ((ends_openSession steady operation table).imp ?_ fun _ _ h => h.elim)
  rintro _ _ rfl
  refine Ends.bind (Ends.get_iff.2 ?_)
  simp only [raised]
  exact Ends.throw_iff.2 ⟨rfl, rfl⟩

theorem ends_loadWorkflow_loaded {rows : List Store.WorkflowRow} (steady : s.part.faulty = false)
    (stocks : s.tables.workflows = rows) (id : String) :
    Ends (loadWorkflow id) s (fun w t => Store.loaded rows id = .ok w ∧ t = s)
      fun f t => Store.loaded rows id = .error f ∧ t = s := by
  have stored : s.tables.workflow? id = rows.find? (·.id == id) := stocks ▸ rfl
  unfold Store.loaded
  cases found : rows.find? (·.id == id) with
  | none =>
    rw [found] at stored
    refine Ends.bind ((ends_query_raised steady _ _ (by rw [stored])).imp (fun _ _ h => h.elim) ?_)
    rintro _ _ ⟨rfl, rfl⟩
    exact ⟨rfl, rfl⟩
  | some row =>
    rw [found] at stored
    refine Ends.bind ((ends_query_ok (a := row) steady _ _ (by rw [stored])).imp ?_ fun _ _ h => h.elim)
    rintro _ _ ⟨rfl, rfl⟩
    dsimp only
    split
    · exact Ends.pure_iff.2 ⟨‹_›, rfl⟩
    · exact Ends.throw_iff.2 ⟨‹_›, rfl⟩

end Storage

namespace Engine

variable {rows : List Store.WorkflowRow} {e t : Engine} {id : String} {now : Instant}

/-- The record of an execution is found as it is stored. -/
theorem ends_findRecord_stored (steady : e.scene.faulty = false)
    (loads : ∀ row, e.scene.row? id = some row → row.Loads) :
    Ends (findRecord id) e (fun r t => r.map (·.row) = e.scene.row? id ∧ t = e) never := by
  have stored : e.storage.tables.execution? id = e.scene.row? id := rfl
  refine Ends.tryCatch_iff.2 (Ends.map_iff.2 (ends_storage.2 ?_))
  cases there : e.scene.row? id with
  | none =>
    rw [there] at stored
    refine (Storage.ends_query_raised steady _ _ (by rw [stored])).imp (fun _ _ h => h.elim) ?_
    rintro _ _ ⟨rfl, rfl⟩
    exact Ends.pure_iff.2 ⟨rfl, rfl⟩
  | some row =>
    rw [there] at stored
    obtain ⟨data, load⟩ := loads row there
    refine (Storage.ends_query_ok (a := ⟨row, data⟩) steady _ _ (by rw [stored]; exact load)).imp ?_
      fun _ _ h => h.elim
    rintro _ _ ⟨rfl, rfl⟩
    exact ⟨rfl, rfl⟩

/-- A workflow is loaded, or refused as one that cannot be. -/
theorem ends_tryWorkflow_loaded (steady : e.scene.faulty = false) (stocks : Stocks rows e)
    (parses : ∀ row ∈ rows, ∀ f, Workflow.parse row.record = .error f → ∃ p, f = .program p)
    (workflow : String) :
    Ends (onProgramError (Except.ok <$> (Storage.loadWorkflow workflow : Run Workflow))
        fun p => pure (.error p)) e
      (fun r t => Store.loaded rows workflow = r.mapError Failure.program ∧ t = e) never := by
  refine Ends.tryCatch_iff.2 (Ends.map_iff.2 (ends_storage.2
    ((Storage.ends_loadWorkflow_loaded steady stocks workflow).imp ?_ ?_)))
  · rintro w _ ⟨loaded, rfl⟩
    exact ⟨loaded, rfl⟩
  · rintro f _ ⟨refused, rfl⟩
    obtain ⟨p, rfl⟩ : ∃ p, f = .program p := by
      unfold Store.loaded at refused
      split at refused
      · exact parses _ (List.mem_of_find?_eq_some ‹_›) f refused
      · cases refused
        exact ⟨_, rfl⟩
    exact Ends.pure_iff.2 ⟨refused, rfl⟩

/-- What an execution is made into, or what is done in its place. -/
theorem ends_rebuild_judged {first : Store.Marker} {rest : List Store.Marker}
    (intelligible : e.scene.Intelligible rows) (stocks : Stocks rows e)
    (idle : e.scene.live.contains id = false) (listed : e.scene.listed id = first :: rest) :
    Ends (rebuild id first (first :: rest)) e (fun r t => match e.scene.verdict rows id with
      | .drop => r = none ∧ t.scene = e.scene.wipe id
      | .fail error => r = none ∧ t.scene = e.scene.abandon id error
      | .take x => r = some x ∧ t.scene = e.scene.revive x) never := by
  have steady := intelligible.steady
  obtain ⟨m, marked, whose⟩ : ∃ m ∈ e.scene.markers, m.execution = id := by
    have there : first ∈ e.scene.listed id := listed ▸ List.mem_cons_self ..
    obtain ⟨m, there, -⟩ := Scene.mem_listed there
    exact ⟨m, (List.mem_filter.1 there).1, eq_of_beq (List.mem_filter.1 there).2⟩
  have loads := intelligible.loads m marked (whose ▸ idle)
  rw [whose] at loads
  have clears : Ends (liftM (Storage.clearMarkers id) : Run Nat) e (fun _ t => t.scene = e.scene.wipe id) never :=
    (plays_clearMarkers steady id e rfl).2
  have discards : Ends (do
      let _ ← (Storage.clearMarkers id : Run Nat)
      return (none : Option Execution)) e (fun r t => r = none ∧ t.scene = e.scene.wipe id) never :=
    Ends.bind (clears.imp (fun _ _ here => Ends.pure_iff.2 ⟨rfl, here⟩) fun _ _ h => h)
  cases stored : e.scene.row? id with
  | none =>
    have judged : e.scene.verdict rows id = .drop := by
      unfold Scene.verdict
      rw [stored]
    rw [judged]
    refine Ends.bind ((ends_findRecord_stored steady loads).imp ?_ fun _ _ h => h)
    rintro r _ ⟨found, rfl⟩
    rw [stored, Option.map_eq_none_iff] at found
    subst found
    exact discards
  | some row =>
    have finds : Ends (findRecord id) e
        (fun r t => (∃ record, r = some record ∧ record.row = row) ∧ t = e) never := by
      refine (ends_findRecord_stored steady loads).imp ?_ fun _ _ h => h
      rintro r _ ⟨found, rfl⟩
      rw [stored] at found
      exact ⟨Option.map_eq_some_iff.1 found, rfl⟩
    by_cases running : row.status = .running
    · cases load : Store.loaded rows row.workflow with
      | ok w =>
        obtain ⟨x, made⟩ := Scene.exists_remade w (fun m there _ => intelligible.whole m there) listed
        have judged : e.scene.verdict rows id = .take x := by
          simp only [Scene.verdict, stored, listed, running, load, made, if_true]
        have anew := (Scene.anew_of_take judged).1
        obtain ⟨data, loads⟩ := loads row stored
        rw [judged]
        exact ends_rebuild steady stocks stored running loads (Store.loaded_iff.1 load) made anew.named
      | error f =>
        have judged : e.scene.verdict rows id = .fail f.text := by
          simp only [Scene.verdict, stored, listed, running, load, if_true]
        rw [judged]
        refine Ends.bind (finds.imp ?_ fun _ _ h => h)
        rintro _ _ ⟨⟨record, rfl, own⟩, rfl⟩
        refine Ends.ite_iff.2 ⟨fun done => by simp [own, running] at done, fun _ => ?_⟩
        refine Ends.bind ((ends_tryWorkflow_loaded steady stocks intelligible.parses _).imp ?_ fun _ _ h => h)
        rintro r _ ⟨loaded, rfl⟩
        rw [own, load] at loaded
        cases r with
        | ok w => cases loaded
        | error p =>
          obtain rfl : f = .program p := by cases loaded; rfl
          refine Ends.bind ((plays_note ?_ _ rfl).2.imp (fun _ t here => ?_) fun _ _ h => h)
          · decide
          refine Ends.bind (Ends.bind ((plays_clearMarkers steady id t here).2.imp (fun _ u here => ?_)
            fun _ _ h => h))
          refine Ends.pure_iff.2 (Ends.bind ((plays_abandon steady (Option.isSome_of_eq_some stored) p.text u
            here).2.imp (fun _ _ here => ?_) fun _ _ h => h))
          exact Ends.pure_iff.2 ⟨rfl, here⟩
    · have judged : e.scene.verdict rows id = .drop := by
        simp only [Scene.verdict, stored, listed, running, if_false]
      rw [judged]
      refine Ends.bind (finds.imp ?_ fun _ _ h => h)
      rintro _ _ ⟨⟨record, rfl, own⟩, rfl⟩
      refine Ends.ite_iff.2 ⟨fun _ => discards, fun open_ => ?_⟩
      simp [own, running] at open_

/-- How many delays of an execution are taken up. -/
def taken (rows : List Store.WorkflowRow) (v : Scene) (id : String) : Nat :=
  if (v.verdict rows id).takes then (v.listed id).length else 0

theorem ends_settleGroup (now : Instant) (intelligible : e.scene.Intelligible rows) (stocks : Stocks rows e)
    (idle : e.scene.live.contains id = false) (waits : e.scene.listed id ≠ []) :
    Ends (resumeGroup now (id, e.scene.listed id)) e
      (fun n t => t.scene = e.scene.settle rows now id ∧ n = taken rows e.scene id) never := by
  obtain ⟨first, rest, listed⟩ := List.exists_cons_of_ne_nil waits
  rw [show resumeGroup now (id, e.scene.listed id) = resumeGroup now (id, first :: rest) from by rw [listed]]
  refine Ends.bind ((ends_rebuild_judged intelligible stocks idle listed).imp (fun r t made => ?_) fun _ _ h => h)
  unfold Scene.settle taken
  cases judged : e.scene.verdict rows id with
  | take x =>
    rw [judged] at made
    obtain ⟨rfl, here⟩ := made
    have anew := (Scene.anew_of_take judged).1
    obtain ⟨row, -, -, -, stored, -⟩ := Scene.verdict_of_take judged
    have own : ∀ m ∈ e.scene.listed id, m.execution = id := fun _ => Scene.own_listed
    have armed := plays_resumed now own anew (Option.isSome_of_eq_some stored)
      intelligible.steady t here
    rw [listed] at armed ⊢
    dsimp only
    rw [← bind_assoc]
    exact Ends.bind (armed.2.imp (fun _ _ set => Ends.pure_iff.2 ⟨set, rfl⟩) fun _ _ h => h)
  | drop =>
    rw [judged] at made
    obtain ⟨rfl, here⟩ := made
    exact Ends.pure_iff.2 ⟨here, rfl⟩
  | fail error =>
    rw [judged] at made
    obtain ⟨rfl, here⟩ := made
    exact Ends.pure_iff.2 ⟨here, rfl⟩

/-- Each group of markers is settled by itself. -/
theorem ends_settleGroups (now : Instant) {ids : List String} (intelligible : e.scene.Intelligible rows)
    (stocks : Stocks rows e) (distinct : ids.Nodup)
    (waits : ∀ id ∈ ids, e.scene.live.contains id = false ∧ e.scene.listed id ≠ []) :
    Ends ((ids.map fun id => (id, e.scene.listed id)).mapM (resumeGroup now)) e
      (fun ns t => e.scene.Settled rows now ids t.scene ∧ Stocks rows t ∧ ns = ids.map (taken rows e.scene))
      never := by
  induction ids generalizing e with
  | nil => exact Ends.pure_iff.2 ⟨Scene.settled_nil, stocks, rfl⟩
  | cons id rest ih =>
    obtain ⟨new, distinct⟩ := List.nodup_cons.1 distinct
    obtain ⟨idle, some⟩ := waits id (.head _)
    have kept : Keeps (Stocks rows) (resumeGroup now (id, e.scene.listed id)) :=
      .of_twin ((bond_stocks rows).resumeGroup now _)
    have group := ((ends_settleGroup now intelligible stocks idle some).and (kept e stocks))
    rw [List.map_cons, List.mapM_cons]
    refine Ends.bind (group.imp ?_ fun _ _ h => h.1)
    rintro _ t ⟨⟨here, rfl⟩, stocks⟩
    have first : e.scene.Settled rows now [id] t.scene := here ▸ Scene.settled_settle
    have still (k) (later : k ∈ rest) := first.verdict_of_not_mem (k := k) (by
      rintro own
      rw [List.mem_singleton.1 own] at later
      exact new later)
    have listed (k) (later : k ∈ rest) : t.scene.listed k = e.scene.listed k := (still k later).2.1
    have others := ih (first.intelligible intelligible) stocks distinct fun k later => by
      obtain ⟨idle, some⟩ := waits k (.tail _ later)
      refine ⟨?_, listed k later ▸ some⟩
      have other : k ≠ id := fun own => new (own ▸ later)
      rw [first.live, idle]
      simp [other]
    rw [List.map_congr_left fun k later => by rw [listed k later]] at others
    refine Ends.bind (others.imp ?_ fun _ _ h => h)
    rintro ns u ⟨next, stocks, rfl⟩
    refine Ends.pure_iff.2 ⟨first.cons next new, stocks, ?_⟩
    rw [List.map_cons]
    refine congrArg (List.cons _) (List.map_congr_left fun k later => ?_)
    unfold taken
    rw [(still k later).2.2, listed k later]

end Engine

/-! What is settled, whatever the order. -/

/-- What has a key is found in the part of that key. -/
theorem perm_flatMap_filter {α : Type} (key : α → String) {ids : List String} (distinct : ids.Nodup)
    {items : List α} (all : ∀ a ∈ items, key a ∈ ids) :
    (ids.flatMap fun id => items.filter (key · == id)).Perm items := by
  induction ids generalizing items with
  | nil =>
    rw [List.eq_nil_iff_forall_not_mem.2 fun a there => List.not_mem_nil (all a there)]
    exact .refl _
  | cons id rest ih =>
    obtain ⟨new, distinct⟩ := List.nodup_cons.1 distinct
    have others : (rest.flatMap fun k => items.filter (key · == k)) =
        rest.flatMap fun k => (items.filter (key · != id)).filter (key · == k) := by
      refine List.flatMap_congr fun k later => ?_
      rw [List.filter_filter]
      refine List.filter_congr fun a _ => ?_
      by_cases own : key a = k
      · have other : k ≠ id := fun same => new (same ▸ later)
        simp [own, other]
      · simp [own]
    have remaining : (rest.flatMap fun k => (items.filter (key · != id)).filter (key · == k)).Perm
        (items.filter (key · != id)) := by
      refine ih distinct fun a there => ?_
      obtain ⟨there, other⟩ := List.mem_filter.1 there
      exact (List.mem_cons.1 (all a there)).resolve_left (by simpa using other)
    rw [List.flatMap_cons, others]
    refine (remaining.append_left _).trans ?_
    exact List.filter_append_perm (key · == id) items

namespace Scene

variable {rows : List Store.WorkflowRow} {v w : Scene} {ids : List String} {id k : String} {x : Execution}
  {now : Instant}

/-- The markers that are taken up. -/
def resuming (rows : List Store.WorkflowRow) (v : Scene) : List Store.MarkerRow :=
  v.markers.filter fun m => !v.live.contains m.execution && (v.verdict rows m.execution).takes

/-- An execution is made of its markers. It has the variables of the last one; it has visited what any of them
has visited, and of each loop it counts the most iterations that one of them counts. -/
def Gathers (v : Scene) (id : String) (x : Execution) : Prop :=
  ∃ last ∈ v.markers, last.execution = id ∧ (∀ m ∈ v.markers, m.execution = id → m.id ≤ last.id) ∧
    x.vars = last.saved.vars ∧
    (∀ node, node ∈ x.visited ↔ ∃ m ∈ v.markers, m.execution = id ∧ node ∈ m.saved.visited) ∧
    ∀ node, x.counter node =
      last.saved.most ((v.markers.filter (·.execution == id)).map (·.saved)) node

/-- An engine has resumed: what was not live and is stored as running with a workflow that can be loaded is
live, one timer is set for each of its markers, and of what else was not live the markers are deleted, and
what fails of it fails in store. Everything else is as it was. -/
structure Settles (rows : List Store.WorkflowRow) (now : Instant) (v : Scene) (n : Nat) (w : Scene) : Prop where
  count : n = (v.resuming rows).length
  markers : w.markers = v.markers.filter fun m =>
    v.live.contains m.execution || (v.verdict rows m.execution).takes
  row? : ∀ k, w.row? k = if v.live.contains k then v.row? k else (v.verdict rows k).close (v.row? k)
  live : ∀ k, w.live.contains k = (v.live.contains k || (v.verdict rows k).takes)
  time : w.clock.now = v.clock.now
  others : ∀ k, v.live.contains k = true ∨ (v.verdict rows k).takes = false → w.execution? k = v.execution? k
  timers : ∃ set, w.clock.timers = v.clock.timers ++ set ∧
    (set.map Timer.call).Perm ((v.resuming rows).map fun m => m.opened.call now v.clock.now) ∧
    ∀ k x, v.live.contains k = false → v.verdict rows k = .take x → v.Gathers k x ∧ ∃ logs timers,
      w.execution? k = some { x with logs, branches := (v.listed k).length, timers } ∧
      ({ x with timers } : Execution).pending.Perm
        ((set.filter (·.execution == k)).map fun t => (t.node, t.id))
  kept : w.faulty = v.faulty ∧ w.accepting = v.accepting ∧ w.limit = v.limit ∧ w.registry = v.registry ∧
    w.next = v.next

/-- There is no verdict on an execution without markers. -/
theorem verdict_of_unmarked (unmarked : ∀ m ∈ v.markers, m.execution ≠ k) : v.verdict rows k = .drop := by
  have none : v.listed k = [] := by
    rw [listed_eq, List.filter_eq_nil_iff.2 fun m there own => unmarked m there (eq_of_beq own)]
    rfl
  unfold verdict
  rw [none]
  split
  · rename_i same
    cases same
  · rfl

theorem gathers_of_take (whole : ∀ m ∈ v.markers, m.saved.Whole) (taken : v.verdict rows id = .take x) :
    v.Gathers id x := by
  obtain ⟨row, w, first, rest, -, -, -, listed, made⟩ := verdict_of_take taken
  obtain ⟨s, read, absorbed⟩ := bind_eq_ok made
  let own := v.markers.filter (·.execution == id)
  have mine {m : Store.MarkerRow} : m ∈ own ↔ m ∈ v.markers ∧ m.execution = id := by
    rw [List.mem_filter, beq_iff_eq]
  have sorted : (Store.sortedMarkers own).Perm own := sortBy_perm _ _
  have order : (((Store.sortedMarkers own).map fun m => (m.saved, m.id)).map (·.1)).Perm (own.map (·.saved)) := by
    rw [List.map_map]
    exact sorted.map _
  -- The listed markers are those that are kept, in the order in which they are due.
  have kept : first :: rest = ((Store.sortedMarkers own).map fun m => (m.saved, m.id)).map
      fun p => p.1.marker id p.2 := by
    rw [← listed, listed_eq, List.map_map]
    refine List.map_congr_left fun m there => ?_
    obtain ⟨-, rfl⟩ := mine.1 (sorted.mem_iff.1 there)
    rfl
  obtain ⟨last, stored, latest⟩ : ∃ m ∈ own, m.opened = Engine.latest first (first :: rest) := by
    have there : Engine.latest first (first :: rest) ∈ v.listed id := by
      rw [listed]
      rcases List.mem_cons.1 (Engine.latest_mem first (first :: rest)) with same | there
      · rw [same]
        exact .head _
      · exact there
    obtain ⟨m, stored, same⟩ := mem_listed there
    exact ⟨m, stored, same.symm⟩
  obtain ⟨present, whose⟩ := mine.1 stored
  rw [← latest] at read
  obtain ⟨vars, visited, counter⟩ := Execution.of_read (whole last present) id w read
  rw [kept] at absorbed
  have adds := Execution.adds_of_absorbedAll (fun p there => by
    obtain ⟨m, held, rfl⟩ := List.mem_map.1 there
    exact whole m (mine.1 (sorted.mem_iff.1 held)).1) absorbed
  refine ⟨last, present, whose, fun m there own => ?_, adds.vars.trans vars, fun node => ?_, fun node => ?_⟩
  · have waits : m.opened ∈ first :: rest := by
      rw [← listed, listed_eq]
      exact List.mem_map_of_mem (sorted.mem_iff.2 (mine.2 ⟨there, own⟩))
    have below := Engine.le_latest (List.mem_cons_of_mem first waits)
    rwa [← latest] at below
  · rw [adds.visited, visited]
    constructor
    · rintro (own | ⟨s, held, seen⟩)
      · exact ⟨last, present, whose, own⟩
      · obtain ⟨m, there, rfl⟩ := List.mem_map.1 (order.mem_iff.1 held)
        exact ⟨m, (mine.1 there).1, (mine.1 there).2, seen⟩
    · rintro ⟨m, there, own, seen⟩
      exact .inr ⟨m.saved, order.mem_iff.2 (List.mem_map_of_mem (mine.2 ⟨there, own⟩)), seen⟩
  · rw [adds.counter, counter]
    exact (order.flatMap_right _).foldl_op_eq

/-- What is settled one by one is settled all together. -/
theorem Settled.settles (settled : Settled rows now v ids w) (distinct : ids.Nodup)
    (waits : ∀ k, k ∈ ids ↔ v.live.contains k = false ∧ ∃ m ∈ v.markers, m.execution = k)
    (whole : ∀ m ∈ v.markers, m.saved.Whole) :
    Settles rows now v (ids.flatMap fun id => if (v.verdict rows id).takes then v.listed id else []).length w := by
  have idle {m : Store.MarkerRow} (there : m ∈ v.markers) :
      ids.contains m.execution = !v.live.contains m.execution := by
    rw [Bool.eq_iff_iff, List.contains_iff_mem, waits, Bool.not_eq_true']
    exact and_iff_left ⟨m, there, rfl⟩
  have unjudged {k : String} (still : v.live.contains k = false) (out : k ∉ ids) :
      v.verdict rows k = .drop :=
    verdict_of_unmarked fun m there own => out ((waits k).2 ⟨still, m, there, own⟩)
  -- The markers that are taken up, group by group.
  have perm : (ids.flatMap fun id => if (v.verdict rows id).takes then v.listed id else []).Perm
      ((v.resuming rows).map (·.opened)) := by
    have parts : (ids.flatMap fun id => (v.resuming rows).filter (·.execution == id)).Perm (v.resuming rows) := by
      refine perm_flatMap_filter (fun m : Store.MarkerRow => m.execution) distinct fun m there => ?_
      obtain ⟨there, picked⟩ := List.mem_filter.1 there
      rw [Bool.and_eq_true, Bool.not_eq_true'] at picked
      exact (waits _).2 ⟨picked.1, m, there, rfl⟩
    refine .trans ?_ (parts.map (·.opened))
    rw [List.map_flatMap]
    refine List.Perm.flatMap_left _ fun k there => ?_
    have still := ((waits k).1 there).1
    have part : (v.resuming rows).filter (·.execution == k) =
        if (v.verdict rows k).takes then v.markers.filter (·.execution == k) else [] := by
      unfold resuming
      rw [List.filter_filter]
      split
      · rename_i takes
        refine List.filter_congr fun m _ => ?_
        by_cases own : m.execution = k
        · rw [own, takes, still]
          simp
        · simp [own]
      · rename_i passed
        refine List.filter_eq_nil_iff.2 fun m _ picked => passed ?_
        rw [Bool.and_eq_true, Bool.and_eq_true, beq_iff_eq] at picked
        exact picked.1 ▸ picked.2.2
    rw [part, listed_eq]
    split
    · exact (sortBy_perm _ _).map _
    · exact .refl _
  obtain ⟨set, added, calls, each⟩ := settled.timers
  refine ⟨perm.length_eq.trans (List.length_map _), ?_, fun k => ?_, fun k => ?_, settled.time,
    fun k same => ?_, ⟨set, added, ?_, fun k x still taken => ?_⟩, settled.kept⟩
  · rw [settled.markers]
    refine List.filter_congr fun m there => ?_
    rw [idle there, Bool.not_not]
  · rw [settled.row?]
    by_cases there : k ∈ ids
    · rw [if_pos there, ((waits k).1 there).1]
      rfl
    · rw [if_neg there]
      split
      · rfl
      · rename_i still
        rw [unjudged (Bool.eq_false_iff.2 still) there]
        rfl
  · rw [settled.live]
    cases still : v.live.contains k with
    | true => rfl
    | false =>
      by_cases there : k ∈ ids
      · simp [there]
      · rw [unjudged still there]
        simp [there, Verdict.takes]
  · refine settled.others k fun there => same.resolve_left fun live => ?_
    rw [((waits k).1 there).1] at live
    cases live
  · rw [calls]
    have called := perm.map (·.call now v.clock.now)
    rw [List.map_flatMap, List.map_map] at called
    refine .trans (.of_eq (List.flatMap_congr fun k _ => ?_)) called
    split <;> rfl
  · refine ⟨gathers_of_take whole taken, each k (Classical.byContradiction fun out => ?_) x taken⟩
    rw [unjudged still out] at taken
    cases taken

end Scene

namespace Engine

variable {e : Engine} {now : Instant}

/-- Nothing is done where every marker is of an execution that is live. -/
theorem ends_resume_settled (steady : e.scene.faulty = false) (whole : ∀ m ∈ e.scene.markers, m.saved.Whole)
    (reads : Instant.ofSeconds e.clock.now = .ok now)
    (live : ∀ m ∈ e.scene.markers, e.scene.live.contains m.execution = true) :
    Ends resume e (fun n t => n = 0 ∧ t = e) never := by
  have lists := Storage.ends_listMarkers_ok steady fun m there => by
    obtain ⟨z, context⟩ := whole m there
    exact ⟨z.kept, context.trans z.stored_snapshot⟩
  refine Ends.bind (Ends.get_iff.2 (Ends.bind (ends_storage.2 (lists.imp ?_ fun _ _ h => h))))
  rintro ms s ⟨rfl, rfl⟩
  have none : (((Store.sortedMarkers e.scene.markers).map (·.opened)).filter fun m =>
      !e.scene.live.contains m.execution) = [] := by
    refine List.filter_eq_nil_iff.2 fun m listed idle => ?_
    obtain ⟨row, there, rfl⟩ := List.mem_map.1 listed
    rw [show row.opened.execution = row.execution from rfl, live row (mem_sortBy.1 there)] at idle
    cases idle
  refine Ends.bind (Ends.get_iff.2 (Ends.bind (ends_ofExcept.2 ⟨fun now' _ => ?_, fun f failed => ?_⟩)))
  · refine Ends.bind ?_
    rw [show e.storage.tables.markers = e.scene.markers from rfl, show e.live = e.scene.live from rfl, none]
    exact Ends.pure_iff.2 (Ends.pure_iff.2 ⟨rfl, rfl⟩)
  · cases reads.symm.trans failed

/-- Where what is stored can be read, and nothing is refused, resuming settles what waits, and tells how many
delays it has taken up. Once it is settled nothing is left to do. -/
theorem ends_resume_settles (intelligible : e.scene.Intelligible e.storage.tables.workflows)
    (reads : Instant.ofSeconds e.clock.now = .ok now) :
    Ends resume e (fun n t => e.scene.Settles e.storage.tables.workflows now n t.scene ∧
      t.storage.tables.workflows = e.storage.tables.workflows ∧
      Ends resume t (fun m u => m = 0 ∧ u = t) never) never := by
  have waits (k) (there : k ∈ (pendingGroups e.scene).map (·.1)) :
      e.scene.live.contains k = false ∧ e.scene.listed k ≠ [] := by
    obtain ⟨idle, m, stored, own⟩ := mem_pendingGroups.1 there
    refine ⟨idle, List.ne_nil_of_mem (a := m.opened) ?_⟩
    exact List.mem_map_of_mem (List.mem_filter.2 ⟨mem_sortBy.2 stored, beq_iff_eq.2 own⟩)
  have groups := ends_settleGroups now intelligible rfl (nodup_pendingGroups e.scene) waits
  rw [← pendingGroups_eq] at groups
  have dicts : ∀ m ∈ e.scene.markers, ∃ d, m.context = .dict d := fun m there => by
    obtain ⟨z, context⟩ := intelligible.whole m there
    exact ⟨z.kept, context.trans z.stored_snapshot⟩
  refine (ends_resume_of_groups intelligible.steady dicts reads groups
    fun counts t u holds here workflows => ⟨here ▸ holds.1, workflows.trans holds.2.1, holds.2.2⟩).imp ?_
    fun _ _ h => h
  rintro n t ⟨counts, rfl, settled, workflows, rfl⟩
  have settles := settled.settles (nodup_pendingGroups e.scene) (fun _ => mem_pendingGroups) intelligible.whole
  have still := settled.intelligible intelligible
  refine ⟨?_, workflows, ends_resume_settled still.steady still.whole (?_ : Instant.ofSeconds t.clock.now = .ok now)
    fun m there => ?_⟩
  · rw [List.length_flatMap, List.sum_eq_foldl] at settles
    refine Eq.mp (congrArg (fun ns => Scene.Settles _ now e.scene (List.foldl Nat.add 0 ns) t.scene) ?_) settles
    refine List.map_congr_left fun k _ => ?_
    unfold taken
    split <;> rfl
  · rw [show t.clock.now = e.clock.now from settles.time, reads]
  · rw [settles.markers] at there
    rw [settles.live]
    exact (List.mem_filter.1 there).2

end Engine

end Runbook
