import Runbook.Proofs.Course.Unheard

/-!
Failures. What ends an execution by a failure is told once, by the last entry of its log, and the
reason that is stored is the one told there; an execution that ends otherwise tells of no failure at
all. A connection that leads to nothing is told as an error as well, but fails nothing.
-/
namespace Runbook

/-- An entry of level error, other than that of a node that was not found. -/
def LogEntry.accuses (e : LogEntry) : Bool := e.level == .error && !e.tells "Node not found: "

/-- The same, of an entry as the process log tells it. -/
def Spoken.accuses (s : Spoken) : Bool :=
  s.level == .error && !"Node not found: ".toList.isPrefixOf s.message.toList

theorem LogEntry.accuses_spoken (e : LogEntry) (id : String) : (e.spoken id).accuses = e.accuses := by
  unfold Spoken.accuses LogEntry.accuses LogEntry.spoken
  cases e.level <;> rfl

namespace Remark

variable {r : Remark}

/-- Those entries accuse whose remarks say that the execution has failed. -/
theorem accuses_entry (r : Remark) (path : List String) : (r.entry path).accuses = r.isFault := by
  unfold LogEntry.accuses
  cases r with
  | missing node =>
    have tells : ((missing node).entry path).tells "Node not found: " = true :=
      (missing node).tells_head path
    rw [tells, Bool.not_true, Bool.and_false]
    rfl
  | triggerless =>
    rw [not_tells_of_clash (r := .triggerless) (clash_missing _ (by simp [head]))]
    rfl
  | refused =>
    rw [not_tells_of_clash (r := .refused) (clash_missing _ (by simp [head]))]
    rfl
  | broken node text =>
    rw [not_tells_of_clash (r := .broken node text) (clash_missing _ (by simp [head]))]
    rfl
  | _ => rfl

theorem Blames.isFault {error : String} (blames : r.Blames error) : r.isFault = true := by
  rcases blames with ⟨node, rfl⟩ | ⟨rfl | rfl, -⟩ <;> rfl

end Remark

/-- An execution has failed: the last entry of its log, made where it stopped, is the only one that
accuses, and it names the error that it failed with. -/
def Execution.Blamed (x : Execution) (error : String) : Prop :=
  ∃ (before : List LogEntry) (r : Remark), x.logs = before ++ [r.entry x.path] ∧
    (∀ e ∈ before, e.accuses = false) ∧ r.Blames error ∧ x.error = some error

namespace Scene

/-- The status and the error of an execution in store. -/
def outcome? (v : Scene) (id : String) : Option (ExecutionStatus × Option String) :=
  (v.row? id).map fun r => (r.status, r.error)

/-- The process log tells what the log of an execution tells, after what it told in earlier lives,
and an accusation is found in it just when the execution has failed. -/
structure Candid (v : Scene) (id : String) : Prop where
  unheard : v.execution? id = none → v.spoken.filter (·.execution == id) = []
  heard : ∀ x, v.execution? id = some x → ∃ earlier,
    v.spoken.filter (·.execution == id) = earlier ++ x.logs.map (·.spoken id) ∧
      ∀ s ∈ earlier, s.accuses = false
  calm : ∀ x, v.execution? id = some x → x.status ≠ .failed → ∀ e ∈ x.logs, e.accuses = false
  blamed : ∀ x, v.execution? id = some x → x.status = .failed →
    ∃ error, x.Blamed error ∧ v.outcome? id = some (.failed, some error)

variable {own : String → Prop} {v w : Scene} {id k : String} {x y : Execution}

theorem Running.unfailed (running : v.Running id x) : x.status ≠ .failed := by
  intro failed
  have active : x.status = .running := by simpa [Execution.isActive] using running.active
  exact absurd (active.symm.trans failed) (by decide)

theorem Running.outcome? (running : v.Running id x) : ∃ error, v.outcome? id = some (.running, error) := by
  obtain ⟨row, stored, status⟩ := running.row
  exact ⟨row.error, by rw [Scene.outcome?, stored, Option.map_some, status]⟩

/-- What is told of an execution, and what is known of it, is all that matters. -/
theorem Candid.congr (candid : v.Candid k) (executions : w.execution? k = v.execution? k)
    (spoken : w.spoken.filter (·.execution == k) = v.spoken.filter (·.execution == k))
    (rows : w.row? k = v.row? k) : w.Candid k := by
  have outcome : w.outcome? k = v.outcome? k := by rw [outcome?, outcome?, rows]
  refine ⟨?_, ?_, ?_, ?_⟩ <;> rw [executions]
  · rw [spoken]; exact candid.unheard
  · rw [spoken]; exact candid.heard
  · exact candid.calm
  · rw [outcome]; exact candid.blamed

/-- An execution that has not failed says more, and accuses nobody. -/
theorem Candid.extend {l : List LogEntry} (candid : v.Candid k) (known : v.execution? k = some x)
    (there : w.execution? k = some y) (unfailed : x.status ≠ .failed) (left : y.status ≠ .failed)
    (logs : y.logs = x.logs ++ l) (calm : ∀ e ∈ l, e.accuses = false)
    (spoken : w.spoken.filter (·.execution == k) =
      v.spoken.filter (·.execution == k) ++ l.map (·.spoken k)) : w.Candid k := by
  refine ⟨fun none => ?_, fun z held => ?_, fun z held _ => ?_, fun z held failed => ?_⟩
  · cases there.symm.trans none
  all_goals obtain rfl := Option.some.inj (there.symm.trans held)
  · obtain ⟨earlier, words, innocent⟩ := candid.heard x known
    exact ⟨earlier, by rw [spoken, words, logs, List.map_append, List.append_assoc], innocent⟩
  · rw [logs, List.forall_mem_append]
    exact ⟨candid.calm x known unfailed, calm⟩
  · exact absurd failed left

/-- What is told of an execution when a remark is made about it. -/
theorem filter_spoken_append {r : Remark} {path : List String} (l : List Spoken) :
    (l ++ [r.spoken k path]).filter (·.execution == k) =
      l.filter (·.execution == k) ++ [r.entry path].map (·.spoken k) := by
  rw [List.filter_append, List.filter_cons_of_pos (by simp [Remark.spoken])]
  rfl

theorem spoken_say {r : Remark} (known : v.execution? id = some x) :
    (v.say id r).spoken = v.spoken ++ [r.spoken id x.path] := by
  change v.spoken ++ ((v.execution? id).map fun x => r.spoken id x.path).toList = _
  rw [known]
  rfl

theorem Candid.say {r : Remark} (candid : v.Candid k) (known : v.execution? id = some x)
    (unfailed : x.status ≠ .failed) (calm : r.isFault = false) : (v.say id r).Candid k := by
  by_cases same : k = id
  · subst same
    refine candid.extend (l := [r.entry x.path]) known (y := x.tell r) ?_ unfailed unfailed rfl ?_ ?_
    · rw [execution?_say, if_pos rfl, known]
      rfl
    · simpa [Remark.accuses_entry] using calm
    · rw [spoken_say known, filter_spoken_append]
  · exact candid.congr (by rw [execution?_say, if_neg same]) (filter_spoken_of_ne v r same) rfl

theorem Candid.alter {f : Execution → Execution} (candid : v.Candid k) (minor : Execution.Minor f) :
    (v.alter id f).Candid k := by
  by_cases same : k = id
  · subst same
    have lookup : (v.alter k f).execution? k = (v.execution? k).map f := if_pos rfl
    refine ⟨fun none => ?_, fun y there => ?_, fun y there calm => ?_, fun y there failed => ?_⟩
    · exact candid.unheard (Option.map_eq_none_iff.1 (lookup.symm.trans none))
    all_goals obtain ⟨x, known, rfl⟩ := Option.map_eq_some_iff.1 (lookup.symm.trans there)
    · rw [minor.logs]
      exact candid.heard x known
    · rw [minor.logs]
      exact candid.calm x known (minor.status x ▸ calm)
    · obtain ⟨error, blamed, stored⟩ := candid.blamed x known (minor.status x ▸ failed)
      refine ⟨error, ?_, stored⟩
      unfold Execution.Blamed
      rw [minor.logs, minor.path, minor.error]
      exact blamed
  · exact candid.congr (if_neg same) rfl rfl

/-- A running execution ends or goes on, and no accusation is made. -/
theorem Candid.lead {l : List LogEntry} (candid : v.Candid k) (running : v.Running id x)
    (executions : ∀ k, w.execution? k = if k = id then some y else v.execution? k)
    (rows : ∀ k, k ≠ id → w.row? k = v.row? k) (left : y.status ≠ .failed)
    (logs : y.logs = x.logs ++ l) (calm : ∀ e ∈ l, e.accuses = false)
    (spoken : w.spoken = v.spoken ++ l.map (·.spoken id)) : w.Candid k := by
  have told : (l.map (·.spoken id)).filter (·.execution == k) =
      if k = id then l.map (·.spoken id) else [] := by
    split
    · rename_i same
      exact List.filter_eq_self.2 fun s there => by
        obtain ⟨e, -, rfl⟩ := List.mem_map.1 there
        simp [LogEntry.spoken, same]
    · rename_i other
      refine List.filter_eq_nil_iff.2 fun s there => ?_
      obtain ⟨e, -, rfl⟩ := List.mem_map.1 there
      simpa [LogEntry.spoken] using Ne.symm other
  by_cases same : k = id
  · subst same
    refine candid.extend running.known ((executions k).trans (if_pos rfl)) running.unfailed left logs
      calm ?_
    rw [spoken, List.filter_append, told, if_pos rfl]
  · refine candid.congr ((executions k).trans (if_neg same)) ?_ (rows k same)
    rw [spoken, List.filter_append, told, if_neg same, List.append_nil]

theorem Candid.enter {node : String} (candid : v.Candid k) (running : v.Running id x) :
    (v.alter id (·.enter node)).Candid k := by
  refine candid.lead (l := []) (y := x.enter node) running (fun k => ?_) (fun _ _ => rfl)
    running.unfailed (List.append_nil _).symm (by simp) (List.append_nil _).symm
  rw [execution?_alter]
  by_cases same : k = id <;> simp [same, running.known]

theorem Candid.cancel (candid : v.Candid k) (running : v.Running id x) : (v.cancel id).Candid k := by
  refine candid.lead (l := [Remark.cancelled.entry x.path]) (y := { x with
    status := .cancelled, error := some cancelText, timers := []
    logs := x.logs ++ [Remark.cancelled.entry x.path], done := true }) running (fun k => ?_)
    (fun k other => (row?_cancel v id k).trans (if_neg other)) nofun rfl
    (by simp [Remark.accuses_entry, Remark.isFault]) (spoken_cancel running.known)
  rw [execution?_cancel]
  by_cases same : k = id <;> simp [same, running.known]

theorem Candid.complete (candid : v.Candid k) (running : v.Running id x) :
    (v.complete id).Candid k := by
  refine candid.lead (l := [Remark.completed.entry x.path]) (y := { x with
    branches := x.branches - 1, status := .completed
    logs := x.logs ++ [Remark.completed.entry x.path], done := true }) running (fun k => ?_)
    (fun k other => (row?_complete v id k).trans (if_neg other)) nofun rfl
    (by simp [Remark.accuses_entry, Remark.isFault]) (spoken_complete running.known)
  rw [execution?_complete]
  by_cases same : k = id <;> simp [same, running.known]

/-- A running execution fails, and what is told last is the reason. -/
theorem Candid.fail {r : Remark} {error : String} (candid : v.Candid k) (running : v.Running id x)
    (blames : r.Blames error) : ((v.say id r).fail id error).Candid k := by
  have words : ((v.say id r).fail id error).spoken = v.spoken ++ [r.spoken id x.path] :=
    spoken_say running.known
  by_cases same : k = id
  · subst same
    have there : ((v.say k r).fail k error).execution? k = some ((x.tell r).failed error) := by
      simp [running.known, Execution.tell, Execution.failed]
    refine ⟨fun none => ?_, fun y held => ?_, fun y held unfailed => ?_, fun y held _ => ?_⟩
    · cases there.symm.trans none
    all_goals obtain rfl := Option.some.inj (there.symm.trans held)
    · obtain ⟨earlier, before, innocent⟩ := candid.heard x running.known
      refine ⟨earlier, ?_, innocent⟩
      rw [words, filter_spoken_append, before, List.append_assoc]
      change _ = earlier ++ (x.logs ++ [r.entry x.path]).map (·.spoken k)
      rw [List.map_append]
    · exact absurd rfl unfailed
    · refine ⟨error, ⟨x.logs, r, rfl, candid.calm x running.known running.unfailed, blames, rfl⟩, ?_⟩
      obtain ⟨row, stored, -⟩ := running.row
      rw [outcome?, row?_fail, if_pos rfl, show (v.say k r).row? k = some row from stored]
      rfl
  · refine candid.congr ?_ ?_ ((row?_fail (v.say id r) id k error).trans (if_neg same))
    · rw [execution?_fail, if_neg same, execution?_say, if_neg same]
    · exact filter_spoken_of_ne v r same

theorem Candid.enrol {row : Store.ExecutionRow} {next : Nat} (candid : v.Candid k)
    (unknown : v.execution? x.id = none) (active : x.isActive = true) (untold : x.logs = []) :
    (v.enrol x row next).Candid k := by
  by_cases same : k = x.id
  · subst same
    have there : (v.enrol x row next).execution? x.id = some x := if_pos rfl
    refine ⟨fun none => ?_, fun y held => ?_, fun y held _ => ?_, fun y held failed => ?_⟩
    · cases there.symm.trans none
    all_goals obtain rfl := Option.some.inj (there.symm.trans held)
    · exact ⟨[], by rw [untold]; exact candid.unheard unknown, by simp⟩
    · simp [untold]
    · simp [Execution.isActive, failed] at active
  · exact candid.congr (if_neg same) rfl (if_neg same)

/-- What is taken up again was told of before, and accused of nothing. -/
theorem Candid.revive {row : Store.ExecutionRow} (candid : v.Candid k) (stored : v.row? x.id = some row)
    (running : row.status = .running) (active : x.isActive = true) (untold : x.logs = []) :
    (v.revive x).Candid k := by
  by_cases same : k = x.id
  · subst same
    have there : (v.revive x).execution? x.id = some x := if_pos rfl
    have innocent : ∀ s ∈ v.spoken.filter (·.execution == x.id), s.accuses = false := by
      cases known : v.execution? x.id with
      | none => simp [candid.unheard known]
      | some y =>
        obtain ⟨earlier, words, innocent⟩ := candid.heard y known
        have unfailed : y.status ≠ .failed := fun failed => by
          obtain ⟨error, -, outcome⟩ := candid.blamed y known failed
          simp [outcome?, stored, running] at outcome
        rw [words, List.forall_mem_append]
        refine ⟨innocent, fun s there => ?_⟩
        obtain ⟨e, told, rfl⟩ := List.mem_map.1 there
        rw [e.accuses_spoken]
        exact candid.calm y known unfailed e told
    refine ⟨fun none => ?_, fun y held => ?_, fun y held _ => ?_, fun y held failed => ?_⟩
    · cases there.symm.trans none
    all_goals obtain rfl := Option.some.inj (there.symm.trans held)
    · exact ⟨_, by rw [untold, List.map_nil, List.append_nil]; rfl, innocent⟩
    · simp [untold]
    · simp [Execution.isActive, failed] at active
  · exact candid.congr (if_neg same) rfl rfl

theorem Candid.abandon {row : Store.ExecutionRow} {error : String} (candid : v.Candid k)
    (stored : v.row? id = some row) (running : row.status = .running) : (v.abandon id error).Candid k := by
  by_cases same : k = id
  · subst same
    refine ⟨candid.unheard, candid.heard, candid.calm, fun y known failed => ?_⟩
    obtain ⟨error, -, outcome⟩ := candid.blamed y known failed
    simp [outcome?, stored, running] at outcome
  · exact candid.congr rfl rfl ((row?_abandon v id k error).trans (if_neg same))

/-- No marker has a number that is greater than that of the entries so far. -/
def Numbered (v : Scene) : Prop := ∀ m ∈ v.markers, m.id ≤ v.spoken.length

theorem nextMarker_le (numbered : v.Numbered) : v.nextMarker ≤ v.spoken.length + 1 :=
  nextMarker_le_succ numbered

end Scene

/-- The numbers of the markers stay below that of the entries. -/
theorem Move.numbered {own : String → Prop} {v w : Scene} (move : Move own v w)
    (numbered : v.Numbered) : w.Numbered := by
  have grown : v.spoken.length ≤ w.spoken.length := (move.grows (k := "")).2.1.length_le
  have fewer (sub : w.markers ⊆ v.markers) : w.Numbered := fun m there =>
    Nat.le_trans (numbered m (sub there)) grown
  cases move with
  | besides executions rows spoken registry markers => exact fewer markers
  | @mark id node x seconds resumeAt running =>
    intro m there
    have marked : (v.mark id node resumeAt).execution? id = some x := running.known
    rw [Scene.spoken_say marked, List.length_append]
    have there : m ∈ v.markers ++ ((v.execution? id).map fun x =>
      (⟨v.nextMarker, id, node, resumeAt, x.snapshot.stored⟩ : Store.MarkerRow)).toList := there
    rcases List.mem_append.1 there with old | new
    · exact Nat.le_trans (numbered m old) (Nat.le_add_right _ _)
    · obtain ⟨y, -, rfl⟩ := Option.map_eq_some_iff.1 (Option.mem_toList.1 new)
      exact Scene.nextMarker_le numbered
  | fail | cancel | abandon => exact fewer (List.filter_subset_self _)
  | _ => exact fewer (List.Subset.refl _)

theorem Moves.numbered {own : String → Prop} {v w : Scene} (moves : Moves own v w) (numbered : v.Numbered) :
    w.Numbered := by
  induction moves with
  | refl => exact numbered
  | tail _ move ih => exact move.numbered ih

theorem fits_of_le {m n : Nat} (le : m ≤ n) (fits : Store.fits n = true) : Store.fits m = true := by
  unfold Store.fits at fits ⊢
  rw [Bool.and_eq_true, decide_eq_true_eq, decide_eq_true_eq] at fits ⊢
  omega

/-- Every move leaves an execution candid, as long as there are fewer entries than numbers. -/
theorem Move.candid {own : String → Prop} {v w : Scene} {k : String} (move : Move own v w)
    (candid : v.Candid k) (numbered : v.Numbered) (few : Store.fits v.spoken.length = true) :
    w.Candid k := by
  cases move with
  | besides executions rows spoken =>
    exact candid.congr (by rw [executions]) (by rw [spoken]) (by rw [rows])
  | alter minor => exact candid.alter minor
  | say running plain calm => exact candid.say running.known running.unfailed calm
  | @mark id node x seconds resumeAt running =>
    have marked : (v.mark id node resumeAt).Candid k := candid.congr rfl rfl rfl
    exact marked.say (running.mark node resumeAt).known running.unfailed rfl
  | summarize mine said known unfailed => exact candid.say known unfailed rfl
  | enter running => exact candid.enter running
  | fail running cause =>
    rcases cause with blames | ⟨-, m, there, unfit⟩
    · exact candid.fail running blames
    · have fit := fits_of_le (numbered m there) few
      cases fit.symm.trans unfit
  | cancel running => exact candid.cancel running
  | complete running => exact candid.complete running
  | enrol unknown unstored active running untold => exact candid.enrol unknown active untold
  | revive stored running active untold => exact candid.revive stored running active untold
  | abandon stored running => exact candid.abandon stored running

theorem Moves.candid {own : String → Prop} {v w : Scene} {k : String} (moves : Moves own v w)
    (candid : v.Candid k) (numbered : v.Numbered) (few : Store.fits w.spoken.length = true) :
    w.Candid k := by
  induction moves with
  | refl => exact candid
  | tail before move ih =>
    have fewer := fits_of_le (move.grows (k := k)).2.1.length_le few
    exact move.candid (ih fewer) (Moves.numbered before numbered) fewer

namespace Engine

variable {e : Engine}

theorem Fresh.candid (fresh : e.Fresh) (id : String) : e.scene.Candid id := by
  have unknown : e.scene.execution? id = none := by simp [scene, execution?, fresh.executions]
  refine ⟨fun _ => ?_, fun x known => ?_, fun x known => ?_, fun x known => ?_⟩
  · simp [scene, Storage.part, fresh.spoken]
  all_goals cases unknown.symm.trans known

theorem Fresh.numbered (fresh : e.Fresh) : e.scene.Numbered := by
  intro m there
  simp [scene, Storage.part, fresh.markers] at there

/-- Where log entries are stored, and none fails to be, the stored log tells what the process log
tells. -/
theorem Fresh.storedLog_spoken (fresh : e.Fresh) (stores : e.storesLog = true)
    (empty : e.storage.tables.logs = []) {ops : List Operation} (use : ∀ op ∈ ops, op.isUse = true)
    (id : String) :
    ((e.afterAll ops).storedLog id).map (·.spoken) = (e.afterAll ops).wordsOf id := by
  have faultless : e.storage.echo.faults = [] := by
    change e.storage.outages.filter Store.Outage.hitsLog = []
    rw [fresh.outages]
    rfl
  have begun : e.Abreast true true (fun p _ => p.faults = [] ∧ p.rows.map (·.spoken) = p.spoken) e := by
    refine .alone stores faultless ⟨faultless, ?_⟩
    change e.storage.tables.logs.map _ = e.storage.journal.spoken
    rw [empty, fresh.spoken]
    rfl
  have bear : ∀ op ∈ ops, op.Bears fun p _ => p.faults = [] ∧ p.rows.map (·.spoken) = p.spoken := by
    intro op there
    have used := use op there
    cases op with
    | delete | appendLog | outage => cases used
    | _ => trivial
  have all := (begun.afterAll Storage.Echo.hears_all bear).matched.tied.2
  have own := congrArg (List.filter (·.execution == id)) all
  rw [List.filter_map] at own
  exact own

/-- A failure is told once, over all lives of an engine. The last entry of the log of an execution that
has failed, made where it stopped, is the only one of level error other than those of nodes that were
not found, in its own log and among all that was ever told of it; it names the error that is stored, and
whatever is done later, nothing more is told of the execution and nothing of it changes. Of an execution
that has not failed in store no such entry is ever told. Where log entries are stored, the same are
stored that are told. -/
theorem Fresh.blames_once (fresh : e.Fresh) (ops : List Operation)
    (use : ∀ op ∈ ops, op.isUse = true)
    (few : Store.fits (e.afterAll ops).storage.journal.spoken.length = true) (id : String) :
    let t := e.afterAll ops
    (∀ x, t.execution? id = some x → x.status = .failed →
      ∃ (before : List Spoken) (own : List LogEntry) (r : Remark) (error : String),
        t.wordsOf id = before ++ [r.spoken id x.path] ∧ x.logs = own ++ [r.entry x.path] ∧
        (∀ s ∈ before, s.accuses = false) ∧ (∀ l ∈ own, l.accuses = false) ∧
        (r.entry x.path).accuses = true ∧ r.Blames error ∧ x.error = some error ∧
        (t.stored? id).map (fun row => (row.status, row.error)) = some (.failed, some error) ∧
        ∀ more : List Operation, (∀ op ∈ more, op.isUse = true) →
          (t.afterAll more).stored? id = t.stored? id ∧ (t.afterAll more).wordsOf id = t.wordsOf id ∧
          ((t.afterAll more).execution? id).map Execution.remains = some x.remains) ∧
    (∀ row, t.stored? id = some row → row.status ≠ .failed →
      (∀ s ∈ t.wordsOf id, s.accuses = false) ∧
      ∀ x, t.execution? id = some x → ∀ l ∈ x.logs, l.accuses = false) ∧
    (e.storesLog = true → e.storage.tables.logs = [] →
      (t.storedLog id).map (·.spoken) = t.wordsOf id) := by
  intro t
  have events : Events e.scene t.scene := events_afterAll ops use e fresh.orderly
  have orderly : t.scene.Orderly := fresh.orderly_afterAll ops use
  have candid : t.scene.Candid id :=
    (events.moves fresh.orderly).candid (fresh.candid id) fresh.numbered few
  refine ⟨fun x known failed => ?_, fun row stored unfailed => ?_,
    fun stores empty => fresh.storedLog_spoken stores empty use id⟩
  · obtain ⟨error, ⟨own, r, logs, calm, blames, reason⟩, outcome⟩ := candid.blamed x known failed
    obtain ⟨earlier, words, innocent⟩ := candid.heard x known
    refine ⟨earlier ++ own.map (·.spoken id), own, r, error, ?_, logs, ?_, calm, ?_, blames, reason,
      outcome, fun more later => ?_⟩
    · refine words.trans ?_
      rw [logs, List.map_append, List.append_assoc]
      rfl
    · rw [List.forall_mem_append]
      refine ⟨innocent, fun s there => ?_⟩
      obtain ⟨l, told, rfl⟩ := List.mem_map.1 there
      rw [l.accuses_spoken]
      exact calm l told
    · rw [Remark.accuses_entry]
      exact blames.isFault
    · obtain ⟨row, stored, same⟩ := Option.map_eq_some_iff.1 outcome
      have past : row.status ≠ .running := by
        rw [(Prod.mk.inj same).1]
        decide
      obtain ⟨stays, silent, remains⟩ := (events_afterAll more later t orderly).silent orderly stored past
      exact ⟨stays.trans stored.symm, silent, remains.trans (congrArg _ known)⟩
  · have calm (x : Execution) (known : t.execution? id = some x) : ∀ l ∈ x.logs, l.accuses = false := by
      refine candid.calm x known fun failed => ?_
      obtain ⟨error, -, outcome⟩ := candid.blamed x known failed
      obtain ⟨row', there, same⟩ := Option.map_eq_some_iff.1 outcome
      obtain rfl := Option.some.inj (there.symm.trans stored)
      exact unfailed (Prod.mk.inj same).1
    refine ⟨?_, calm⟩
    change ∀ s ∈ t.scene.spoken.filter (·.execution == id), s.accuses = false
    cases known : t.scene.execution? id with
    | none => simp [candid.unheard known]
    | some x =>
      obtain ⟨earlier, words, innocent⟩ := candid.heard x known
      rw [words, List.forall_mem_append]
      refine ⟨innocent, fun s there => ?_⟩
      obtain ⟨l, told, rfl⟩ := List.mem_map.1 there
      rw [l.accuses_spoken]
      exact calm x known l told

/-- A trigger with a delay behind it, a node that is not there, a loop around an action that nobody
knows, and a junction, to which the loop leads as well. -/
def writtenBroken : Value :=
  Workflow.written
    [Workflow.writtenNode "T" "trigger" [("triggerType", .text "created")],
      Workflow.writtenNode "D" "delay" [("amount", .int 5), ("unit", .text "seconds")],
      Workflow.writtenNode "L" "loop" [("iterations", .int 3)],
      Workflow.writtenNode "A" "action" [("actionType", .text "unknown"), ("config", .record [])],
      Workflow.writtenNode "J" "junction" []]
    [Workflow.writtenConnection "T" "D" .null, Workflow.writtenConnection "T" "N" .null,
      Workflow.writtenConnection "T" "L" .null,
      Workflow.writtenConnection "L" "A" (.text "body"), Workflow.writtenConnection "L" "J" (.text "exit"),
      Workflow.writtenConnection "T" "J" .null]

set_option maxRecDepth 100000 in
theorem blames_once_writtenBroken :
    ∃ (x : Execution) (before : List Spoken) (r : Remark),
      (bare.afterAll (onceThrough writtenBroken 10.0)).execution? "id-1" = some x ∧
      x.path = ["T", "D", "N", "L", "A"] ∧ r.Blames "Unknown action type: unknown" ∧
      (bare.afterAll (onceThrough writtenBroken 10.0)).wordsOf "id-1" =
        before ++ [r.spoken "id-1" x.path] ∧
      (∀ s ∈ before, s.accuses = false) ∧
      ((bare.afterAll (onceThrough writtenBroken 10.0)).storedLog "id-1").map (·.spoken) =
        (bare.afterAll (onceThrough writtenBroken 10.0)).wordsOf "id-1" := by
  have ends : ((bare.afterAll (onceThrough writtenBroken 10.0)).execution? "id-1").map
      (fun x => (x.status, x.error, x.path)) =
        some (.failed, some "Unknown action type: unknown", ["T", "D", "N", "L", "A"]) := by
    decide +kernel
  obtain ⟨x, known, same⟩ := Option.map_eq_some_iff.1 ends
  obtain ⟨failed, reason, path⟩ : x.status = .failed ∧ x.error = _ ∧ x.path = _ := by
    simpa only [Prod.mk.injEq] using same
  obtain ⟨told, -, stored⟩ := fresh_bare.blames_once (onceThrough writtenBroken 10.0)
    (fun op there => by simp [onceThrough] at there; rcases there with rfl | rfl | rfl <;> rfl)
    (by decide +kernel) "id-1"
  obtain ⟨before, own, r, error, words, -, innocent, -, -, blames, named, -⟩ := told x known failed
  obtain rfl := Option.some.inj (named.symm.trans reason)
  exact ⟨x, before, r, known, path, blames, words, innocent, stored rfl rfl⟩

end Engine

end Runbook
