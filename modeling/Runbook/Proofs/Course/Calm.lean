import Runbook.Proofs.Course.Accord
import Runbook.Proofs.Course.Share

/-!
Calm scenes. Where all workflows only assign variables, every marker keeps a snapshot that can be read
again, every row can be loaded, and so can the workflow that it names. All that executions do leaves a
scene calm.
-/
namespace Runbook

namespace Store

/-- The definition that rows hold under an id. -/
def definition? (rows : List WorkflowRow) (id : String) : Option Workflow :=
  (rows.find? (·.id == id)).bind fun row => (Workflow.parse row.record).toOption

/-- The row of an execution can be loaded. -/
def ExecutionRow.Loads (r : ExecutionRow) : Prop := ∃ data, r.load = .ok ⟨r, data⟩

theorem ExecutionRow.loads_iff {r : ExecutionRow} : r.Loads ↔
    (∃ d, (Read.dict (r.triggerData.orElse (.dict []))).within (.name "trigger_data") = .accepted d) ∧
      ∃ n, (Read.nullable Read.whole r.time).within (.name "execution_time_ms") = .accepted n := by
  unfold Loads ExecutionRow.load
  generalize (Read.dict (r.triggerData.orElse (.dict []))).within (.name "trigger_data") = data
  generalize (Read.nullable Read.whole r.time).within (.name "execution_time_ms") = time
  constructor
  · rintro ⟨d, loaded⟩
    cases data <;> cases time
    case accepted.accepted data cell => exact ⟨⟨data, rfl⟩, cell, rfl⟩
    all_goals cases loaded
  · rintro ⟨⟨d, rfl⟩, n, rfl⟩
    exact ⟨d, rfl⟩

/-- An end that is written into a row does not make it unreadable. -/
theorem ExecutionRow.Loads.close {r : ExecutionRow} (loads : r.Loads) (status : ExecutionStatus)
    (error : Option String) : (r.close status error).Loads :=
  loads_iff.2 ⟨(loads_iff.1 loads).1, some 0, rfl⟩

/-- A row can be loaded, and so can the workflow that it names, whose actions assign variables. -/
structure ExecutionRow.Kept (rows : List WorkflowRow) (r : ExecutionRow) : Prop where
  loads : r.Loads
  defined : ∃ w, definition? rows r.workflow = some w ∧ w.Gentle

end Store

/-- A change of an execution that touches neither its place in the engine nor its branches. -/
structure Execution.Mild (f : Execution → Execution) : Prop where
  id (x : Execution) : (f x).id = x.id
  workflow (x : Execution) : (f x).workflow = x.workflow
  status (x : Execution) : (f x).status = x.status
  timers (x : Execution) : (f x).timers = x.timers
  branches (x : Execution) : (f x).branches = x.branches
  untimed (x : Execution) : (f x).untimed = f x.untimed

theorem Execution.Pace.mild {f : Execution → Execution} (pace : Execution.Pace f) : Execution.Mild f := by
  cases pace <;> exact ⟨fun _ => rfl, fun _ => rfl, fun _ => rfl, fun _ => rfl, fun _ => rfl, fun _ => rfl⟩

theorem Execution.Mild.of_visited (visited : List String) :
    Mild fun x => { x with visited := visited } :=
  ⟨fun _ => rfl, fun _ => rfl, fun _ => rfl, fun _ => rfl, fun _ => rfl, fun _ => rfl⟩

theorem Execution.Mild.of_put (key : Key) (value : Value) :
    Mild fun x => { x with vars := Dict.put x.vars key value } :=
  ⟨fun _ => rfl, fun _ => rfl, fun _ => rfl, fun _ => rfl, fun _ => rfl, fun _ => rfl⟩

namespace Scene

variable {rows : List Store.WorkflowRow} {v w : Scene} {busy : List String} {picked : List Timer}
  {id : String} {x y : Execution} {f : Execution → Execution} {t : Timer}

/-- What can be read can be read again. -/
structure Tidy (rows : List Store.WorkflowRow) (v : Scene) : Prop where
  accepting : v.accepting = true
  assigns : v.registry.Assigns
  gentle : ∀ k x, v.execution? k = some x → x.workflow.Gentle
  ordered : (v.markers.map (·.id)).Pairwise (· < ·)
  legible : ∀ m ∈ v.markers, ∃ x : Execution, m.context = x.snapshot.stored
  kept : ∀ k r, v.row? k = some r → r.Kept rows
  defined : ∀ k x r, v.execution? k = some x → v.row? k = some r →
    Store.definition? rows r.workflow = some x.workflow

/-- A tidy scene in which every execution is accounted for, and every timer that is about to fire is
one of an execution that is known, set for a marker that can be deleted. -/
structure Calm (rows : List Store.WorkflowRow) (busy : List String) (picked : List Timer) (v : Scene) :
    Prop extends v.Tidy rows where
  proper : v.Proper
  account : v.Accounted busy picked
  timed : ∀ t ∈ picked, (v.execution? t.execution).isSome ∧ Store.fits t.marker = true

/-- What changes one execution, loses markers and writes ends into rows. -/
theorem Tidy.keep (tidy : v.Tidy rows) (id : String) (f : Execution → Execution)
    (executions : w.execution? = (v.alter id f).execution?)
    (workflow : ∀ x, v.execution? id = some x → (f x).workflow = x.workflow)
    (markers : w.markers.Sublist v.markers)
    (written : ∀ k r, w.row? k = some r → v.row? k = some r ∨
      ∃ q status error, v.row? k = some q ∧ r = q.close status error)
    (accepting : w.accepting = v.accepting) (registry : w.registry = v.registry) : w.Tidy rows where
  accepting := accepting.trans tidy.accepting
  assigns := registry ▸ tidy.assigns
  gentle k y known := by
    rw [executions, execution?_alter] at known
    split at known
    · rename_i own
      obtain ⟨x, there, rfl⟩ := Option.map_eq_some_iff.1 known
      rw [workflow x (own ▸ there)]
      exact tidy.gentle k x there
    · exact tidy.gentle k y known
  ordered := tidy.ordered.sublist (markers.map _)
  legible m there := tidy.legible m (markers.subset there)
  kept k r stored := by
    rcases written k r stored with same | ⟨q, status, error, same, rfl⟩
    · exact tidy.kept k r same
    · exact ⟨(tidy.kept k q same).loads.close status error, (tidy.kept k q same).defined⟩
  defined k y r known stored := by
    have same (x : Execution) (there : v.execution? k = some x) :
        Store.definition? rows r.workflow = some x.workflow := by
      rcases written k r stored with old | ⟨q, status, error, old, rfl⟩
      · exact tidy.defined k x r there old
      · exact tidy.defined k x q there old
    rw [executions, execution?_alter] at known
    split at known
    · rename_i own
      obtain ⟨x, there, rfl⟩ := Option.map_eq_some_iff.1 known
      rw [workflow x (own ▸ there)]
      exact same x there
    · exact same y known

theorem Tidy.alter (tidy : v.Tidy rows) (workflow : ∀ x : Execution, (f x).workflow = x.workflow) :
    (v.alter id f).Tidy rows :=
  tidy.keep id f rfl (fun x _ => workflow x) (.refl _) (fun _ _ stored => .inl stored) rfl rfl

theorem Tidy.close {s : ExecutionStatus} {e : Option String} (tidy : v.Tidy rows)
    (closed : v.Closed w id y s e) (known : v.execution? id = some x) (workflow : y.workflow = x.workflow)
    (accepting : w.accepting = v.accepting) (registry : w.registry = v.registry) : w.Tidy rows := by
  refine tidy.keep id (fun _ => y) ?_ (fun z there => ?_) ?_ (fun k r stored => ?_) accepting
    registry
  · rw [closed.execution]
    funext k
    by_cases own : k = id
    · subst own; simp [known]
    · simp [own]
  · rw [← Option.some.inj (known.symm.trans there)]
    exact workflow
  · rw [closed.markers]
    exact List.filter_sublist
  · rw [closed.row] at stored
    dsimp only at stored
    split at stored
    · obtain ⟨q, there, rfl⟩ := Option.map_eq_some_iff.1 stored
      exact .inr ⟨q, s, e, there, rfl⟩
    · exact .inl stored

theorem Tidy.suspend (tidy : v.Tidy rows) (node : String) (seconds : Float) (resumeAt : Instant) :
    (v.suspend id node seconds resumeAt).Tidy rows := by
  have markers : (v.suspend id node seconds resumeAt).markers = (v.mark id node resumeAt).markers := rfl
  have marked : (v.mark id node resumeAt).Tidy rows := by
    refine ⟨tidy.accepting, tidy.assigns, tidy.gentle, ?_, fun m there => ?_, tidy.kept, tidy.defined⟩
    · unfold mark
      rw [List.map_append, List.pairwise_append]
      refine ⟨tidy.ordered, ?_, fun a old b new => ?_⟩
      · cases v.execution? id <;> simp
      · obtain ⟨m, there, rfl⟩ := List.mem_map.1 old
        cases known : v.execution? id with
        | none => simp [known] at new
        | some x =>
          obtain rfl : b = v.nextMarker := by simpa [known] using new
          exact lt_nextMarker there
    · unfold mark at there
      rcases List.mem_append.1 there with old | new
      · exact tidy.legible m old
      · obtain ⟨x, -, rfl⟩ := Option.map_eq_some_iff.1 (Option.mem_toList.1 new)
        exact ⟨x, rfl⟩
  exact marked.keep id (fun x => x.waiting node seconds v.clock.nextTimer) (by
      funext k
      by_cases own : k = id <;> simp [Scene.suspend, mark, own, Function.comp_def, Execution.waiting,
        Execution.tell]) (fun _ _ => rfl) (markers ▸ .refl _) (fun _ _ stored => .inl stored) rfl rfl

namespace Calm

variable (calm : v.Calm rows busy picked)

include calm

/-- What keeps the executions that are known keeps the timers that are about to fire. -/
theorem timed_of (further : v.Extends w) :
    ∀ t ∈ picked, (w.execution? t.execution).isSome ∧ Store.fits t.marker = true := by
  intro t there
  obtain ⟨known, fits⟩ := calm.timed t there
  obtain ⟨x, held⟩ := Option.isSome_iff_exists.1 known
  obtain ⟨y, still, -⟩ := further _ x held
  exact ⟨Option.isSome_of_eq_some still, fits⟩

theorem alter (mild : Execution.Mild f) : (v.alter id f).Calm rows busy picked where
  toTidy := calm.toTidy.alter mild.workflow
  proper := calm.proper.alter mild.id
  account := calm.account.alter mild.status mild.timers mild.branches
  timed t there := by
    obtain ⟨known, fits⟩ := calm.timed t there
    refine ⟨?_, fits⟩
    rw [execution?_alter]
    split
    · rw [Option.isSome_map]
      exact known
    · exact known

theorem say (r : Remark) : (v.say id r).Calm rows busy picked where
  toTidy := calm.toTidy.keep id (·.tell r) rfl (fun _ _ => rfl) (.refl _)
    (fun _ _ stored => .inl stored) rfl rfl
  proper := calm.proper.say r
  account := calm.account.say r
  timed := calm.timed_of (extends_say r)

theorem suspend (living : (v.aspect busy picked id).Living x) (node : String) (seconds : Float)
    (resumeAt : Instant) : (v.suspend id node seconds resumeAt).Calm rows busy picked where
  toTidy := calm.toTidy.suspend node seconds resumeAt
  proper := calm.proper.suspend living.known node seconds resumeAt
  account := calm.account.suspend living node seconds resumeAt
  timed := calm.timed_of extends_suspend

theorem fail (living : (v.aspect busy picked id).Living x) (error : String) :
    (v.fail id error).Calm rows busy picked where
  toTidy := calm.toTidy.close (calm.account.closed_fail living error) living.known rfl rfl rfl
  proper := calm.proper.fail error
  account := calm.account.fail living error
  timed := calm.timed_of extends_fail

theorem cancel (living : (v.aspect busy picked id).Living x) : (v.cancel id).Calm rows busy picked where
  toTidy := calm.toTidy.close (calm.account.closed_cancel living) living.known rfl rfl rfl
  proper := calm.proper.cancel
  account := calm.account.cancel living
  timed := calm.timed_of extends_cancel

end Calm

/-- A branch comes to its end. -/
theorem Calm.finish (calm : v.Calm rows (id :: busy) picked) (known : v.execution? id = some x) :
    (v.finish id).Calm rows busy picked where
  toTidy := by
    cases last : decide (x.branches - 1 ≤ 0) && x.isActive with
    | false =>
      rw [finish_of_more known last]
      exact calm.toTidy.alter fun _ => rfl
    | true =>
      obtain ⟨few, active⟩ := Bool.and_eq_true_iff.1 last
      have closed := calm.account.closed_complete (List.mem_cons_self ..) known active (of_decide_eq_true few)
      rw [finish_of_last known last]
      exact calm.toTidy.close closed known rfl rfl rfl
  proper := calm.proper.finish
  account := calm.account.finish known
  timed := calm.timed_of extends_finish

/-- A timer that is about to fire is taken up. -/
theorem Calm.take (calm : v.Calm rows busy (t :: picked))
    (living : (v.aspect busy (t :: picked) t.execution).Living x) (r : Remark) :
    (((v.unarm t).say t.execution r).unmark t.marker).Calm rows (t.execution :: busy) picked where
  toTidy := (calm.toTidy.alter (f := fun x => { x with
      timers := Execution.dropTimer x.timers t.node t.id }) fun _ => rfl).keep t.execution
    (·.tell r) rfl (fun _ _ => rfl) List.filter_sublist (fun _ _ stored => .inl stored) rfl rfl
  proper := ((calm.proper.keeps_unarm t).proper.say r |>.keeps_unmark t.marker).proper
  account := calm.account.take living r
  timed s there := by
    obtain ⟨known, fits⟩ := calm.timed s (.tail _ there)
    refine ⟨?_, fits⟩
    simp only [frame_unmark, execution?_say, unarm, execution?_alter]
    split <;> simpa using known

/-- So is one of an execution that is over. -/
theorem Calm.past (calm : v.Calm rows busy (t :: picked)) (known : v.execution? t.execution = some x)
    (ended : x.isActive = false) : ((v.unarm t).finish t.execution).Calm rows busy picked := by
  have there : (v.unarm t).execution? t.execution =
      some { x with timers := Execution.dropTimer x.timers t.node t.id } := by simp [unarm, known]
  have dropped : (v.unarm t).Accounted busy (t :: picked) := calm.account.alter_of_over known ended
    (.inr ⟨t, List.mem_cons_self .., rfl⟩) ended
  have taken : (v.unarm t).Calm rows (t.execution :: busy) picked := by
    refine ⟨calm.toTidy.alter fun _ => rfl, (calm.proper.keeps_unarm t).proper,
      dropped.take_of_over fun y held => ?_, fun s later => ?_⟩
    · rw [← Option.some.inj (there.symm.trans held)]
      exact ended
    · obtain ⟨known, fits⟩ := calm.timed s (.tail _ later)
      refine ⟨?_, fits⟩
      simp only [unarm, execution?_alter]
      split <;> simpa using known
  exact taken.finish there

/-- The clock moves, while all markers can be deleted. -/
theorem Calm.shift (calm : v.Calm rows busy []) (fit : ∀ m ∈ v.markers, Store.fits m.id = true) (now : Float) :
    (v.shift now).Calm rows busy (v.due now) where
  toTidy := ⟨calm.accepting, calm.assigns, calm.gentle, calm.ordered, calm.legible, calm.kept, calm.defined⟩
  proper := (calm.proper.keeps_shift now).proper
  account := calm.account.shift now
  timed t there := by
    have known := calm.proper.timed t (mem_due there)
    refine ⟨known, ?_⟩
    have own : t ∈ (v.aspect busy [] t.execution).timers := List.mem_filter.2 ⟨mem_due there, by simp⟩
    cases calm.account.stands t.execution with
    | absent h => rw [h.nothing.1] at own; cases own
    | living x h =>
      obtain ⟨m, there, number⟩ := marked_of_living h (List.mem_append_left _ own)
      exact number ▸ fit m (List.mem_filter.1 there).1
    | dormant h => rw [h.timers.1] at own; cases own
    | past h => rw [h.nothing.1] at own; cases own

/-- An execution of a workflow that only assigns begins. -/
theorem Calm.enrol {row : Store.ExecutionRow} {n : Nat} (calm : v.Calm rows busy picked)
    (later : v.next ≤ n) (opens : row.Opens (idText n)) (kept : row.Kept rows)
    (defined : Store.definition? rows row.workflow = some x.workflow) (named : x.id = idText n)
    (gentle : x.workflow.Gentle) (active : x.isActive = true) (timers : x.timers = [])
    (branches : x.branches = 1) : (v.enrol x row (n + 1)).Calm rows (idText n :: busy) picked where
  accepting := calm.accepting
  assigns := calm.assigns
  gentle k y known := by
    rw [execution?_enrol] at known
    split at known
    · cases known; exact gentle
    · exact calm.gentle k y known
  ordered := calm.ordered
  legible := calm.legible
  kept k r stored := by
    change (if k = x.id then some row else v.row? k) = some r at stored
    split at stored
    · cases stored; exact kept
    · exact calm.kept k r stored
  defined k y r known stored := by
    rw [execution?_enrol] at known
    change (if k = x.id then some row else v.row? k) = some r at stored
    split at known
    · rename_i own
      rw [if_pos own] at stored
      cases known
      cases stored
      exact defined
    · rename_i other
      rw [if_neg other] at stored
      exact calm.defined k y r known stored
  proper := calm.proper.enrol later named
  account := calm.account.enrol calm.proper later opens named active timers branches
  timed := calm.timed_of (extends_enrol (named ▸ (calm.proper.fresh n later).1))

theorem Calm.restarted (calm : v.Calm rows [] []) (now : Float) : (v.restarted now).Calm rows [] [] where
  accepting := rfl
  assigns := by
    rw [show (v.restarted now).registry = v.registry from (v.frame_untimeAll v.live).2.2]
    exact calm.assigns
  gentle k y known := by
    change (v.live.foldl untime v).execution? k = some y at known
    rw [execution?_untimeAll] at known
    split at known
    · obtain ⟨x, there, rfl⟩ := Option.map_eq_some_iff.1 known
      exact calm.gentle k x there
    · exact calm.gentle k y known
  ordered := by
    rw [show (v.restarted now).toPart = v.toPart from (v.frame_untimeAll v.live).1]
    exact calm.ordered
  legible := by
    rw [show (v.restarted now).toPart = v.toPart from (v.frame_untimeAll v.live).1]
    exact calm.legible
  kept := by
    rw [show (v.restarted now).toPart = v.toPart from (v.frame_untimeAll v.live).1]
    exact calm.kept
  defined k y r known stored := by
    change (v.live.foldl untime v).execution? k = some y at known
    rw [show (v.restarted now).toPart = v.toPart from (v.frame_untimeAll v.live).1] at stored
    rw [execution?_untimeAll] at known
    split at known
    · obtain ⟨x, there, rfl⟩ := Option.map_eq_some_iff.1 known
      exact calm.defined k x r there stored
    · exact calm.defined k y r known stored
  proper := calm.proper.restarted now
  account := calm.account.restarted now
  timed := nofun

theorem Tidy.revive (tidy : v.Tidy rows) (gentle : x.workflow.Gentle)
    (defined : ∀ r, v.row? x.id = some r → Store.definition? rows r.workflow = some x.workflow) :
    (v.revive x).Tidy rows where
  accepting := tidy.accepting
  assigns := tidy.assigns
  gentle k y known := by
    change (if k = x.id then some x else v.execution? k) = some y at known
    split at known
    · cases known; exact gentle
    · exact tidy.gentle k y known
  ordered := tidy.ordered
  legible := tidy.legible
  kept := tidy.kept
  defined k y r known stored := by
    change (if k = x.id then some x else v.execution? k) = some y at known
    split at known
    · rename_i own
      cases known
      exact defined r (own ▸ stored)
    · exact tidy.defined k y r known stored

theorem Tidy.rearmAll (tidy : v.Tidy rows) (now : Instant) (ms : List Store.Marker) :
    (ms.foldl (Scene.rearm now) v).Tidy rows := by
  induction ms generalizing v with
  | nil => exact tidy
  | cons m rest ih =>
    refine ih (tidy.keep m.execution (fun x => { x with
      logs := x.logs ++ [(Remark.restored m.node (Engine.remaining now m)).entry x.path]
      branches := x.branches + 1
      timers := Execution.addTimer x.timers m.node v.clock.nextTimer }) ?_ (fun _ _ => rfl) (.refl _)
      (fun _ _ stored => .inl stored) rfl rfl)
    funext k
    rw [execution?_rearm, execution?_alter]

/-- An execution of a workflow that only assigns is taken up again. -/
theorem Calm.resumed {now : Instant} {ms : List Store.Marker} (calm : v.Calm rows [] [])
    (waiting : v.Waiting id ms) (anew : x.Anew id) (gentle : x.workflow.Gentle)
    (defined : ∀ r, v.row? id = some r → Store.definition? rows r.workflow = some x.workflow) :
    (v.resumed now x ms).Calm rows [] [] where
  toTidy := by
    rw [finish_resumed waiting.own anew waiting.some]
    exact ((calm.toTidy.revive gentle (anew.named ▸ defined)).rearmAll now ms).alter fun _ => rfl
  proper := calm.proper.resumed (by
    obtain ⟨row, stored, -⟩ := (calm.account.dormant waiting).row
    exact Option.isSome_of_eq_some (anew.named ▸ stored)) (anew.named ▸ waiting.own)
  account := calm.account.resumed waiting anew
  timed := nofun

end Scene

end Runbook
