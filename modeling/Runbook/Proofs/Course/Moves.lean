import Runbook.Proofs.Course.Alone
import Runbook.Proofs.Course.Sequel

/-!
Moves. Whatever happens to an engine is made of small changes, and each of them says what it finds:
an execution that is led on, or that comes to its end, is running in memory and in store. Only the
summary of an action may still be logged for an execution that is over, by a branch of its own that
was on the way.
-/
namespace Runbook

/-- Work on an execution that neither leads it on nor ends it, and that is not told in its log. -/
structure Execution.Minor (f : Execution → Execution) : Prop where
  status : ∀ x, (f x).status = x.status
  error : ∀ x, (f x).error = x.error
  path : ∀ x, (f x).path = x.path
  logs : ∀ x, (f x).logs = x.logs

/-- Neither the end of an execution nor the summary of an action. -/
def Remark.isPlain : Remark → Bool
  | .completed | .cancelled | .summary _ _ => false
  | _ => true

/-- It says that the execution itself has failed. -/
def Remark.isFault : Remark → Bool
  | .triggerless | .refused | .broken _ _ => true
  | _ => false

/-- It says why an execution fails: one of its nodes did, or it could not begin at all. -/
def Remark.Blames (r : Remark) (error : String) : Prop :=
  (∃ node, r = .broken node error) ∨ (r = .triggerless ∨ r = .refused) ∧ error = r.message

/-- With some remarks an execution ends in a certain way. -/
def Remark.Closes (r : Remark) : ExecutionStatus → Prop
  | .running => False
  | .completed => r = .completed
  | .cancelled => r = .cancelled
  | .failed => r.isPlain = true ∧ (r.level = .error ∨ ∃ node, r = .resumed node)

namespace Scene

variable {v w : Scene} {id : String} {x : Execution}

/-- An execution is running, in memory and in store. -/
structure Running (v : Scene) (id : String) (x : Execution) : Prop where
  known : v.execution? id = some x
  active : x.isActive = true
  row : ∃ row, v.row? id = some row ∧ row.status = .running

theorem Running.of_living {busy : List String} {picked : List Timer}
    (living : (v.aspect busy picked id).Living x) : v.Running id x :=
  ⟨living.known, living.active, living.row⟩

theorem Accounted.running {busy : List String} {picked : List Timer} (account : v.Accounted busy picked)
    (attended : id ∈ busy) (known : v.execution? id = some x) (active : x.isActive = true) :
    v.Running id x :=
  .of_living (account.living attended known active)

theorem Running.alter {f : Execution → Execution} (running : v.Running id x)
    (status : (f x).status = x.status) : (v.alter id f).Running id (f x) where
  known := by simp [running.known]
  active := by simpa [Execution.isActive, status] using running.active
  row := running.row

theorem Running.say (running : v.Running id x) (r : Remark) :
    (v.say id r).Running id { x with logs := x.logs ++ [r.entry x.path] } where
  known := by simp [running.known]
  active := running.active
  row := running.row

theorem Running.mark (running : v.Running id x) (node : String) (resumeAt : Instant) :
    (v.mark id node resumeAt).Running id x := ⟨running.known, running.active, running.row⟩

/-- Why an execution fails: a remark says it, or there is a marker with a number that no table can
hold, which could not be deleted. -/
def Cause (v : Scene) (r : Remark) (error : String) : Prop :=
  r.Blames error ∨ (∃ node, r = .resumed node) ∧ ∃ m ∈ v.markers, Store.fits m.id = false

theorem Cause.closes {r : Remark} {error : String} (cause : v.Cause r error) : r.Closes .failed := by
  rcases cause with (⟨node, rfl⟩ | ⟨rfl | rfl, -⟩) | ⟨⟨node, rfl⟩, -⟩
  · exact ⟨rfl, .inl rfl⟩
  · exact ⟨rfl, .inl rfl⟩
  · exact ⟨rfl, .inl rfl⟩
  · exact ⟨rfl, .inr ⟨node, rfl⟩⟩

end Scene

/-- A small change. Only executions of a certain kind have summaries logged. -/
inductive Move (own : String → Prop) : Scene → Scene → Prop where
  /-- Markers, timers and ids to come change, which no execution tells of. -/
  | besides {v w : Scene} (executions : w.execution? = v.execution?) (rows : w.row? = v.row?)
      (spoken : w.spoken = v.spoken) (registry : w.registry = v.registry)
      (markers : w.markers ⊆ v.markers) : Move own v w
  | alter {v : Scene} {id : String} {f : Execution → Execution} (minor : Execution.Minor f) :
      Move own v (v.alter id f)
  | say {v : Scene} {id : String} {x : Execution} {r : Remark} (running : v.Running id x)
      (plain : r.isPlain = true) (calm : r.isFault = false) : Move own v (v.say id r)
  /-- The marker of a delay is kept, and told. -/
  | mark {v : Scene} {id node : String} {x : Execution} {seconds : Float} {resumeAt : Instant}
      (running : v.Running id x) :
      Move own v ((v.mark id node resumeAt).say id (.delaying node seconds))
  | summarize {v : Scene} {id node text : String} {x : Execution} (mine : own id)
      (said : v.registry.Says text) (known : v.execution? id = some x) (unfailed : x.status ≠ .failed) :
      Move own v (v.say id (.summary node text))
  | enter {v : Scene} {id node : String} {x : Execution} (running : v.Running id x) :
      Move own v (v.alter id (·.enter node))
  | fail {v : Scene} {id error : String} {x : Execution} {r : Remark} (running : v.Running id x)
      (cause : v.Cause r error) : Move own v ((v.say id r).fail id error)
  | cancel {v : Scene} {id : String} {x : Execution} (running : v.Running id x) : Move own v (v.cancel id)
  | complete {v : Scene} {id : String} {x : Execution} (running : v.Running id x) :
      Move own v (v.complete id)
  | enrol {v : Scene} {x : Execution} {row : Store.ExecutionRow} {next : Nat}
      (unknown : v.execution? x.id = none) (unstored : v.row? x.id = none)
      (active : x.isActive = true) (running : row.status = .running) (untold : x.logs = []) :
      Move own v (v.enrol x row next)
  | revive {v : Scene} {x : Execution} {row : Store.ExecutionRow} (stored : v.row? x.id = some row)
      (running : row.status = .running) (active : x.isActive = true) (untold : x.logs = []) :
      Move own v (v.revive x)
  | abandon {v : Scene} {id error : String} {row : Store.ExecutionRow} (stored : v.row? id = some row)
      (running : row.status = .running) : Move own v (v.abandon id error)

/-- Changes one after the other. -/
abbrev Moves (own : String → Prop) : Scene → Scene → Prop := Relation.ReflTransGen (Move own)

namespace Scene

variable {own : String → Prop} {v w : Scene} {busy : List String} {picked : List Timer}
  {id node : String} {x : Execution} {r : Remark}

theorem moves_alter {f : Execution → Execution} (minor : Execution.Minor f) :
    Moves own v (v.alter id f) := .single (.alter minor)

theorem moves_untime : Moves own v (v.untime id) := by
  have dropped : Moves own v (v.alter id fun x => { x with timers := [] }) :=
    moves_alter ⟨fun _ => rfl, fun _ => rfl, fun _ => rfl, fun _ => rfl⟩
  exact dropped.tail (.besides rfl rfl rfl rfl (List.Subset.refl _))

theorem moves_say (running : v.Running id x) (plain : r.isPlain = true) (calm : r.isFault = false) :
    Moves own v (v.say id r) := .single (.say running plain calm)

theorem moves_enter (running : v.Running id x) (plain : r.isPlain = true) (calm : r.isFault = false) :
    Moves own v ((v.alter id (·.enter node)).say id r) :=
  Relation.ReflTransGen.tail (.single (.enter running)) (.say (running.alter rfl) plain calm)

theorem moves_arm (seconds : Float) (marker : Nat) : Moves own v (v.arm id node seconds marker) := by
  have waits : Moves own v (v.alter id fun x => { x with
      branches := x.branches + 1
      timers := Execution.addTimer x.timers node v.clock.nextTimer }) :=
    moves_alter ⟨fun _ => rfl, fun _ => rfl, fun _ => rfl, fun _ => rfl⟩
  exact waits.tail (.besides rfl rfl rfl rfl (List.Subset.refl _))

theorem moves_suspend (running : v.Running id x) (seconds : Float) (resumeAt : Instant) :
    Moves own v (v.suspend id node seconds resumeAt) :=
  Relation.ReflTransGen.trans (.single (.mark running)) (moves_arm seconds v.nextMarker)

/-- The last branch of a running execution completes it; any other is only counted off. -/
theorem moves_finish (known : v.execution? id = some x)
    (running : x.isActive = true → v.Running id x) : Moves own v (v.finish id) := by
  cases last : decide (x.branches - 1 ≤ 0) && x.isActive with
  | false =>
    rw [finish_of_more known last]
    exact moves_alter ⟨fun _ => rfl, fun _ => rfl, fun _ => rfl, fun _ => rfl⟩
  | true =>
    rw [finish_of_last known last]
    exact .single (.complete (running (Bool.and_eq_true_iff.1 last).2))

theorem moves_unarm (t : Timer) : Moves own v (v.unarm t) :=
  moves_alter ⟨fun _ => rfl, fun _ => rfl, fun _ => rfl, fun _ => rfl⟩

end Scene

/-- What an action does to its own execution does not fail it. -/
theorem Execution.Acts.unfailed {x y : Execution} (acts : x.Acts y) (active : x.isActive = true) :
    y.status ≠ .failed := by
  have running : x.status = .running := by simpa [Execution.isActive] using active
  obtain ⟨vars, rfl | ⟨-, rfl⟩⟩ := acts
  · change x.status ≠ .failed
    rw [running]
    decide
  · change ExecutionStatus.cancelled ≠ .failed
    decide

/-- A timer that is about to fire has its marker in store. -/
theorem Scene.Accounted.marker_of_due {v : Scene} {busy : List String} {picked : List Timer} {t : Timer}
    {x : Execution} (account : v.Accounted busy (t :: picked))
    (known : v.execution? t.execution = some x) (active : x.isActive = true) :
    ∃ m ∈ v.markers, m.id = t.marker := by
  obtain ⟨m, present, number, -⟩ := marked_of_due (account.living_of_due known active)
  exact ⟨m, present, number⟩

open Scene in
/-- Work on behalf of executions of a certain kind, to which all new ones belong, is made of moves. -/
theorem Works.moves {own : String → Prop} {j : Job} {v w : Scene} {busy : List String}
    {picked : List Timer} (work : Works j v w) (proper : v.Proper) (attended : j.Attended busy)
    (account : v.Accounted busy picked) (mine : ∀ k ∈ busy, own k)
    (new : ∀ n, v.next ≤ n → own (idText n)) : Moves own v w := by
  induction work generalizing busy with
  | idle | back | none | stopped | misjudged | misdelayed | given | exhausted | rest => exact .refl
  | again known active | bodiless known active =>
    exact moves_say (account.running attended known active) rfl rfl
  | missing known active => exact moves_enter (account.running attended known active) rfl rfl
  | handled known active admitted found work ih | lost known active admitted found work then_ past ih =>
    refine .trans (moves_enter (account.running attended known active) ?_ ?_)
      (ih (proper.keeps_enter _ _).proper attended (account.enter _ _) mine new) <;> rfl
  | @broken v w id node x y n f known active admitted found work then_ running ih =>
    have entered : Moves own v ((v.alter id (·.enter node)).say id (.processing node n)) :=
      moves_enter (account.running attended known active) rfl rfl
    have inside : ((v.alter id (·.enter node)).say id (.processing node n)).Proper :=
      (proper.keeps_enter _ _).proper
    have walked := ih inside attended (account.enter _ _) mine new
    have worked := work.accounted inside attended (account.enter _ _)
    exact (entered.trans walked).tail
      (.fail (worked.running attended then_ running) (.inl (.inl ⟨node, rfl⟩)))
  | next known active first others ih ihOthers =>
    have kept := first.keeps proper
    refine (ih proper attended account mine new).trans (ihOthers kept.proper attended
      (first.accounted proper attended account) mine fun n later => ?_)
    exact new n (Nat.le_trans kept.later later)
  | trigger known active kind rest ih | junction known active kind rest ih
  | judged known active kind value found rest ih | misacted known active kind rest ih =>
    refine .trans (moves_say (account.running attended known active) ?_ ?_)
      (ih (proper.say _) attended (account.say _) mine new) <;> rfl
  | unconnected known active =>
    have running := account.running attended known active
    exact Relation.ReflTransGen.tail (.single (.say running rfl rfl))
      (.say (running.say _) rfl rfl)
  | @action v w u id n x actionType text known active kind said work rest ih ihRest =>
    have told : Moves own v (v.say id (.executing n.id actionType)) :=
      moves_say (account.running attended known active) rfl rfl
    have acted := ih (proper.say _) attended (account.say _) mine new
    have kept := work.keeps (proper.say _)
    obtain ⟨y, acts, shown⟩ := (work.alone (l := v.limit) (proper.say _) rfl).turns _
      (turns_say (l := v.limit) _ known).after
    have summed : Moves own w (w.say id (.summary n.id text)) :=
      .single (.summarize (mine id attended) (kept.registry ▸ said) acts.after (shown.unfailed active))
    have left := work.accounted (proper.say _) attended (account.say _)
    refine ((told.trans acted).trans summed).trans (ihRest (kept.proper.say _) attended
      (left.say _) mine fun n later => ?_)
    exact new n (Nat.le_trans kept.later later)
  | delay known active => exact moves_suspend (account.running attended known active) _ _
  | @exit v w u id n x iterations body exit known active kind found idle work way rest ih ihRest =>
    have inside : (v.alter id fun x => { x with
        activeLoops := x.activeLoops ++ [n.id] }).Proper := proper.alter fun _ => rfl
    have begun := account.alter (i := id) (f := fun x => { x with
      activeLoops := x.activeLoops ++ [n.id] }) (fun _ => rfl) (fun _ => rfl) fun _ => rfl
    have kept := work.keeps inside
    have iterated := ih inside attended begun mine new
    have left := ihRest kept.proper attended (work.accounted inside attended begun) mine
      fun n later => new n (Nat.le_trans kept.later later)
    have into : Moves own v (v.alter id fun x => { x with activeLoops := x.activeLoops ++ [n.id] }) :=
      moves_alter ⟨fun _ => rfl, fun _ => rfl, fun _ => rfl, fun _ => rfl⟩
    exact ((into.trans iterated).trans left).trans
      (moves_alter ⟨fun _ => rfl, fun _ => rfl, fun _ => rfl, fun _ => rfl⟩)
  | @leave v w id n x iterations body done known active kind found idle work nowhere ih
  | @misiterated v w id n x iterations body f known active kind found idle work ih =>
    have inside : (v.alter id fun x => { x with
        activeLoops := x.activeLoops ++ [n.id] }).Proper := proper.alter fun _ => rfl
    have begun := account.alter (i := id) (f := fun x => { x with
      activeLoops := x.activeLoops ++ [n.id] }) (fun _ => rfl) (fun _ => rfl) fun _ => rfl
    have iterated := ih inside attended begun mine new
    have into : Moves own v (v.alter id fun x => { x with activeLoops := x.activeLoops ++ [n.id] }) :=
      moves_alter ⟨fun _ => rfl, fun _ => rfl, fun _ => rfl, fun _ => rfl⟩
    exact (into.trans iterated).trans
      (moves_alter ⟨fun _ => rfl, fun _ => rfl, fun _ => rfl, fun _ => rfl⟩)
  | @completed v id node body n x known active past =>
    have counted : Moves own v (v.alter id (·.setCounter node (x.counter node + 1))) :=
      moves_alter ⟨fun _ => rfl, fun _ => rfl, fun _ => rfl, fun _ => rfl⟩
    exact counted.trans (moves_say ((account.running attended known active).alter rfl) rfl rfl)
  | limited known => exact moves_alter ⟨fun _ => rfl, fun _ => rfl, fun _ => rfl, fun _ => rfl⟩
  | @iterated v w u id node body iterations x ending known active due first others ih ihOthers =>
    have counted : Moves own v (v.alter id (·.setCounter node (x.counter node + 1))) :=
      moves_alter ⟨fun _ => rfl, fun _ => rfl, fun _ => rfl, fun _ => rfl⟩
    have told := counted.trans (moves_say (r := .iteration node (x.counter node + 1) iterations)
      ((account.running attended known active).alter (f := (·.setCounter node (x.counter node + 1)))
        rfl) rfl rfl)
    have before := (proper.keeps_count known node).andThen fun counted =>
      counted.keeps_say (i := id) (.iteration node (x.counter node + 1) iterations)
    have begun : ((v.alter id (·.setCounter node (x.counter node + 1))).say id
        (.iteration node (x.counter node + 1) iterations)).Accounted busy picked :=
      (account.count _ _).say _
    have walked := ih before.proper attended begun mine new
    have kept := first.keeps before.proper
    have forgot : Moves own w (w.alter id fun y => { y with visited := x.visited }) :=
      moves_alter ⟨fun _ => rfl, fun _ => rfl, fun _ => rfl, fun _ => rfl⟩
    refine ((told.trans walked).trans forgot).trans (ihOthers (kept.proper.alter fun _ => rfl) attended
      ((first.accounted before.proper attended begun).alter (fun _ => rfl) (fun _ => rfl) fun _ => rfl)
      mine fun n later => ?_)
    exact new n (Nat.le_trans kept.later later)
  | @put v w id key value others ih =>
    have wrote : Moves own v (v.alter id fun x => { x with vars := Dict.put x.vars key value }) :=
      moves_alter ⟨fun _ => rfl, fun _ => rfl, fun _ => rfl, fun _ => rfl⟩
    exact wrote.trans (ih (proper.alter fun _ => rfl) attended
      (account.alter (fun _ => rfl) (fun _ => rfl) fun _ => rfl) mine new)
  | cancel known live active others ih =>
    have living := account.living_of_live live known
    exact .head (.cancel (.of_living living)) (ih proper.cancel attended (account.cancel living) mine new)
  | @serve v w id next later others ih =>
    have taken : Moves own v { v with next } := .single (.besides rfl rfl rfl rfl (List.Subset.refl _))
    exact taken.trans (ih (proper.keeps_next later).proper attended (account.next _) mine
      fun n more => new n (Nat.le_trans later more))
  | launch first others ih ihOthers =>
    have kept := first.keeps proper
    refine (ih proper trivial account mine new).trans (ihOthers kept.proper attended
      (first.accounted proper trivial account) mine fun n later => ?_)
    exact new n (Nat.le_trans kept.later later)
  | @started v w workflow module item triggerData vars n row trigger later opens sound found accepting
      work ih =>
    let x : Execution := .opening (idText n) workflow module item triggerData vars
    have begun := (proper.keeps_enrol (r := row) (x := x) later rfl).andThen
      fun enrolled => enrolled.keeps_say (i := idText n) (.started workflow.name)
    have enrolled := account.enrol (x := x) proper later opens rfl rfl rfl rfl
    obtain ⟨unknown, unstored⟩ := proper.fresh n later
    have born : Moves own v (v.enrol x row (n + 1)) := .single (.enrol unknown unstored rfl opens.status rfl)
    have there : (v.enrol x row (n + 1)).execution? (idText n) = some x :=
      (execution?_enrol ..).trans (if_pos rfl)
    have told := born.trans (moves_say (r := .started workflow.name)
      (enrolled.running (.head _) there rfl) rfl rfl)
    have walked := ih begun.proper (List.mem_cons_self ..) (enrolled.say _)
      (List.forall_mem_cons.2 ⟨new n later, mine⟩)
      fun m more => new m (Nat.le_trans later (Nat.le_trans (Nat.le_succ n) more))
    obtain ⟨y, there, -⟩ := (work.keeps begun.proper).further (idText n) _
      (v.execution?_begun (.started workflow.name) x row (n + 1))
    have left := work.accounted begun.proper (List.mem_cons_self ..) (enrolled.say _)
    exact (told.trans walked).trans (moves_finish there (left.running (.head _) there))
  | @stillborn v workflow module item triggerData vars n row reason later opens sound why =>
    let x : Execution := .opening (idText n) workflow module item triggerData vars
    have enrolled := account.enrol (x := x) proper later opens rfl rfl rfl rfl
    obtain ⟨unknown, unstored⟩ := proper.fresh n later
    have born : Moves own v (v.enrol x row (n + 1)) := .single (.enrol unknown unstored rfl opens.status rfl)
    have there : (v.enrol x row (n + 1)).execution? (idText n) = some x :=
      (execution?_enrol ..).trans (if_pos rfl)
    have running := enrolled.running (.head _) there rfl
    have told := born.trans (moves_say (r := .started workflow.name) running rfl rfl)
    exact told.tail (.fail (running.say _) (.inl (.inr ⟨why.imp And.left And.left, rfl⟩)))

open Scene in
theorem Resumes.moves {own : String → Prop} {t : Timer} {v w : Scene} {busy : List String}
    {picked : List Timer} (resumes : Resumes t v w) (proper : v.Proper)
    (account : v.Accounted busy (t :: picked)) (due : own t.execution) (mine : ∀ k ∈ busy, own k)
    (new : ∀ n, v.next ≤ n → own (idText n)) : Moves own v w := by
  have told := (proper.keeps_unarm t).andThen fun unarmed =>
    unarmed.keeps_say (i := t.execution) (.resumed t.node)
  have cleared := told.andThen fun told => told.keeps_unmark t.marker
  cases resumes with
  | @continued w x known active work =>
    have living := account.living_of_due known active
    have running : (v.unarm t).Running t.execution
        { x with timers := Execution.dropTimer x.timers t.node t.id } :=
      (Running.of_living living).alter rfl
    have taken := account.take living (.resumed t.node)
    have before : Moves own v (((v.unarm t).say t.execution (.resumed t.node)).unmark t.marker) :=
      ((moves_unarm t).trans (moves_say running rfl rfl)).tail
        (.besides rfl rfl rfl rfl (List.filter_subset_self _))
    have walked := work.moves cleared.proper (List.mem_cons_self ..) taken
      (List.forall_mem_cons.2 ⟨due, mine⟩) new
    obtain ⟨y, there, -⟩ := (cleared.andThen work.keeps).further t.execution x known
    have left := work.accounted cleared.proper (List.mem_cons_self ..) taken
    exact (before.trans walked).trans (moves_finish there (left.running (.head _) there))
  | @stuck x error known active unfit =>
    have living := account.living_of_due known active
    have running : (v.unarm t).Running t.execution
        { x with timers := Execution.dropTimer x.timers t.node t.id } :=
      (Running.of_living living).alter rfl
    have failed := account.takeAndFail living (.resumed t.node) error
    obtain ⟨m, there, number⟩ := account.marker_of_due known active
    have closed : Moves own v (((v.unarm t).say t.execution (.resumed t.node)).fail t.execution error) :=
      (moves_unarm t).tail (.fail running (.inr ⟨⟨t.node, rfl⟩, m, there, number ▸ unfit⟩))
    obtain ⟨y, there, -⟩ := (told.andThen fun told => told.keeps_fail error).further _ x known
    exact closed.trans (moves_finish there (failed.running (.head _) there))
  | @past x known ended =>
    have there : (v.unarm t).execution? t.execution =
        some { x with timers := Execution.dropTimer x.timers t.node t.id } := by
      simp [Scene.unarm, known]
    exact (moves_unarm t).trans (moves_finish there fun active => absurd (ended.symm.trans active) (by decide))

theorem Fires.moves {own : String → Prop} {ts : List Timer} {v w : Scene} {busy : List String}
    (fires : Fires ts v w) (proper : v.Proper) (account : v.Accounted busy ts)
    (due : ∀ t ∈ ts, own t.execution) (mine : ∀ k ∈ busy, own k)
    (new : ∀ n, v.next ≤ n → own (idText n)) : Moves own v w := by
  induction fires with
  | none => exact .refl
  | @next v w u t rest first others ih =>
    have kept := first.keeps proper
    refine (first.moves proper account (due t (.head _)) mine new).trans (ih kept.proper
      (first.accounted proper account) (fun s later => due s (.tail _ later)) fun n later => ?_)
    exact new n (Nat.le_trans kept.later later)

/-- What is done at once consists of moves. -/
theorem Deed.moves {own : String → Prop} {v w : Scene} (deed : Deed v w) (orderly : v.Orderly)
    (timed : ∀ t ∈ v.clock.timers, own t.execution) (new : ∀ n, v.next ≤ n → own (idText n)) :
    Moves own v w := by
  cases deed with
  | serve => exact .single (.besides rfl rfl rfl rfl (List.Subset.refl _))
  | start work => exact work.moves orderly.proper trivial orderly.account (by simp) new
  | cancel known live active =>
    exact .single (.cancel (.of_living (orderly.account.living_of_live live known)))
  | @advance w now fires =>
    have shifted : Moves own v (v.shift now) := .single (.besides rfl rfl rfl rfl (List.Subset.refl _))
    exact shifted.trans (fires.moves (orderly.proper.keeps_shift now).proper (orderly.account.shift now)
      (fun t due => timed t (Scene.mem_due due)) (by simp) new)

namespace Scene

variable {own : String → Prop} {v : Scene} {id : String} {x : Execution}

theorem moves_untimeAll (ids : List String) : Moves own v (ids.foldl untime v) := by
  induction ids generalizing v with
  | nil => exact .refl
  | cons id rest ih => exact moves_untime.trans ih

theorem moves_restarted (now : Float) : Moves own v (v.restarted now) :=
  (moves_untimeAll v.live).tail (.besides rfl rfl rfl rfl (List.Subset.refl _))

/-- The timers of a running execution are set again, and it goes on running. -/
theorem moves_rearmAll {ms : List Store.Marker} (mine : ∀ m ∈ ms, m.execution = id)
    (running : v.Running id x) (now : Instant) :
    Moves own v (ms.foldl (rearm now) v) ∧ ∃ y, (ms.foldl (rearm now) v).Running id y := by
  induction ms generalizing v x with
  | nil => exact ⟨.refl, x, running⟩
  | cons m rest ih =>
    obtain rfl := mine m (.head _)
    have armed : (rearm now v m).Running m.execution { x with
        logs := x.logs ++ [(Remark.restored m.node (Engine.remaining now m)).entry x.path]
        branches := x.branches + 1
        timers := Execution.addTimer x.timers m.node v.clock.nextTimer } :=
      ⟨by simp [execution?_rearm, running.known], running.active, running.row⟩
    obtain ⟨others, left⟩ := ih (fun n later => mine n (.tail _ later)) armed
    exact ⟨((moves_say running rfl rfl).trans (moves_arm _ m.id)).trans others, left⟩

end Scene

open Scene in
theorem Revives.moves {own : String → Prop} {id : String} {v w : Scene} (revives : Revives id v w)
    (orderly : v.Orderly) : Moves own v w := by
  cases revives with
  | @resumed now x ms waiting restored =>
    have anew := restored.anew
    obtain ⟨row, stored, status⟩ := (orderly.account.dormant waiting).row
    have stored : v.row? id = some row := stored
    have revived : Moves own v (v.revive x) :=
      .single (.revive (anew.named ▸ stored) status anew.active anew.logs)
    have running : (v.revive x).Running id x :=
      ⟨by simp [Scene.revive, anew.named], anew.active, row, stored, status⟩
    obtain ⟨armed, y, left⟩ : Moves own (v.revive x) (ms.foldl (rearm now) (v.revive x)) ∧
        ∃ y, (ms.foldl (rearm now) (v.revive x)).Running id y :=
      moves_rearmAll waiting.own running now
    rw [Scene.resumed, anew.named]
    exact (revived.trans armed).trans (moves_finish left.known fun _ => left)
  | @abandoned ms error waiting =>
    obtain ⟨row, stored, status⟩ := (orderly.account.dormant waiting).row
    exact .single (.abandon stored status)

/-- Every event consists of moves. -/
theorem Event.moves {own : String → Prop} {v w : Scene} (event : Event v w) (orderly : v.Orderly)
    (timed : ∀ t ∈ v.clock.timers, own t.execution) (new : ∀ n, v.next ≤ n → own (idText n)) :
    Moves own v w := by
  cases event with
  | deed deed => exact deed.moves orderly timed new
  | restart now => exact Scene.moves_restarted now
  | revive revives => exact revives.moves orderly

end Runbook
