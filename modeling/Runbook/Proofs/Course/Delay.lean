import Runbook.Proofs.Course.Alone

/-!
Delays. A delay that a running execution enters is set as a whole or not at all: with its marker and its
timer, both for the same point in time, or else the execution fails with the reason and keeps no marker and
no timer. Only an amount that is no number, or a negative one, counts as a misconfiguration; a number that
leads to no point in time fails as it comes.
-/
namespace Runbook

namespace Engine

/-- How long a delay lasts that begins at some time, and when it is over. -/
def delayFrom (now : Float) (vars : Dict) (node : String) (amount : Value) (unit : String) :
    Except Failure (Float × Instant) := do
  let seconds ← delaySeconds vars node amount unit
  return (seconds, ← Instant.ofSeconds (now + seconds))

/-- Why a delay is refused: it is misconfigured, its amount is an integer beyond all floats, or the point in
time does not exist. -/
theorem delayFrom_error {now : Float} {vars : Dict} {node unit : String} {amount : Value} {f : Failure}
    (refused : delayFrom now vars node amount unit = .error f) :
    (∃ reason, f = .program (.delayMisconfigured reason node)) ∨ f = Comparison.tooLarge ∨
      ∃ seconds, delaySeconds vars node amount unit = .ok seconds ∧
        Instant.ofSeconds (now + seconds) = .error f := by
  unfold delayFrom at refused
  cases length : delaySeconds vars node amount unit with
  | error g =>
    rw [length] at refused
    obtain rfl : g = f := Except.error.inj refused
    unfold delaySeconds at length
    cases read : delayAmount node amount (Template.resolve vars amount) with
    | ok a =>
      rw [read] at length
      change (if a < 0.0 then _ else _) = _ at length
      split at length <;> cases length
      exact .inl ⟨_, rfl⟩
    | error h =>
      rw [read] at length
      obtain rfl : h = g := Except.error.inj length
      unfold delayAmount at read
      dsimp only at read
      repeat' split at read
      all_goals cases read
      · exact .inr (.inl rfl)
      all_goals exact .inl ⟨_, rfl⟩
  | ok seconds =>
    rw [length] at refused
    cases due : Instant.ofSeconds (now + seconds) with
    | error g =>
      refine .inr (.inr ⟨seconds, rfl, ?_⟩)
      change (Instant.ofSeconds (now + seconds) >>= fun t => pure (seconds, t)) = _ at refused
      rw [due] at refused
      obtain rfl : g = f := Except.error.inj refused
      exact due
    | ok t =>
      change (Instant.ofSeconds (now + seconds) >>= fun t => pure (seconds, t)) = _ at refused
      rw [due] at refused
      cases refused

variable {v : Scene} {id node unit : String} {amount : Value} {x : Execution} {n : Node}
  {busy : List String} {picked : List Timer}

/-- A delay is set as a whole, or it is refused and nothing has changed. -/
theorem plays_delay (proper : v.Proper) (known : v.execution? id = some x) (active : x.isActive = true) :
    Plays (runDelay id n amount unit) v
      (fun _ w => ∃ seconds resumeAt, delayFrom v.clock.now x.vars n.id amount unit = .ok (seconds, resumeAt) ∧
        w = v.suspend id n.id seconds resumeAt)
      fun f w => delayFrom v.clock.now x.vars n.id amount unit = .error f ∧ w = v := by
  refine (plays_execution known).answer ?_
  refine .bind (m := fun seconds w => w = v ∧ delaySeconds x.vars n.id amount unit = .ok seconds)
    (.ofExcept (fun _ length => ⟨rfl, length⟩) fun f why => ⟨by simp [delayFrom, why, bind, Except.bind], rfl⟩) ?_
  rintro seconds w ⟨rfl, length⟩
  refine .get fun e here => ?_
  have clock : e.clock = w.clock := by rw [← here]; rfl
  rw [clock]
  refine .bind (m := fun resumeAt u => u = w ∧ Instant.ofSeconds (w.clock.now + seconds) = .ok resumeAt)
    (.ofExcept (fun _ due => ⟨rfl, due⟩) fun f why => ⟨by simp [delayFrom, length, why, bind, Except.bind], rfl⟩) ?_
  rintro resumeAt u ⟨rfl, due⟩
  refine Agree.safe ((plays_delayFor proper known active n.id seconds resumeAt).imp (fun _ w here => ?_)
    fun _ _ h => h)
  exact ⟨seconds, resumeAt, by simp [delayFrom, length, due, bind, Except.bind, pure, Except.pure], here⟩

end Engine

/-- What is left of a delay that an execution has entered in a scene. -/
inductive Scene.Delayed (v : Scene) (id node : String) : Except Failure (Float × Instant) → Scene → Prop where
  /-- One marker and one timer were added, which belong to it. -/
  | set {w : Scene} {seconds : Float} {resumeAt : Instant} (m : Store.MarkerRow) (t : Timer)
      (markers : w.markers = v.markers ++ [m]) (timers : w.clock.timers = v.clock.timers ++ [t])
      (marks : m.execution = id ∧ m.node = node ∧ m.resumeAt = resumeAt)
      (fires : t.execution = id ∧ t.node = node ∧ t.marker = m.id ∧ t.due = v.clock.now + seconds) :
      Delayed v id node (.ok (seconds, resumeAt)) w
  /-- The execution has failed, and nothing of it waits. -/
  | refused {w : Scene} {f : Failure} (failed : (w.execution? id).map (fun x => (x.status, x.error)) =
        some (.failed, some f.text))
      (markers : ∀ m ∈ w.markers, m.execution ≠ id) (timers : ∀ t ∈ w.clock.timers, t.execution ≠ id) :
      Delayed v id node (.error f) w

namespace Scene.Delayed

variable {v : Scene} {id node : String} {x : Execution} {busy : List String} {picked : List Timer}

theorem suspend (known : v.execution? id = some x) (node : String) (seconds : Float) (resumeAt : Instant) :
    v.Delayed id node (.ok (seconds, resumeAt)) (v.suspend id node seconds resumeAt) :=
  .set ⟨v.nextMarker, id, node, resumeAt, x.snapshot.stored⟩
    ⟨v.clock.nextTimer, v.clock.now + seconds, id, node, v.nextMarker⟩
    (by simp [Scene.suspend, arm, say, mark, known, alter]) rfl ⟨rfl, rfl, rfl⟩ ⟨rfl, rfl, rfl, rfl⟩

theorem fail (account : v.Accounted (id :: busy) picked) (known : v.execution? id = some x)
    (active : x.isActive = true) (f : Failure) : v.Delayed id node (.error f) (v.fail id f.text) := by
  have closed := account.closed_fail (account.living (List.mem_cons_self ..) known active) f.text
  refine .refused ?_ (fun m there => ?_) fun t there => ?_
  · rw [closed.known]
    rfl
  · rw [closed.markers] at there
    simpa using (List.mem_filter.1 there).2
  · rw [closed.clock] at there
    simpa using (List.mem_filter.1 there).2

/-- What an execution says on the way adds neither markers nor timers. -/
theorem of_same {u w : Scene} {d : Except Failure (Float × Instant)} (delayed : u.Delayed id node d w)
    (markers : u.markers = v.markers) (clock : u.clock = v.clock) : v.Delayed id node d w := by
  cases delayed with
  | set m t marked timed marks fires => exact .set m t (markers ▸ marked) (clock ▸ timed) marks (clock ▸ fires)
  | refused failed markers timers => exact .refused failed markers timers

end Scene.Delayed

namespace Engine

variable {v : Scene} {id node unit : String} {amount : Value} {x : Execution} {n : Node}
  {busy : List String} {picked : List Timer}

/-- A delay that a running execution enters is set with one marker and one timer for the same point in time,
or the execution fails with the reason, and none of its markers and timers is left. -/
theorem plays_enterDelay {launch : Launch} {short : Run Bool} {enter : String → Run Unit} (proper : v.Proper)
    (account : v.Accounted (id :: busy) picked) (known : v.execution? id = some x) (active : x.isActive = true)
    (found : x.workflow.node? node = some n) (kind : n.kind = .delay amount unit)
    (new : x.visited.contains node = false) :
    Plays (enterNode launch short enter id node) v
      (fun _ w => v.Delayed id n.id (delayFrom v.clock.now x.vars n.id amount unit) w) never := by
  let y := (x.enter node).tell (.processing node n)
  let u := (v.alter id (·.enter node)).say id (.processing node n)
  have entered : (v.alter id (·.enter node)).Proper := proper.alter fun _ => rfl
  have there : (v.alter id (·.enter node)).execution? id = some (x.enter node) := by simp [known]
  have told : u.Proper := entered.say _
  have held : u.execution? id = some y := by simp [u, y, known, Execution.enter, Execution.tell]
  have counted : u.Accounted (id :: busy) picked := account.enter node _
  have same (d : Except Failure (Float × Instant)) {w : Scene} (delayed : u.Delayed id n.id d w) :
      v.Delayed id n.id d w := delayed.of_same rfl rfl
  refine (plays_execution known).answer ?_
  have ordinary : n.isLoop = false := by simp [Node.isLoop, kind]
  simp only [active, found, new, ordinary, Option.any_some, Bool.not_true, Bool.false_and, Bool.false_eq_true,
    if_false]
  refine (plays_modifyExecution (by intro; rfl)).after fun _ => ?_
  refine (plays_say (.processing node n) there entered.steady).after fun _ => ?_
  unfold runNode
  rw [kind]
  refine .tryCatch ((plays_delay told held active).imp ?_ fun _ _ h => h) ?_
  · rintro _ w ⟨seconds, resumeAt, due, rfl⟩
    rw [show delayFrom v.clock.now x.vars n.id amount unit = .ok (seconds, resumeAt) from due]
    exact same _ (.suspend held n.id seconds resumeAt)
  · rintro f w ⟨why, rfl⟩
    rw [show delayFrom v.clock.now x.vars n.id amount unit = .error f from why]
    refine (plays_isActive held).answer ?_
    rw [if_pos (show y.isActive = true from active)]
    have broken : (u.say id (.broken node f.text)).execution? id = some (y.tell (.broken node f.text)) := by
      simp [held, Execution.tell]
    refine (plays_say (.broken node f.text) held told.steady).after fun _ => ?_
    refine (plays_fail_of_active broken active ((told.say _).stored id _ broken) (told.say _).steady f.text).imp
      (fun _ w here => ?_) fun _ _ h => h
    rw [here]
    exact same _ ((Scene.Delayed.fail (counted.say _) broken active f).of_same rfl rfl)

/-- An integer beyond all floats, and a text that is no point in time, fail without being misconfigured. -/
example : (delayFrom 0.0 [] "D" (.int (10 ^ 400)) "seconds" matches .error (.plain .overflow _)) = true ∧
    (delayFrom 0.0 [] "D" (.text "nan") "seconds" matches .error (.plain .value _)) = true ∧
    (delayFrom 0.0 [] "D" (.text "soon") "seconds" matches .error (.program (.delayMisconfigured _ _))) = true := by
  decide +kernel

end Engine

end Runbook
