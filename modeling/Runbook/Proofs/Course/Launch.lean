import Runbook.Proofs.Course.Walk

/-!
How executions begin follows the rules of work, for starts inside one another however deep. A branch
never leaves a failure behind: one that comes up fails the execution, and the branch is over.
-/
namespace Runbook

/-- A failure fails an execution that is still running. -/
def Scene.collapse (v : Scene) (id error : String) : Scene :=
  if v.isActive id then v.fail id error else v

theorem Scene.collapse_of_over {v : Scene} {id : String} {x : Execution}
    (known : v.execution? id = some x) (past : x.isActive = false) (error : String) :
    v.collapse id error = v := by
  simp [collapse, isActive, known, past]

theorem Scene.collapse_of_active {v : Scene} {id : String} {x : Execution}
    (known : v.execution? id = some x) (active : x.isActive = true) (error : String) :
    v.collapse id error = v.fail id error := by
  simp [collapse, isActive, known, active]

theorem Scene.Proper.keeps_collapse {v : Scene} {id : String} (proper : v.Proper) (error : String) :
    v.Keeps (v.collapse id error) := by
  unfold Scene.collapse
  split
  · exact proper.keeps_fail error
  · exact proper.keeps

namespace Engine

variable {v : Scene} {id : String} {x : Execution} {α : Type}

theorem plays_fail (proper : v.Proper) (known : v.execution? id = some x) (message : String) :
    Plays (fail id message) v (fun _ w => w = v.collapse id message) never := by
  cases active : x.isActive with
  | true =>
    rw [Scene.collapse_of_active known active]
    exact plays_fail_of_active known active (proper.stored id x known) proper.steady message
  | false =>
    rw [Scene.collapse_of_over known active]
    exact plays_fail_of_over known active message

/-- The fields that are bound say nothing about executions. -/
theorem agree_withFields {op op' : Run α} {good : α → Scene → Prop} {bad : Failure → Scene → Prop}
    (fields : Dict) (known : Agree op op' v good bad) :
    Agree (withFields fields op) (withFields fields op') v good bad := by
  have binding : ∀ (w : Scene) (d : Dict), Plays (modify fun e => { e with storage := { e.storage with
      journal := { e.storage.journal with bound := d } } }) w (fun _ u => u = w) never := by
    intro w d
    refine .modify fun e here => ?_
    rw [← here]
    rfl
  refine .get fun e _ => (binding v _).after fun _ => ?_
  refine .andAlways known (fun a w holds => ?_) fun f w holds => ?_
  · exact Agree.safe ((binding w _).imp (fun _ u here => here ▸ holds) fun _ _ h => h)
  · exact Agree.safe ((binding w _).imp (fun _ u here => here ▸ holds) fun _ _ h => h)

/-- A branch is run to its end, and a failure that comes up in it fails the execution. -/
theorem agree_runBranch {branch branch' : Run Unit} {m : Scene → Prop}
    {n : Failure → Scene → Prop} (report : String) (known : v.execution? id = some x)
    (run : Agree branch branch' v (fun _ w => m w) n)
    (onGood : ∀ w, m w → v.Keeps w) (onBad : ∀ f w, n f w → v.Keeps w) :
    Agree (runBranch id report branch) (runBranch id report branch') v
      (fun _ u => (∃ w, m w ∧ u = w.finish id) ∨
        ∃ f w, n f w ∧ u = (w.collapse id f.text).finish id) never := by
  have ending : ∀ w, v.Keeps w → Plays (branchFinished id) w (fun _ u => u = w.finish id) never := by
    intro w kept
    obtain ⟨y, there, -⟩ := kept.further id x known
    exact plays_branchFinished there (kept.proper.stored id y there) kept.proper.steady
  refine (plays_execution known).answer ?_
  refine .andThen (m := fun _ u => (∃ w, m w ∧ u = w.finish id) ∨
        ∃ f w, n f w ∧ u = (w.collapse id f.text).finish id) ?_ fun _ _ h => .pure h
  refine .observe (.andAlways (m := fun _ w => v.Keeps w ∧ (m w ∨ ∃ f u, n f u ∧
    w = u.collapse id f.text)) (n := never) ?_ ?_ fun _ _ h => h.elim)
  · refine .tryCatch (m := n) ((agree_withFields _ run).imp
      (fun _ w h => ⟨onGood w h, .inl h⟩) fun _ _ h => h) fun f w h => ?_
    refine (plays_note (by decide)).after fun _ => ?_
    have kept := onBad f w h
    obtain ⟨y, there, -⟩ := kept.further id x known
    refine (plays_fail kept.proper there f.text).imp (fun _ u here => ?_) fun _ _ h => h
    rw [here]
    exact ⟨kept.trans (kept.proper.keeps_collapse _), .inr ⟨f, w, h, rfl⟩⟩
  · rintro _ w ⟨kept, whole | ⟨f, u, broken, here⟩⟩
    · exact (ending w kept).imp (fun _ t end_ => .inl ⟨w, whole, end_⟩) fun _ _ h => h.elim
    · exact (ending w kept).imp (fun _ t end_ => .inr ⟨f, u, broken, here ▸ end_⟩)
        fun _ _ h => h.elim

/-- A new execution is found under its id, and the others as before. -/
theorem execution?_putExecution (e : Engine) (x : Execution) (k : String)
    (absent : e.execution? x.id = none) :
    (e.putExecution x).execution? k = if k = x.id then some x else e.execution? k := by
  have unknown : e.executions.any (·.id == x.id) = false := by
    simpa [execution?] using absent
  unfold putExecution
  simp only [unknown, Bool.false_eq_true, if_false]
  unfold execution? at absent ⊢
  rw [List.find?_append]
  by_cases wanted : k = x.id
  · subst wanted; simp [absent]
  · simp [wanted, Ne.symm wanted]

theorem plays_createExecution (proper : v.Proper) (workflow tenant triggerData module item : Value) :
    Plays (liftM (Storage.createExecution workflow tenant triggerData module item)) v
      (fun id w => ∃ n row, v.next ≤ n ∧ id = idText n ∧ row.Opens id ∧
        w = { v with row? := fun k => if k = id then some row else v.row? k, next := n + 1 })
      fun _ w => ∃ n, v.next ≤ n ∧ w = { v with next := n } := by
  refine .lift fun s same => ?_
  refine (Storage.ends_createExecution (same ▸ proper.steady) (fun n late => ?_) workflow tenant
    triggerData module item).imp ?_ ?_
  · rw [same] at late ⊢
    exact (proper.fresh n late).2
  · rintro id t ⟨n, row, later, here, opens, part⟩
    rw [same] at later
    exact ⟨n, row, later, here, opens, by rw [part, same]⟩
  · rintro _ t ⟨n, later, part⟩
    rw [same] at later
    exact ⟨n, later, by rw [part, same]⟩

/-- An execution becomes known. -/
theorem plays_putExecution (absent : v.execution? x.id = none) :
    Plays (modify fun e => e.putExecution x) v (fun _ w => w = { v with
      execution? := fun k => if k = x.id then some x else v.execution? k }) never := by
  refine .modify fun e here => ?_
  have before : e.execution? = v.execution? := congrArg Scene.execution? here
  have lookups := funext fun k => execution?_putExecution e x k (by rw [before]; exact absent)
  rw [before] at lookups
  have rest : (e.putExecution x).scene =
      { e.scene with execution? := (e.putExecution x).execution? } := rfl
  rw [rest, lookups, here]

/-- An execution that has just begun can be entered anywhere. -/
theorem deep_enough (x : Execution) : x.room < depthOf x := by
  have := x.room_le_length
  unfold depthOf
  omega

/-- An execution that cannot go on at once fails. -/
theorem plays_stillborn (reason : Remark) (proper : v.Proper) (known : v.execution? id = some x)
    (active : x.isActive = true) :
    Plays (do log reason.level id reason.message reason.node; fail id reason.message) v
      (fun _ w => w = (v.say id reason).fail id reason.message) never := by
  refine (plays_say reason known proper.steady).after fun _ => ?_
  have there : (v.say id reason).execution? id =
      some { x with logs := x.logs ++ [reason.entry x.path] } := by simp [known]
  have said := proper.say (i := id) reason
  exact plays_fail_of_active there active (said.stored id _ there) said.steady reason.message

theorem plays_startExecution {launch : Launch} (launches : Launches launch) (w : Workflow)
    (payload module item : Value) (sound : w.Sound) (proper : v.Proper) :
    Plays (startExecution launch w payload module item) v
      (fun child u => Works (.start child w) v u)
      fun _ u => ∃ n, v.next ≤ n ∧ u = { v with next := n } := by
  refine .bind (m := fun _ u => u = v) (.ofExcept (fun _ _ => rfl)
    fun _ _ => ⟨v.next, Nat.le_refl _, rfl⟩) fun triggerData u here => ?_
  rw [here]
  refine .bind (plays_createExecution proper _ _ _ _ _) ?_
  rintro child u ⟨n, row, later, rfl, opens, here⟩
  rw [here]
  let x : Execution := .opening (idText n) w module item triggerData (initialVariables triggerData w.vars)
  have absent : { v with row? := fun k => if k = idText n then some row else v.row? k
                         next := n + 1 }.execution? x.id = none := (proper.fresh n later).1
  refine (plays_putExecution absent).after fun _ => ?_
  refine (plays_live fun ids => ids ++ [x.id]).after fun _ => ?_
  change Agree _ _ (v.enrol x row (n + 1)) _ _
  refine (plays_note (by decide)).after fun _ => ?_
  have enrolled := proper.keeps_enrol (r := row) (x := x) later rfl
  have there : (v.enrol x row (n + 1)).execution? x.id = some x := by simp
  refine (plays_say (.started w.name) there enrolled.proper.steady).after fun _ => ?_
  have told := enrolled.trans (enrolled.proper.keeps_say (i := x.id) (.started w.name))
  have begun : ((v.enrol x row (n + 1)).say x.id (.started w.name)).execution? x.id =
      some { x with logs := x.logs ++ [(Remark.started w.name).entry x.path] } := by simp
  cases found : w.trigger? with
  | none =>
    dsimp only
    rw [← bind_assoc]
    refine .bind (m := fun _ u => Works (.start (idText n) w) v u) ?_ fun _ u work => .pure work
    refine Agree.safe ((plays_stillborn .triggerless told.proper begun rfl).imp (fun _ u here => ?_)
      fun _ _ h => h)
    rw [here]
    exact .stillborn later opens sound (.inl ⟨rfl, found⟩)
  | some trigger =>
    refine .bind (m := fun _ u => Works (.start (idText n) w) v u) ?_ fun _ u work => .pure work
    refine .get fun e here => .ite (fun accepting => ?_) fun closed => ?_
    · have open_ : v.accepting = true := by
        have same := congrArg Scene.accepting here
        rw [told.accepting] at same
        exact same.symm.trans accepting
      refine Agree.safe ((agree_runBranch (m := fun u => Works (.enter (idText n) trigger.id)
        ((v.enrol x row (n + 1)).say (idText n) (.started w.name)) u) (n := never) _ begun ?_
        (fun u walk => walk.keeps told.proper) fun _ _ h => h.elim).imp ?_ fun _ _ h => h)
      · exact (plays_execution begun).answer
          (plays_walk launches trigger.id told.proper begun (deep_enough _))
      · rintro _ u (⟨w, walk, here⟩ | ⟨_, _, impossible, _⟩)
        · rw [here]
          exact .started later opens sound found open_ walk
        · exact impossible.elim
    · have shut : v.accepting = false := by
        have same := congrArg Scene.accepting here
        rw [told.accepting] at same
        rw [← same]
        exact Bool.eq_false_iff.2 closed
      refine Agree.safe ((plays_stillborn .refused told.proper begun rfl).imp (fun _ u here => ?_)
        fun _ _ h => h)
      rw [here]
      exact .stillborn later opens sound (.inr ⟨rfl, shut⟩)

/-- Starts on behalf of actions follow the rules, however deep inside one another. -/
theorem launches_launchAt (depth : Nat) : Launches (launchAt depth) := by
  induction depth with
  | zero => exact fun v id workflow payload proper => .throw .rest
  | succ depth ih =>
    intro v id workflow payload proper
    refine .bind (m := fun w u => Works (.act id) v u ∧ w.Sound)
      ((plays_serve (Storage.quiet_loadWorkflow workflow.display) proper).answering fun e =>
        ends_storage.2 ((Storage.sound_loadWorkflow workflow.display _).imp (fun _ _ h => h)
          fun _ _ h => h)) ?_
    rintro w u ⟨loaded, sound⟩
    have kept := loaded.keeps proper
    refine (plays_startExecution ih w payload childModule .null sound kept.proper).imp ?_ ?_
    · intro child t work
      exact loaded.act_trans (.launch work .rest)
    · rintro _ t ⟨n, later, here⟩
      rw [here]
      exact loaded.act_trans (.serve later .rest)

theorem launches_launch : Launches launch := launches_launchAt nesting

end Engine

end Runbook
