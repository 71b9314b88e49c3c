import Runbook.Proofs.Course.Once
import Runbook.Proofs.Course.Passage

/-!
Where a walk leaves its execution. Whatever a walk comes by, and however it ends, all executions have
proceeded: a loop adds itself to those that iterate and replaces what was visited, but it takes both
back on every way out. Actions may start other executions meanwhile, which walk in the same manner.
-/
namespace Runbook

/-- Goes on within a limit, and fails beyond it. -/
theorem Keeps.limited {I : Engine → Prop} {α : Type} {x : Run α} (keeps : Keeps I x) (node : String)
    (count : Int) : Keeps I (do
      match (← MonadState.get).loopLimit with
      | some limit => if limit < count then MonadExcept.throw (.program (.loopLimit node limit))
      | none => Pure.pure ()
      x) := by
  refine .get fun e => ?_
  cases e.loopLimit with
  | none => exact keeps
  | some l => exact .ite (fun _ => .bind (.throw _) fun _ => keeps) fun _ => keeps

namespace Engine

/-- The engine, with a loop of an execution not counted as iterating. -/
def without (e : Engine) (id node : String) : Engine := e.alter id (·.without node)

variable {α : Type} {e t u : Engine} {id node : String} {x : Execution}

theorem execution?_without (e : Engine) (id node k : String) : (e.without id node).execution? k =
    if k = id then (e.execution? k).map (·.without node) else e.execution? k :=
  execution?_alter (f := (·.without node)) (fun _ => rfl) e id k

theorem unknown_without {k : String} : (e.without id node).execution? k = none ↔ e.execution? k = none := by
  rw [execution?_without]
  split <;> simp

theorem remembered_without (k : String) : (e.without id node).remembered k = e.remembered k := by
  unfold remembered
  rw [execution?_without]
  split
  · rw [Option.map_map]
    rfl
  · rfl

namespace Proceeds

/-- Without a loop of an execution an engine proceeds as well; that loop may begin iterations. -/
theorem without (proceeds : t.Proceeds u) (id node : String) :
    (t.without id node).Proceeds (u.without id node) where
  words := proceeds.words
  later := proceeds.later
  come := proceeds.come
  vacant n late := unknown_without.2 (proceeds.vacant n late)
  known k x known := by
    rw [execution?_without] at known ⊢
    split at known
    · rename_i own
      obtain ⟨x, before, rfl⟩ := Option.map_eq_some_iff.1 known
      obtain ⟨y, there, onward⟩ := proceeds.known k x before
      exact ⟨y.without node, by simp [own ▸ there, own], onward.without node⟩
    · rename_i other
      obtain ⟨y, there, onward⟩ := proceeds.known k x known
      exact ⟨y, by simp [other, there], onward⟩
  born k z unknown there := by
    rw [unknown_without] at unknown
    rw [execution?_without] at there
    split at there
    · obtain ⟨y, after, rfl⟩ := Option.map_eq_some_iff.1 there
      obtain ⟨new, x, path, logs, onward⟩ := proceeds.born k y unknown after
      exact ⟨new, x.without node, path, logs, onward.without node⟩
    · exact proceeds.born k z unknown there
  stored := proceeds.stored
  fewer := proceeds.fewer
  mirrors none k := by
    rw [remembered_without, remembered_without]
    exact proceeds.mirrors none k

/-- What an execution has visited meanwhile is forgotten. -/
theorem forget (known : t.execution? id = some x) (proceeds : t.Proceeds u) :
    t.Proceeds (u.alter id fun y => { y with visited := x.visited }) := by
  have found := execution?_alter (f := fun y => { y with visited := x.visited }) (fun _ => rfl) u id
  refine { proceeds with
    vacant := fun n late => ?_
    known := fun k y there => ?_
    born := fun k z unknown there => ?_
    mirrors := fun none k => ?_ }
  · rw [found, proceeds.vacant n late]
    split <;> rfl
  · obtain ⟨z, after, onward⟩ := proceeds.known k y there
    rw [found, after]
    split
    · rename_i own
      obtain rfl : x = y := Option.some.inj (known.symm.trans (own ▸ there))
      exact ⟨_, rfl, onward.forget⟩
    · exact ⟨z, rfl, onward⟩
  · have other : k ≠ id := by
      rintro rfl
      rw [known] at unknown
      cases unknown
    rw [found, if_neg other] at there
    exact proceeds.born k z unknown there
  · obtain ⟨made, logs, rows⟩ := proceeds.mirrors none k
    refine ⟨made, Eq.trans ?_ logs, rows⟩
    unfold remembered
    rw [found]
    split
    · rw [Option.map_map]
      rfl
    · rfl

end Proceeds

/-- Inside of a loop, too, what leads on from every state keeps what was reached from another one. -/
theorem onward_inside {y : Run α} (goes : ∀ e : Engine, Keeps e.Proceeds y) (id node : String) :
    Keeps (fun t => e.Proceeds (t.without id node)) y := by
  intro t reached
  have vacant : t.Vacant := fun n late => unknown_without.1 (reached.vacant n late)
  exact (goes t t (.refl vacant)).imp (fun _ _ more => reached.trans (more.without id node))
    fun _ _ more => reached.trans (more.without id node)

/-! What nodes are for. -/

section Walk

variable {enter : String → Run Unit} (ways : ∀ (e : Engine) node, Keeps e.Proceeds (enter node))

include ways

theorem onward_followEach (connections : List Connection) :
    Keeps e.Proceeds (followEach enter id connections) := by
  induction connections with
  | nil => exact .pure _
  | cons c rest ih =>
    exact .bind (.isActive id) fun _ => .ite (fun _ => .bind (ways e c.target) fun _ => ih) fun _ => .pure _

theorem onward_follow (node : String) : Keeps e.Proceeds (follow enter id node) :=
  .bind (.execution id) fun _ => onward_followEach ways _

theorem onward_runCondition (n : Node) (c : Condition) : Keeps e.Proceeds (runCondition enter id n c) := by
  refine .bind (.execution id) fun x => ?_
  cases c.evaluate x.vars with
  | error f => exact .throw _
  | ok result =>
    refine .bind (onward_aside (r := .evaluated n.id c result) rfl) fun _ => ?_
    cases x.workflow.connection? n.id (truthName result) with
    | none => exact onward_aside (r := .unconnected n.id (truthName result)) rfl
    | some connection => exact ways e connection.target

/-- Each iteration begins with one more on the counter of the loop, and what was visited in the body
is forgotten at its end. -/
theorem onward_iterate {short : Run Bool} (shortly : ∀ e : Engine, Keeps e.Proceeds short) (body : String)
    (iterations : Option Nat) (rounds : Nat) :
    Keeps (fun t => e.Proceeds (t.without id node)) (iterate short enter id node body iterations rounds) := by
  have tells {r : Remark} (aside : r.isAside = true) :
      Keeps (fun t => e.Proceeds (t.without id node)) (log r.level id r.message r.node) :=
    onward_inside (fun _ => onward_aside aside) id node
  induction rounds with
  | zero => exact onward_inside shortly id node
  | succ rounds ih =>
    refine .lookUp fun t x reached known => Ends.ite_iff.2 ⟨fun _ => Ends.pure_iff.2 reached, fun _ => ?_⟩
    have counted : (t.without id node).Proceeds
        ((t.alter id (·.setCounter node (x.counter node + 1))).without id node) := by
      have found (k : String) :
          ((t.alter id (·.setCounter node (x.counter node + 1))).without id node).execution? k =
            if k = id then ((t.without id node).execution? k).map (·.setCounter node (x.counter node + 1))
            else (t.without id node).execution? k := by
        rw [execution?_without, execution?_without, execution?_alter (by intro; rfl)]
        split
        · rw [Option.map_map, Option.map_map]
          rfl
        · rfl
      refine .alter reached.vacant rfl rfl found fun y there => ?_
      rw [execution?_without, if_pos rfl, known] at there
      cases there
      exact ⟨.count (x.not_mem_without node), rfl⟩
    have turn : Keeps (fun t => e.Proceeds (t.without id node)) (do
        logInfo id ("Loop iteration " ++ toString (x.counter node + 1) ++ "/" ++
          ((iterations.map toString).getD "infinite")) node
        let before := (← execution id).visited
        enter body
        modifyExecution id fun x => { x with visited := before }
        iterate short enter id node body iterations rounds) := by
      refine .bind (tells (r := .iteration node (x.counter node + 1) iterations) rfl) fun _ => ?_
      refine .lookUp fun t y reached known => ?_
      have vacant : t.Vacant := fun n late => unknown_without.1 (reached.vacant n late)
      refine Ends.bind ((ways t body t (.refl vacant)).imp (fun _ u walked => ?_)
        fun _ u walked => reached.trans (walked.without id node))
      refine Ends.bind (Ends.modify_iff.2 (ih _ ?_))
      exact reached.trans ((walked.forget known).without id node)
    refine Ends.bind (Ends.modify_iff.2 ?_)
    refine (?_ : Keeps (fun t => e.Proceeds (t.without id node)) _) _ (reached.trans counted)
    cases iterations with
    | none => exact turn.limited node _
    | some n =>
      exact .ite (fun _ => .bind (tells (r := .looped node n) rfl) fun _ => .pure _) fun _ => turn.limited node _

/-- A loop that does not iterate yet is left as one that does not iterate any more, on every way out. -/
theorem ends_runLoop {short : Run Bool} (shortly : ∀ e : Engine, Keeps e.Proceeds short) (vacant : e.Vacant)
    {n : Node} (known : e.execution? id = some x) (idle : n.id ∉ x.activeLoops) (iterations : Option Nat) :
    Ends (runLoop short enter id n iterations) e (fun _ t => e.Proceeds t) fun _ t => e.Proceeds t := by
  refine Ends.bind ((Ends.ok_iff (execution_of_known known)).2 ?_)
  cases x.workflow.connection? n.id "body" with
  | none => exact onward_aside (r := .bodiless n.id) rfl e (.refl vacant)
  | some body =>
    have begun : e.Proceeds ((e.alter id (·.within n.id)).without id n.id) := by
      refine .aside vacant (.of_eq rfl) (fun _ said => said) fun k => ?_
      rw [execution?_without, execution?_alter (by intro; rfl)]
      split
      · rename_i own
        rw [own, known]
        exact congrArg some (Execution.without_within idle)
      · rfl
    refine Ends.bind (Ends.modify_iff.2 (ends_andAlways.2 ?_))
    refine ((?_ : Keeps (fun t => e.Proceeds (t.without id n.id)) _) _ begun).imp
      (fun _ _ left => Ends.modify_iff.2 left) fun _ _ left => Ends.modify_iff.2 left
    refine .get fun _ => .bind (onward_iterate ways shortly _ _ _) fun _ => .ite (fun _ => ?_) fun _ => .pure _
    cases x.workflow.connection? n.id "exit" with
    | none => exact .pure _
    | some exit => exact onward_inside (fun e => ways e exit.target) id n.id

end Walk

/-! Actions. -/

theorem onward_cancel (k : String) : Keeps e.Proceeds (cancel k) :=
  .get fun t => by
    cases t.liveExecution? k with
    | none => exact .bind (manner_proceeds e).noted fun _ => .pure _
    | some x => exact (manner_proceeds e).cancelled trivial x

section Launch

variable {launch : Launch} (launches : ∀ (e : Engine) workflow payload,
  Keeps e.Proceeds (launch workflow payload))

include launches

theorem onward_perform (r : Action.Request) : Keeps e.Proceeds (perform launch r) := by
  cases r with
  | cancel execution => exact onward_cancel _
  | start workflow payload => exact launches e workflow payload
  | createTicket draft => exact onward_errand (.createTicket draft)
  | updateTicket ticket updates => exact onward_errand (.updateTicket ticket updates)
  | assignTicket ticket assignee => exact onward_errand (.assignTicket ticket _)
  | notify announcement => exact onward_errand (.notify announcement)
  | createArticle draft => exact onward_errand (.createArticle draft)
  | http method url headers body timeout =>
    refine .get fun _ => .bind (.ofExcept _) fun request => .get fun t => .bind ?_ fun _ => .ofExcept _
    exact onward_modify (fun _ => rfl) (fun _ => rfl) fun _ => rfl

/-- An action answers what its script may answer. -/
theorem onward_script (script : Action.Script α) (reached : e.Proceeds t) :
    Ends (script.run (perform launch) (putVariable id)) t
      (fun a u => e.Proceeds u ∧ script.MayAnswer a) fun _ u => e.Proceeds u := by
  induction script generalizing t with
  | done a => exact Ends.pure_iff.2 ⟨reached, .done⟩
  | fail f => exact Ends.throw_iff.2 reached
  | put key v next ih =>
    have puts : Keeps e.Proceeds (putVariable id key v) := onward_modifyExecution id (by intro; rfl)
      (fun _ x => .put x _) (by intro; rfl)
    refine Ends.bind ((puts t reached).imp (fun _ u reached => ?_) fun _ _ h => h)
    exact (ih reached).imp (fun _ _ h => ⟨h.1, .put h.2⟩) fun _ _ h => h
  | ask r next ih =>
    have asks := (onward_perform launches r (e := e)).observe t reached
    refine Ends.bind (asks.imp (fun answer u reached => ?_) fun _ _ h => h)
    exact (ih answer reached).imp (fun _ _ h => ⟨h.1, .ask answer h.2⟩) fun _ _ h => h

theorem ends_dispatched (vacant : e.Vacant) (actionType : String) (config : Dict) :
    Ends (dispatch launch id actionType config) e
      (fun v t => e.Proceeds t ∧ ∃ caller, (e.registry.script actionType config caller).MayAnswer v)
      fun _ t => e.Proceeds t := by
  refine Ends.bind (Ends.get_iff.2 (Ends.bind (Ends.bind (Ends.get_iff.2 ?_))))
  cases e.execution? id with
  | none => exact Ends.throw_iff.2 (.refl vacant)
  | some x =>
    exact Ends.pure_iff.2 ((onward_script launches _ (.refl vacant)).imp
      (fun _ _ h => ⟨h.1, x.caller, h.2⟩) fun _ _ h => h)

/-- What an action is logged with is what some action says. -/
theorem onward_runAction {enter : String → Run Unit}
    (ways : ∀ (e : Engine) node, Keeps e.Proceeds (enter node)) (n : Node) (actionType : String) :
    Keeps e.Proceeds (runAction launch enter id n actionType) := by
  refine .bind (onward_aside (r := .executing n.id actionType) rfl) fun _ => onward fun t vacant => ?_
  refine Ends.bind ((ends_dispatched launches vacant actionType n.config).imp ?_ fun _ _ h => h)
  rintro v u ⟨reached, caller, answer⟩
  refine Ends.bind (ends_ofExcept.2 ⟨fun text isText => ?_, fun _ _ => reached⟩)
  have said : t.registry.Says text := ⟨actionType, n.config, caller, v, answer, isText⟩
  exact Keeps.bind (onward_say (r := .summary n.id text) rfl fun _ more _ => more.words text said)
    (fun _ => onward_follow ways n.id) u reached

/-! Walks. -/

/-- What a node is for leads on; a loop comes here when it does not iterate. -/
theorem ends_runNode {short : Run Bool} (shortly : ∀ e : Engine, Keeps e.Proceeds short)
    {enter : String → Run Unit} (ways : ∀ (e : Engine) node, Keeps e.Proceeds (enter node))
    (vacant : e.Vacant) {n : Node} (known : e.execution? id = some x)
    (idle : n.isLoop = true → n.id ∉ x.activeLoops) :
    Ends (runNode launch short enter id n) e (fun _ t => e.Proceeds t) fun _ t => e.Proceeds t := by
  unfold runNode
  cases kind : n.kind with
  | trigger event =>
    exact Keeps.bind (onward_aside (r := .triggered n.id event) rfl) (fun _ => onward_follow ways n.id)
      e (.refl vacant)
  | condition c => exact onward_runCondition ways n c e (.refl vacant)
  | action actionType => exact onward_runAction launches ways n actionType e (.refl vacant)
  | delay amount unit => exact (manner_proceeds e).runDelay trivial n amount unit e (.refl vacant)
  | loop iterations =>
    exact ends_runLoop ways shortly vacant known (idle (by unfold Node.isLoop; rw [kind])) iterations
  | junction junctionType =>
    exact Keeps.bind (onward_aside (r := .joined n.id junctionType) rfl) (fun _ => onward_follow ways n.id)
      e (.refl vacant)

theorem onward_enterNode {short : Run Bool} (shortly : ∀ e : Engine, Keeps e.Proceeds short)
    {enter : String → Run Unit} (ways : ∀ (e : Engine) node, Keeps e.Proceeds (enter node)) (node : String) :
    Keeps e.Proceeds (enterNode launch short enter id node) := by
  refine .lookUp fun t x reached known => ?_
  refine Ends.ite_iff.2 ⟨fun _ => Ends.pure_iff.2 reached, fun _ => Ends.ite_iff.2 ⟨fun _ => ?_, fun _ =>
    Ends.ite_iff.2 ⟨fun _ => Ends.pure_iff.2 reached, fun open_ => ?_⟩⟩⟩
  · exact Keeps.bind (onward_aside (r := .repeated node) rfl) (fun _ => .pure _) t reached
  refine Ends.bind (Ends.modify_iff.2 ?_)
  have more {u : Engine} (entered : t.Proceeds u) : e.Proceeds u := reached.trans entered
  cases found : x.workflow.node? node with
  | none =>
    exact (ends_arrival (r := .missing node) reached.vacant known rfl found).imp (fun _ _ => more)
      fun _ _ => more
  | some n =>
    have own : n.id = node := by simpa using List.find?_some found
    refine Ends.bind ((ends_arrival (r := .processing node n) reached.vacant known rfl found).imp ?_
      fun _ _ => more)
    intro _ u entered
    obtain ⟨y, there, further⟩ := entered.known id x known
    have idle : n.isLoop = true → n.id ∉ y.activeLoops := by
      intro loop iterates
      rw [further.loops, own] at iterates
      exact open_ (by simp [found, loop, iterates])
    have runs := ends_runNode launches shortly ways entered.vacant there idle
    refine Ends.tryCatch_iff.2 (runs.imp (fun _ _ done => more (entered.trans done)) fun f w failed => ?_)
    refine Keeps.bind (.isActive id) (fun _ => .ite (fun _ => ?_) fun _ => .pure _) w (more (entered.trans failed))
    exact .bind (onward_aside (r := .broken node f.text) rfl) fun _ => (manner_proceeds e).fail id f.text

/-- A walk leads on from every state, however deep it goes. -/
theorem onward_walk (depth : Nat) (node : String) : Keeps e.Proceeds (walk launch id depth node) := by
  induction depth generalizing e node with
  | zero => exact .throw _
  | succ depth ih =>
    exact onward_enterNode launches (fun _ => .throw _) (fun e node => ih node) node

/-! Executions begin. -/

theorem onward_submit (node : String) : Keeps e.Proceeds (submit launch id node) := by
  refine .get fun _ => .ite (fun _ => ?_) fun _ => .bind (onward_aside (r := .refused) rfl) fun _ =>
    (manner_proceeds e).fail id _
  exact (manner_proceeds e).runBranch trivial (.bind (.execution id) fun x => onward_walk launches _ node) _

theorem onward_startExecution (w : Workflow) (payload module item : Value) :
    Keeps e.Proceeds (startExecution launch w payload module item) := by
  rw [startExecution_eq]
  refine .bind (.ofExcept _) fun payload => onward fun t vacant => ?_
  refine Ends.bind (ends_storage.2 ((Storage.heard_createExecution ..).imp ?_
    fun _ _ silent => .serve vacant silent))
  rintro _ s ⟨silent, n, late, early, rfl⟩
  have begun := Proceeds.enrol vacant silent late early
    (x := .opening (idText n) w module item payload (initialVariables payload w.vars)) rfl rfl rfl
  refine Ends.bind (Ends.modify_iff.2 ?_)
  refine Keeps.bind (I := t.Proceeds) ?_ (fun _ => .bind (manner_proceeds t).noted fun _ => ?_) _ begun
  · exact onward_modify (fun _ => rfl) (fun _ => rfl) fun _ => rfl
  refine .bind (onward_aside (r := .started w.name) rfl) fun _ => ?_
  cases w.trigger? with
  | none =>
    exact .bind (onward_aside (r := .triggerless) rfl) fun _ => .bind ((manner_proceeds t).fail _ _)
      fun _ => .pure _
  | some trigger => exact .bind (onward_submit launches trigger.id) fun _ => .pure _

end Launch

theorem onward_loadWorkflow (id : String) :
    Keeps e.Proceeds (liftM (Storage.loadWorkflow id) : Run Workflow) :=
  onward_errand (.loadWorkflow id)

/-- Starts inside one another lead on as well, however deep. -/
theorem onward_launchAt (depth : Nat) (workflow payload : Value) :
    Keeps e.Proceeds (launchAt depth workflow payload) := by
  induction depth generalizing e workflow payload with
  | zero => exact .throw _
  | succ depth ih =>
    exact .bind (onward_loadWorkflow _) fun w =>
      onward_startExecution (fun e workflow payload => ih workflow payload) w payload childModule .null

theorem onward_launch (workflow payload : Value) : Keeps e.Proceeds (launch workflow payload) :=
  onward_launchAt nesting workflow payload

end Engine

/-- What every call that walks on keeps of the execution that it is about. -/
structure Execution.Framed (x y : Execution) : Prop where
  loops : y.activeLoops = x.activeLoops
  visited : x.visited ⊆ y.visited
  path : x.path <+: y.path
  logs : x.logs <+: y.logs
  counters : ∀ node, x.counter node ≤ y.counter node
  /-- What iterates has begun no iteration in between. -/
  steady : ∀ node ∈ x.activeLoops, y.counter node = x.counter node

theorem Execution.Proceeds.framed {said : String → Prop} {x y : Execution} (proceeds : x.Proceeds said y) :
    x.Framed y :=
  ⟨proceeds.loops, proceeds.visited, proceeds.path, proceeds.logs, proceeds.counters, proceeds.steady⟩

namespace Engine

theorem Vacant.alter {e : Engine} (vacant : e.Vacant) {f : Execution → Execution}
    (named : ∀ x, (f x).id = x.id) (id : String) : (e.alter id f).Vacant := by
  intro n late
  rw [execution?_alter named, vacant n late]
  split <;> rfl

theorem Fresh.vacant_afterAll {e : Engine} (fresh : e.Fresh) (ops : List Operation)
    (work : ∀ op ∈ ops, op.isWork = true) : (e.afterAll ops).Vacant :=
  fun n late =>
    (((deeds_afterAll ops work e fresh.proper fresh.accepting).keeps fresh.proper).proper.fresh n late).1

/-- Wherever an execution stands, and however the walk from there ends, by a failure as well, the
execution is left with the same loops iterating. It has visited what it had visited before, its path
and its log have only grown, and so has the stored log; no counter has decreased, and those of the
loops that were iterating have not changed. -/
theorem walk_framed {e : Engine} (vacant : e.Vacant) {id : String} {x : Execution}
    (known : e.execution? id = some x) (depth : Nat) (node : String) :
    let t := e.leftBy (walk launch id depth node)
    ∃ y, t.execution? id = some y ∧ x.Framed y ∧
      e.storage.tables.logs <+: t.storage.tables.logs := by
  have proceeds : e.Proceeds (e.leftBy (walk launch id depth node)) :=
    leftBy_of_keeps (onward_walk (fun _ => onward_launch) depth node _ (.refl vacant))
  obtain ⟨y, there, onward⟩ := proceeds.known id x known
  exact ⟨y, there, onward.framed, proceeds.stored⟩

/-- An execution in the first iteration of a loop, which goes on with a loop in the body of it. -/
def insideNest : Engine :=
  (bare.afterAll (onceThrough Workflow.writtenNest 0.0)).alter "id-1" fun x => { x with
    status := .running, visited := ["T", "A"], path := ["T", "A"], counters := [("A", 1)]
    activeLoops := ["A"] }

set_option maxRecDepth 100000 in
theorem walk_framed_nest : ∃ x y : Execution, insideNest.execution? "id-1" = some x ∧
    (insideNest.leftBy (walk launch "id-1" 6 "B")).execution? "id-1" = some y ∧ x.Framed y ∧
    x.activeLoops = ["A"] ∧ y.path = ["T", "A", "B", "J", "J"] ∧ y.counter "B" = 3 := by
  have vacant : insideNest.Vacant := by
    unfold insideNest
    exact (fresh_bare.vacant_afterAll _ (isWork_onceThrough _ _)).alter (by intro; rfl) _
  obtain ⟨x, known⟩ : ∃ x, insideNest.execution? "id-1" = some x :=
    Option.isSome_iff_exists.1 (by decide +kernel)
  obtain ⟨y, there, framed, -⟩ := walk_framed vacant known 6 "B"
  have before : (insideNest.execution? "id-1").all fun x => x.activeLoops = ["A"] := by decide +kernel
  have after : ((insideNest.leftBy (walk launch "id-1" 6 "B")).execution? "id-1").all fun y =>
      y.path = ["T", "A", "B", "J", "J"] ∧ y.counter "B" = 3 := by decide +kernel
  rw [known, Option.all_some, decide_eq_true_eq] at before
  rw [there, Option.all_some, decide_eq_true_eq] at after
  exact ⟨x, y, known, there, framed, before, after⟩

end Engine

end Runbook
