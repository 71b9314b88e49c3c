import Runbook.Proofs.Course.History

/-!
The course of one execution. Of all that an engine does, an execution sees what it does itself: it
walks, its actions set its variables, its timers fire, and it may be cancelled from anywhere. Each
rule of work is projected to the execution that the work is about; what an action does to other
executions is left out of it.
-/
namespace Runbook

namespace Execution

/-- Makes a remark in its log. -/
def tell (x : Execution) (r : Remark) : Execution := { x with logs := x.logs ++ [r.entry x.path] }

/-- It has failed. -/
def failed (x : Execution) (error : String) : Execution :=
  { x with status := .failed, error := some error, timers := [], done := true }

/-- It has been cancelled. -/
def cancelled (x : Execution) : Execution :=
  { tell { x with status := .cancelled, error := some Scene.cancelText, timers := [] } .cancelled with
    done := true }

/-- Its last branch has come to its end. -/
def completed (x : Execution) : Execution :=
  { tell { x with branches := x.branches - 1, status := .completed } .completed with done := true }

/-- One of its branches has come to its end. -/
def finished (x : Execution) : Execution :=
  if x.branches - 1 ≤ 0 && x.isActive then x.completed else { x with branches := x.branches - 1 }

/-- It waits for a timer of a delay. -/
def waiting (x : Execution) (node : String) (seconds : Float) (timer : Nat) : Execution :=
  { x.tell (.delaying node seconds) with
    branches := x.branches + 1, timers := addTimer x.timers node timer }

/-- One of its timers has fired. -/
def fired (x : Execution) (node : String) (timer : Nat) : Execution :=
  { x with timers := dropTimer x.timers node timer }

/-- A loop begins to iterate. -/
def within (x : Execution) (node : String) : Execution :=
  { x with activeLoops := x.activeLoops ++ [node] }

/-- A loop does not iterate any more. -/
def without (x : Execution) (node : String) : Execution :=
  { x with activeLoops := x.activeLoops.filter (· != node) }

/-- One more iteration of a loop is counted. -/
def counted (x : Execution) (node : String) : Execution := x.setCounter node (x.counter node + 1)

/-- What happens to an execution while another one works: nothing, or it is cancelled. -/
def Aside (x y : Execution) : Prop := y = x ∨ x.isActive = true ∧ y = x.cancelled

/-- What an action does to its own execution. -/
def Acts (x y : Execution) : Prop := ∃ vars, Aside { x with vars } y

variable {x y z : Execution}

theorem Aside.trans (first : x.Aside y) (second : y.Aside z) : x.Aside z := by
  rcases first with rfl | ⟨active, rfl⟩
  · exact second
  · rcases second with rfl | ⟨impossible, -⟩
    · exact .inr ⟨active, rfl⟩
    · cases impossible

theorem Aside.acts (aside : x.Aside y) : x.Acts y := ⟨x.vars, aside⟩

theorem Acts.trans (first : x.Acts y) (second : y.Acts z) : x.Acts z := by
  obtain ⟨vars, rfl | ⟨active, rfl⟩⟩ := first
  · exact second
  · obtain ⟨vars', rfl | ⟨impossible, -⟩⟩ := second
    · exact ⟨vars', .inr ⟨active, rfl⟩⟩
    · cases impossible

end Execution

/-- A part of a walk. -/
inductive Task where
  | enter (node : String)
  | follow (connections : List Connection)
  | node (n : Node) (failure : Option Failure)
  | iterate (node body : String) (iterations : Option Nat) (ending : Except Failure Bool)

/-- A part of a walk leads an execution from one state to another, where loops may begin so many
iterations. -/
inductive Walks (limit : Option Int) : Task → Execution → Execution → Prop where
  | idle {x : Execution} {node : String} (past : x.isActive = false) : Walks limit (.enter node) x x
  | again {x : Execution} {node : String} (active : x.isActive = true)
      (ordinary : x.hasLoopAt node = false) (seen : node ∈ x.visited) :
      Walks limit (.enter node) x (x.tell (.repeated node))
  | back {x : Execution} {node : String} (active : x.isActive = true)
      (loop : x.hasLoopAt node = true) (iterating : node ∈ x.activeLoops) :
      Walks limit (.enter node) x x
  | missing {x : Execution} {node : String} (active : x.isActive = true)
      (admitted : x.admits node = true) (absent : x.workflow.node? node = none) :
      Walks limit (.enter node) x ((x.enter node).tell (.missing node))
  | handled {x y : Execution} {node : String} {n : Node} (active : x.isActive = true)
      (admitted : x.admits node = true) (found : x.workflow.node? node = some n)
      (work : Walks limit (.node n none) ((x.enter node).tell (.processing node n)) y) :
      Walks limit (.enter node) x y
  | broken {x y : Execution} {node : String} {n : Node} {f : Failure} (active : x.isActive = true)
      (admitted : x.admits node = true) (found : x.workflow.node? node = some n)
      (work : Walks limit (.node n (some f)) ((x.enter node).tell (.processing node n)) y)
      (running : y.isActive = true) :
      Walks limit (.enter node) x ((y.tell (.broken node f.text)).failed f.text)
  | lost {x y : Execution} {node : String} {n : Node} {f : Failure} (active : x.isActive = true)
      (admitted : x.admits node = true) (found : x.workflow.node? node = some n)
      (work : Walks limit (.node n (some f)) ((x.enter node).tell (.processing node n)) y)
      (past : y.isActive = false) : Walks limit (.enter node) x y
  | none {x : Execution} : Walks limit (.follow []) x x
  | stopped {x : Execution} {cs : List Connection} (past : x.isActive = false) :
      Walks limit (.follow cs) x x
  | next {x y z : Execution} {c : Connection} {rest : List Connection} (active : x.isActive = true)
      (first : Walks limit (.enter c.target) x y) (others : Walks limit (.follow rest) y z) :
      Walks limit (.follow (c :: rest)) x z
  | trigger {x y : Execution} {n : Node} {event : String} (active : x.isActive = true)
      (kind : n.kind = .trigger event)
      (rest : Walks limit (.follow (x.workflow.outgoing n.id)) (x.tell (.triggered n.id event)) y) :
      Walks limit (.node n none) x y
  | junction {x y : Execution} {n : Node} {junctionType : String} (active : x.isActive = true)
      (kind : n.kind = .junction junctionType)
      (rest : Walks limit (.follow (x.workflow.outgoing n.id)) (x.tell (.joined n.id junctionType)) y) :
      Walks limit (.node n none) x y
  | judged {x y : Execution} {n : Node} {c : Condition} {result : Bool} {connection : Connection}
      (active : x.isActive = true) (kind : n.kind = .condition c)
      (value : c.evaluate x.vars = .ok result)
      (found : x.workflow.connection? n.id (Engine.truthName result) = some connection)
      (rest : Walks limit (.enter connection.target) (x.tell (.evaluated n.id c result)) y) :
      Walks limit (.node n none) x y
  | unconnected {x : Execution} {n : Node} {c : Condition} {result : Bool}
      (active : x.isActive = true) (kind : n.kind = .condition c)
      (value : c.evaluate x.vars = .ok result)
      (absent : x.workflow.connection? n.id (Engine.truthName result) = none) :
      Walks limit (.node n none) x ((x.tell (.evaluated n.id c result)).tell
        (.unconnected n.id (Engine.truthName result)))
  | misjudged {x : Execution} {n : Node} {c : Condition} {f : Failure} (active : x.isActive = true)
      (kind : n.kind = .condition c) (value : c.evaluate x.vars = .error f) :
      Walks limit (.node n (some (.program (.conditionFailed f.text n.id)))) x x
  | action {x y z : Execution} {n : Node} {actionType text : String} (active : x.isActive = true)
      (kind : n.kind = .action actionType) (work : (x.tell (.executing n.id actionType)).Acts y)
      (rest : Walks limit (.follow (x.workflow.outgoing n.id)) (y.tell (.summary n.id text)) z) :
      Walks limit (.node n none) x z
  | misacted {x y : Execution} {n : Node} {actionType : String} {f : Failure}
      (active : x.isActive = true) (kind : n.kind = .action actionType)
      (work : (x.tell (.executing n.id actionType)).Acts y) : Walks limit (.node n (some f)) x y
  | delay {x : Execution} {n : Node} {amount : Value} {unit : String} {seconds : Float} {timer : Nat}
      (active : x.isActive = true) (kind : n.kind = .delay amount unit)
      (length : Engine.delaySeconds x.vars n.id amount unit = .ok seconds) :
      Walks limit (.node n none) x (x.waiting n.id seconds timer)
  | misdelayed {x : Execution} {n : Node} {amount : Value} {unit : String} {f : Failure}
      (active : x.isActive = true) (kind : n.kind = .delay amount unit) :
      Walks limit (.node n (some f)) x x
  | bodiless {x : Execution} {n : Node} {iterations : Option Nat} (active : x.isActive = true)
      (kind : n.kind = .loop iterations) (absent : x.workflow.connection? n.id "body" = none) :
      Walks limit (.node n none) x (x.tell (.bodiless n.id))
  | exit {x y z : Execution} {n : Node} {iterations : Option Nat} {body exit : Connection}
      (active : x.isActive = true) (kind : n.kind = .loop iterations)
      (found : x.workflow.connection? n.id "body" = some body) (idle : n.id ∉ x.activeLoops)
      (work : Walks limit (.iterate n.id body.target iterations (.ok true)) (x.within n.id) y)
      (way : x.workflow.connection? n.id "exit" = some exit)
      (rest : Walks limit (.enter exit.target) y z) : Walks limit (.node n none) x (z.without n.id)
  | leave {x y : Execution} {n : Node} {iterations : Option Nat} {body : Connection} {done : Bool}
      (active : x.isActive = true) (kind : n.kind = .loop iterations)
      (found : x.workflow.connection? n.id "body" = some body) (idle : n.id ∉ x.activeLoops)
      (work : Walks limit (.iterate n.id body.target iterations (.ok done)) (x.within n.id) y)
      (nowhere : done = true → x.workflow.connection? n.id "exit" = none) :
      Walks limit (.node n none) x (y.without n.id)
  | misiterated {x y : Execution} {n : Node} {iterations : Option Nat} {body : Connection}
      {f : Failure} (active : x.isActive = true) (kind : n.kind = .loop iterations)
      (found : x.workflow.connection? n.id "body" = some body) (idle : n.id ∉ x.activeLoops)
      (work : Walks limit (.iterate n.id body.target iterations (.error f)) (x.within n.id) y) :
      Walks limit (.node n (some f)) x (y.without n.id)
  | given {x : Execution} {node body : String} {iterations : Option Nat} (past : x.isActive = false) :
      Walks limit (.iterate node body iterations (.ok false)) x x
  | completed {x : Execution} {node body : String} {n : Nat} (active : x.isActive = true)
      (past : (n : Int) < x.counter node + 1) :
      Walks limit (.iterate node body (some n) (.ok true)) x ((x.counted node).tell (.looped node n))
  | limited {x : Execution} {node body : String} {iterations : Option Nat} {l : Int}
      (active : x.isActive = true) (due : ∀ n, iterations = some n → x.counter node + 1 ≤ (n : Int))
      (bound : limit = some l) (past : l < x.counter node + 1) :
      Walks limit (.iterate node body iterations (.error (.program (.loopLimit node l)))) x
        (x.counted node)
  | iterated {x y z : Execution} {node body : String} {iterations : Option Nat}
      {ending : Except Failure Bool} (active : x.isActive = true)
      (due : ∀ n, iterations = some n → x.counter node + 1 ≤ (n : Int))
      (allowed : ∀ l, limit = some l → x.counter node + 1 ≤ l)
      (first : Walks limit (.enter body)
        ((x.counted node).tell (.iteration node (x.counter node + 1) iterations)) y)
      (others : Walks limit (.iterate node body iterations ending) { y with visited := x.visited } z) :
      Walks limit (.iterate node body iterations ending) x z
  | exhausted {x : Execution} {node body : String} (bound : limit = none) :
      Walks limit (.iterate node body none (.error Engine.exhausted)) x x

/-- The states of an execution between two pieces of its own work, from its beginning on. -/
inductive Life (limit : Option Int) : Execution → Prop where
  | started {y : Execution} {id : String} {w : Workflow} {module item : Value} {triggerData vars : Dict}
      {trigger : Node} (sound : w.Sound) (found : w.trigger? = some trigger)
      (work : Walks limit (.enter trigger.id)
        ((Execution.opening id w module item triggerData vars).tell (.started w.name)) y) :
      Life limit y.finished
  | stillborn {id : String} {w : Workflow} {module item : Value} {triggerData vars : Dict}
      {reason : Remark} (sound : w.Sound) (why : reason = .triggerless ∨ reason = .refused) :
      Life limit ((((Execution.opening id w module item triggerData vars).tell
        (.started w.name)).tell reason).failed reason.message)
  /-- A timer fires, and the walk goes on behind its delay. -/
  | continued {x y : Execution} {node : String} {timer : Nat} (life : Life limit x)
      (active : x.isActive = true) (pending : (node, timer) ∈ x.pending)
      (work : Walks limit (.follow (x.workflow.outgoing node))
        ((x.fired node timer).tell (.resumed node)) y) : Life limit y.finished
  /-- A timer fires whose marker cannot be deleted. -/
  | stuck {x : Execution} {node error : String} {timer : Nat} (life : Life limit x)
      (active : x.isActive = true) (pending : (node, timer) ∈ x.pending) :
      Life limit (((x.fired node timer).tell (.resumed node)).failed error).finished
  /-- A timer fires too late. -/
  | late {x : Execution} {node : String} {timer : Nat} (life : Life limit x)
      (past : x.isActive = false) : Life limit (x.fired node timer).finished
  | cancelled {x : Execution} (life : Life limit x) (active : x.isActive = true) :
      Life limit x.cancelled

theorem Life.aside {limit : Option Int} {x y : Execution} (life : Life limit x) (aside : x.Aside y) :
    Life limit y := by
  rcases aside with rfl | ⟨active, rfl⟩
  · exact life
  · exact .cancelled life active

/-- What becomes of what stands under an id while another execution works. -/
inductive Passes (limit : Option Int) : Option Execution → Option Execution → Prop where
  | none : Passes limit none none
  | born {y : Execution} (life : Life limit y) : Passes limit none (some y)
  | aside {x y : Execution} (aside : x.Aside y) : Passes limit (some x) (some y)

namespace Passes

variable {limit : Option Int} {a b c : Option Execution}

theorem refl (a : Option Execution) : Passes limit a a := by
  cases a with
  | none => exact .none
  | some x => exact .aside (.inl rfl)

theorem of_eq (same : b = a) : Passes limit a b := by rw [same]; exact refl a

theorem trans (first : Passes limit a b) (second : Passes limit b c) : Passes limit a c := by
  cases first with
  | none => exact second
  | born life =>
    cases second with
    | aside aside => exact .born (life.aside aside)
  | aside before =>
    cases second with
    | aside after => exact .aside (before.trans after)

theorem of_some {x : Execution} (passes : Passes limit (some x) b) : ∃ y, b = some y ∧ x.Aside y := by
  cases passes with
  | aside aside => exact ⟨_, rfl, aside⟩

theorem life {y : Execution} (passes : Passes limit a (some y)) (before : ∀ x, a = some x → Life limit x) :
    Life limit y := by
  cases passes with
  | born life => exact life
  | aside aside => exact (before _ rfl).aside aside

end Passes

/-- One execution goes from one state to another, and the others only aside. -/
structure Scene.Turns (l : Option Int) (id : String) (v w : Scene) (x y : Execution) : Prop where
  before : v.execution? id = some x
  after : w.execution? id = some y
  others : ∀ k, k ≠ id → Passes l (v.execution? k) (w.execution? k)

namespace Scene

variable {l : Option Int} {id : String} {v w u : Scene} {x y z : Execution}

theorem Turns.trans (first : Turns l id v w x y) (second : Turns l id w u y z) :
    Turns l id v u x z :=
  ⟨first.before, second.after, fun k other => (first.others k other).trans (second.others k other)⟩

theorem turns_refl (known : v.execution? id = some x) : Turns l id v v x x :=
  ⟨known, known, fun _ _ => .refl _⟩

theorem turns_alter (f : Execution → Execution) (known : v.execution? id = some x) :
    Turns l id v (v.alter id f) x (f x) :=
  ⟨known, by simp [known], fun k other => .of_eq (by simp [other])⟩

theorem turns_say (r : Remark) (known : v.execution? id = some x) :
    Turns l id v (v.say id r) x (x.tell r) :=
  ⟨known, by simp [known, Execution.tell], fun k other => .of_eq (by simp [other])⟩

theorem turns_enter (node : String) (r : Remark) (known : v.execution? id = some x) :
    Turns l id v ((v.alter id (·.enter node)).say id r) x ((x.enter node).tell r) :=
  (turns_alter _ known).trans (turns_say r (turns_alter (l := l) _ known).after)

theorem turns_count (node : String) (known : v.execution? id = some x) :
    Turns l id v (v.alter id (·.setCounter node (x.counter node + 1))) x (x.counted node) :=
  turns_alter _ known

theorem turns_fail (error : String) (known : v.execution? id = some x) :
    Turns l id v (v.fail id error) x (x.failed error) :=
  ⟨known, by simp [Scene.fail, halt, known, Execution.failed],
    fun k other => .of_eq (by simp [Scene.fail, halt, other])⟩

theorem turns_cancel (known : v.execution? id = some x) :
    Turns l id v (v.cancel id) x x.cancelled :=
  ⟨known, by simp [Scene.cancel, halt, known, Execution.cancelled, Execution.tell],
    fun k other => .of_eq (by simp [Scene.cancel, halt, other])⟩

theorem turns_finish (known : v.execution? id = some x) :
    Turns l id v (v.finish id) x x.finished := by
  refine ⟨known, ?_, fun k other => .of_eq ?_⟩
  · unfold Scene.finish Execution.finished
    rw [known, Option.any_some]
    split
    · simp [Scene.complete, known, Execution.completed, Execution.tell]
    · simp [known]
  · unfold Scene.finish
    split
    · simp [Scene.complete, other]
    · simp [other]

theorem turns_suspend (node : String) (seconds : Float) (resumeAt : Instant)
    (known : v.execution? id = some x) :
    Turns l id v (v.suspend id node seconds resumeAt) x
      (x.waiting node seconds v.clock.nextTimer) :=
  ⟨known, by simp [suspend, known, Execution.waiting, Execution.tell],
    fun k other => .of_eq (by simp [suspend, other])⟩

/-- Another execution is cancelled by an action, or its own one. -/
theorem turns_cancel_any {other : String} (known : v.execution? id = some x)
    (target : v.execution? other = some y) (active : y.isActive = true) :
    ∃ z, Turns l id v (v.cancel other) x z ∧ x.Acts z := by
  by_cases own : other = id
  · subst own
    obtain rfl : x = y := Option.some.inj (known.symm.trans target)
    exact ⟨_, turns_cancel known, Execution.Aside.acts (.inr ⟨active, rfl⟩)⟩
  · have cancelled := turns_cancel (l := l) target
    have untouched : (v.cancel other).execution? id = some x := by
      simp [Scene.cancel, Scene.halt, Ne.symm own, known]
    refine ⟨x, ⟨known, untouched, fun k apart => ?_⟩, Execution.Aside.acts (.inl rfl)⟩
    by_cases hit : k = other
    · rw [hit, target, cancelled.after]
      exact .aside (.inr ⟨active, rfl⟩)
    · exact cancelled.others k hit

end Scene

/-- What a job makes of the execution that it is about. A start finds none, as its id is new. -/
def Job.Shows (l : Option Int) : Job → Execution → Execution → Prop
  | .enter _ target => Walks l (.enter target)
  | .follow _ cs => Walks l (.follow cs)
  | .node _ n failure => Walks l (.node n failure)
  | .iterate _ loop body iterations ending => Walks l (.iterate loop body iterations ending)
  | .act _ => Execution.Acts
  | .start _ _ => Execution.Aside

def Job.isStart : Job → Bool
  | .start _ _ => true
  | _ => false

/-- A job turns the execution that it is about, and others only aside; a start begins a life. -/
structure Job.Alone (l : Option Int) (j : Job) (v w : Scene) : Prop where
  turns : ∀ x, v.execution? j.owner = some x → ∃ y, Scene.Turns l j.owner v w x y ∧ j.Shows l x y
  passes : j.isStart = true → ∀ k, Passes l (v.execution? k) (w.execution? k)

namespace Job

variable {l : Option Int} {v w u : Scene} {x y : Execution} {j i : Job}

/-- What is to be shown of a job when the execution that it is about is known. -/
theorem alone_of (known : v.execution? j.owner = some x)
    (ordinary : j.isStart = false)
    (turns : ∃ y, Scene.Turns l j.owner v w x y ∧ j.Shows l x y) : Alone l j v w := by
  refine ⟨fun y there => ?_, fun start => absurd (start.symm.trans ordinary) (by decide)⟩
  obtain rfl : x = y := Option.some.inj (known.symm.trans there)
  exact turns

/-- A job that goes on with another one after its first turn. -/
theorem Alone.after (shown : Alone l i w u) (first : Scene.Turns l j.owner v w x y)
    (same : i.owner = j.owner) (ordinary : j.isStart = false)
    (rule : ∀ z, i.Shows l y z → j.Shows l x z) : Alone l j v u := by
  obtain ⟨z, turned, walk⟩ := shown.turns _ (same ▸ first.after)
  exact alone_of first.before ordinary ⟨z, first.trans (same ▸ turned), rule z walk⟩

/-- A start after which the new execution has gone through a first part of its life. -/
theorem begins {id : String} {workflow : Workflow} (absent : v.execution? id = none)
    (turns : Scene.Turns l id w u x y) (same : ∀ k, k ≠ id → w.execution? k = v.execution? k)
    (life : Life l y) : Alone l (.start id workflow) v u := by
  refine ⟨fun z known => ?_, ?_⟩
  · rw [show (start id workflow).owner = id from rfl, absent] at known
    cases known
  · intro _ k
    by_cases own : k = id
    · rw [own, absent, turns.after]
      exact .born life
    · rw [← same k own]
      exact turns.others k own

end Job

open Scene Job in
/-- Every job shows what it makes of the execution that it is about. -/
theorem Works.alone {l : Option Int} {j : Job} {v w : Scene} (work : Works j v w) (proper : v.Proper)
    (limit : v.limit = l) : j.Alone l v w := by
  induction work with
  | idle known past => exact alone_of known rfl ⟨_, turns_refl known, .idle past⟩
  | again known active ordinary seen =>
    exact alone_of known rfl ⟨_, turns_say _ known, .again active ordinary seen⟩
  | back known active loop iterating =>
    exact alone_of known rfl ⟨_, turns_refl known, .back active loop iterating⟩
  | missing known active admitted absent =>
    exact alone_of known rfl ⟨_, turns_enter _ _ known, .missing active admitted absent⟩
  | handled known active admitted found work ih =>
    exact (ih (proper.keeps_enter _ _).proper limit).after (turns_enter _ _ known) rfl rfl
      fun _ walk => .handled active admitted found walk
  | broken known active admitted found work then_ running ih =>
    obtain ⟨y, worked, walk⟩ := (ih (proper.keeps_enter _ _).proper limit).turns _
      (turns_enter (l := l) _ _ known).after
    obtain rfl := Option.some.inj (worked.after.symm.trans then_)
    exact alone_of known rfl ⟨_, ((turns_enter _ _ known).trans worked).trans
      ((turns_say _ then_).trans (turns_fail _ (turns_say (l := l) _ then_).after)),
      .broken active admitted found walk running⟩
  | lost known active admitted found work then_ past ih =>
    obtain ⟨y, worked, walk⟩ := (ih (proper.keeps_enter _ _).proper limit).turns _
      (turns_enter (l := l) _ _ known).after
    obtain rfl := Option.some.inj (worked.after.symm.trans then_)
    exact alone_of known rfl ⟨y, (turns_enter _ _ known).trans worked,
      .lost active admitted found walk past⟩
  | none => exact ⟨fun x known => ⟨x, turns_refl known, .none⟩, fun start => nomatch start⟩
  | stopped known past => exact alone_of known rfl ⟨_, turns_refl known, .stopped past⟩
  | next known active first others ih ihOthers =>
    obtain ⟨y, entered, walk⟩ := (ih proper limit).turns _ known
    have kept := first.keeps proper
    exact (ihOthers kept.proper (kept.limit.trans limit)).after entered rfl rfl
      fun _ rest => .next active walk rest
  | trigger known active kind rest ih =>
    exact (ih (proper.say _) limit).after (turns_say _ known) rfl rfl
      fun _ walk => .trigger active kind walk
  | junction known active kind rest ih =>
    exact (ih (proper.say _) limit).after (turns_say _ known) rfl rfl
      fun _ walk => .junction active kind walk
  | judged known active kind value found rest ih =>
    exact (ih (proper.say _) limit).after (turns_say _ known) rfl rfl
      fun _ walk => .judged active kind value found walk
  | unconnected known active kind value absent =>
    exact alone_of known rfl ⟨_, (turns_say _ known).trans
      (turns_say _ (turns_say (l := l) _ known).after), .unconnected active kind value absent⟩
  | misjudged known active kind value =>
    exact alone_of known rfl ⟨_, turns_refl known, .misjudged active kind value⟩
  | action known active kind said work rest ih ihRest =>
    obtain ⟨y, acted, acts⟩ := (ih (proper.say _) limit).turns _ (turns_say (l := l) _ known).after
    have kept := work.keeps (proper.say _)
    exact (ihRest (kept.proper.say _) (kept.limit.trans limit)).after
      (((turns_say _ known).trans acted).trans (turns_say _ acted.after)) rfl rfl
      fun _ walk => .action active kind acts walk
  | misacted known active kind work ih =>
    exact (ih (proper.say _) limit).after (turns_say _ known) rfl rfl
      fun _ acts => .misacted active kind acts
  | delay known active kind length due =>
    exact alone_of known rfl ⟨_, turns_suspend _ _ _ known, .delay active kind length⟩
  | misdelayed known active kind =>
    exact alone_of known rfl ⟨_, turns_refl known, .misdelayed active kind⟩
  | bodiless known active kind absent =>
    exact alone_of known rfl ⟨_, turns_say _ known, .bodiless active kind absent⟩
  | exit known active kind found idle work way rest ih ihRest =>
    obtain ⟨y, iterated, rounds⟩ := (ih (proper.alter fun _ => rfl) limit).turns _
      (turns_alter (l := l) (·.within _) known).after
    have kept := work.keeps (proper.alter fun _ => rfl)
    obtain ⟨z, left, walk⟩ := (ihRest kept.proper (kept.limit.trans limit)).turns _ iterated.after
    exact alone_of known rfl ⟨_, (((turns_alter _ known).trans iterated).trans left).trans
      (turns_alter (·.without _) left.after), .exit active kind found idle rounds way walk⟩
  | leave known active kind found idle work nowhere ih =>
    obtain ⟨y, iterated, rounds⟩ := (ih (proper.alter fun _ => rfl) limit).turns _
      (turns_alter (l := l) (·.within _) known).after
    exact alone_of known rfl ⟨_, ((turns_alter _ known).trans iterated).trans
      (turns_alter (·.without _) iterated.after), .leave active kind found idle rounds nowhere⟩
  | misiterated known active kind found idle work ih =>
    obtain ⟨y, iterated, rounds⟩ := (ih (proper.alter fun _ => rfl) limit).turns _
      (turns_alter (l := l) (·.within _) known).after
    exact alone_of known rfl ⟨_, ((turns_alter _ known).trans iterated).trans
      (turns_alter (·.without _) iterated.after), .misiterated active kind found idle rounds⟩
  | given known past => exact alone_of known rfl ⟨_, turns_refl known, .given past⟩
  | completed known active past =>
    exact alone_of known rfl ⟨_, (turns_count _ known).trans
      (turns_say _ (turns_count (l := l) _ known).after), .completed active past⟩
  | limited known active due bound past =>
    exact alone_of known rfl ⟨_, turns_count _ known,
      .limited active due (limit ▸ bound) past⟩
  | @iterated v w u id node body iterations x ending known active due first others ih ihOthers =>
    obtain ⟨within, allowed⟩ := Scene.mayIterate_iff.1 due
    have counted := proper.keeps_count known node
    obtain ⟨y, entered, walk⟩ := (ih (counted.proper.say _) limit).turns _
      ((turns_count (l := l) _ known).trans (turns_say (l := l) _
        (turns_count (l := l) _ known).after)).after
    have kept := first.keeps (counted.proper.say _)
    exact (ihOthers (kept.proper.alter fun _ => rfl) (kept.limit.trans limit)).after
      ((((turns_count _ known).trans (turns_say _ (turns_count (l := l) _ known).after)).trans
        entered).trans (turns_alter _ entered.after)) rfl rfl
      fun _ rounds => .iterated active within (limit ▸ allowed) walk rounds
  | exhausted bound =>
    exact ⟨fun x known => ⟨x, turns_refl known, .exhausted (limit ▸ bound)⟩, fun start => nomatch start⟩
  | rest => exact ⟨fun x known => ⟨x, turns_refl known, Execution.Aside.acts (.inl rfl)⟩, fun start => nomatch start⟩
  | put others ih =>
    refine ⟨fun x known => ?_, fun start => nomatch start⟩
    obtain ⟨y, acted, acts⟩ := (ih (proper.alter fun _ => rfl) limit).turns _
      (turns_alter (l := l) _ known).after
    exact ⟨y, (turns_alter _ known).trans acted, Execution.Acts.trans ⟨_, .inl rfl⟩ acts⟩
  | cancel target live active others ih =>
    refine ⟨fun x known => ?_, fun start => nomatch start⟩
    obtain ⟨y, cancelled, first⟩ := turns_cancel_any (l := l) known target active
    obtain ⟨z, acted, acts⟩ := (ih proper.cancel limit).turns _ cancelled.after
    exact ⟨z, cancelled.trans acted, first.trans acts⟩
  | serve later others ih =>
    refine ⟨fun x known => ?_, fun start => nomatch start⟩
    obtain ⟨y, acted, acts⟩ := (ih (proper.keeps_next later).proper limit).turns x known
    exact ⟨y, ⟨known, acted.after, acted.others⟩, acts⟩
  | launch first others ih ihOthers =>
    refine ⟨fun x known => ?_, fun start => nomatch start⟩
    have passes := (ih proper limit).passes rfl
    obtain ⟨y, there, aside⟩ := Passes.of_some (known ▸ passes _)
    have kept := first.keeps proper
    obtain ⟨z, acted, acts⟩ := (ihOthers kept.proper (kept.limit.trans limit)).turns y there
    exact ⟨z, Turns.trans ⟨known, there, fun k _ => passes k⟩ acted, aside.acts.trans acts⟩
  | @started v w workflow module item triggerData vars n row trigger later opens sound found
      accepting work ih =>
    have enrolled := (proper.keeps_enrol (r := row)
      (x := .opening (idText n) workflow module item triggerData vars) later rfl).proper
    obtain ⟨y, entered, walk⟩ := (ih (enrolled.say _) limit).turns _ (v.execution?_begun _ _ _ _)
    refine begins (proper.fresh n later).1 (entered.trans (turns_finish entered.after))
      (fun k other => ?_) (.started sound found walk)
    simp [other, Execution.opening]
  | @stillborn v workflow module item triggerData vars n row reason later opens sound why =>
    have told := turns_say (l := l) reason (v.execution?_begun (.started workflow.name)
      (.opening (idText n) workflow module item triggerData vars) row (n + 1))
    refine begins (proper.fresh n later).1 (told.trans (turns_fail reason.message told.after))
      (fun k other => ?_) (.stillborn sound (why.imp And.left And.left))
    simp [other, Execution.opening]

/-- A timer that is about to fire is one that its execution waits for. -/
theorem Scene.Accounted.pending_of_due {v : Scene} {busy : List String} {picked : List Timer} {t : Timer}
    {x : Execution} (account : v.Accounted busy (t :: picked)) (known : v.execution? t.execution = some x)
    (active : x.isActive = true) : (t.node, t.id) ∈ x.pending := by
  have living := account.living_of_due known active
  refine living.timers.mem_iff.2 (List.mem_map.2 ⟨t, List.mem_append_right _ ?_, rfl⟩)
  exact List.mem_filter.2 ⟨List.mem_cons_self .., by simp⟩

namespace Scene

/-- Every execution has lived by the rules. -/
def Lives (l : Option Int) (v : Scene) : Prop := ∀ id x, v.execution? id = some x → Life l x

variable {l : Option Int} {v w : Scene} {id : String} {x y : Execution}

theorem Lives.passes (lives : v.Lives l) (passes : ∀ k, Passes l (v.execution? k) (w.execution? k)) :
    w.Lives l :=
  fun k _ there => Passes.life (there ▸ passes k) fun x known => lives k x known

theorem Lives.turns (lives : v.Lives l) (turns : Turns l id v w x y) (life : Life l y) : w.Lives l := by
  intro k z there
  by_cases own : k = id
  · subst own
    obtain rfl := Option.some.inj (turns.after.symm.trans there)
    exact life
  · exact Passes.life (there ▸ turns.others k own) fun x known => lives k x known

end Scene

open Scene in
/-- A timer that fires turns its execution, which goes on with its life, and others only aside. -/
theorem Resumes.turns {l : Option Int} {t : Timer} {v w : Scene} {busy : List String}
    {picked : List Timer} (resumes : Resumes t v w) (proper : v.Proper) (limit : v.limit = l)
    (account : v.Accounted busy (t :: picked)) :
    ∃ x y, Turns l t.execution v w x y ∧ (Life l x → Life l y) := by
  have told := (proper.keeps_unarm t).andThen fun unarmed =>
    unarmed.keeps_say (i := t.execution) (.resumed t.node)
  have fired {x : Execution} (known : v.execution? t.execution = some x) :
      Turns l t.execution v (v.unarm t) x (x.fired t.node t.id) := turns_alter _ known
  cases resumes with
  | @continued w x known active work =>
    have begun := (fired known).trans (turns_say (.resumed t.node) (fired known).after)
    have cleared := told.andThen fun told => told.keeps_unmark t.marker
    obtain ⟨y, followed, walk⟩ := (work.alone cleared.proper (cleared.limit.trans limit)).turns _
      begun.after
    have whole : Turns l t.execution v w x y :=
      begun.trans ⟨begun.after, followed.after, followed.others⟩
    exact ⟨x, y.finished, whole.trans (turns_finish whole.after), fun life =>
      .continued life active (account.pending_of_due known active) walk⟩
  | @stuck x error known active unfit =>
    have begun := (fired known).trans (turns_say (.resumed t.node) (fired known).after)
    have failed := begun.trans (turns_fail error begun.after)
    exact ⟨x, _, failed.trans (turns_finish failed.after), fun life =>
      .stuck life active (account.pending_of_due known active)⟩
  | @past x known ended =>
    exact ⟨x, _, (fired known).trans (turns_finish (fired known).after), fun life => .late life ended⟩

open Scene in
theorem Resumes.lives {l : Option Int} {t : Timer} {v w : Scene} {busy : List String}
    {picked : List Timer} (resumes : Resumes t v w) (proper : v.Proper) (limit : v.limit = l)
    (account : v.Accounted busy (t :: picked)) (lives : v.Lives l) : w.Lives l := by
  obtain ⟨x, y, turns, life⟩ := resumes.turns proper limit account
  exact lives.turns turns (life (lives _ x turns.before))

open Scene in
theorem Fires.lives {l : Option Int} {ts : List Timer} {v w : Scene} {busy : List String}
    (fires : Fires ts v w) (proper : v.Proper) (limit : v.limit = l)
    (account : v.Accounted busy ts) (lives : v.Lives l) : w.Lives l := by
  induction fires with
  | none => exact lives
  | next first others ih =>
    have kept := first.keeps proper
    exact ih kept.proper (kept.limit.trans limit) (first.accounted proper account)
      (first.lives proper limit account lives)

open Scene in
theorem Deed.lives {l : Option Int} {v w : Scene} (deed : Deed v w) (proper : v.Proper)
    (limit : v.limit = l) (account : v.Accounted [] []) (lives : v.Lives l) : w.Lives l := by
  cases deed with
  | serve later => exact lives
  | start work => exact lives.passes ((work.alone proper limit).passes rfl)
  | @cancel id x known live active =>
    exact lives.turns (turns_cancel known) (.cancelled (lives id x known) active)
  | advance fires =>
    exact fires.lives (proper.keeps_shift _).proper limit (account.shift _) lives

/-- Whatever is asked of an engine within one life, its executions live by the rules. -/
theorem Engine.Fresh.lives {e : Engine} (fresh : e.Fresh) (ops : List Operation)
    (work : ∀ op ∈ ops, op.isWork = true) : (e.afterAll ops).scene.Lives e.loopLimit := by
  have deeds := deeds_afterAll ops work e fresh.proper fresh.accepting
  have held := deeds.induct (p := fun v => v.limit = e.loopLimit ∧ v.Accounted [] [] ∧
      v.Lives e.loopLimit) fresh.proper ⟨rfl, fresh.accounted, ?_⟩ ?_
  · exact held.2.2.2
  · intro id x known
    simp [scene, execution?, fresh.executions] at known
  · rintro v w deed proper - ⟨limit, account, lives⟩
    exact ⟨(deed.keeps proper).limit.trans limit, deed.accounted proper account,
      deed.lives proper limit account lives⟩

end Runbook
