import Runbook.Proofs.Course.Scene
import Runbook.Proofs.Definition

/-!
What an engine does, as rules. A job leads from one scene to another; each rule follows one way
through the code, and says everything that it changes. A walk through one execution may stop on the
way for an action, which may cancel any execution and start others, each walked to its own end.
-/
namespace Runbook

namespace Action

/-- What a script may answer, whatever its requests are answered with. -/
inductive Script.MayAnswer {α : Type} : Script α → α → Prop where
  | done {a : α} : MayAnswer (.done a) a
  | put {key : Key} {v : Value} {next : Script α} {a : α} (later : MayAnswer next a) :
      MayAnswer (.put key v next) a
  | ask {r : Request} {next : Except Failure r.Answer → Script α} {a : α}
      (answer : Except Failure r.Answer) (later : MayAnswer (next answer) a) :
      MayAnswer (.ask r next) a

/-- A text that is logged as the summary of some action. -/
def Registry.Says (r : Registry) (text : String) : Prop :=
  ∃ actionType config caller value, (r.script actionType config caller).MayAnswer value ∧
    Engine.summaryText actionType value = .ok text

end Action

/-- A piece of work on the executions of an engine. -/
inductive Job where
  /-- A node is entered, unless it is passed over. -/
  | enter (id node : String)
  /-- Connections are followed in order. -/
  | follow (id : String) (connections : List Connection)
  /-- What a node is for; it may end in a failure. -/
  | node (id : String) (n : Node) (failure : Option Failure)
  /-- The iterations of a loop: all done, given up, or ended by a failure. -/
  | iterate (id node body : String) (iterations : Option Nat) (ending : Except Failure Bool)
  /-- What an action does on behalf of an execution. -/
  | act (id : String)
  /-- An execution of a workflow is started. -/
  | start (id : String) (w : Workflow)

/-- The execution that a job is about. -/
def Job.owner : Job → String
  | .enter id _ | .follow id _ | .node id _ _ | .iterate id _ _ _ _ | .act id | .start id _ => id

/-- An execution that has just begun. -/
def Execution.opening (id : String) (w : Workflow) (module item : Value) (triggerData vars : Dict) :
    Execution where
  id := id
  workflow := w
  module := module
  item := item
  triggerData := triggerData
  vars := vars

/-- The row of an execution that has just begun. -/
structure Store.ExecutionRow.Opens (row : Store.ExecutionRow) (id : String) : Prop where
  id : row.id = id
  status : row.status = .running
  error : row.error = none
  ended : row.ended = false

/-- An iteration of a loop is due: no bound that is set has been passed. -/
def Scene.mayIterate (v : Scene) (iterations : Option Nat) (count : Int) : Bool :=
  !iterations.any (fun n => decide ((n : Int) < count)) && !v.limit.any fun l => decide (l < count)

theorem Scene.mayIterate_iff {v : Scene} {iterations : Option Nat} {count : Int} :
    v.mayIterate iterations count = true ↔
      (∀ n, iterations = some n → count ≤ (n : Int)) ∧ ∀ l, v.limit = some l → count ≤ l := by
  unfold mayIterate
  cases iterations <;> cases v.limit <;> simp

/-- A job leads from one scene to another. -/
inductive Works : Job → Scene → Scene → Prop where
  /-- An execution that is over enters no node. -/
  | idle {v : Scene} {id node : String} {x : Execution} (known : v.execution? id = some x)
      (past : x.isActive = false) : Works (.enter id node) v v
  /-- A node that was visited is passed over. -/
  | again {v : Scene} {id node : String} {x : Execution} (known : v.execution? id = some x)
      (active : x.isActive = true) (ordinary : x.hasLoopAt node = false) (seen : node ∈ x.visited) :
      Works (.enter id node) v (v.say id (.repeated node))
  /-- A connection back to a loop that is iterating ends there. -/
  | back {v : Scene} {id node : String} {x : Execution} (known : v.execution? id = some x)
      (active : x.isActive = true) (loop : x.hasLoopAt node = true)
      (iterating : node ∈ x.activeLoops) : Works (.enter id node) v v
  /-- A connection that leads to nothing. -/
  | missing {v : Scene} {id node : String} {x : Execution} (known : v.execution? id = some x)
      (active : x.isActive = true) (admitted : x.admits node = true)
      (absent : x.workflow.node? node = none) :
      Works (.enter id node) v ((v.alter id (·.enter node)).say id (.missing node))
  | handled {v w : Scene} {id node : String} {x : Execution} {n : Node}
      (known : v.execution? id = some x) (active : x.isActive = true)
      (admitted : x.admits node = true) (found : x.workflow.node? node = some n)
      (work : Works (.node id n none) ((v.alter id (·.enter node)).say id (.processing node n)) w) :
      Works (.enter id node) v w
  /-- A failure on the way fails an execution that is still running. -/
  | broken {v w : Scene} {id node : String} {x y : Execution} {n : Node} {f : Failure}
      (known : v.execution? id = some x) (active : x.isActive = true)
      (admitted : x.admits node = true) (found : x.workflow.node? node = some n)
      (work : Works (.node id n (some f)) ((v.alter id (·.enter node)).say id (.processing node n)) w)
      (then_ : w.execution? id = some y) (running : y.isActive = true) :
      Works (.enter id node) v ((w.say id (.broken node f.text)).fail id f.text)
  /-- A failure of an execution that is over already is lost. -/
  | lost {v w : Scene} {id node : String} {x y : Execution} {n : Node} {f : Failure}
      (known : v.execution? id = some x) (active : x.isActive = true)
      (admitted : x.admits node = true) (found : x.workflow.node? node = some n)
      (work : Works (.node id n (some f)) ((v.alter id (·.enter node)).say id (.processing node n)) w)
      (then_ : w.execution? id = some y) (past : y.isActive = false) :
      Works (.enter id node) v w
  | none {v : Scene} {id : String} : Works (.follow id []) v v
  /-- An execution that is over follows no connection. -/
  | stopped {v : Scene} {id : String} {cs : List Connection} {x : Execution}
      (known : v.execution? id = some x) (past : x.isActive = false) : Works (.follow id cs) v v
  | next {v w u : Scene} {id : String} {c : Connection} {rest : List Connection} {x : Execution}
      (known : v.execution? id = some x) (active : x.isActive = true)
      (first : Works (.enter id c.target) v w) (others : Works (.follow id rest) w u) :
      Works (.follow id (c :: rest)) v u
  | trigger {v w : Scene} {id : String} {n : Node} {x : Execution} {event : String}
      (known : v.execution? id = some x)
      (active : x.isActive = true) (kind : n.kind = .trigger event)
      (rest : Works (.follow id (x.workflow.outgoing n.id)) (v.say id (.triggered n.id event)) w) :
      Works (.node id n none) v w
  | junction {v w : Scene} {id : String} {n : Node} {x : Execution} {junctionType : String}
      (known : v.execution? id = some x)
      (active : x.isActive = true) (kind : n.kind = .junction junctionType)
      (rest : Works (.follow id (x.workflow.outgoing n.id)) (v.say id (.joined n.id junctionType)) w) :
      Works (.node id n none) v w
  /-- The first connection under the result of a comparison is followed. -/
  | judged {v w : Scene} {id : String} {n : Node} {x : Execution} {c : Condition} {result : Bool}
      {connection : Connection} (known : v.execution? id = some x)
      (active : x.isActive = true) (kind : n.kind = .condition c)
      (value : c.evaluate x.vars = .ok result)
      (found : x.workflow.connection? n.id (Engine.truthName result) = some connection)
      (rest : Works (.enter id connection.target) (v.say id (.evaluated n.id c result)) w) :
      Works (.node id n none) v w
  | unconnected {v : Scene} {id : String} {n : Node} {x : Execution} {c : Condition} {result : Bool}
      (known : v.execution? id = some x) (active : x.isActive = true) (kind : n.kind = .condition c)
      (value : c.evaluate x.vars = .ok result)
      (absent : x.workflow.connection? n.id (Engine.truthName result) = none) :
      Works (.node id n none) v ((v.say id (.evaluated n.id c result)).say id
        (.unconnected n.id (Engine.truthName result)))
  | misjudged {v : Scene} {id : String} {n : Node} {x : Execution} {c : Condition} {f : Failure}
      (known : v.execution? id = some x) (active : x.isActive = true) (kind : n.kind = .condition c)
      (value : c.evaluate x.vars = .error f) :
      Works (.node id n (some (.program (.conditionFailed f.text n.id)))) v v
  | action {v w u : Scene} {id : String} {n : Node} {x : Execution} {actionType text : String}
      (known : v.execution? id = some x)
      (active : x.isActive = true) (kind : n.kind = .action actionType)
      (said : v.registry.Says text)
      (work : Works (.act id) (v.say id (.executing n.id actionType)) w)
      (rest : Works (.follow id (x.workflow.outgoing n.id)) (w.say id (.summary n.id text)) u) :
      Works (.node id n none) v u
  | misacted {v w : Scene} {id : String} {n : Node} {x : Execution} {actionType : String} {f : Failure}
      (known : v.execution? id = some x)
      (active : x.isActive = true) (kind : n.kind = .action actionType)
      (work : Works (.act id) (v.say id (.executing n.id actionType)) w) :
      Works (.node id n (some f)) v w
  | delay {v : Scene} {id : String} {n : Node} {x : Execution} {amount : Value} {unit : String}
      {seconds : Float} {resumeAt : Instant} (known : v.execution? id = some x)
      (active : x.isActive = true) (kind : n.kind = .delay amount unit)
      (length : Engine.delaySeconds x.vars n.id amount unit = .ok seconds)
      (due : Instant.ofSeconds (v.clock.now + seconds) = .ok resumeAt) :
      Works (.node id n none) v (v.suspend id n.id seconds resumeAt)
  /-- It cannot be told how long a delay takes, or there is no such point in time as its end. -/
  | misdelayed {v : Scene} {id : String} {n : Node} {x : Execution} {amount : Value} {unit : String}
      {f : Failure} (known : v.execution? id = some x)
      (active : x.isActive = true) (kind : n.kind = .delay amount unit)
      (why : Engine.delaySeconds x.vars n.id amount unit = .error f ∨
        ∃ due, Instant.ofSeconds due = .error f) :
      Works (.node id n (some f)) v v
  | bodiless {v : Scene} {id : String} {n : Node} {x : Execution} {iterations : Option Nat}
      (known : v.execution? id = some x)
      (active : x.isActive = true) (kind : n.kind = .loop iterations)
      (absent : x.workflow.connection? n.id "body" = none) :
      Works (.node id n none) v (v.say id (.bodiless n.id))
  /-- A loop that is done goes on at its exit. -/
  | exit {v w u : Scene} {id : String} {n : Node} {x : Execution} {iterations : Option Nat}
      {body exit : Connection} (known : v.execution? id = some x)
      (active : x.isActive = true) (kind : n.kind = .loop iterations)
      (found : x.workflow.connection? n.id "body" = some body)
      (idle : n.id ∉ x.activeLoops)
      (work : Works (.iterate id n.id body.target iterations (.ok true))
        (v.alter id fun x => { x with activeLoops := x.activeLoops ++ [n.id] }) w)
      (way : x.workflow.connection? n.id "exit" = some exit)
      (rest : Works (.enter id exit.target) w u) :
      Works (.node id n none) v
        (u.alter id fun x => { x with activeLoops := x.activeLoops.filter (· != n.id) })
  /-- A loop that is done and has no exit, or whose execution is over. -/
  | leave {v w : Scene} {id : String} {n : Node} {x : Execution} {iterations : Option Nat}
      {body : Connection} {done : Bool} (known : v.execution? id = some x)
      (active : x.isActive = true) (kind : n.kind = .loop iterations)
      (found : x.workflow.connection? n.id "body" = some body)
      (idle : n.id ∉ x.activeLoops)
      (work : Works (.iterate id n.id body.target iterations (.ok done))
        (v.alter id fun x => { x with activeLoops := x.activeLoops ++ [n.id] }) w)
      (nowhere : done = true → x.workflow.connection? n.id "exit" = none) :
      Works (.node id n none) v
        (w.alter id fun x => { x with activeLoops := x.activeLoops.filter (· != n.id) })
  | misiterated {v w : Scene} {id : String} {n : Node} {x : Execution} {iterations : Option Nat}
      {body : Connection} {f : Failure} (known : v.execution? id = some x)
      (active : x.isActive = true) (kind : n.kind = .loop iterations)
      (found : x.workflow.connection? n.id "body" = some body)
      (idle : n.id ∉ x.activeLoops)
      (work : Works (.iterate id n.id body.target iterations (.error f))
        (v.alter id fun x => { x with activeLoops := x.activeLoops ++ [n.id] }) w) :
      Works (.node id n (some f)) v
        (w.alter id fun x => { x with activeLoops := x.activeLoops.filter (· != n.id) })
  | given {v : Scene} {id node body : String} {iterations : Option Nat} {x : Execution}
      (known : v.execution? id = some x) (past : x.isActive = false) :
      Works (.iterate id node body iterations (.ok false)) v v
  /-- The iterations are done when one more was counted than there are to be. -/
  | completed {v : Scene} {id node body : String} {n : Nat} {x : Execution}
      (known : v.execution? id = some x) (active : x.isActive = true)
      (past : (n : Int) < x.counter node + 1) :
      Works (.iterate id node body (some n) (.ok true)) v
        ((v.alter id (·.setCounter node (x.counter node + 1))).say id (.looped node n))
  | limited {v : Scene} {id node body : String} {iterations : Option Nat} {x : Execution} {l : Int}
      (known : v.execution? id = some x) (active : x.isActive = true)
      (due : ∀ n, iterations = some n → x.counter node + 1 ≤ (n : Int)) (limit : v.limit = some l)
      (past : l < x.counter node + 1) :
      Works (.iterate id node body iterations (.error (.program (.loopLimit node l)))) v
        (v.alter id (·.setCounter node (x.counter node + 1)))
  /-- What an iteration has visited is forgotten when it ends. -/
  | iterated {v w u : Scene} {id node body : String} {iterations : Option Nat} {x : Execution}
      {ending : Except Failure Bool} (known : v.execution? id = some x) (active : x.isActive = true)
      (due : v.mayIterate iterations (x.counter node + 1) = true)
      (first : Works (.enter id body)
        ((v.alter id (·.setCounter node (x.counter node + 1))).say id
          (.iteration node (x.counter node + 1) iterations)) w)
      (others : Works (.iterate id node body iterations ending)
        (w.alter id fun y => { y with visited := x.visited }) u) :
      Works (.iterate id node body iterations ending) v u
  /-- A loop without any bound is given up in the end. -/
  | exhausted {v : Scene} {id node body : String} (limit : v.limit = none) :
      Works (.iterate id node body none (.error Engine.exhausted)) v v
  | rest {v : Scene} {id : String} : Works (.act id) v v
  | put {v w : Scene} {id : String} {key : Key} {value : Value}
      (others : Works (.act id) (v.alter id fun x => { x with vars := Dict.put x.vars key value }) w) :
      Works (.act id) v w
  | cancel {v w : Scene} {id other : String} {x : Execution} (known : v.execution? other = some x)
      (live : v.live.contains other = true) (active : x.isActive = true)
      (others : Works (.act id) (v.cancel other) w) : Works (.act id) v w
  /-- New records take new ids. -/
  | serve {v w : Scene} {id : String} {next : Nat} (later : v.next ≤ next)
      (others : Works (.act id) { v with next } w) : Works (.act id) v w
  | launch {v w u : Scene} {id child : String} {workflow : Workflow}
      (first : Works (.start child workflow) v w) (others : Works (.act id) w u) :
      Works (.act id) v u
  | started {v w : Scene} {workflow : Workflow} {module item : Value} {triggerData vars : Dict}
      {n : Nat} {row : Store.ExecutionRow} {trigger : Node} (later : v.next ≤ n)
      (opens : row.Opens (idText n)) (sound : workflow.Sound) (found : workflow.trigger? = some trigger)
      (accepting : v.accepting = true)
      (work : Works (.enter (idText n) trigger.id)
        ((v.enrol (.opening (idText n) workflow module item triggerData vars) row (n + 1)).say
          (idText n) (.started workflow.name)) w) :
      Works (.start (idText n) workflow) v (w.finish (idText n))
  /-- Without a trigger, or when no more work is taken on, an execution fails at once. -/
  | stillborn {v : Scene} {workflow : Workflow} {module item : Value} {triggerData vars : Dict}
      {n : Nat} {row : Store.ExecutionRow} {reason : Remark} (later : v.next ≤ n)
      (opens : row.Opens (idText n)) (sound : workflow.Sound)
      (why : reason = .triggerless ∧ workflow.trigger? = Option.none ∨
        reason = .refused ∧ v.accepting = false) :
      Works (.start (idText n) workflow) v
        ((((v.enrol (.opening (idText n) workflow module item triggerData vars) row (n + 1)).say
          (idText n) (.started workflow.name)).say (idText n) reason).fail (idText n) reason.message)

end Runbook
