import Runbook.Engine.Lifecycle
import Runbook.Engine.Snapshot

/-!
Walking the graph. A node is entered at most once, except that each iteration of a loop may enter
the nodes of its body again, and a loop may be entered whenever it is not iterating. Entering a
node logs it, does what the node is for and then follows its connections. A delay ends the branch
and leaves a timer and a marker; the branch goes on when the timer fires.

Nodes call for one another only through `enter`, and a walk is given a depth: a bound on how deep
nodes may stand inside one another. Along one way down, every node stands at most once, so the
number of nodes is deep enough.
-/
namespace Runbook.Engine

/-- The start of another execution: of a workflow, with a payload. -/
abbrev Launch := Value → Value → Run String

/-- What a walk ends with that was given too little depth or too few rounds. -/
def exhausted : Failure := .plain .runtime "maximum recursion depth exceeded"

/-- Follows the connections of a node in order, as long as the execution is running. -/
def followEach (enter : String → Run Unit) (id : String) : List Connection → Run Unit
  | [] => return
  | c :: rest => do
    if (← isActive id) then
      enter c.target
      followEach enter id rest

def follow (enter : String → Run Unit) (id node : String) : Run Unit := do
  followEach enter id ((← execution id).workflow.outgoing node)

/-- The word for a truth value. -/
def truthName (b : Bool) : String := if b then "true" else "false"

/-- Evaluates the comparison and follows the first connection labelled with the result. -/
def runCondition (enter : String → Run Unit) (id : String) (n : Node) (c : Condition) :
    Run Unit := do
  let x ← execution id
  match c.evaluate x.vars with
  | .error f => throw (.program (.conditionFailed f.text n.id))
  | .ok result =>
    let label := truthName result
    logInfo id ("Condition evaluated: " ++ c.field ++ " " ++ c.operator ++ " " ++
      c.value.display ++ " = " ++ label) n.id
    match x.workflow.connection? n.id label with
    | none =>
      logWarning id ("No '" ++ label ++ "' connection from condition node " ++ n.id) n.id
    | some connection => enter connection.target

/-- The effects that actions ask for. -/
def perform (launch : Launch) : (r : Action.Request) → Run r.Answer
  | .cancel execution => cancel execution.display
  | .start workflow payload => launch workflow payload
  | .createTicket draft => Storage.createTicket draft
  | .updateTicket id updates => Storage.updateTicket id updates
  | .assignTicket id assignee => Storage.assignTicket id (.text assignee)
  | .notify announcement => Storage.notify announcement
  | .createArticle draft => Storage.createArticle draft
  | .http method url headers body timeout => do
    let request ← ofExcept
      (Http.Request.build method url headers body timeout (← get).network.timeout)
    let (answer, network) := (← get).network.send request
    modify fun e => { e with network }
    ofExcept answer

/-- Writes a variable of an execution. -/
def putVariable (id : String) (key : Key) (v : Value) : Run Unit :=
  modifyExecution id fun x => { x with vars := Dict.put x.vars key v }

/-- Runs one action on behalf of an execution; answers its summary. -/
def dispatch (launch : Launch) (id actionType : String) (config : Dict) : Run Value := do
  let script := (← get).registry.script actionType config (← execution id).caller
  script.run (perform launch) (putVariable id)

/-- The first and the last characters of a literal that is too long to be shown whole. -/
def abridged (s : String) : String :=
  let cs := s.toList
  if cs.length ≤ 50 then s
  else String.ofList (cs.take 25 ++ "...".toList ++ cs.drop (cs.length - 24))

/-- Where a rule for texts is explained. -/
def textRule : String := "https:/" ++ "/errors.pydantic.dev/2.14/v/string_type"

/-- A summary is logged when it says something; it must be a text then. -/
def summaryText (actionType : String) (v : Value) : Except Failure String :=
  if !v.isTruthy then .ok ("Action completed: " ++ actionType)
  else
    match v with
    | .text s => .ok s
    | v => .error (.plain .value ("1 validation error for LogEntry\nmessage\n" ++
        "  Input should be a valid string [type=string_type, input_value=" ++ abridged v.literal ++
        ", input_type=" ++ Http.kindName v ++ "]\n    For further information visit " ++ textRule))

def runAction (launch : Launch) (enter : String → Run Unit) (id : String) (n : Node)
    (actionType : String) : Run Unit := do
  logInfo id ("Executing action: " ++ actionType) n.id
  let summary ← dispatch launch id actionType n.config
  logInfo id (← ofExcept (summaryText actionType summary)) n.id
  follow enter id n.id

/-- The seconds in a unit of time; a unit that is not known counts as minutes. -/
def unitSeconds (unit : String) : Float :=
  match unit.toLower with
  | "seconds" => 1.0
  | "hours" => 3600.0
  | "days" => 86400.0
  | _ => 60.0

/-- The amount of a delay as a number. -/
def delayAmount (node : String) (written resolved : Value) : Except Failure Float :=
  let invalid : Failure :=
    .program (.delayMisconfigured ("Invalid delay amount: " ++ written.literal) node)
  match resolved with
  | .bool b => .ok (if b then 1.0 else 0.0)
  | .int n =>
    match Decimal.ofWhole? n with
    | some x => .ok x
    | none => .error Comparison.tooLarge
  | .float x => .ok x
  | .text s =>
    match Decimal.read s with
    | some x => .ok x
    | none => .error invalid
  | _ => .error invalid

/-- How many seconds a delay takes. -/
def delaySeconds (vars : Dict) (node : String) (amount : Value) (unit : String) :
    Except Failure Float := do
  let x ← delayAmount node amount (Template.resolve vars amount)
  if x < 0.0 then
    .error (.program (.delayMisconfigured
      ("Delay amount cannot be negative: " ++ Decimal.general x) node))
  else return x * unitSeconds unit

/-- Sets a timer for the continuation after a delay; a running execution then waits for one more
branch. -/
def scheduleContinuation (id node : String) (seconds : Float) (marker : Nat) : Run Unit := do
  if (← isActive id) then
    let (timer, clock) := (← get).clock.schedule seconds id node marker
    modify fun e => { e with clock }
    modifyExecution id fun x => { x with
      branches := x.branches + 1, timers := Execution.addTimer x.timers node timer }

def runDelay (id : String) (n : Node) (amount : Value) (unit : String) : Run Unit := do
  let x ← execution id
  let seconds ← ofExcept (delaySeconds x.vars n.id amount unit)
  let resumeAt ← ofExcept (Instant.ofSeconds ((← get).clock.now + seconds))
  let marker ← Storage.saveMarker id n.id resumeAt x.snapshot
  logInfo id ("Delay scheduled: " ++ Decimal.general seconds ++ " seconds") n.id
  scheduleContinuation id n.id seconds marker

/-- The iterations of a loop: each enters the body with the nodes it has visited forgotten
afterwards. True when all iterations are done, false when the execution was over before; `short` is
done when rounds run out. -/
def iterate (short : Run Bool) (enter : String → Run Unit) (id node body : String)
    (iterations : Option Nat) : Nat → Run Bool
  | 0 => short
  | rounds + 1 => do
    let x ← execution id
    if !x.isActive then return false
    let count := x.counter node + 1
    modifyExecution id fun x => x.setCounter node count
    match iterations with
    | some n =>
      if (n : Int) < count then
        logInfo id ("Loop completed after " ++ toString n ++ " iterations") node
        return true
    | none => pure ()
    match (← get).loopLimit with
    | some limit => if limit < count then throw (.program (.loopLimit node limit))
    | none => pure ()
    logInfo id ("Loop iteration " ++ toString count ++ "/" ++
      ((iterations.map toString).getD "infinite")) node
    let before := (← execution id).visited
    enter body
    modifyExecution id fun x => { x with visited := before }
    iterate short enter id node body iterations rounds

/-- Rounds enough for a loop that has begun `count` iterations, when something bounds it. -/
def roundsFor (iterations : Option Nat) (limit : Option Int) (count : Int) : Nat :=
  match iterations, limit with
  | some n, some l => (min (n : Int) l + 1 - count).toNat + 1
  | some n, none => ((n : Int) + 1 - count).toNat + 1
  | none, some l => (l + 1 - count).toNat + 1
  | none, none => 1000000

/-- Iterates over the body, then goes on at the exit. -/
def runLoop (short : Run Bool) (enter : String → Run Unit) (id : String) (n : Node)
    (iterations : Option Nat) : Run Unit := do
  let x ← execution id
  match x.workflow.connection? n.id "body" with
  | none => logWarning id ("Loop node " ++ n.id ++ " has no body connection") n.id
  | some body =>
    modifyExecution id fun x => { x with activeLoops := x.activeLoops ++ [n.id] }
    andAlways
      (do
        let rounds := roundsFor iterations (← get).loopLimit (x.counter n.id)
        if (← iterate short enter id n.id body.target iterations rounds) then
          match x.workflow.connection? n.id "exit" with
          | some exit => enter exit.target
          | none => return)
      (modifyExecution id fun x => { x with activeLoops := x.activeLoops.filter (· != n.id) })

/-- Does what a node is for. -/
def runNode (launch : Launch) (short : Run Bool) (enter : String → Run Unit) (id : String) (n : Node) :
    Run Unit := do
  match n.kind with
  | .trigger event =>
    logInfo id ("Trigger activated: " ++ event) n.id
    follow enter id n.id
  | .condition c => runCondition enter id n c
  | .action actionType => runAction launch enter id n actionType
  | .delay amount unit => runDelay id n amount unit
  | .loop iterations => runLoop short enter id n iterations
  | .junction junctionType =>
    logInfo id ("Junction: " ++ junctionType) n.id
    follow enter id n.id

/-- Enters a node of a running execution, unless it was visited before or is a loop that is
iterating. A failure on the way fails the execution. -/
def enterNode (launch : Launch) (short : Run Bool) (enter : String → Run Unit) (id node : String) :
    Run Unit := do
  let x ← execution id
  if !x.isActive then return
  let n? := x.workflow.node? node
  let isLoop := n?.any Node.isLoop
  if x.visited.contains node && !isLoop then
    logWarning id ("Node " ++ node ++ " already visited, skipping to prevent infinite loop") node
    return
  if isLoop && x.activeLoops.contains node then return
  modifyExecution id fun x => x.enter node
  match n? with
  | none => logError id ("Node not found: " ++ node) node
  | some n =>
    logInfo id ("Processing " ++ n.kind.name ++ " node: " ++
      (match n.label with | some l => if l = "" then n.id else l | none => n.id)) node
    tryCatch (runNode launch short enter id n) fun f => do
      if (← isActive id) then
        logError id ("Error processing node " ++ node ++ ": " ++ f.text) node
        fail id f.text

/-- Walks from a node, at most so deep. -/
def walk (launch : Launch) (id : String) : Nat → String → Run Unit
  | 0, _ => throw exhausted
  | depth + 1, node => enterNode launch (throw exhausted) (walk launch id depth) id node

/-- Deep enough for every walk of an execution. -/
def depthOf (x : Execution) : Nat := x.workflow.nodes.length + 2

/-- The fields of the process log that name an execution. -/
def executionFields (x : Execution) : Dict :=
  [(.text "execution_id", .text x.id), (.text "workflow_id", .ofText? x.workflow.id)]

/-- Runs a branch to its end. A failure that no node took up fails the execution; one that even
this meets is lost. -/
def runBranch (id : String) (report : String) (branch : Run Unit) : Run Unit := do
  let x ← execution id
  let whole : Run Unit := andAlways
    (tryCatch (withFields (executionFields x) branch) fun f => do
      note .error logger report []
      fail id f.text)
    (branchFinished id)
  let _ ← observe whole

end Runbook.Engine
