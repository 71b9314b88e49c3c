import Runbook.Engine.Operation

/-!
What the engine says about an execution. Every entry of an execution's log is a remark made at some
point of its path; the process log tells the same entries of all executions in one order.
-/
namespace Runbook

/-- An entry of an execution's log, as the process log tells it. -/
structure Spoken where
  execution : String
  level : Level
  message : String
  node : String
  deriving DecidableEq

/-- The entry that a record of the process log stands for. -/
def Spoken.ofRecord? (r : Record) : Option Spoken :=
  if r.logger = "deskflow.execution" then
    match Dict.get? r.context "execution_id", Dict.get? r.context "node_id" with
    | some (.text id), some (.text node) => some ⟨id, r.level, r.message, node⟩
    | _, _ => none
  else none

/-- The log entries of all executions, in the order in which they were made. -/
def Journal.spoken (j : Journal) : List Spoken := j.records.toList.filterMap Spoken.ofRecord?

/-- An entry of the log of an execution as the process log tells it. -/
def LogEntry.spoken (id : String) (e : LogEntry) : Spoken :=
  ⟨id, Engine.processLevel e.level, e.message, e.node⟩

/-- What the engine says in the log of an execution. -/
inductive Remark where
  | started (name : String)
  | triggerless
  | refused
  | processing (node : String) (n : Node)
  | missing (node : String)
  | repeated (node : String)
  | triggered (node event : String)
  | evaluated (node : String) (c : Condition) (result : Bool)
  | unconnected (node label : String)
  | executing (node actionType : String)
  | summary (node text : String)
  | joined (node junctionType : String)
  | bodiless (node : String)
  | looped (node : String) (iterations : Nat)
  | iteration (node : String) (count : Int) (iterations : Option Nat)
  | delaying (node : String) (seconds : Float)
  | resumed (node : String)
  | restored (node : String) (seconds : Float)
  | broken (node text : String)
  | completed
  | cancelled

namespace Remark

def level : Remark → LogLevel
  | .triggerless | .refused | .missing _ | .broken _ _ => .error
  | .repeated _ | .unconnected _ _ | .bodiless _ | .cancelled => .warning
  | _ => .info

/-- The node that a remark is about; the empty text stands for the last one entered. -/
def node : Remark → String
  | .started _ | .triggerless | .refused | .completed | .cancelled => ""
  | .processing node _ | .missing node | .repeated node | .triggered node _ | .evaluated node _ _
  | .unconnected node _ | .executing node _ | .summary node _ | .joined node _ | .bodiless node
  | .looped node _ | .iteration node _ _ | .delaying node _ | .resumed node | .restored node _
  | .broken node _ => node

def message : Remark → String
  | .started name => "Workflow execution started: " ++ name
  | .triggerless => "No trigger node found in workflow"
  | .refused => "Execution could not be scheduled: cannot schedule new futures after shutdown"
  | .processing _ n => "Processing " ++ n.kind.name ++ " node: " ++
      (match n.label with | some l => if l = "" then n.id else l | none => n.id)
  | .missing node => "Node not found: " ++ node
  | .repeated node => "Node " ++ node ++ " already visited, skipping to prevent infinite loop"
  | .triggered _ event => "Trigger activated: " ++ event
  | .evaluated _ c result => "Condition evaluated: " ++ c.field ++ " " ++ c.operator ++ " " ++
      c.value.display ++ " = " ++ Engine.truthName result
  | .unconnected node label => "No '" ++ label ++ "' connection from condition node " ++ node
  | .executing _ actionType => "Executing action: " ++ actionType
  | .summary _ text => text
  | .joined _ junctionType => "Junction: " ++ junctionType
  | .bodiless node => "Loop node " ++ node ++ " has no body connection"
  | .looped _ n => "Loop completed after " ++ toString n ++ " iterations"
  | .iteration _ count iterations => "Loop iteration " ++ toString count ++ "/" ++
      ((iterations.map toString).getD "infinite")
  | .delaying _ seconds => "Delay scheduled: " ++ Decimal.general seconds ++ " seconds"
  | .resumed _ => "Delay completed"
  | .restored _ seconds => "Resuming delay after restart: " ++ Decimal.wholeText seconds ++
      "s remaining"
  | .broken node text => "Error processing node " ++ node ++ ": " ++ text
  | .completed => "Workflow execution completed"
  | .cancelled => "Workflow execution cancelled"

/-- The node that an entry names, for a remark made at a point of a path. -/
def place (r : Remark) (path : List String) : String :=
  if r.node = "" then path.getLast?.getD "" else r.node

/-- The entry that a remark makes in the log of an execution. -/
def entry (r : Remark) (path : List String) : LogEntry := ⟨r.level, r.message, r.place path, path⟩

theorem message_entry (r : Remark) (path : List String) : (r.entry path).message = r.message := rfl

/-- The same entry as the process log tells it. -/
def spoken (r : Remark) (id : String) (path : List String) : Spoken :=
  ⟨id, Engine.processLevel r.level, r.message, r.place path⟩

end Remark

/-! What entries tell is known by the words they begin with. -/

/-- An entry begins with certain words. -/
def LogEntry.tells (head : String) (e : LogEntry) : Bool :=
  head.toList.isPrefixOf e.message.toList

namespace Remark

/-- The words that a remark begins with, whatever it is about; a summary may begin with any. -/
def head : Remark → String
  | .started _ => "Workflow execution started: "
  | .triggerless => "No trigger node found in workflow"
  | .refused => "Execution could not be scheduled: cannot schedule new futures after shutdown"
  | .processing _ _ => "Processing "
  | .missing _ => "Node not found: "
  | .repeated _ => "Node "
  | .triggered _ _ => "Trigger activated: "
  | .evaluated _ _ _ => "Condition evaluated: "
  | .unconnected _ _ => "No '"
  | .executing _ _ => "Executing action: "
  | .summary _ _ => ""
  | .joined _ _ => "Junction: "
  | .bodiless _ => "Loop node "
  | .looped _ _ => "Loop completed after "
  | .iteration _ _ _ => "Loop iteration "
  | .delaying _ _ => "Delay scheduled: "
  | .resumed _ => "Delay completed"
  | .restored _ _ => "Resuming delay after restart: "
  | .broken _ _ => "Error processing node "
  | .completed => "Workflow execution completed"
  | .cancelled => "Workflow execution cancelled"

theorem message_head (r : Remark) : ∃ rest, r.message = r.head ++ rest := by
  cases r with
  | started | missing | triggered | executing | joined => exact ⟨_, rfl⟩
  | repeated | bodiless | looped | delaying | restored => exact ⟨_, String.append_assoc ..⟩
  | processing | unconnected | iteration | broken =>
    exact ⟨_, (String.append_assoc ..).trans (String.append_assoc ..)⟩
  | evaluated =>
    exact ⟨_, (String.append_assoc ..).trans ((String.append_assoc ..).trans
      ((String.append_assoc ..).trans ((String.append_assoc ..).trans
        ((String.append_assoc ..).trans (String.append_assoc ..)))))⟩
  | triggerless | refused | completed | cancelled | resumed => exact ⟨"", String.append_empty.symm⟩
  | summary => exact ⟨_, String.empty_append.symm⟩

/-- Neither of two texts begins with the other. -/
def clash (s t : String) : Bool := !s.toList.isPrefixOf t.toList && !t.toList.isPrefixOf s.toList

theorem not_isPrefixOf_of_clash {s t : String} (other : clash s t = true) {text : String}
    (begins : t.toList.isPrefixOf text.toList = true) : s.toList.isPrefixOf text.toList = false := by
  refine Bool.eq_false_iff.2 fun tells => ?_
  unfold clash at other
  rw [Bool.and_eq_true, Bool.not_eq_true', Bool.not_eq_true'] at other
  rcases List.prefix_or_prefix_of_prefix (List.isPrefixOf_iff_prefix.1 tells)
    (List.isPrefixOf_iff_prefix.1 begins) with first | second
  · exact absurd (List.isPrefixOf_iff_prefix.2 first) (by simp [other.1])
  · exact absurd (List.isPrefixOf_iff_prefix.2 second) (by simp [other.2])

theorem tells_head (r : Remark) (path : List String) : (r.entry path).tells r.head = true := by
  obtain ⟨rest, message⟩ := r.message_head
  change r.head.toList.isPrefixOf r.message.toList = true
  rw [message, String.toList_append, List.isPrefixOf_iff_prefix]
  exact List.prefix_append _ _

theorem not_tells_of_clash {head : String} {r : Remark} {path : List String} (other : clash head r.head = true) :
    (r.entry path).tells head = false :=
  not_isPrefixOf_of_clash other (tells_head r path)

/-- All words that remarks begin with. -/
def heads : List String :=
  ["Workflow execution started: ", "No trigger node found in workflow",
    "Execution could not be scheduled: cannot schedule new futures after shutdown", "Processing ",
    "Node not found: ", "Node ", "Trigger activated: ", "Condition evaluated: ", "No '",
    "Executing action: ", "", "Junction: ", "Loop node ", "Loop completed after ", "Loop iteration ",
    "Delay scheduled: ", "Delay completed", "Resuming delay after restart: ",
    "Error processing node ", "Workflow execution completed", "Workflow execution cancelled"]

/-- Those by which a remark can be told from all others but summaries. -/
def distinctive : List String :=
  ["Condition evaluated: ", "Loop completed after ", "Loop iteration ", "Delay scheduled: ",
    "Delay completed", "Workflow execution completed", "Workflow execution cancelled"]

theorem head_mem (r : Remark) : r.head ∈ heads := by
  cases r <;> simp [head, heads]

theorem clash_distinctive : ∀ s ∈ distinctive, ∀ t ∈ heads, t ≠ s → t ≠ "" →
    clash s t = true := by
  decide +kernel

/-- No other remark begins like the one that a node is processed, but for summaries, which may begin
anyhow. -/
theorem clash_processing {r : Remark} (wordy : r.head ≠ "") (apart : r.head ≠ "Processing ") :
    clash "Processing " r.head = true := by
  have each : ∀ t ∈ heads, t ≠ "" → t ≠ "Processing " → clash "Processing " t = true := by
    decide +kernel
  exact each r.head r.head_mem wordy apart

theorem clash_missing : ∀ t ∈ ["No trigger node found in workflow",
    "Execution could not be scheduled: cannot schedule new futures after shutdown",
    "Error processing node "], clash "Node not found: " t = true := by
  decide +kernel

/-- An entry tells what its remark tells, unless it is a summary. -/
theorem tells_entry {head : String} (known : head ∈ distinctive) {r : Remark}
    (wordy : r.head ≠ "") (path : List String) :
    (r.entry path).tells head = decide (r.head = head) := by
  by_cases same : r.head = head
  · rw [← same, tells_head, decide_eq_true rfl]
  · rw [not_tells_of_clash (clash_distinctive head known r.head r.head_mem same wordy),
      decide_eq_false same]

end Remark

end Runbook
