import Runbook.Workflow.Definition
import Runbook.Value.Json

/-!
Reading a workflow definition. Fields of nodes, connections and variables may be written in camel
case or in snake case, the former winning; the lists may be given as JSON text. A comparison, an
amount or a number of iterations that is missing may stand in the node's configuration.
-/
namespace Runbook

open Read

namespace Node

/-- Whether a configuration holds a name: as a key, as an item, or as part of a text. -/
def holds (name : String) : Value → Except Mismatch Bool
  | .dict d => .ok (Dict.contains d name)
  | .list items => .ok (items.any (·.same (.text name)))
  | .text s => .ok (Text.occursIn name.toList s.toList)
  | _ => .error .operation

/-- The configuration of a node as it is written; one that counts as false holds nothing. -/
def configOf (d : Dict) : Value := (Dict.getD d "config").orElse (.dict [])

/-- Takes the comparison from the configuration when the node has none. -/
def withCondition (d : Dict) : Except Mismatch Dict := do
  if Dict.contains d "condition" then return d
  let config := configOf d
  if !(← holds "field" config) then return d
  if !(← holds "operator" config) then return d
  match config with
  | .dict c =>
    return Dict.set d "condition" (.record [
      ("field", Dict.getD c "field"), ("operator", Dict.getD c "operator"),
      ("value", Dict.getD c "value")])
  | _ => .error .attribute

/-- Takes the amount, in minutes unless a unit is given, from the configured duration when the
node has none. -/
def withAmount (d : Dict) : Except Mismatch Dict := do
  if Dict.contains d "amount" then return d
  let config := configOf d
  if !(← holds "duration" config) then return d
  match config with
  | .dict c =>
    return Dict.set (Dict.set d "amount" (Dict.getD c "duration")) "unit"
      ((Dict.get? d "unit").getD (.text "minutes"))
  | _ => .error .operation

/-- Takes the number of iterations from the configured maximum when the node has none. -/
def withIterations (d : Dict) : Except Mismatch Dict :=
  if !(Dict.getD d "iterations").isNull then .ok d
  else
    match configOf d with
    | .dict c =>
      match Dict.getD c "maxIterations" with
      | .null => .ok d
      | most => .ok (Dict.set d "iterations" most)
    | _ => .error .attribute

/-- A name that is trimmed and not empty. -/
def nonBlank (message : String) (s : String) : Reading String :=
  let t := Text.trim s
  if t = "" then .violate message else .accepted t

/-- A number of iterations; zero means that there is no bound. -/
def iterationCount : Option Int → Reading (Option Nat)
  | none => .accepted none
  | some n =>
    if n < 0 then .violate "Loop iterations cannot be negative"
    else if n = 0 then .accepted none
    else .accepted (some n.toNat)

def readCondition : Value → Reading Condition
  | .dict d =>
    Condition.mk <$> required d ["field"] text <*> required d ["operator"] text <*>
      optional d ["value"] .null any
  | _ => .refuse .recordType

/-- Reads the fields that every node has, and then those of its kind. -/
def readFields (d : Dict) (kind : Reading NodeKind) : Reading Node :=
  Node.mk
    <$> required d ["id"] (fun v => (text v).check (nonBlank "Node ID cannot be empty"))
    <*> optional d ["label"] none (nullable text)
    <*> optional d ["description"] none (nullable text)
    <*> optional d ["config"] [] dict
    <*> kind

def withRule (rule : Except Mismatch Dict) (read : Dict → Reading Node) : Reading Node :=
  match rule with
  | .ok d => read d
  | .error m => .broken m

/-- Reads a node whose type is known. -/
def readTagged (d : Dict) : String → Option (Reading Node)
  | "trigger" => some (readFields d
      (NodeKind.trigger <$> required d ["triggerType", "trigger_type"] text))
  | "condition" => some (withRule (withCondition d) fun d => readFields d
      (NodeKind.condition <$> required d ["condition"] readCondition))
  | "action" => some (readFields d
      (NodeKind.action <$> required d ["actionType", "action_type"]
        (fun v => (text v).check (nonBlank "Action type cannot be empty"))))
  | "delay" => some (withRule (withAmount d) fun d => readFields d
      (NodeKind.delay <$> required d ["amount"] any <*> optional d ["unit"] "minutes" text))
  | "loop" => some (withRule (withIterations d) fun d => readFields d
      (NodeKind.loop <$> optional d ["iterations"] none
        (fun v => (nullable whole v).check iterationCount)))
  | "junction" => some (readFields d
      (NodeKind.junction <$> optional d ["junctionType", "junction_type"] "split" text))
  | _ => none

def read : Value → Reading Node
  | .dict d =>
    match Dict.get? d "type" with
    | none => .refuse .tagMissing
    | some (.text tag) =>
      match readTagged d tag with
      | some r => r.within (.name tag)
      | none => .refuse .tagUnknown
    | some _ => .refuse .tagUnknown
  | _ => .refuse .taggedType

end Node

def Connection.read : Value → Reading Connection
  | .dict d =>
    Connection.mk
      <$> optional d ["id"] none (nullable text)
      <*> required d ["sourceId", "source_id"] text
      <*> required d ["targetId", "target_id"] text
      <*> optional d ["label"] none (nullable text)
  | _ => .refuse .recordType

namespace Declaration

/-- Names are made of letters, digits and underscores; a line break may follow. -/
def nameRule (s : String) : Reading String :=
  let cs := s.toList
  let body := if cs.getLast? = some '\n' then cs.dropLast else cs
  if !body.isEmpty && body.all Template.isNameChar then .accepted s
  else .violate "Variable names may contain only letters, digits and underscores"

def read : Value → Reading Declaration
  | .dict d =>
    Declaration.mk
      <$> required d ["name"] (fun v => (text v).check nameRule)
      <*> optional d ["type"] none (nullable text)
      <*> optional d ["defaultValue", "default_value"] .null any
      <*> optional d ["description"] none (nullable text)
  | _ => .refuse .recordType

end Declaration

namespace Workflow

/-- A list that may be written as JSON text; null and the empty text stand for the empty list. -/
def decodedList : Value → Reading Value
  | .null => .accepted (.list [])
  | .text s =>
    let source := if s = "" then "[]" else s
    match Json.read source with
    | .ok v => .accepted v
    | .error flaw => .violate (flaw.message source.toList)
  | v => .accepted v

def listOf {α : Type} (read : Value → Reading α) (v : Value) : Reading (List α) :=
  (decodedList v).check (list read)

/-- No id may occur twice. -/
def uniqueIds (nodes : List Node) : Reading (List Node) :=
  if (nodes.map (·.id)).Nodup then .accepted nodes else .violate "All node IDs must be unique"

def read : Value → Reading Workflow
  | .dict d =>
    Workflow.mk
      <$> optional d ["id"] none (nullable text)
      <*> required d ["tenant_id"] text
      <*> required d ["name"] (fun v => (text v).check (Node.nonBlank "Workflow name cannot be empty"))
      <*> optional d ["description"] none (nullable text)
      <*> required d ["module_type"] text
      <*> optional d ["status"] .draft (choice WorkflowStatus.ofName?)
      <*> optional d ["nodes"] [] (fun v => (listOf Node.read v).check uniqueIds)
      <*> optional d ["connections"] [] (listOf Connection.read)
      <*> optional d ["variables"] [] (listOf Declaration.read)
      <*> optional d ["version"] 1 whole
  | _ => .refuse .recordType

/-- Reads a definition; what is wrong with it becomes one error that names the workflow. -/
def parse (data : Value) : Except Failure Workflow :=
  match read data with
  | .accepted w => .ok w
  | .refused issues => .error (.program (.malformed ((data.field? "id").getD .null) issues))
  | .broken m => .error (.ofMismatch m)

end Workflow

end Runbook
