import Runbook.Engine.State

/-!
Snapshots: what a delay marker keeps of an execution, so that a continuation can be taken up again
after a restart.
-/
namespace Runbook

namespace Value

/-- The items of a value that can be walked through. -/
def walk (v : Value) : Except Failure (List Value) :=
  match Announcement.items? v with
  | some vs => .ok vs
  | none => .error (.plain .type ("'" ++ Http.kindName v ++ "' object is not iterable"))

def pairLength (index length : Nat) : Failure :=
  .plain .value ("dictionary update sequence element #" ++ toString index ++ " has length " ++
    toString length ++ "; 2 is required")

/-- One entry of a dictionary given as a pair. -/
def pair (index : Nat) (v : Value) : Except Failure (Key × Value) :=
  match Announcement.items? v with
  | none => .error (.plain .type ("cannot convert dictionary update sequence element #" ++
      toString index ++ " to a sequence"))
  | some [k, w] =>
    match k.key? with
    | some key => .ok (key, w)
    | none => .error (.plain .type ("unhashable type: '" ++ Http.kindName k ++ "'"))
  | some vs => .error (pairLength index vs.length)

def pairs : Nat → List Value → Except Failure (List (Key × Value))
  | _, [] => .ok []
  | n, v :: rest => do return (← pair n v) :: (← pairs (n + 1) rest)

/-- A dictionary from a dictionary or from pairs; a value that counts as false gives none. -/
def toDict (v : Value) : Except Failure Dict :=
  match v.orElse (.dict []) with
  | .dict d => .ok d
  | w => do return Dict.ofPairs (← pairs 0 (← w.walk))

/-- The items of a value; one that counts as false has none. -/
def toItems (v : Value) : Except Failure (List Value) := (v.orElse (.list [])).walk

end Value

/-- The state that a continuation needs, as it is stored. -/
structure Snapshot where
  vars : Dict
  visited : List Value
  path : List Value
  counters : Dict
  module : Value
  item : Value
  triggerData : Dict

namespace Snapshot

/-- Items without repetition, in the order of their first occurrence. -/
def distinct : List Value → List Value → Except Failure (List Value)
  | seen, [] => .ok seen
  | seen, v :: rest =>
    match v with
    | .list _ | .dict _ => .error (.plain .type ("unhashable type: '" ++ Http.kindName v ++ "'"))
    | _ => distinct (if seen.any (·.same v) then seen else seen ++ [v]) rest

/-- Reads a snapshot of an execution of a workflow that is attached to `module`. -/
def read (module : String) (d : Dict) : Except Failure Snapshot := do
  let vars ← (Dict.getD d "variables").toDict
  let triggerData ← (Dict.getD d "trigger_data").toDict
  let visited ← distinct [] (← (Dict.getD d "visited").toItems)
  let path ← (Dict.getD d "path").toItems
  let counters ← (Dict.getD d "loop_counters").toDict
  return {
    vars, visited, path, counters, triggerData
    module := (Dict.getD d "module_type").orElse (.text module), item := Dict.getD d "module_item_id" }

/-- Reads a snapshot given as data. -/
def ofValue (module : String) : Value → Except Failure Snapshot
  | .dict d => read module d
  | _ => .error .noAttribute

/-- Items that can be ordered come in order: texts by code points, numbers by value. -/
def sorted (vs : List Value) : Except Failure (List Value) :=
  match vs.mapM fun | .text s => some s | _ => none with
  | some texts => .ok ((texts.mergeSort fun a b => decide (a ≤ b)).map .text)
  | none =>
    match vs.mapM Value.number? with
    | some _ => .ok (vs.mergeSort fun a b =>
        match a.number?, b.number? with
        | some x, some y => !y.less x
        | _, _ => true)
    | none => if vs.length < 2 then .ok vs else .error .wrongType

def record (s : Snapshot) : Except Failure Value := do
  return .record [
    ("variables", .dict s.vars), ("visited", .list (← sorted s.visited)),
    ("path", .list s.path), ("loop_counters", .dict s.counters), ("module_type", s.module),
    ("module_item_id", s.item), ("trigger_data", .dict s.triggerData)]

end Snapshot

namespace Execution

/-- What a marker keeps of an execution. -/
def snapshot (e : Execution) : Value :=
  .record [
    ("variables", .dict e.vars),
    ("visited", Value.texts (sortBy (fun a b => decide (a ≤ b)) e.visited)),
    ("path", Value.texts e.path),
    ("loop_counters", .dict (e.counters.map fun (k, n) => (.text k, .int n))),
    ("module_type", e.module), ("module_item_id", e.item), ("trigger_data", .dict e.triggerData)]

/-- The node ids among some items. -/
def nodeIds (vs : List Value) : List String :=
  vs.filterMap fun | .text s => some s | _ => none

/-- A number of iterations. -/
def count? : Value → Option Int
  | .int n => some n
  | .bool b => some (if b then 1 else 0)
  | _ => none

/-- The counters in a dictionary. -/
def countersOf : Dict → Except Failure (List (String × Int))
  | [] => .ok []
  | (k, v) :: rest => do
    match count? v with
    | some n => return (k.jsonText, n) :: (← countersOf rest)
    | none => .error .wrongType

/-- The execution that a snapshot describes, running and waiting for one branch. What is no node id
and no counter is left out. -/
def ofSnapshot (id : String) (w : Workflow) (s : Snapshot) : Execution where
  id := id
  workflow := w
  module := s.module
  item := s.item
  triggerData := s.triggerData
  vars := s.vars
  visited := nodeIds s.visited
  path := nodeIds s.path
  counters := s.counters.filterMap fun (k, v) => (count? v).map (k.jsonText, ·)

/-- Takes in what another marker of the same execution knows: the nodes it has visited, and the
counters where they are ahead. -/
def absorb (e : Execution) (d : Dict) : Except Failure Execution := do
  let more ← Snapshot.distinct [] (← (Dict.getD d "visited").toItems)
  let counters ← match (Dict.getD d "loop_counters").orElse (.dict []) with
    | .dict c => countersOf c
    | _ => .error .noAttribute
  let e := (nodeIds more).foldl (fun e node =>
    if e.visited.contains node then e else { e with visited := e.visited ++ [node] }) e
  return counters.foldl (fun e (node, n) => e.setCounter node (max n (e.counter node))) e

end Execution

end Runbook
