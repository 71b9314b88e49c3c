import Runbook.Proofs.Course.Remark

/-!
What is followed of an engine while it works: the executions and their timers, their rows and
markers, and what the process log says about them. Each elementary change of an engine is a
function on scenes.
-/
namespace Runbook

/-- The row of an execution with its end written into it. -/
def Store.ExecutionRow.close (r : Store.ExecutionRow) (status : ExecutionStatus)
    (error : Option String) : Store.ExecutionRow :=
  { r with status, error := error.or r.error, time := .int 0, ended := r.ended || status.isTerminal }

/-- What is followed of the storage. -/
structure Storage.Part where
  row? : String → Option Store.ExecutionRow
  markers : List Store.MarkerRow
  spoken : List Spoken
  /-- The number of the next id. -/
  next : Nat
  /-- An outage is planned. -/
  faulty : Bool

def Storage.part (s : Storage) : Storage.Part where
  row? := s.tables.execution?
  markers := s.tables.markers
  spoken := s.journal.spoken
  next := s.nextId
  faulty := !s.outages.isEmpty

namespace Storage.Part

/-- Writes the end of an execution into its row. -/
def close (p : Storage.Part) (id : String) (status : ExecutionStatus) (error : Option String) :
    Storage.Part :=
  { p with row? := fun k => if k = id then (p.row? k).map (·.close status error) else p.row? k }

/-- Keeps the markers that are wanted. -/
def keep (p : Storage.Part) (wanted : Store.MarkerRow → Bool) : Storage.Part :=
  { p with markers := p.markers.filter wanted }

/-- The number of the next marker. -/
def nextMarker (p : Storage.Part) : Nat := p.markers.foldl (fun n m => max n m.id) 0 + 1

end Storage.Part

/-- What is followed of an engine. -/
structure Scene extends Storage.Part where
  execution? : String → Option Execution
  live : List String
  clock : Clock
  accepting : Bool
  limit : Option Int
  registry : Action.Registry

def Engine.scene (e : Engine) : Scene where
  toPart := e.storage.part
  execution? := e.execution?
  live := e.live
  clock := e.clock
  accepting := e.accepting
  limit := e.loopLimit
  registry := e.registry

/-- The text of a numbered id. -/
def idText (n : Nat) : String := "id-" ++ toString n

namespace Execution

/-- The timers it waits for, each with the delay that set it. -/
def pending (x : Execution) : List (String × Nat) :=
  x.timers.flatMap fun (node, ids) => ids.map (node, ·)

theorem flatMap_addTimer (timers : List (String × List Nat)) (node : String) (t : Nat) :
    ((addTimer timers node t).flatMap fun (node, ids) => ids.map (node, ·)).Perm
      ((node, t) :: timers.flatMap fun (node, ids) => ids.map (node, ·)) := by
  induction timers with
  | nil => simp [addTimer]
  | cons entry rest ih =>
    obtain ⟨k, ts⟩ := entry
    unfold addTimer
    split
    · rename_i same
      obtain rfl : k = node := by simpa using same
      simp only [List.flatMap_cons, List.map_append, List.map_cons, List.map_nil, List.append_assoc]
      exact List.perm_middle
    · simp only [List.flatMap_cons]
      exact (ih.append_left _).trans List.perm_middle

theorem flatMap_dropTimer (timers : List (String × List Nat)) (node : String) (t : Nat) :
    ((dropTimer timers node t).flatMap fun (node, ids) => ids.map (node, ·)) =
      (timers.flatMap fun (node, ids) => ids.map (node, ·)).filter (· != (node, t)) := by
  unfold dropTimer
  induction timers with
  | nil => rfl
  | cons entry rest ih =>
    obtain ⟨k, ts⟩ := entry
    rw [List.flatMap_cons, List.filter_append, ← ih]
    by_cases same : k = node
    · subst same
      have own : (ts.map (k, ·)).filter (· != (k, t)) = (ts.filter (· != t)).map (k, ·) := by
        rw [List.filter_map]
        congr 1
        exact List.filter_congr fun s _ => by rw [Bool.eq_iff_iff]; simp
      rw [own, List.filterMap_cons]
      simp only [beq_self_eq_true, if_true]
      cases left : ts.filter (· != t) <;> simp
    · have kept : (ts.map (k, ·)).filter (· != (node, t)) = ts.map (k, ·) :=
        List.filter_eq_self.2 fun p there => by
          obtain ⟨s, -, rfl⟩ := List.mem_map.1 there
          simp [same]
      rw [kept, List.filterMap_cons]
      simp [same]

/-- A loop stands at a node of its workflow. -/
def hasLoopAt (x : Execution) (node : String) : Bool := (x.workflow.node? node).any Node.isLoop

/-- A node that it may enter: a loop that is not iterating, or something else that was not visited. -/
def admits (x : Execution) (node : String) : Bool :=
  if x.hasLoopAt node then !x.activeLoops.contains node else !x.visited.contains node

end Execution

namespace Scene

def isActive (v : Scene) (id : String) : Bool := (v.execution? id).any Execution.isActive

/-- Changes the execution with an id. -/
def alter (v : Scene) (id : String) (f : Execution → Execution) : Scene :=
  { v with execution? := fun k => if k = id then (v.execution? k).map f else v.execution? k }

/-- Makes a remark in the log of an execution. -/
def say (v : Scene) (id : String) (r : Remark) : Scene :=
  { v.alter id fun x => { x with logs := x.logs ++ [r.entry x.path] } with
    spoken := v.spoken ++ ((v.execution? id).map fun x => r.spoken id x.path).toList }

/-- Takes off the timers of an execution. -/
def untime (v : Scene) (id : String) : Scene :=
  { v.alter id fun x => { x with timers := [] } with
    clock := v.clock.cancel (((v.execution? id).map fun x => x.timers.flatMap (·.2)).getD []) }

/-- Deletes the markers of an execution. -/
def wipe (v : Scene) (id : String) : Scene :=
  { v with toPart := v.toPart.keep (·.execution != id) }

/-- Deletes the marker with a number. -/
def unmark (v : Scene) (marker : Nat) : Scene :=
  { v with toPart := v.toPart.keep fun m => (m.id : Int) != (marker : Int) }

/-- Stores how an execution ended. -/
def record (v : Scene) (id : String) (status : ExecutionStatus) (error : Option String) : Scene :=
  { v with toPart := v.toPart.close id status error }

/-- An execution whose end has been made known is no longer live. -/
def retire (v : Scene) (id : String) : Scene :=
  { v.alter id fun x => { x with done := true } with live := v.live.filter (· != id) }

/-- An execution is over from now on. -/
def halt (v : Scene) (id : String) (status : ExecutionStatus) (error : String) : Scene :=
  ((v.alter id fun x => { x with status, error := some error }).untime id).wipe id

/-- A running execution fails. -/
def fail (v : Scene) (id : String) (error : String) : Scene :=
  ((v.halt id .failed error).record id .failed (some error)).retire id

/-- What the record of a cancelled execution says. -/
def cancelText : String := "Execution cancelled"

/-- A running execution is cancelled. -/
def cancel (v : Scene) (id : String) : Scene :=
  (((v.halt id .cancelled cancelText).say id .cancelled).record id .cancelled
    (some cancelText)).retire id

/-- The last branch of a running execution comes to its end. -/
def complete (v : Scene) (id : String) : Scene :=
  (((v.alter id fun x => { x with branches := x.branches - 1, status := .completed }).say id
    .completed).record id .completed none).retire id

/-- A branch comes to its end. -/
def finish (v : Scene) (id : String) : Scene :=
  if (v.execution? id).any fun x => x.branches - 1 ≤ 0 && x.isActive then v.complete id
  else v.alter id fun x => { x with branches := x.branches - 1 }

/-- Keeps a marker for a continuation of an execution. -/
def mark (v : Scene) (id node : String) (resumeAt : Instant) : Scene :=
  { v with markers := v.markers ++ ((v.execution? id).map fun x =>
      (⟨v.nextMarker, id, node, resumeAt, x.snapshot.stored⟩ : Store.MarkerRow)).toList }

/-- Sets a timer for a continuation of an execution. -/
def arm (v : Scene) (id node : String) (seconds : Float) (marker : Nat) : Scene :=
  { v.alter id fun x => { x with
      branches := x.branches + 1, timers := Execution.addTimer x.timers node v.clock.nextTimer } with
    clock := (v.clock.schedule seconds id node marker).2 }

/-- A branch ends at a delay. -/
def suspend (v : Scene) (id node : String) (seconds : Float) (resumeAt : Instant) : Scene :=
  ((v.mark id node resumeAt).say id (.delaying node seconds)).arm id node seconds v.nextMarker

/-- A timer has fired. -/
def unarm (v : Scene) (t : Timer) : Scene :=
  v.alter t.execution fun x => { x with timers := Execution.dropTimer x.timers t.node t.id }

/-- An execution is created and becomes live. -/
def enrol (v : Scene) (x : Execution) (row : Store.ExecutionRow) (next : Nat) : Scene :=
  { v with
    execution? := fun k => if k = x.id then some x else v.execution? k
    row? := fun k => if k = x.id then some row else v.row? k
    live := v.live ++ [x.id]
    next }

/-- The last branch of a running execution completes it. -/
theorem finish_of_last {v : Scene} {id : String} {x : Execution} (known : v.execution? id = some x)
    (last : (decide (x.branches - 1 ≤ 0) && x.isActive) = true) : v.finish id = v.complete id := by
  rw [finish, known, Option.any_some, last]
  rfl

/-- Any other branch is only counted off. -/
theorem finish_of_more {v : Scene} {id : String} {x : Execution} (known : v.execution? id = some x)
    (more : (decide (x.branches - 1 ≤ 0) && x.isActive) = false) :
    v.finish id = v.alter id fun x => { x with branches := x.branches - 1 } := by
  rw [finish, known, Option.any_some, more]
  rfl

/-! What each change leaves as it was. -/

variable (v : Scene) (id node : String) (f : Execution → Execution) (r : Remark)

@[simp] theorem frame_alter : (v.alter id f).toPart = v.toPart ∧ (v.alter id f).live = v.live ∧
    (v.alter id f).clock = v.clock ∧ (v.alter id f).accepting = v.accepting ∧
    (v.alter id f).limit = v.limit ∧ (v.alter id f).registry = v.registry :=
  ⟨rfl, rfl, rfl, rfl, rfl, rfl⟩

@[simp] theorem frame_say : (v.say id r).row? = v.row? ∧ (v.say id r).markers = v.markers ∧
    (v.say id r).next = v.next ∧ (v.say id r).faulty = v.faulty ∧ (v.say id r).live = v.live ∧
    (v.say id r).clock = v.clock ∧ (v.say id r).accepting = v.accepting ∧
    (v.say id r).limit = v.limit ∧ (v.say id r).registry = v.registry :=
  ⟨rfl, rfl, rfl, rfl, rfl, rfl, rfl, rfl, rfl⟩

@[simp] theorem frame_untime : (v.untime id).toPart = v.toPart ∧ (v.untime id).live = v.live ∧
    (v.untime id).accepting = v.accepting ∧ (v.untime id).limit = v.limit ∧
    (v.untime id).registry = v.registry :=
  ⟨rfl, rfl, rfl, rfl, rfl⟩

@[simp] theorem frame_wipe : (v.wipe id).row? = v.row? ∧ (v.wipe id).spoken = v.spoken ∧
    (v.wipe id).next = v.next ∧ (v.wipe id).faulty = v.faulty ∧
    (v.wipe id).execution? = v.execution? ∧ (v.wipe id).live = v.live ∧
    (v.wipe id).clock = v.clock ∧ (v.wipe id).accepting = v.accepting ∧
    (v.wipe id).limit = v.limit ∧ (v.wipe id).registry = v.registry :=
  ⟨rfl, rfl, rfl, rfl, rfl, rfl, rfl, rfl, rfl, rfl⟩

@[simp] theorem frame_unmark (marker : Nat) : (v.unmark marker).row? = v.row? ∧
    (v.unmark marker).spoken = v.spoken ∧ (v.unmark marker).next = v.next ∧
    (v.unmark marker).faulty = v.faulty ∧ (v.unmark marker).execution? = v.execution? ∧
    (v.unmark marker).live = v.live ∧ (v.unmark marker).clock = v.clock ∧
    (v.unmark marker).accepting = v.accepting ∧ (v.unmark marker).limit = v.limit ∧
    (v.unmark marker).registry = v.registry :=
  ⟨rfl, rfl, rfl, rfl, rfl, rfl, rfl, rfl, rfl, rfl⟩

@[simp] theorem frame_record (status : ExecutionStatus) (error : Option String) :
    (v.record id status error).markers = v.markers ∧
    (v.record id status error).spoken = v.spoken ∧ (v.record id status error).next = v.next ∧
    (v.record id status error).faulty = v.faulty ∧
    (v.record id status error).execution? = v.execution? ∧
    (v.record id status error).live = v.live ∧ (v.record id status error).clock = v.clock ∧
    (v.record id status error).accepting = v.accepting ∧
    (v.record id status error).limit = v.limit ∧ (v.record id status error).registry = v.registry :=
  ⟨rfl, rfl, rfl, rfl, rfl, rfl, rfl, rfl, rfl, rfl⟩

@[simp] theorem frame_retire : (v.retire id).toPart = v.toPart ∧ (v.retire id).clock = v.clock ∧
    (v.retire id).accepting = v.accepting ∧ (v.retire id).limit = v.limit ∧
    (v.retire id).registry = v.registry :=
  ⟨rfl, rfl, rfl, rfl, rfl⟩

@[simp] theorem frame_mark (resumeAt : Instant) : (v.mark id node resumeAt).row? = v.row? ∧
    (v.mark id node resumeAt).spoken = v.spoken ∧ (v.mark id node resumeAt).next = v.next ∧
    (v.mark id node resumeAt).faulty = v.faulty ∧
    (v.mark id node resumeAt).execution? = v.execution? ∧
    (v.mark id node resumeAt).live = v.live ∧ (v.mark id node resumeAt).clock = v.clock ∧
    (v.mark id node resumeAt).accepting = v.accepting ∧
    (v.mark id node resumeAt).limit = v.limit ∧ (v.mark id node resumeAt).registry = v.registry :=
  ⟨rfl, rfl, rfl, rfl, rfl, rfl, rfl, rfl, rfl, rfl⟩

@[simp] theorem frame_arm (seconds : Float) (marker : Nat) :
    (v.arm id node seconds marker).toPart = v.toPart ∧
    (v.arm id node seconds marker).live = v.live ∧
    (v.arm id node seconds marker).accepting = v.accepting ∧
    (v.arm id node seconds marker).limit = v.limit ∧
    (v.arm id node seconds marker).registry = v.registry :=
  ⟨rfl, rfl, rfl, rfl, rfl⟩

@[simp] theorem frame_enrol (x : Execution) (row : Store.ExecutionRow) (next : Nat) :
    (v.enrol x row next).markers = v.markers ∧ (v.enrol x row next).spoken = v.spoken ∧
    (v.enrol x row next).faulty = v.faulty ∧ (v.enrol x row next).clock = v.clock ∧
    (v.enrol x row next).accepting = v.accepting ∧ (v.enrol x row next).limit = v.limit ∧
    (v.enrol x row next).registry = v.registry :=
  ⟨rfl, rfl, rfl, rfl, rfl, rfl, rfl⟩

/-! Where the executions are found afterwards. -/

variable (k : String)

@[simp] theorem execution?_alter : (v.alter id f).execution? k =
    if k = id then (v.execution? k).map f else v.execution? k := rfl

@[simp] theorem execution?_say : (v.say id r).execution? k =
    if k = id then (v.execution? k).map fun x => { x with logs := x.logs ++ [r.entry x.path] }
    else v.execution? k := rfl

@[simp] theorem execution?_untime : (v.untime id).execution? k =
    if k = id then (v.execution? k).map fun x => { x with timers := [] } else v.execution? k := rfl

@[simp] theorem execution?_retire : (v.retire id).execution? k =
    if k = id then (v.execution? k).map fun x => { x with done := true } else v.execution? k := rfl

@[simp] theorem execution?_arm (seconds : Float) (marker : Nat) :
    (v.arm id node seconds marker).execution? k =
      if k = id then (v.execution? k).map fun x => { x with
        branches := x.branches + 1, timers := Execution.addTimer x.timers node v.clock.nextTimer }
      else v.execution? k := rfl

@[simp] theorem execution?_enrol (x : Execution) (row : Store.ExecutionRow) (next : Nat) :
    (v.enrol x row next).execution? k = if k = x.id then some x else v.execution? k := rfl

/-- An execution that has just begun, after a remark. -/
theorem execution?_begun (x : Execution) (row : Store.ExecutionRow) (next : Nat) :
    ((v.enrol x row next).say x.id r).execution? x.id =
      some { x with logs := x.logs ++ [r.entry x.path] } := by
  simp

end Scene

end Runbook
