import Runbook.Proofs.Course.Beside

/-!
Shares that differ in what was saved and said, and in which way their executions have come, but not in what
they do from now on: their executions agree in all that the nodes within reach can tell, and their delays
come due alike. What such executions do keeps them so.
-/
namespace Runbook

/-! When delays come due. -/

/-- A delay without the place of its marker. -/
def Delay.call (d : Delay) : String × Float := (d.node, d.due)

/-- What comes due by a point in time, in the order in which it does. -/
def dueBy (time : Float) (calls : List (String × Float)) : List (String × Float) :=
  sortBy (fun p q => decide (p.2 ≤ q.2)) (calls.filter fun p => decide (p.2 ≤ time))

section Due

variable {time : Float} {calls others more : List (String × Float)}

theorem ranked_due : ∀ p ∈ calls.filter (fun p => decide (p.2 ≤ time)),
    ∀ q ∈ calls.filter (fun p => decide (p.2 ≤ time)),
      decide (p.2 ≤ q.2) = true ↔ Clock.rank p.2 ≤ Clock.rank q.2 := by
  intro p there q present
  rw [decide_eq_true_iff]
  exact Clock.le_iff_rank (of_decide_eq_true (List.mem_filter.1 there).2)
    (of_decide_eq_true (List.mem_filter.1 present).2)

/-- What comes due later is left when some of it has come due. -/
theorem dueBy_filter (time : Float) (calls : List (String × Float)) (wanted : String × Float → Bool) :
    dueBy time (calls.filter wanted) = (dueBy time calls).filter wanted := by
  unfold dueBy
  rw [filter_sortBy (fun p : String × Float => Clock.rank p.2) ranked_due, List.filter_comm]

/-- Whatever is set besides comes due alike. -/
theorem dueBy_append (alike : dueBy time others = dueBy time calls) (more : List (String × Float)) :
    dueBy time (others ++ more) = dueBy time (calls ++ more) := by
  -- At each point in time stands what stood there, and what is set besides for that point.
  have standing_due (k) (calls : List (String × Float)) :
      standing (fun p : String × Float => Clock.rank p.2) k (dueBy time calls) =
        standing (fun p : String × Float => Clock.rank p.2) k (calls.filter fun p => decide (p.2 ≤ time)) :=
    standing_sortBy ranked_due k
  unfold dueBy
  refine sortBy_congr ranked_due ranked_due fun k => ?_
  have same := congrArg (standing (fun p : String × Float => Clock.rank p.2) k) alike
  rw [standing_due, standing_due] at same
  unfold standing at same ⊢
  rw [List.filter_append, List.filter_append, List.filter_append, List.filter_append, same]

end Due

/-! Words about nodes that are processed. -/

/-- It tells that a node is being processed. -/
def Spoken.processes (s : Spoken) : Bool := "Processing ".toList.isPrefixOf s.message.toList

/-- Where a remark tells that a node is being processed, it names the node, whatever way was taken. -/
theorem Remark.Placed.processes {r : Remark} (placed : r.Placed) (id : String) (path path' : List String) :
    [r.spoken id path'].filter Spoken.processes = [r.spoken id path].filter Spoken.processes := by
  by_cases nowhere : r.node = ""
  · have silent (path : List String) : (r.spoken id path).processes = false := placed nowhere
    rw [List.filter_cons_of_neg (by simp [silent]), List.filter_cons_of_neg (by simp [silent])]
  · have named : r.spoken id path' = r.spoken id path := by
      unfold spoken place
      rw [if_neg nowhere, if_neg nowhere]
    rw [named]

namespace Execution

variable {links : List Connection} {reach : String → Prop} {x y : Execution} {f : Execution → Execution}

/-- Two executions whose workflows have certain connections and that do the same from now on, at nodes within
reach. -/
structure Kindred (links : List Connection) (reach : String → Prop) (x y : Execution) : Prop
    extends x.Resembles reach y where
  own : x.workflow.connections = links
  status : y.status = x.status
  branches : y.branches = x.branches

theorem Kindred.pace (kindred : Kindred links reach x y) (pace : Pace f) : Kindred links reach (f x) (f y) := by
  cases pace with
  | enter node =>
    refine { kindred with visited := fun other reached => ?_ }
    have same := kindred.visited other reached
    rw [Bool.eq_iff_iff, List.contains_iff_mem, List.contains_iff_mem] at same ⊢
    rw [mem_visited_enter, mem_visited_enter, same]
  | count node n =>
    refine { kindred with counters := fun other reached => ?_ }
    by_cases own : other = node
    · rw [own, counter_setCounter_self, counter_setCounter_self]
    · rw [counter_setCounter_of_ne _ _ own, counter_setCounter_of_ne _ _ own]
      exact kindred.counters other reached
  | begin node =>
    refine { kindred with loops := fun other => ?_ }
    have same := kindred.loops other
    rw [Bool.eq_iff_iff, List.contains_iff_mem, List.contains_iff_mem] at same ⊢
    simp [same]
  | leave node =>
    refine { kindred with loops := fun other => ?_ }
    have same := kindred.loops other
    rw [Bool.eq_iff_iff, List.contains_iff_mem, List.contains_iff_mem] at same ⊢
    simp [same]

end Execution

namespace Share

variable {links : List Connection} {reach : String → Prop} {times : Float → Prop} {id : String} {a b : Share}
  {r : Remark} {f g : Execution → Execution}

/-- Shares of an execution from which the same is done from now on, when the clock moves to certain times. -/
structure Kindred (links : List Connection) (reach : String → Prop) (times : Float → Prop) (a b : Share) : Prop where
  execution : Option.Rel (Execution.Kindred links reach) a.execution? b.execution?
  row : b.row? = a.row?
  now : b.now = a.now
  limit : b.limit = a.limit
  calls : ∀ time, times time → dueBy time (b.pending.map (·.call)) = dueBy time (a.pending.map (·.call))
  due : b.due.map (·.call) = a.due.map (·.call)
  ahead : ∀ d ∈ a.pending ++ a.due, ∀ c ∈ links, c.source = d.node → reach c.target
  words : b.spoken.filter Spoken.processes = a.spoken.filter Spoken.processes

namespace Kindred

variable (kindred : Kindred links reach times a b)

include kindred

theorem alter (each : ∀ x y, Execution.Kindred links reach x y → Execution.Kindred links reach (f x) (g y)) :
    Kindred links reach times (a.alter f) (b.alter g) := by
  refine { kindred with execution := ?_ }
  have both := kindred.execution
  unfold Share.alter
  generalize a.execution? = x at both ⊢
  generalize b.execution? = y at both ⊢
  cases both with
  | none => exact .none
  | some near => exact .some (each _ _ near)

/-- What is said about executions of both. -/
theorem said (placed : r.Placed) :
    (b.spoken ++ (b.execution?.map fun x => r.spoken id x.path).toList).filter Spoken.processes =
      (a.spoken ++ (a.execution?.map fun x => r.spoken id x.path).toList).filter Spoken.processes := by
  rw [List.filter_append, List.filter_append, kindred.words]
  congr 1
  have both := kindred.execution
  generalize a.execution? = x at both ⊢
  generalize b.execution? = y at both ⊢
  cases both with
  | none => rfl
  | some _ => exact placed.processes id _ _

theorem say (placed : r.Placed) : Kindred links reach times (a.say id r) (b.say id r) := by
  have told : Kindred links reach times (a.alter (·.tell r)) (b.alter (·.tell r)) :=
    kindred.alter fun _ _ near => { near with }
  exact { told with words := kindred.said placed }

theorem suspend (closed : ∀ c ∈ links, reach c.source → reach c.target) {node : String}
    (named : node ≠ "") (reached : reach node) (seconds : Float) (resumeAt : Instant) :
    Kindred links reach times (a.suspend id node seconds resumeAt) (b.suspend id node seconds resumeAt) := by
  have saved : Kindred links reach times (a.save node resumeAt) (b.save node resumeAt) := { kindred with }
  have told : Kindred links reach times ((a.save node resumeAt).say id (.delaying node seconds))
      ((b.save node resumeAt).say id (.delaying node seconds)) := saved.say fun none => absurd none named
  have counted := told.alter (f := fun x => { x with branches := x.branches + 1 })
    (g := fun x => { x with branches := x.branches + 1 })
    fun x y near => { near with branches := congrArg (· + 1) near.branches }
  refine { counted with calls := fun time within => ?_, ahead := fun d there c listed source => ?_ }
  · have now : b.now = a.now := kindred.now
    change dueBy time ((b.pending ++ [(⟨b.now + seconds, node, b.saved.length⟩ : Delay)]).map (·.call)) =
      dueBy time ((a.pending ++ [(⟨a.now + seconds, node, a.saved.length⟩ : Delay)]).map (·.call))
    rw [List.map_append, List.map_append, now]
    exact dueBy_append (kindred.calls time within) _
  · change d ∈ a.pending ++ [⟨a.now + seconds, node, a.saved.length⟩] ++ a.due at there
    rw [List.append_assoc, List.mem_append, List.mem_append, List.mem_singleton] at there
    rcases there with old | rfl | old
    · exact kindred.ahead d (List.mem_append_left _ old) c listed source
    · exact closed c listed (source ▸ reached)
    · exact kindred.ahead d (List.mem_append_right _ old) c listed source

theorem close {status : ExecutionStatus} {error : Option String}
    (each : ∀ x y, Execution.Kindred links reach x y → Execution.Kindred links reach (f x) (f y)) :
    Kindred links reach times (a.close f status error) (b.close f status error) := by
  have unmarked (ds : List Delay) : (ds.map (·.unmarked)).map (·.call) = ds.map (·.call) := by
    rw [List.map_map]
    rfl
  refine { kindred.alter each with row := ?_, calls := fun _ _ => rfl, due := ?_, ahead := fun d there => ?_ }
  · change b.row?.map _ = a.row?.map _
    rw [kindred.row]
  · change (b.due.map (·.unmarked)).map (·.call) = (a.due.map (·.unmarked)).map (·.call)
    rw [unmarked, unmarked, kindred.due]
  · obtain ⟨e, old, rfl⟩ := List.mem_map.1 there
    exact kindred.ahead e (List.mem_append_right _ old)

theorem fail (error : String) : Kindred links reach times (a.fail error) (b.fail error) :=
  kindred.close fun _ _ near => { near with active := rfl, status := rfl }

theorem complete : Kindred links reach times (a.complete id) (b.complete id) := by
  have placed : Remark.completed.Placed :=
    Remark.placed_of_clash (Remark.clash_processing (by simp [Remark.head]) (by simp [Remark.head]))
  have closed : Kindred links reach times (a.close Execution.completed .completed none)
      (b.close Execution.completed .completed none) := kindred.close fun _ _ near =>
    { near with active := rfl, status := rfl, branches := congrArg (· - 1) near.branches }
  exact { closed with words := kindred.said placed }

theorem finish : Kindred links reach times (a.finish id) (b.finish id) := by
  have last : b.execution?.any (fun x => x.branches - 1 ≤ 0 && x.isActive) =
      a.execution?.any fun x => x.branches - 1 ≤ 0 && x.isActive := by
    have both := kindred.execution
    generalize a.execution? = x at both ⊢
    generalize b.execution? = y at both ⊢
    cases both with
    | none => rfl
    | some near =>
      rw [Option.any_some, Option.any_some, near.branches, near.active]
  unfold Share.finish
  rw [last]
  split
  · exact kindred.complete
  · exact kindred.alter fun _ _ near => { near with branches := congrArg (· - 1) near.branches }

theorem take (placed : r.Placed) : Kindred links reach times (a.take id r) (b.take id r) := by
  have lowered (place : Nat) (ds : List Delay) : (ds.map (·.lower place)).map (·.call) = ds.map (·.call) := by
    rw [List.map_map]
    rfl
  have due := kindred.due
  unfold Share.take
  cases first : a.due with
  | nil =>
    rw [first] at due
    rw [List.map_eq_nil_iff.1 due]
    exact kindred
  | cons d rest =>
    cases first' : b.due with
    | nil =>
      rw [first, first'] at due
      cases due
    | cons d' rest' =>
      rw [first, first', List.map_cons, List.map_cons] at due
      refine { kindred.say placed with calls := fun time within => ?_, due := ?_, ahead := fun e there => ?_ }
      · exact (congrArg _ (lowered ..)).trans ((kindred.calls time within).trans (congrArg _ (lowered ..)).symm)
      · exact (lowered ..).trans ((List.cons.inj due).2.trans (lowered ..).symm)
      · rcases List.mem_append.1 there with old | old
        · obtain ⟨e, held, rfl⟩ := List.mem_map.1 old
          exact kindred.ahead e (List.mem_append_left _ held)
        · obtain ⟨e, held, rfl⟩ := List.mem_map.1 old
          exact kindred.ahead e (List.mem_append_right _ (first ▸ List.mem_cons_of_mem _ held))

theorem past : Kindred links reach times (a.past id) (b.past id) := by
  have rest : Kindred links reach times { a with due := a.due.tail } { b with due := b.due.tail } := by
    refine { kindred with due := ?_, ahead := fun d there => ?_ }
    · change b.due.tail.map _ = a.due.tail.map _
      rw [List.map_tail, List.map_tail, kindred.due]
    · refine kindred.ahead d ?_
      rcases List.mem_append.1 there with old | old
      · exact List.mem_append_left _ old
      · exact List.mem_append_right _ (List.mem_of_mem_tail old)
  exact rest.finish

theorem shift {now : Float} (within : times now) : Kindred links reach times (a.shift now) (b.shift now) := by
  have later (ds : List Delay) : (ds.filter fun d => !decide (d.due ≤ now)).map (·.call) =
      (ds.map (·.call)).filter fun p => !decide (p.2 ≤ now) := by
    rw [List.filter_map]
    rfl
  have sorted (ds : List Delay) :
      (sortBy (fun d e => d.due ≤ e.due) (ds.filter fun d => decide (d.due ≤ now))).map (·.call) =
        dueBy now (ds.map (·.call)) := by
    have renamed (ds : List Delay) : (sortBy (fun d e : Delay => decide (d.due ≤ e.due)) ds).map (·.call) =
        sortBy (fun p q : String × Float => decide (p.2 ≤ q.2)) (ds.map (·.call)) :=
      map_sortBy fun _ _ _ _ => rfl
    unfold dueBy
    rw [renamed, List.filter_map]
    rfl
  refine { kindred with now := rfl, calls := fun time ahead => ?_, due := ?_, ahead := fun d there => ?_ }
  · refine (congrArg _ (later _)).trans (Eq.trans ?_ (congrArg _ (later _)).symm)
    rw [dueBy_filter, dueBy_filter, kindred.calls time ahead]
  · exact (sorted _).trans ((kindred.calls now within).trans (sorted _).symm)
  · refine kindred.ahead d (List.mem_append_left _ ?_)
    rcases List.mem_append.1 there with old | old
    · exact (List.mem_filter.1 old).1
    · exact (List.mem_filter.1 (mem_sortBy.1 old)).1

end Kindred

/-- What is done from kindred shares keeps them so. -/
theorem concert_kindred (closed : ∀ c ∈ links, reach c.source → reach c.target) (id : String) :
    Concert (Kindred links reach times) (Execution.Kindred links reach) reach id where
  execution kindred := kindred.execution
  resembles near := near.toResembles
  leads near c there := closed c (near.own ▸ there)
  now kindred := kindred.now
  limit kindred := kindred.limit
  due kindred := by
    have nodes := congrArg (List.map Prod.fst) kindred.due
    rwa [List.map_map, List.map_map] at nodes
  ahead kindred d there x _ near c out := kindred.ahead d (List.mem_append_right _ there) c
    (near.own ▸ (List.mem_filter.1 out).1) (eq_of_beq (List.mem_filter.1 out).2)
  say placed kindred := kindred.say placed
  move pace kindred := kindred.alter fun _ _ near => near.pace pace
  forget near kindred := kindred.alter fun _ _ near' => { near' with visited := near.visited }
  put key value kindred := kindred.alter fun x y near =>
    { near with vars := congrArg (Dict.put · key value) near.vars }
  suspend seconds resumeAt named reached kindred := kindred.suspend closed named reached seconds resumeAt
  fail error kindred := kindred.fail error
  finish kindred := kindred.finish
  take placed kindred := kindred.take placed
  past kindred := kindred.past

end Share

end Runbook
