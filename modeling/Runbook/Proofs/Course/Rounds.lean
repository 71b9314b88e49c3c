import Runbook.Proofs.Course.Bound
import Runbook.Proofs.Course.Growth

/-!
How loops turn. A loop that is counted on once more tells of an iteration as long as one is left, and of its
completion from then on. Its counter is never set back, so that its iterations are shared by all the times
that it is entered: unless the execution is stopped, the first of them takes all and leaves none.
-/
namespace Runbook

/-- It does not end with a failure. -/
def Task.isFine : Task → Bool
  | .enter _ | .follow _ => true
  | .node _ failure => failure.isNone
  | .iterate _ _ _ ending => ending.isOk

/-- How often a loop that was entered before is completed within a part of a walk. -/
def Task.owes (loop : String) : Task → Int
  | .enter _ | .follow _ => 0
  | .node n _ => if n.id = loop then 1 else 0
  | .iterate id _ _ _ => if id = loop then 1 else 0

namespace Execution

/-- Between two states of an execution a loop of so many iterations has told of each time that it was counted
on, and apart from what is owed it was completed as often as it was entered. -/
structure Turned (loop : String) (n : Nat) (owed : Int) (x y : Execution) : Prop where
  iterations : (y.told "Loop iteration " loop : Int) + min (n : Int) (x.counter loop) =
    x.told "Loop iteration " loop + min (n : Int) (y.counter loop)
  completions : (y.told "Loop completed after " loop : Int) + max 0 (x.counter loop - n) =
    x.told "Loop completed after " loop + max 0 (y.counter loop - n)
  entries : (y.path.count loop : Int) + x.told "Loop completed after " loop + owed =
    x.path.count loop + y.told "Loop completed after " loop

variable {loop node : String} {n : Nat} {owed more : Int} {x y z : Execution} {r : Remark}

theorem Turned.trans (first : x.Turned loop n owed y) (second : y.Turned loop n more z) :
    x.Turned loop n (owed + more) z where
  iterations := by
    have before := first.iterations
    have after := second.iterations
    omega
  completions := by
    have before := first.completions
    have after := second.completions
    omega
  entries := by
    have before := first.entries
    have after := second.entries
    omega

theorem Turned.of_eq (counters : y.counters = x.counters) (logs : y.logs = x.logs) (path : y.path = x.path) :
    x.Turned loop n 0 y := by
  have counter : y.counter loop = x.counter loop := by rw [Execution.counter, counters, Execution.counter]
  have told (head : String) : y.told head loop = x.told head loop := by
    rw [Execution.told, logs, Execution.told]
  exact ⟨by rw [told, counter], by rw [told, counter], by rw [told, path, Int.add_zero]⟩

theorem Turned.refl (x : Execution) : x.Turned loop n 0 x := .of_eq rfl rfl rfl

/-- What owes nothing may come before. -/
theorem Turned.after (second : y.Turned loop n owed z) (first : x.Turned loop n 0 y) :
    x.Turned loop n owed z := Int.zero_add owed ▸ first.trans second

/-- And behind. -/
theorem Turned.before (first : x.Turned loop n owed y) (second : y.Turned loop n 0 z) :
    x.Turned loop n owed z := Int.add_zero owed ▸ first.trans second

/-- Other remarks tell nothing of the loop. -/
theorem turned_tell (x : Execution) (apart : r.head ≠ "" ∨ r.place x.path ≠ loop)
    (iteration : r.head ≠ "Loop iteration ") (completion : r.head ≠ "Loop completed after ") :
    x.Turned loop n 0 (x.tell r) := by
  have told (head : String) (known : head ∈ Remark.distinctive) (other : r.head ≠ head) :
      (x.tell r).told head loop = x.told head loop :=
    apart.elim (fun wordy => told_tell_of_head known wordy other) told_tell_of_place
  have begun := told _ (by simp [Remark.distinctive]) iteration
  have ended := told _ (by simp [Remark.distinctive]) completion
  exact ⟨by rw [begun]; rfl, by rw [ended]; rfl, by rw [ended, Int.add_zero]; rfl⟩

/-- A remark with words of its own. -/
theorem turned_remark (x : Execution) (wordy : r.head ∉ ["", "Loop iteration ", "Loop completed after "]) :
    x.Turned loop n 0 (x.tell r) := by
  simp only [List.mem_cons, List.not_mem_nil, or_false, not_or] at wordy
  exact turned_tell x (.inl wordy.1) wordy.2.1 wordy.2.2

theorem turned_enter (x : Execution) (node : String) :
    x.Turned loop n (if node = loop then -1 else 0) (x.enter node) := by
  refine ⟨rfl, rfl, ?_⟩
  change ((x.path ++ [node]).count loop : Int) + x.told "Loop completed after " loop + _ =
    x.path.count loop + x.told "Loop completed after " loop
  rw [List.count_append, List.count_singleton]
  by_cases own : node = loop
  · simp [own]
    omega
  · simp [own]

theorem turned_acts (acts : x.Acts y) : x.Turned loop n 0 y := by
  obtain ⟨vars, rfl | ⟨-, rfl⟩⟩ := acts
  · exact .of_eq rfl rfl rfl
  · exact (turned_remark x (r := .cancelled) (by simp [Remark.head])).before (.of_eq rfl rfl rfl)

theorem turned_finished (x : Execution) : x.Turned loop n 0 x.finished := by
  unfold finished
  split
  · exact (turned_remark x (r := .completed) (by simp [Remark.head])).before (.of_eq rfl rfl rfl)
  · exact .of_eq rfl rfl rfl

/-- A loop begins one more iteration. -/
theorem turned_iteration {iterations : Option Nat} (sound : x.workflow.Sound)
    (found : x.workflow.LoopAt loop (some n)) (there : x.workflow.LoopAt node iterations)
    (due : ∀ k, iterations = some k → x.counter node + 1 ≤ (k : Int)) :
    x.Turned loop n 0 ((x.counted node).tell (.iteration node (x.counter node + 1) iterations)) := by
  have told := told_iteration (x := x.counted node) (ne_of_loopAt sound there) (x.counter node + 1) iterations loop
  have ended : ((x.counted node).tell (.iteration node (x.counter node + 1) iterations)).told
      "Loop completed after " loop = x.told "Loop completed after " loop :=
    told_tell_of_head (x := x.counted node) (by simp [Remark.distinctive]) (by simp [Remark.head])
      (by simp [Remark.head])
  have counter : ((x.counted node).tell (.iteration node (x.counter node + 1) iterations)).counter loop = _ :=
    counter_counted x node loop
  have begun : (x.counted node).told "Loop iteration " loop = x.told "Loop iteration " loop := rfl
  have path : ((x.counted node).tell (.iteration node (x.counter node + 1) iterations)).path = x.path := rfl
  refine ⟨?_, ?_, by rw [ended, path, Int.add_zero]⟩ <;> rw [counter]
  · rw [told, begun]
    by_cases own : loop = node
    · subst own
      have left := due n (there.unique found)
      rw [if_pos rfl, if_pos rfl]
      omega
    · rw [if_neg own, if_neg own]
      omega
  · rw [ended]
    by_cases own : loop = node
    · subst own
      have left := due n (there.unique found)
      rw [if_pos rfl]
      omega
    · rw [if_neg own]

/-- A loop has no iteration left. -/
theorem turned_completed {k : Nat} (sound : x.workflow.Sound) (found : x.workflow.LoopAt loop (some n))
    (there : x.workflow.LoopAt node (some k)) (past : (k : Int) < x.counter node + 1) :
    x.Turned loop n (if node = loop then 1 else 0) ((x.counted node).tell (.looped node k)) := by
  have place : (Remark.looped node k).place x.path = node := if_neg (ne_of_loopAt sound there)
  have begun : ((x.counted node).tell (.looped node k)).told "Loop iteration " loop =
      x.told "Loop iteration " loop :=
    told_tell_of_head (x := x.counted node) (by simp [Remark.distinctive]) (by simp [Remark.head])
      (by simp [Remark.head])
  have counter : ((x.counted node).tell (.looped node k)).counter loop = _ := counter_counted x node loop
  have path : ((x.counted node).tell (.looped node k)).path = x.path := rfl
  by_cases own : node = loop
  · subst own
    cases there.unique found
    have ended : ((x.counted node).tell (.looped node n)).told "Loop completed after " node =
        x.told "Loop completed after " node + 1 := told_tell_self (x := x.counted node) place
    rw [if_pos rfl] at counter ⊢
    refine ⟨?_, ?_, ?_⟩
    · rw [begun, counter]
      omega
    · rw [ended, counter]
      omega
    · rw [ended, path]
      omega
  · have ended : ((x.counted node).tell (.looped node k)).told "Loop completed after " loop =
        x.told "Loop completed after " loop :=
      told_tell_of_place (x := x.counted node) fun same => own (place.symm.trans same)
    rw [if_neg (Ne.symm own)] at counter
    rw [if_neg own]
    exact ⟨by rw [begun, counter], by rw [ended, counter], by rw [ended, path, Int.add_zero]⟩

end Execution

/-- Other nodes owe nothing. -/
theorem Task.owes_node {w : Workflow} {m : Node} {failure : Option Failure} {loop : String} {n : Option Nat}
    (found : w.LoopAt loop n) (fits : w.node? m.id = some m) (other : ∀ k, m.kind ≠ .loop k) :
    (Task.node m failure).owes loop = 0 := by
  refine if_neg fun own => ?_
  obtain ⟨_, there, kind⟩ := found
  subst own
  cases fits.symm.trans there
  exact other _ kind

open Execution in
/-- As long as the execution runs, all that walks do turns loops. -/
theorem Walks.turned {l : Option Int} {t : Task} {x y : Execution} {loop : String} {n : Nat} {way : Connection}
    (walk : Walks l t x y) (sound : x.workflow.Sound) (fits : t.Fits x.workflow)
    (found : x.workflow.LoopAt loop (some n)) (body : x.workflow.connection? loop "body" = some way)
    (fine : t.isFine = true) (active : y.isActive = true) : x.Turned loop n (t.owes loop) y := by
  induction walk with
  | idle | back | none | stopped => exact Turned.refl _
  | again => exact turned_remark _ (by simp [Remark.head])
  | @missing x node running admitted absent =>
    have other : node ≠ loop := by
      rintro rfl
      obtain ⟨_, there, -⟩ := found
      cases absent.symm.trans there
    have entered : x.Turned loop n (if node = loop then -1 else 0) (x.enter node) := turned_enter x node
    rw [if_neg other] at entered
    exact entered.before (turned_remark _ (by simp [Remark.head]))
  | @handled x y node m running admitted there work ih =>
    have entered : x.Turned loop n (if node = loop then -1 else 0) ((x.enter node).tell (.processing node m)) :=
      (turned_enter x node).before (turned_remark _ (by simp [Remark.head]))
    -- What is owed for a loop that is entered is what its turns make up for.
    have walked := entered.trans (ih sound (Workflow.node?_self there) found body rfl active)
    change x.Turned loop n (_ + if m.id = loop then 1 else 0) y at walked
    rw [Workflow.id_of_node? there] at walked
    have even : (if node = loop then -1 else 0) + (if node = loop then 1 else 0) = (0 : Int) := by split <;> rfl
    rw [even] at walked
    exact walked
  | broken => cases active
  | lost _ _ _ _ past => simp [past] at active
  | next running first others ih ihOthers =>
    have same := first.workflow
    have entered := ih sound (Workflow.target_mem_places (fits _ (List.mem_cons_self ..))) found body rfl
      (others.grows.active active)
    exact entered.before (ihOthers (same ▸ sound) (fun c later => same ▸ fits c (List.mem_cons_of_mem _ later))
      (same ▸ found) (same ▸ body) rfl active)
  | trigger running kind rest ih | junction running kind rest ih =>
    rw [Task.owes_node found fits (by simp [kind])]
    exact (ih sound (fun c => Workflow.mem_connections_of_outgoing) found body rfl active).after
      (turned_remark _ (by simp [Remark.head]))
  | judged running kind value there rest ih =>
    rw [Task.owes_node found fits (by simp [kind])]
    exact (ih sound (Workflow.connection_mem_places there) found body rfl active).after
      (turned_remark _ (by simp [Remark.head]))
  | unconnected running kind =>
    rw [Task.owes_node found fits (by simp [kind])]
    exact (turned_remark _ (by simp [Remark.head])).before (turned_remark _ (by simp [Remark.head]))
  | misjudged | misacted | misdelayed | misiterated | limited | exhausted => cases fine
  | @action x y z m actionType text running kind work rest ih =>
    have same := work.workflow
    have named : (Remark.summary m.id text).place y.path = m.id := if_neg (sound.ne_of_node? fits)
    have apart : m.id ≠ loop := by
      rintro rfl
      exact not_action_of_loopAt found m actionType fits kind
    have acted : x.Turned loop n 0 (y.tell (.summary m.id text)) :=
      ((turned_remark _ (by simp [Remark.head])).before (turned_acts work)).before
        (turned_tell y (.inr fun same => apart (named.symm.trans same)) (by simp [Remark.head]) (by simp [Remark.head]))
    rw [Task.owes_node found fits (by simp [kind])]
    exact (ih (same ▸ sound) (fun c there => same ▸ Workflow.mem_connections_of_outgoing there) (same ▸ found)
      (same ▸ body) rfl active).after acted
  | delay running kind =>
    rw [Task.owes_node found fits (by simp [kind])]
    exact (turned_remark _ (by simp [Remark.head])).before (.of_eq rfl rfl rfl)
  | @bodiless x m iterations running kind absent =>
    have other : m.id ≠ loop := fun own => by
      subst own
      cases absent.symm.trans body
    have still : (Task.node m Option.none).owes loop = 0 := if_neg other
    rw [still]
    exact turned_remark _ (by simp [Remark.head])
  | @exit x y z m iterations begin out running kind there idle work way rest ih ihRest =>
    have same := work.workflow
    have iterated := ih sound ⟨⟨_, fits, kind⟩, Workflow.connection_mem_places there⟩ found body rfl
      (rest.grows.active active)
    have left := ihRest (same ▸ sound) (same ▸ Workflow.connection_mem_places way) (same ▸ found) (same ▸ body)
      rfl active
    have begun : x.Turned loop n 0 (x.within m.id) := .of_eq rfl rfl rfl
    have ended : z.Turned loop n 0 (z.without m.id) := .of_eq rfl rfl rfl
    exact ((iterated.before left).after begun).before ended
  | @leave x y m iterations begin done running kind there idle work _ ih =>
    have iterated := ih sound ⟨⟨_, fits, kind⟩, Workflow.connection_mem_places there⟩ found body rfl active
    have begun : x.Turned loop n 0 (x.within m.id) := .of_eq rfl rfl rfl
    have ended : y.Turned loop n 0 (y.without m.id) := .of_eq rfl rfl rfl
    exact (iterated.after begun).before ended
  | given past => simp [past] at active
  | completed running past => exact turned_completed sound found fits.1 past
  | @iterated x y z node begin iterations ending running due allowed first others ih ihOthers =>
    have same := first.workflow
    have entered := ih sound fits.2 found body rfl (others.grows.active active)
    have rest := ihOthers (same ▸ sound) (same ▸ fits) (same ▸ found) (same ▸ body) fine active
    have restored : y.Turned loop n 0 { y with visited := x.visited } := .of_eq rfl rfl rfl
    exact rest.after (((turned_iteration sound found fits.1 due).before entered).before restored)

namespace Execution

/-- A loop of so many iterations has told of each time that it was counted on, and it was completed as often as
it was entered. -/
structure Counts (loop : String) (n : Nat) (x : Execution) : Prop where
  iterations : (x.told "Loop iteration " loop : Int) = min (n : Int) (x.counter loop)
  completions : (x.told "Loop completed after " loop : Int) = max 0 (x.counter loop - n)
  entries : x.told "Loop completed after " loop = x.path.count loop

variable {loop : String} {n : Nat} {x y : Execution}

/-- What turns loops goes on counting. -/
theorem Turned.counts (turned : x.Turned loop n 0 y) (counts : x.Counts loop n) : y.Counts loop n := by
  obtain ⟨iterations, completions, entries⟩ := turned
  obtain ⟨told, ended, entered⟩ := counts
  exact ⟨by omega, by omega, by omega⟩

theorem counts_opening (id : String) (w : Workflow) (module item : Value) (triggerData vars : Dict) :
    (opening id w module item triggerData vars).Counts loop n := by
  have counter : (opening id w module item triggerData vars).counter loop = 0 := rfl
  have told (head : String) : (opening id w module item triggerData vars).told head loop = 0 := rfl
  exact ⟨by rw [told, counter]; omega, by rw [told, counter]; omega, rfl⟩

end Execution

open Execution in
/-- As long as it runs, and when it is completed, an execution counts its loops. -/
theorem Life.counts {l : Option Int} {x : Execution} {loop : String} {n : Nat} {way : Connection} (life : Life l x)
    (found : x.workflow.LoopAt loop (some n)) (body : x.workflow.connection? loop "body" = some way)
    (well : x.isActive = true ∨ x.status = .completed) : x.Counts loop n := by
  induction life with
  | @started y id w module item triggerData vars trigger sound there work =>
    have same := work.workflow
    rw [workflow_finished, same] at found body
    have active := active_of_finished (work.incomplete (fun ended => by cases ended)) well
    have walked := work.turned sound (Workflow.trigger_mem_places there) found body rfl active
    let x := opening id w module item triggerData vars
    have opened : x.Turned loop n 0 (x.tell (.started w.name)) := turned_remark x (by simp [Remark.head])
    exact ((walked.after opened).before (turned_finished y)).counts (counts_opening ..)
  | stillborn => rcases well with running | completed <;> contradiction
  | @continued x y node timer life active pending work ih =>
    have same := work.workflow
    rw [workflow_finished, same] at found body
    have open_ : x.status ≠ .completed := fun past => by simp [isActive, past] at active
    have running := active_of_finished (work.incomplete open_) well
    have walked := work.turned life.sound (fun c => Workflow.mem_connections_of_outgoing) found body rfl running
    have fired : x.Turned loop n 0 ((x.fired node timer).tell (.resumed node)) :=
      Turned.after (turned_remark _ (by simp [Remark.head])) (.of_eq rfl rfl rfl)
    exact ((walked.after fired).before (turned_finished y)).counts (ih found body (.inl active))
  | stuck => cases active_of_finished (by simp [failed]) well
  | @late x node timer life past ih =>
    rw [finished_of_over (x := x.fired node timer) past] at found body well ⊢
    have fired : x.Turned loop n 0 { x.fired node timer with branches := x.branches - 1 } := .of_eq rfl rfl rfl
    exact fired.counts (ih found body well)
  | cancelled => rcases well with running | completed <;> contradiction

/-- Within one life of an engine, all the times that a loop is entered share its iterations. As long as an
execution runs, and when it is completed, a loop has told of all its iterations if it was entered, each of them
once, and never of more; and it was completed as often as it was entered. -/
theorem Engine.Fresh.turns_loops {e : Engine} (fresh : e.Fresh) (ops : List Operation)
    (work : ∀ op ∈ ops, op.isWork = true) {id : String} {x : Execution}
    (known : (e.afterAll ops).execution? id = some x) {loop : String} {n : Nat}
    (found : x.workflow.LoopAt loop (some n)) (body : (x.workflow.connection? loop "body").isSome)
    (well : x.isActive = true ∨ x.status = .completed) :
    x.told "Loop iteration " loop ≤ n ∧ (loop ∈ x.path → x.told "Loop iteration " loop = n) ∧
      x.told "Loop completed after " loop = x.path.count loop := by
  obtain ⟨way, body⟩ := Option.isSome_iff_exists.1 body
  obtain ⟨told, ended, entered⟩ := (fresh.lives ops work id x known).counts found body well
  refine ⟨by omega, fun there => ?_, entered⟩
  have once := List.count_pos_iff.2 there
  omega

set_option maxRecDepth 100000 in
/-- Of two loops of two iterations each, the inner one is entered twice, and iterates only the first time. -/
example : ((Engine.bare.afterAll (Engine.onceThrough Workflow.writtenNest 0.0)).execution? "id-1").all fun x =>
    x.path.count "B" == 2 && x.told "Loop iteration " "B" == 2 && x.path.count "J" == 2 := by
  decide +kernel

end Runbook
