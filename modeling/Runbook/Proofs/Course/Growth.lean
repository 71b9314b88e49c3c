import Runbook.Proofs.Course.Lasting

/-!
What walks leave behind. A walk adds to the log and to the nodes that count as visited, it may end its
execution but does not complete it, and it begins a branch for each delay that it waits for. So a
completed execution waits for nothing.
-/
namespace Runbook

namespace Execution

/-- In the later of two states, an execution has told and visited more, and was not made to run
again. -/
structure Grows (x y : Execution) : Prop where
  workflow : y.workflow = x.workflow
  logs : x.logs <+: y.logs
  visited : ∀ node ∈ x.visited, node ∈ y.visited
  active : y.isActive = true → x.isActive = true

/-- While an execution is running, it still waits for what it waited for, and each new delay has a
branch. -/
structure Waits (x y : Execution) : Prop where
  pending : ∀ delay ∈ x.pending, delay ∈ y.pending
  branches : (y.pending.length : Int) - y.branches ≤ x.pending.length - x.branches

variable {x y z : Execution} {node : String}

theorem Grows.refl (x : Execution) : x.Grows x := ⟨rfl, List.prefix_rfl, fun _ seen => seen, fun running => running⟩

theorem Grows.trans (first : x.Grows y) (second : y.Grows z) : x.Grows z where
  workflow := second.workflow.trans first.workflow
  logs := first.logs.trans second.logs
  visited node seen := second.visited node (first.visited node seen)
  active running := first.active (second.active running)

theorem grows_tell (x : Execution) (r : Remark) : x.Grows (x.tell r) :=
  ⟨rfl, List.prefix_append _ _, fun _ seen => seen, fun running => running⟩

theorem grows_enter (x : Execution) (node : String) : x.Grows (x.enter node) :=
  ⟨rfl, List.prefix_rfl, fun _ seen => mem_visited_enter.2 (.inr seen), fun running => running⟩

theorem grows_failed (x : Execution) (error : String) : x.Grows (x.failed error) :=
  ⟨rfl, List.prefix_rfl, fun _ seen => seen, nofun⟩

theorem grows_cancelled (x : Execution) : x.Grows x.cancelled :=
  ⟨rfl, List.prefix_append _ _, fun _ seen => seen, nofun⟩

/-- A branch that ends after its execution only counts. -/
theorem finished_of_over (past : x.isActive = false) :
    x.finished = { x with branches := x.branches - 1 } := by
  rw [finished, past, Bool.and_false]
  rfl

theorem pending_fired (x : Execution) (node : String) (timer : Nat) :
    (x.fired node timer).pending = x.pending.filter (· != (node, timer)) :=
  Scene.pending_dropTimer x node timer

theorem grows_resumed (x : Execution) (node : String) (timer : Nat) :
    x.Grows ((x.fired node timer).tell (.resumed node)) :=
  ⟨rfl, List.prefix_append _ _, fun _ seen => seen, fun running => running⟩

theorem Acts.grows (acts : x.Acts y) : x.Grows y := by
  obtain ⟨vars, rfl | ⟨-, rfl⟩⟩ := acts
  · exact ⟨rfl, List.prefix_rfl, fun _ seen => seen, fun running => running⟩
  · exact ⟨rfl, List.prefix_append _ _, fun _ seen => seen, nofun⟩

theorem grows_completed (x : Execution) : x.Grows x.completed :=
  ⟨rfl, List.prefix_append _ _, fun _ seen => seen, nofun⟩

theorem grows_finished (x : Execution) : x.Grows x.finished := by
  unfold finished
  split
  · exact grows_completed x
  · exact ⟨rfl, List.prefix_rfl, fun _ seen => seen, fun running => running⟩

/-- What runs or is completed after a branch has ended was running before. -/
theorem active_of_finished (open_ : x.status ≠ .completed)
    (well : x.finished.isActive = true ∨ x.finished.status = .completed) : x.isActive = true := by
  rcases well with running | completed
  · exact (grows_finished x).active running
  · unfold finished at completed
    split at completed <;> rename_i last
    · exact (Bool.and_eq_true_iff.1 last).2
    · exact absurd completed open_

theorem Waits.refl (x : Execution) : x.Waits x := ⟨fun _ there => there, Int.le_refl _⟩

theorem Waits.trans (first : x.Waits y) (second : y.Waits z) : x.Waits z :=
  ⟨fun delay there => second.pending delay (first.pending delay there),
    Int.le_trans second.branches first.branches⟩

theorem Waits.of_eq (timers : y.timers = x.timers) (branches : y.branches = x.branches) : x.Waits y := by
  have pending : y.pending = x.pending := by rw [Execution.pending, Execution.pending, timers]
  exact ⟨fun delay there => pending ▸ there, Int.le_of_eq (by rw [pending, branches])⟩

/-- What changes neither timers nor branches may come first. -/
theorem Waits.after (second : y.Waits z) (timers : y.timers = x.timers)
    (branches : y.branches = x.branches) : x.Waits z :=
  (of_eq timers branches).trans second

/-- What an action leaves running still waits for the same. -/
theorem Acts.waits (acts : x.Acts y) (active : y.isActive = true) : x.Waits y := by
  obtain ⟨vars, rfl | ⟨-, rfl⟩⟩ := acts
  · exact .of_eq rfl rfl
  · cases active

theorem waits_waiting (x : Execution) (node : String) (seconds : Float) (timer : Nat) :
    x.Waits (x.waiting node seconds timer) := by
  have more : (x.waiting node seconds timer).pending.Perm ((node, timer) :: x.pending) :=
    Scene.pending_addTimer x node timer
  refine ⟨fun delay there => more.mem_iff.2 (List.mem_cons_of_mem _ there), ?_⟩
  rw [more.length_eq, List.length_cons]
  change _ - (x.branches + 1) ≤ _
  omega

end Execution

open Execution in
theorem Walks.grows {l : Option Int} {t : Task} {x y : Execution} (walk : Walks l t x y) :
    x.Grows y := by
  induction walk with
  | idle | back | none | stopped | misjudged | misdelayed | given | exhausted => exact .refl _
  | again | bodiless => exact grows_tell _ _
  | missing => exact (grows_enter _ _).trans (grows_tell _ _)
  | handled active admitted found work ih | lost active admitted found work past ih =>
    exact ((grows_enter _ _).trans (grows_tell _ _)).trans ih
  | broken active admitted found work running ih =>
    exact (((grows_enter _ _).trans (grows_tell _ _)).trans ih).trans
      ((grows_tell _ _).trans (grows_failed _ _))
  | next active first others ih ihOthers => exact ih.trans ihOthers
  | trigger active kind rest ih | junction active kind rest ih
  | judged active kind value found rest ih => exact (grows_tell _ _).trans ih
  | unconnected => exact (grows_tell _ _).trans (grows_tell _ _)
  | action active kind work rest ih =>
    exact ((grows_tell _ _).trans work.grows).trans ((grows_tell _ _).trans ih)
  | misacted active kind work => exact (grows_tell _ _).trans work.grows
  | delay => exact ⟨rfl, List.prefix_append _ _, fun _ seen => seen, fun running => running⟩
  | exit active kind found idle work way rest ih ihRest =>
    have walked := ih.trans ihRest
    exact ⟨walked.workflow, walked.logs, walked.visited, walked.active⟩
  | leave active kind found idle work _ ih | misiterated active kind found idle work ih =>
    exact ⟨ih.workflow, ih.logs, ih.visited, ih.active⟩
  | completed => exact ⟨rfl, List.prefix_append _ _, fun _ seen => seen, fun running => running⟩
  | limited => exact ⟨rfl, List.prefix_rfl, fun _ seen => seen, fun running => running⟩
  | @iterated x y z loop body iterations ending active due allowed first others ih ihOthers =>
    have entered := (grows_tell (x.counted loop) _).trans ih
    exact ⟨ihOthers.workflow.trans entered.workflow, entered.logs.trans ihOthers.logs, ihOthers.visited,
      fun running => entered.active (ihOthers.active running)⟩

/-- A walk completes nothing. -/
theorem Walks.incomplete {l : Option Int} {t : Task} {x y : Execution} (walk : Walks l t x y)
    (open_ : x.status ≠ .completed) : y.status ≠ .completed := by
  have acts {x y : Execution} (acts : x.Acts y) (open_ : x.status ≠ .completed) :
      y.status ≠ .completed := by
    obtain ⟨vars, rfl | ⟨-, rfl⟩⟩ := acts
    · exact open_
    · exact nofun
  induction walk with
  | handled _ _ _ _ ih | lost _ _ _ _ _ ih | trigger _ _ _ ih | junction _ _ _ ih
  | judged _ _ _ _ _ ih | leave _ _ _ _ _ _ ih | misiterated _ _ _ _ _ ih => exact ih open_
  | broken => exact nofun
  | next _ _ _ ih ihOthers | exit _ _ _ _ _ _ _ ih ihOthers | iterated _ _ _ _ _ ih ihOthers =>
    exact ihOthers (ih open_)
  | action _ _ work _ ih =>
    have acted := acts work open_
    exact ih acted
  | misacted _ _ work => exact acts work open_
  | _ => exact open_

open Execution in
theorem Walks.waits {l : Option Int} {t : Task} {x y : Execution} (walk : Walks l t x y)
    (active : y.isActive = true) : x.Waits y := by
  induction walk with
  | idle | back | none | stopped | misjudged | misdelayed | given | exhausted => exact .refl _
  | again | missing | unconnected | bodiless | completed | limited => exact .of_eq rfl rfl
  | handled _ _ _ _ ih | lost _ _ _ _ _ ih | trigger _ _ _ ih | junction _ _ _ ih
  | judged _ _ _ _ _ ih => exact (ih active).after rfl rfl
  | broken => cases active
  | next _ first others ih ihOthers => exact (ih (others.grows.active active)).trans (ihOthers active)
  | action _ _ work rest ih =>
    have acted := work.waits (((grows_tell _ _).trans rest.grows).active active)
    exact (acted.trans ((ih active).after rfl rfl)).after rfl rfl
  | misacted _ _ work => exact (work.waits active).after rfl rfl
  | delay => exact waits_waiting _ _ _ _
  | exit _ _ _ _ work _ rest ih ihRest =>
    have walked := (ih (rest.grows.active active)).trans (ihRest active)
    exact ⟨walked.pending, walked.branches⟩
  | leave _ _ _ _ _ _ ih | misiterated _ _ _ _ _ ih => exact ⟨(ih active).pending, (ih active).branches⟩
  | iterated _ _ _ first others ih ihOthers =>
    have entered := ih (others.grows.active active)
    exact (entered.trans ((ihOthers active).after rfl rfl)).after rfl rfl

namespace Execution

variable {x y : Execution}

/-- A running execution has a branch for every delay that it waits for, and a completed one waits
for none. -/
def Attended (x : Execution) : Prop :=
  (x.isActive = true → (x.pending.length : Int) ≤ x.branches) ∧ (x.status = .completed → x.pending = [])

/-- Its main branch, or that of a delay, has come to its end. -/
theorem attended_finished (more : x.isActive = true → (x.pending.length : Int) + 1 ≤ x.branches)
    (fresh : x.status ≠ .completed) : x.finished.Attended := by
  unfold finished
  split
  · rename_i last
    rw [Bool.and_eq_true, decide_eq_true_eq] at last
    refine ⟨fun active => (by cases active), fun _ => List.length_eq_zero_iff.1 ?_⟩
    have fewer := more last.2
    change x.pending.length = 0
    omega
  · refine ⟨fun active => ?_, fun ended => absurd ended fresh⟩
    have fewer := more active
    change (x.pending.length : Int) ≤ x.branches - 1
    omega

end Execution

open Execution in
theorem Life.attended {l : Option Int} {x : Execution} (life : Life l x) : x.Attended := by
  induction life with
  | @started y id w module item triggerData vars trigger sound found work =>
    refine attended_finished (fun active => ?_) fun ended => ?_
    · have waits := (work.waits active).branches
      change _ ≤ (0 : Int) - 1 at waits
      omega
    · exact work.incomplete (by exact nofun) ended
  | stillborn => exact ⟨fun active => (by cases active), fun ended => (by cases ended)⟩
  | @continued x y node timer life active pending work ih =>
    refine attended_finished (fun running => ?_) fun ended => ?_
    · have waits := (work.waits running).branches
      have before := ih.1 active
      have fewer : (x.fired node timer).pending.length + 1 ≤ x.pending.length := by
        rw [pending_fired]
        exact List.length_filter_lt_length_iff_exists.2 ⟨_, pending, by simp⟩
      change _ ≤ ((x.fired node timer).pending.length : Int) - x.branches at waits
      omega
    · refine work.incomplete (fun past => ?_) ended
      have past : x.status = .completed := past
      simp [isActive, past] at active
  | stuck =>
    exact attended_finished (fun active => (by cases active)) fun ended => (by cases ended)
  | @late x node timer life past ih =>
    rw [finished_of_over (x := x.fired node timer) past]
    refine ⟨fun active => ?_, fun ended => ?_⟩
    · exact absurd (show x.isActive = true from active) (by simp [past])
    · have none := ih.2 ended
      change (x.fired node timer).pending = []
      rw [pending_fired, none]
      rfl
  | cancelled => exact ⟨fun active => (by cases active), fun ended => (by cases ended)⟩

end Runbook
