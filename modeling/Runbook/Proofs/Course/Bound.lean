import Mathlib.Algebra.Order.BigOperators.Group.List
import Mathlib.Algebra.Order.Ring.Nat
import Runbook.Proofs.Course.Iterations
import Runbook.Proofs.Course.Tale

/-!
How often loops iterate. The counter of a loop is never set back, so that where every loop is bounded,
by its own number of iterations or by the limit of the engine, an execution begins a bounded number of
iterations in its whole life.
-/
namespace Runbook

/-- What is counted in a list is counted by parts that cover it. -/
theorem countP_le_sum {α β : Type} (as : List α) (bs : List β) (p : α → Bool) (q : β → α → Bool)
    (cover : ∀ a ∈ as, p a = true → ∃ b ∈ bs, q b a = true) :
    as.countP p ≤ (bs.map fun b => as.countP (q b)).sum := by
  induction bs generalizing p with
  | nil =>
    refine Nat.le_of_eq (List.countP_eq_zero.2 fun a there counted => ?_)
    obtain ⟨b, impossible, -⟩ := cover a there counted
    cases impossible
  | cons b rest ih =>
    have apart : as.countP p ≤ as.countP (q b) + as.countP fun a => p a && !q b a := by
      rw [List.countP_eq_countP_filter_add as p (q b), List.countP_filter, List.countP_filter]
      exact Nat.add_le_add_right (List.countP_mono_left fun a _ both => by simp_all) _
    have others := ih (fun a => p a && !q b a) fun a there counted => by
      obtain ⟨c, member, covered⟩ := cover a there (by simp_all)
      rcases List.mem_cons.1 member with rfl | later
      · simp [covered] at counted
      · exact ⟨c, later, covered⟩
    rw [List.map_cons, List.sum_cons]
    omega

/-- How many iterations a loop may begin. -/
def Node.rounds (limit : Option Int) (n : Node) : Nat :=
  match n.kind, limit with
  | .loop (some k), some l => min k l.toNat
  | .loop (some k), none => k
  | .loop none, some l => l.toNat
  | _, _ => 0

namespace Workflow

/-- How many iterations the loops may begin. -/
def rounds (w : Workflow) (limit : Option Int) : Nat := (w.nodes.map (·.rounds limit)).sum

end Workflow

namespace Execution

/-- Each of its loops has begun no more iterations than were counted, nor more than it may. -/
def Restrained (l : Option Int) (x : Execution) : Prop :=
  x.workflow.Sound ∧ ∀ loop iterations, x.workflow.LoopAt loop iterations →
    0 ≤ x.counter loop ∧ (x.told "Loop iteration " loop : Int) ≤ x.counter loop ∧
      (∀ k, iterations = some k → x.told "Loop iteration " loop ≤ k) ∧
        ∀ k, l = some k → x.told "Loop iteration " loop ≤ k.toNat

variable {l : Option Int} {x y : Execution}

theorem Restrained.of_told (held : x.Restrained l) (workflow : y.workflow = x.workflow)
    (counter : ∀ loop, x.counter loop ≤ y.counter loop)
    (told : ∀ loop iterations, x.workflow.LoopAt loop iterations →
      y.told "Loop iteration " loop = x.told "Loop iteration " loop) : y.Restrained l := by
  refine ⟨workflow ▸ held.1, fun loop iterations there => ?_⟩
  rw [workflow] at there
  obtain ⟨begun, counted, bounds⟩ := held.2 loop iterations there
  have grown := counter loop
  rw [told loop iterations there]
  exact ⟨by omega, by omega, bounds⟩

theorem counter_counted (x : Execution) (loop other : String) : (x.counted loop).counter other =
    if other = loop then x.counter loop + 1 else x.counter other := by
  split
  · rename_i same
    rw [same, counted, counter_setCounter_self]
  · rename_i apart
    rw [counted, counter_setCounter_of_ne _ _ apart]

/-- Only the loop itself is told to begin an iteration. -/
theorem told_iteration {loop : String} (named : loop ≠ "") (count : Int) (iterations : Option Nat)
    (other : String) : (x.tell (.iteration loop count iterations)).told "Loop iteration " other =
      x.told "Loop iteration " other + if other = loop then 1 else 0 := by
  have place : (Remark.iteration loop count iterations).place x.path = loop := if_neg named
  split
  · rename_i same
    exact told_tell_self (place.trans same.symm)
  · rename_i apart
    exact told_tell_of_place fun same => apart (same.symm.trans place)

theorem Restrained.iteration {loop : String} {iterations : Option Nat} (held : x.Restrained l)
    (there : x.workflow.LoopAt loop iterations)
    (due : ∀ n, iterations = some n → x.counter loop + 1 ≤ (n : Int))
    (allowed : ∀ k, l = some k → x.counter loop + 1 ≤ k) :
    ((x.counted loop).tell (.iteration loop (x.counter loop + 1) iterations)).Restrained l := by
  refine ⟨held.1, fun other times found => ?_⟩
  obtain ⟨begun, counted, own, common⟩ := held.2 other times found
  have told := told_iteration (x := x.counted loop) (ne_of_loopAt held.1 there) (x.counter loop + 1)
    iterations other
  have counter : ((x.counted loop).tell (.iteration loop (x.counter loop + 1) iterations)).counter
      other = _ := counter_counted x loop other
  rw [told, counter]
  change 0 ≤ _ ∧ ((x.told "Loop iteration " other + _ : Nat) : Int) ≤ _ ∧
    (∀ k, times = some k → x.told "Loop iteration " other + _ ≤ k) ∧
      ∀ k, l = some k → x.told "Loop iteration " other + _ ≤ k.toNat
  by_cases same : other = loop
  · subst same
    obtain rfl := found.unique there
    simp only [if_true]
    refine ⟨by omega, by omega, fun k times => ?_, fun k bound => ?_⟩
    · have := due k times
      omega
    · have := allowed k bound
      omega
  · simp only [same, if_false, Nat.add_zero]
    exact ⟨begun, counted, own, common⟩

theorem lasting_restrained (l : Option Int) : Lasting l (Restrained l) := by
  have known : "Loop iteration " ∈ Remark.distinctive := by simp [Remark.distinctive]
  constructor
  case frame =>
    intro x y held same
    refine held.of_told same.1.workflow (fun loop => ?_) fun loop _ _ => ?_
    · simp [counter, same.1.counters]
    · simp [told, same.1.logs]
  case past =>
    intro x y held same
    refine held.of_told same.1.workflow (fun loop => ?_) fun loop _ _ => ?_
    · simp [counter, same.1.counters]
    · simp [told, same.1.logs]
  case enter => exact fun _ _ _ held => held.of_told rfl (fun _ => Int.le_refl _) fun _ _ _ => rfl
  case tell =>
    exact fun plain held => held.of_told rfl (fun _ => Int.le_refl _) fun _ _ there =>
      told_tell_plain known held.1 plain plain.head_ne.1 (not_action_of_loopAt there)
  case iteration => exact fun there due allowed held => held.iteration there due allowed
  case beyond =>
    exact fun {x loop _} _ _ held => held.of_told rfl (Extends.setCounter x loop).counters
      fun _ _ _ => rfl
  case wait =>
    exact fun {x _ _ _} _ _ held => held.of_told rfl (fun _ => Int.le_refl _) fun _ _ _ =>
      told_tell_of_head (x := x) known (by simp [Remark.head]) (by simp [Remark.head])
  case resume =>
    exact fun {x _ _} _ _ held => held.of_told rfl (fun _ => Int.le_refl _) fun _ _ _ =>
      told_tell_of_head (x := x.fired _ _) known (by simp [Remark.head]) (by simp [Remark.head])
  case late => exact fun _ held => held.of_told rfl (fun _ => Int.le_refl _) fun _ _ _ => rfl

/-- Its loops have begun no more iterations than they may. -/
theorem Restrained.iterations_le (held : x.Restrained l) (bounded : x.workflow.Bounded l) :
    x.iterations ≤ x.workflow.rounds l := by
  have cover : ∀ e ∈ x.logs, (x.hasLoopAt e.node && e.tells "Loop iteration ") = true →
      ∃ n ∈ x.workflow.nodes,
        (n.isLoop && (e.node == n.id && e.tells "Loop iteration ")) = true := by
    intro e _ counted
    rw [Bool.and_eq_true] at counted
    obtain ⟨loop, tells⟩ := counted
    obtain ⟨n, found, isLoop⟩ := (Option.any_eq_true ..).1 loop
    exact ⟨n, List.mem_of_find?_eq_some found, by simp [isLoop, tells, Workflow.id_of_node? found]⟩
  refine Nat.le_trans (countP_le_sum x.logs x.workflow.nodes _ _ cover)
    (List.sum_le_sum fun n member => ?_)
  cases kind : n.kind with
  | loop iterations =>
    have there : x.workflow.LoopAt n.id iterations := ⟨n, held.1.node?_of_mem member, kind⟩
    obtain ⟨-, -, own, common⟩ := held.2 n.id iterations there
    have isLoop : n.isLoop = true := by simp [Node.isLoop, kind]
    simp only [isLoop, Bool.true_and]
    change x.told "Loop iteration " n.id ≤ n.rounds l
    have some := bounded.isSome member kind
    unfold Node.rounds
    rw [kind]
    cases iterations with
    | none =>
      cases l with
      | none => simp at some
      | some k => exact common k rfl
    | some k =>
      cases l with
      | none => exact own k rfl
      | some m => exact Nat.le_min.2 ⟨own k rfl, common m rfl⟩
  | _ => simp [Node.isLoop, kind]

end Execution

/-- In its whole life an execution begins no more iterations than its loops may. -/
theorem Life.iterations_le {l : Option Int} {x : Execution} (life : Life l x)
    (bounded : x.workflow.Bounded l) : x.iterations ≤ x.workflow.rounds l :=
  ((Execution.lasting_restrained l).life life fun _ _ _ _ _ _ sound =>
    ⟨sound, fun _ _ _ => by simp [Execution.opening, Execution.told, Execution.counter]⟩).iterations_le
      bounded

end Runbook
