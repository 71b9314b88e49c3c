import Runbook.Proofs.Course.Lasting

/-!
What logs tell of nodes. How often an entry of one kind was made at a node is counted by the words it
begins with; a summary may begin with any words, but summaries are made at actions only.
-/
namespace Runbook

namespace Remark

variable {w : Workflow} {r : Remark}

theorem summary_of_head (wordless : r.head = "") : ∃ node text, r = .summary node text := by
  cases r with
  | summary node text => exact ⟨node, text, rfl⟩
  | _ => simp [head] at wordless

/-- Iterations and delays are told of by their own steps. -/
theorem Plain.head_ne (plain : r.Plain w) :
    r.head ≠ "Loop iteration " ∧ r.head ≠ "Delay scheduled: " ∧ r.head ≠ "Delay completed" := by
  cases r with
  | iteration | delaying | resumed | restored => exact plain.elim
  | _ => simp [head]

end Remark

namespace Execution

/-- How often its log tells something of a node. -/
def told (x : Execution) (head node : String) : Nat :=
  x.logs.countP fun e => e.node == node && e.tells head

variable {x : Execution} {head node : String} {r : Remark}

theorem told_tell (x : Execution) (head node : String) (r : Remark) :
    (x.tell r).told head node = x.told head node +
      if (r.place x.path == node && (r.entry x.path).tells head) = true then 1 else 0 := by
  unfold told tell
  rw [List.countP_append, List.countP_singleton]
  rfl

/-- A remark of its own kind at the node that it is about. -/
theorem told_tell_self (place : r.place x.path = node) :
    (x.tell r).told r.head node = x.told r.head node + 1 := by
  rw [told_tell, place, Remark.tells_head]
  simp

theorem told_tell_of_place (other : r.place x.path ≠ node) :
    (x.tell r).told head node = x.told head node := by
  rw [told_tell]
  simp [other]

theorem told_tell_of_head (known : head ∈ Remark.distinctive) (wordy : r.head ≠ "")
    (other : r.head ≠ head) : (x.tell r).told head node = x.told head node := by
  rw [told_tell, Remark.tells_entry known wordy]
  simp [other]

/-- A plain remark of another kind is not told at a node that is no action. -/
theorem told_tell_plain (known : head ∈ Remark.distinctive) (sound : x.workflow.Sound)
    (plain : r.Plain x.workflow) (other : r.head ≠ head)
    (idle : ∀ n actionType, x.workflow.node? node = some n → n.kind ≠ .action actionType) :
    (x.tell r).told head node = x.told head node := by
  by_cases wordy : r.head = ""
  · obtain ⟨place, text, rfl⟩ := Remark.summary_of_head wordy
    obtain ⟨n, actionType, found, kind⟩ := plain
    refine told_tell_of_place fun same => ?_
    have own : (Remark.summary place text).place x.path = place := if_neg (sound.ne_of_node? found)
    exact idle n actionType (own.symm.trans same ▸ found) kind
  · exact told_tell_of_head known wordy other

theorem not_action_of_loopAt {iterations : Option Nat} (found : x.workflow.LoopAt node iterations)
    (n : Node) (actionType : String) (there : x.workflow.node? node = some n) :
    n.kind ≠ .action actionType := by
  obtain ⟨m, held, kind⟩ := found
  obtain rfl := Option.some.inj (held.symm.trans there)
  rw [kind]
  exact nofun

end Execution

end Runbook
