import Runbook.Failure

/-!
Outages. A storage operation can be made to fail: an outage names the operation, lets some
sessions pass and then refuses a number of them, and may go on in turn like this. There is at most
one outage for an operation.
-/
namespace Runbook.Store

inductive OutageKind where
  | storage | transient | runtime
  deriving DecidableEq, Repr

/-- Sessions for an operation that are going to be refused. -/
structure Outage where
  operation : String
  /-- Sessions that still pass. -/
  after : Nat
  /-- Sessions that are refused then. -/
  times : Nat
  kind : OutageKind
  /-- What comes when these are used up: in each turn, sessions that pass and sessions that are
  refused. -/
  further : List (Nat × Nat) := []
  deriving DecidableEq, Repr

namespace Outage

/-- What a refused session fails with. -/
def failure (o : Outage) (table : String) : Failure :=
  let text := "Failed to " ++ o.operation ++ ": injected fault"
  match o.kind with
  | .storage => .program (.storage o.operation table (some "injected fault"))
  | .transient => .program (.make .transient text [])
  | .runtime => .plain .runtime text

/-- Plans an outage in place of an earlier one for the same operation. -/
def plan (o : Outage) (os : List Outage) : List Outage :=
  os.filter (·.operation != o.operation) ++ [o]

/-- One session within the turns of an outage: true when it is refused, with the turns left. -/
def take : List (Nat × Nat) → Bool × List (Nat × Nat)
  | [] => (false, [])
  | (after + 1, times) :: rest => (false, (after, times) :: rest)
  | (0, times + 1) :: rest => (true, (0, times) :: rest)
  | (0, 0) :: rest => take rest

/-- One session passes or is refused; true when it is refused. -/
def pass (o : Outage) : Bool × Outage :=
  match take ((o.after, o.times) :: o.further) with
  | (refused, []) => (refused, { o with after := 0, times := 0, further := [] })
  | (refused, (after, times) :: further) => (refused, { o with after, times, further })

/-- The outage that refuses a session for an operation, if one does, and what is left of all. -/
def strike (operation : String) : List Outage → Option Outage × List Outage
  | [] => (none, [])
  | o :: rest =>
    if o.operation = operation then
      let (refused, o') := o.pass
      (if refused then some o else none, o' :: rest)
    else
      let (hit, rest') := strike operation rest
      (hit, o :: rest')

/-- The refusals that some turns have left. -/
def refusals : List (Nat × Nat) → Nat
  | [] => 0
  | (_, times) :: rest => times + refusals rest

theorem refusals_take (turns : List (Nat × Nat)) :
    refusals turns = refusals (take turns).2 + if (take turns).1 then 1 else 0 := by
  fun_induction take turns with
  | case1 => rfl
  | case2 => rfl
  | case3 => simp [refusals]; omega
  | case4 rest ih => simpa [refusals] using ih

/-- A refused session uses up one refusal. -/
theorem refusals_of_pass {o : Outage} (h : o.pass.1 = true) :
    refusals ((o.after, o.times) :: o.further) =
      refusals ((o.pass.2.after, o.pass.2.times) :: o.pass.2.further) + 1 := by
  have left := refusals_take ((o.after, o.times) :: o.further)
  unfold pass at h ⊢
  split at h <;> rename_i taken <;> simp only [taken] at left h ⊢
  · rw [h] at left
    simpa [refusals] using left
  · rw [h] at left
    simpa [refusals] using left

end Outage

end Runbook.Store
