import Runbook.Proofs.Action
import Runbook.Proofs.Substitution

/-!
Tickets that actions refer to by variables. An action that names its ticket, or whom to assign it to, by a
reference and nothing else changes nothing when the variable is missing. A variable that holds null is not
missing: its text is inserted like any other, and names a ticket or a user.
-/
namespace Runbook

open Template

namespace Action

variable {vars : Dict} {name : String} {config : Dict} {caller : Caller}

/-- A reference and nothing else. -/
def reference (name : String) : Value := .text ("$" ++ name)

theorem expand_reference (vars : Dict) (named : IsName name) :
    expand vars (reference name) = .text (inserted vars name) := by
  have ends : ¬Continues "".toList := not_continues_nil
  have whole := expandText_reference vars named ends
  have empty : expandText vars "" = "" := by simp [expandText, pieces, scan]
  rw [String.append_empty, empty, String.append_empty] at whole
  exact congrArg Value.text whole

/-- A reference to a missing variable is left over. -/
theorem isUnresolved_of_missing (named : IsName name) (missing : Dict.get? vars name = none) :
    isUnresolved (expand vars (reference name)) = true := by
  rw [expand_reference vars named, inserted, missing]
  simp [isUnresolved]

/-- One to a variable whose text is no reference either is not. -/
theorem isUnresolved_of_bound {v : Value} (named : IsName name) (bound : Dict.get? vars name = some v) :
    isUnresolved (expand vars (reference name)) =
      (v.templateText == "" || v.templateText.toList.head? == some '$') := by
  rw [expand_reference vars named, inserted, bound]
  rfl

theorem templated_reference {field : String} (configured : Dict.getD config field = reference name) :
    Builtin.templated config caller field = expand caller.vars (reference name) := by
  rw [Builtin.templated, configured]

/-- A reference that is left over is not replaced by the item of the caller. -/
theorem isUnresolved_ticketId_of_missing (named : IsName name)
    (configured : Dict.getD config "ticketId" = reference name) (missing : Dict.get? caller.vars name = none) :
    isUnresolved (Builtin.ticketId config caller) = true := by
  have left := isUnresolved_of_missing named missing
  rw [Builtin.ticketId, templated_reference configured]
  rw [expand_reference caller.vars named, inserted, missing] at left ⊢
  have counts : (Value.text ("$" ++ name)).isTruthy = true := by
    simp [Value.isTruthy]
  rw [Value.orElse, if_pos counts]
  exact left

/-- The fields by which an action names the ticket that it changes, and whom it is assigned to. -/
def Builtin.targets (actionType : String) : List String :=
  if actionType = "update_ticket" then ["ticketId"]
  else if actionType = "assign_ticket" then ["ticketId", "assigneeId"]
  else []

/-- An action whose target is left over asks for nothing. -/
theorem script_of_missing {timeout : Value} {actionType description : String} {handler : Handler}
    (builtin : (actionType, description, handler) ∈ builtins timeout) {field : String}
    (target : field ∈ Builtin.targets actionType) (named : IsName name)
    (configured : Dict.getD config field = reference name) (missing : Dict.get? caller.vars name = none) :
    ∃ message, handler config caller = .fail (refused message actionType) := by
  simp only [builtins, List.mem_cons, Prod.mk.injEq, List.not_mem_nil, or_false] at builtin
  rcases builtin with ⟨rfl, -, rfl⟩ | ⟨rfl, -, rfl⟩ | ⟨rfl, -, rfl⟩ | ⟨rfl, -, rfl⟩ | ⟨rfl, -, rfl⟩ |
    ⟨rfl, -, rfl⟩ | ⟨rfl, -, rfl⟩
  · obtain rfl : field = "ticketId" := by simpa [Builtin.targets] using target
    have left := isUnresolved_ticketId_of_missing named configured missing
    refine ⟨"No ticket ID specified for update_ticket action", ?_⟩
    rw [Builtin.updateTicket, left, if_pos rfl]
  · simp [Builtin.targets] at target
  · have left : (isUnresolved (Builtin.ticketId config caller) ||
        isUnresolved (Builtin.templated config caller "assigneeId")) = true := by
      have either : field = "ticketId" ∨ field = "assigneeId" := by simpa [Builtin.targets] using target
      rcases either with rfl | rfl
      · rw [isUnresolved_ticketId_of_missing named configured missing, Bool.true_or]
      · rw [templated_reference configured, isUnresolved_of_missing named missing, Bool.or_true]
    refine ⟨"Ticket ID and assignee ID are required for assign_ticket action", ?_⟩
    rw [Builtin.assignTicket, left, if_pos rfl]
  all_goals simp [Builtin.targets] at target

end Action

namespace Engine

open Runbook.Action

variable {e : Engine} {id name field : String} {x : Execution} {config : Dict}

/-- Nothing is changed under a reference to a missing variable: the action fails as one, and touches nothing. -/
theorem dispatches_nothing (launch : Launch) (timeout : Value) {actionType description : String} {handler : Handler}
    (builtin : (actionType, description, handler) ∈ builtins timeout)
    (registered : e.registry.handler? actionType = some handler) (known : e.execution? id = some x)
    (target : field ∈ Builtin.targets actionType) (named : IsName name)
    (configured : Dict.getD config field = reference name) (missing : Dict.get? x.vars name = none) :
    Ends (dispatch launch id actionType config) e (fun _ _ => False)
      fun f t => (∃ message, f = refused message actionType) ∧ e.Untouched t := by
  refine ends_dispatch known ?_
  have fails : ∃ message, handler config x.caller = .fail (refused message actionType) :=
    script_of_missing builtin target named configured missing
  obtain ⟨message, fails⟩ := fails
  unfold Registry.script
  rw [registered]
  dsimp only
  rw [fails]
  exact ⟨⟨message, rfl⟩, rfl, rfl, rfl⟩

/-- A ticket is assigned under the text of the variable, and one that holds null has a text. -/
theorem assigns_text (launch : Launch) (registered : e.registry.handler? "assign_ticket" = some Builtin.assignTicket)
    (known : e.execution? id = some x) (named : IsName name)
    (configured : Dict.getD config "assigneeId" = reference name) {v : Value} (bound : Dict.get? x.vars name = some v) :
    Ends (dispatch launch id "assign_ticket" config) e
      (fun _ t => t.storage.tables = e.storage.tables.updateTicket (Builtin.ticketId config x.caller).display
        fun row => { row with assignedTo := some v.templateText })
      fun _ t => e.Untouched t := by
  refine ends_dispatch known ?_
  unfold Registry.script
  rw [registered]
  apply ends_wrapScript
  unfold Builtin.assignTicket
  dsimp only
  have text : Builtin.templated config x.caller "assigneeId" = .text v.templateText := by
    have bound : Dict.get? x.caller.vars name = some v := bound
    rw [templated_reference configured, expand_reference _ named, inserted, bound]
  rw [text]
  split
  · exact ⟨rfl, rfl, rfl⟩
  · refine ends_ask.2 ((ends_whole (Storage.whole_assignTicket _ _)).imp ?_ fun _ t untouched => untouched)
    intro _ t done
    obtain ⟨⟨old, found, tables⟩, -, -⟩ := done
    exact tables

/-- A variable that holds null. -/
example :
    let ticket : Store.TicketRow := ⟨"id-1", "tenant-1", "Printer", none, "open", "medium", none, some "ada", none⟩
    let engine : Engine := {
      registry := .standard (.int 30)
      executions := [.bench "tenant-1" (.text "tickets") (.text "id-1") [] [(.text "who", .null)]]
      storage := { tables := { tickets := [ticket] } } }
    (match dispatch Engine.launch "bench" "assign_ticket" [(.text "assigneeId", .text "$who")] engine with
      | .ok _ t => t.storage.tables.tickets.map (·.assignedTo)
      | .error _ _ => []) = [some "null"] := by
  decide +kernel

end Engine

end Runbook
