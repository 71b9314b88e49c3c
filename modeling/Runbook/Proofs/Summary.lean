import Runbook.Proofs.Course.Work

/-!
What actions say. The summary of a built-in action begins with words of its own, whatever it is
configured with and whatever its requests are answered with.
-/
namespace Runbook.Action

namespace Script

variable {α β : Type} {p : α → Prop} {q : β → Prop}

/-- Whatever a script answers has a property. -/
def Answers (x : Script α) (p : α → Prop) : Prop := ∀ a, x.MayAnswer a → p a

theorem answers_done {a : α} (holds : p a) : (Script.done a).Answers p := by
  intro b answer
  cases answer
  exact holds

theorem answers_fail {f : Failure} : (Script.fail f : Script α).Answers p := by
  intro a answer
  cases answer

theorem answers_put {key : Key} {v : Value} {next : Script α} (later : next.Answers p) :
    (Script.put key v next).Answers p := by
  intro a answer
  cases answer with
  | put answer => exact later a answer

theorem answers_ask {r : Request} {next : Except Failure r.Answer → Script α}
    (later : ∀ answer, (next answer).Answers p) : (Script.ask r next).Answers p := by
  intro a answer
  cases answer with
  | ask given answer => exact later given a answer

/-- What a script answers that goes on with what another one answers. -/
theorem Answers.bind {x : Script α} {f : α → Script β} (next : ∀ a, (f a).Answers q) :
    (x >>= f).Answers q := by
  change (x.andThen f).Answers q
  induction x with
  | done a => exact next a
  | fail e => exact answers_fail
  | put key v rest ih => exact answers_put ih
  | ask r rest ih => exact answers_ask ih

/-- Failures are worded otherwise, and answers are the same. -/
theorem answers_wrap {actionType : String} {x : Script α} (known : x.Answers p) :
    (Registry.wrapScript actionType x).Answers p := by
  induction x with
  | done a => exact answers_done (known a .done)
  | fail e => exact answers_fail
  | put key v rest ih => exact answers_put (ih fun a answer => known a (.put answer))
  | ask r rest ih =>
    exact answers_ask fun given => ih given fun a answer => known a (.ask given answer)

end Script

/-- A summary begins with certain words. -/
def Begins (head : String) (v : Value) : Prop := ∃ rest, v = .text (head ++ rest)

namespace Builtin

open Script

variable (config : Dict) (caller : Caller)

theorem begins_updateTicket : (updateTicket config caller).Answers (Begins "Updated ticket ") := by
  unfold updateTicket
  dsimp only
  split
  · exact answers_fail
  · refine .bind fun _ => answers_done ?_
    exact ⟨_, by rw [String.append_assoc, String.append_assoc]⟩

theorem begins_createTicket : (createTicket config caller).Answers (Begins "Created ticket with ID ") := by
  refine .bind fun id => .bind fun _ => answers_done ?_
  exact ⟨_, by rw [String.append_assoc, String.append_assoc]⟩

theorem begins_assignTicket : (assignTicket config caller).Answers (Begins "Assigned ticket ") := by
  unfold assignTicket
  dsimp only
  split
  · exact answers_fail
  · refine .bind fun _ => answers_done ?_
    exact ⟨_, by rw [String.append_assoc, String.append_assoc]⟩

theorem begins_sendNotification : (sendNotification config caller).Answers (Begins "Sent ") := by
  unfold sendNotification
  dsimp only
  split
  · exact answers_fail
  · refine .bind fun _ => answers_done ?_
    exact ⟨_, by rw [String.append_assoc, String.append_assoc, String.append_assoc,
      String.append_assoc]⟩

theorem begins_createArticle :
    (createArticle config caller).Answers (Begins "Created knowledge article with ID ") := by
  refine .bind fun id => .bind fun _ => answers_done ?_
  exact ⟨_, by rw [String.append_assoc, String.append_assoc]⟩

theorem begins_setVariable : (setVariable config caller).Answers (Begins "Set variable ") := by
  unfold setVariable
  dsimp only
  split
  · exact answers_fail
  · refine .bind fun key => .bind fun _ => answers_done ?_
    exact ⟨_, by rw [String.append_assoc, String.append_assoc]⟩

theorem begins_httpRequest (standard : Value) :
    (httpRequest standard config caller).Answers (Begins "HTTP ") := by
  unfold httpRequest
  dsimp only
  split
  · exact answers_fail
  · refine .bind fun answer => .bind fun _ => ?_
    split
    · exact answers_done ⟨_, by rw [String.append_assoc, String.append_assoc, String.append_assoc,
        String.append_assoc]⟩
    · exact answers_fail

end Builtin

/-- The words that the summaries of built-in actions begin with. -/
def builtinHeads : List String :=
  ["Updated ticket ", "Created ticket with ID ", "Assigned ticket ", "Sent ",
    "Created knowledge article with ID ", "Set variable ", "HTTP "]

/-- Every summary of a built-in action begins with the words of one of them. -/
theorem begins_standard (timeout : Value) (actionType : String) (config : Dict) (caller : Caller) :
    ((Registry.standard timeout).script actionType config caller).Answers fun v =>
      ∃ head ∈ builtinHeads, Begins head v := by
  unfold Registry.script
  split
  · exact Script.answers_fail
  · rename_i handler found
    refine Script.answers_wrap fun v answer => ?_
    unfold Registry.handler? at found
    obtain ⟨⟨name, h⟩, listed, rfl⟩ := Option.map_eq_some_iff.1 found
    have member := List.mem_of_find?_eq_some listed
    simp only [Registry.standard, builtins, List.map_cons, List.map_nil, List.mem_cons, Prod.mk.injEq,
      List.not_mem_nil, or_false] at member
    rcases member with ⟨-, rfl⟩ | ⟨-, rfl⟩ | ⟨-, rfl⟩ | ⟨-, rfl⟩ | ⟨-, rfl⟩ | ⟨-, rfl⟩ | ⟨-, rfl⟩
    · exact ⟨_, by simp [builtinHeads], Builtin.begins_updateTicket config caller v answer⟩
    · exact ⟨_, by simp [builtinHeads], Builtin.begins_createTicket config caller v answer⟩
    · exact ⟨_, by simp [builtinHeads], Builtin.begins_assignTicket config caller v answer⟩
    · exact ⟨_, by simp [builtinHeads], Builtin.begins_sendNotification config caller v answer⟩
    · exact ⟨_, by simp [builtinHeads], Builtin.begins_createArticle config caller v answer⟩
    · exact ⟨_, by simp [builtinHeads], Builtin.begins_setVariable config caller v answer⟩
    · exact ⟨_, by simp [builtinHeads], Builtin.begins_httpRequest config caller timeout v answer⟩

/-- No built-in action says what begins with none of the words of summaries. -/
theorem not_says_standard (timeout : Value) {text : String}
    (other : ∀ head ∈ "Action completed: " :: builtinHeads, head.toList.isPrefixOf text.toList = false) :
    ¬(Registry.standard timeout).Says text := by
  rintro ⟨actionType, config, caller, value, answer, logged⟩
  have prefixed (head rest : String) (same : head ++ rest = text) :
      head.toList.isPrefixOf text.toList = true := by
    rw [← same, String.toList_append, List.isPrefixOf_iff_prefix]
    exact List.prefix_append _ _
  unfold Engine.summaryText at logged
  split at logged
  · cases logged
    exact absurd ((prefixed _ _ rfl).symm.trans (other _ (.head _))) (by decide)
  · obtain ⟨head, known, rest, rfl⟩ := begins_standard timeout actionType config caller value answer
    cases logged
    exact absurd ((prefixed head rest rfl).symm.trans (other head (.tail _ known))) (by decide)

end Runbook.Action
