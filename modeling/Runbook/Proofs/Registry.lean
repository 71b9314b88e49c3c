import Mathlib.Data.List.Perm.Subperm
import Runbook.Action.Registry
import Runbook.Proofs.Endpoints
import Runbook.Proofs.Outcome

/-!
Registering actions. A handler comes in at the end, under a new name, and nothing that is registered is ever
replaced. Its description comes in beside it, but for one that is no text and counts as true: then the handler
stays without a description, so that its action can be dispatched and is not listed.
-/
namespace Runbook.Action.Registry

variable {r : Registry} {name : String} {handler : Handler} {candidate : Candidate} {description : Value}

/-- The names of the actions that can be dispatched. -/
def dispatched (r : Registry) : List String := r.handlers.map (·.1)

/-- The names of the actions that are listed. -/
def listed (r : Registry) : List String := r.descriptions.map (·.1)

theorem isSome_handler? : (r.handler? name).isSome = true ↔ name ∈ r.dispatched := by
  rw [handler?, Option.isSome_map, List.find?_isSome, dispatched, List.mem_map]
  constructor
  · intro found
    obtain ⟨entry, there, same⟩ := found
    exact ⟨entry, there, beq_iff_eq.1 same⟩
  · intro found
    obtain ⟨entry, there, same⟩ := found
    exact ⟨entry, there, beq_iff_eq.2 same⟩

/-- An action can be dispatched when it does not fail as one that is not known. -/
theorem script_of_not_mem (absent : name ∉ r.dispatched) (config : Dict) (caller : Caller) :
    r.script name config caller = .fail (refused ("Unknown action type: " ++ name) name) := by
  have none : r.handler? name = none := Option.not_isSome_iff_eq_none.1 (mt isSome_handler?.1 absent)
  rw [script, none]

theorem nameOf_eq_ok {v : Value} (named : nameOf v = .ok name) :
    ∃ s, v = .text s ∧ name = Text.trim s ∧ name ≠ "" := by
  unfold nameOf at named
  split at named
  · rename_i s
    dsimp only at named
    split at named
    · cases named
    · rename_i filled
      cases named
      exact ⟨s, rfl, rfl, filled⟩
  · split at named <;> cases named

/-- What may come of offering a handler. -/
inductive Registers (r : Registry) (name description : Value) : Except Failure Unit → Registry → Prop where
  | refused (f : Failure) : Registers r name description (.error f) r
  /-- Handler and description come in under a new name. -/
  | added {own text : String} (handler : Handler) (named : nameOf name = .ok own) (new : own ∉ r.dispatched)
      (described : descriptionOf description = .ok text) : Registers r name description (.ok ())
        ⟨r.handlers ++ [(own, handler)], r.descriptions ++ [(own, text)]⟩
  /-- The handler comes in alone. -/
  | half {own : String} {f : Failure} (handler : Handler) (named : nameOf name = .ok own)
      (new : own ∉ r.dispatched) (undescribed : descriptionOf description = .error f) :
      Registers r name description (.error f) ⟨r.handlers ++ [(own, handler)], r.descriptions⟩

theorem registers_register (r : Registry) (name : Value) (candidate : Candidate) (description : Value) :
    Registers r name description (r.register name candidate description).1
      (r.register name candidate description).2 := by
  unfold register
  cases named : nameOf name with
  | error f => exact .refused f
  | ok own =>
    by_cases taken : (r.handler? own).isSome = true
    · simp only [bind, Except.bind, taken, if_true]
      exact .refused _
    · have new : own ∉ r.dispatched := mt isSome_handler?.2 taken
      cases accepted : accept own candidate with
      | error f =>
        simp only [bind, Except.bind, taken, accepted]
        exact .refused f
      | ok handler =>
        simp only [bind, Except.bind, taken, accepted]
        cases described : descriptionOf description with
        | error f => exact .half handler named new described
        | ok text => exact .added handler named new described

/-- A description is accepted when it is a text or counts as false. -/
theorem exists_description : (∃ text, descriptionOf description = .ok text) ↔
    (∃ s, description = .text s) ∨ description.isTruthy = false := by
  unfold descriptionOf
  split
  · simp
  · rename_i other
    have none : ¬∃ s, description = .text s := fun text => text.elim other
    cases counts : description.isTruthy <;> simp [none]

/-- Registering with such a description is all or nothing. -/
theorem register_whole (r : Registry) (name : Value) (candidate : Candidate)
    (described : (∃ s, description = .text s) ∨ description.isTruthy = false) :
    (∃ f, r.register name candidate description = (.error f, r)) ∨
    ∃ own text handler, own ≠ "" ∧ Text.trim own = own ∧ own ∉ r.dispatched ∧
      r.register name candidate description =
        (.ok (), ⟨r.handlers ++ [(own, handler)], r.descriptions ++ [(own, text)]⟩) := by
  have done := registers_register r name candidate description
  generalize r.register name candidate description = answer at done
  obtain ⟨outcome, later⟩ := answer
  cases done with
  | refused f => exact .inl ⟨f, rfl⟩
  | added handler named new described =>
    obtain ⟨s, -, rfl, filled⟩ := nameOf_eq_ok named
    exact .inr ⟨_, _, handler, filled, Text.trim_trim s, new, rfl⟩
  | half handler named new undescribed =>
    obtain ⟨text, described⟩ := exists_description.2 described
    rw [undescribed] at described
    cases described

/-! Registrations one after another. -/

/-- A handler on offer. -/
structure Offer where
  name : Value
  candidate : Candidate
  description : Value

/-- The registry that is left when a handler was offered. -/
def offer (r : Registry) (o : Offer) : Registry := (r.register o.name o.candidate o.description).2

/-- Names are trimmed and not empty, each is taken once, and what is listed can be dispatched. -/
structure WellNamed (r : Registry) : Prop where
  filled : ∀ name ∈ r.dispatched, name ≠ "" ∧ Text.trim name = name
  distinct : r.dispatched.Nodup
  listed : r.listed.Sublist r.dispatched

theorem wellNamed_standard (timeout : Value) : (standard timeout).WellNamed := by
  have names : (standard timeout).dispatched = ["update_ticket", "create_ticket", "assign_ticket",
    "send_notification", "create_knowledge_article", "set_variable", "http_request"] := rfl
  refine ⟨?_, ?_, ?_⟩
  · rw [names]
    decide
  · rw [names]
    decide
  · exact List.Sublist.refl _

theorem dispatched_append (r : Registry) (name : String) (handler : Handler) (descriptions : List (String × String)) :
    dispatched ⟨r.handlers ++ [(name, handler)], descriptions⟩ = r.dispatched ++ [name] :=
  List.map_append

theorem WellNamed.append (well : r.WellNamed) {s : Value} (named : nameOf s = .ok name) (new : name ∉ r.dispatched)
    (handler : Handler) {descriptions : List (String × String)}
    (listed : (descriptions.map (·.1)).Sublist (r.dispatched ++ [name])) :
    WellNamed ⟨r.handlers ++ [(name, handler)], descriptions⟩ := by
  have names := dispatched_append r name handler descriptions
  refine ⟨?_, ?_, ?_⟩
  · intro other there
    rw [names] at there
    rcases List.mem_append.1 there with before | own
    · exact well.filled other before
    · obtain rfl := List.mem_singleton.1 own
      obtain ⟨text, -, rfl, filled⟩ := nameOf_eq_ok named
      exact ⟨filled, Text.trim_trim text⟩
  · rw [names]
    exact List.Nodup.append well.distinct (List.nodup_singleton name) (by simpa using new)
  · rw [names]
    exact listed

/-- What an offer has come to: nothing, or one more handler, with a description or without. -/
theorem offer_cases (r : Registry) (o : Offer) : r.offer o = r ∨
    ∃ name handler, nameOf o.name = .ok name ∧ name ∉ r.dispatched ∧
      ((∃ text, r.offer o = ⟨r.handlers ++ [(name, handler)], r.descriptions ++ [(name, text)]⟩) ∨
        (∀ text, descriptionOf o.description ≠ .ok text) ∧
          r.offer o = ⟨r.handlers ++ [(name, handler)], r.descriptions⟩) := by
  unfold offer
  have done := registers_register r o.name o.candidate o.description
  generalize r.register o.name o.candidate o.description = answer at done
  obtain ⟨outcome, later⟩ := answer
  cases done with
  | refused f => exact .inl rfl
  | added handler named new described => exact .inr ⟨_, handler, named, new, .inl ⟨_, rfl⟩⟩
  | half handler named new undescribed =>
    refine .inr ⟨_, handler, named, new, .inr ⟨fun text described => ?_, rfl⟩⟩
    rw [undescribed] at described
    cases described

theorem WellNamed.offer (well : r.WellNamed) (o : Offer) : (r.offer o).WellNamed := by
  rcases offer_cases r o with same | ⟨name, handler, named, new, ⟨text, both⟩ | ⟨-, alone⟩⟩
  · rw [same]
    exact well
  · rw [both]
    apply well.append named new
    rw [List.map_append]
    exact well.listed.append (List.Sublist.refl [name])
  · rw [alone]
    apply well.append named new
    exact well.listed.trans (List.sublist_append_left ..)

theorem prefix_offer (r : Registry) (o : Offer) :
    r.handlers <+: (r.offer o).handlers ∧ r.descriptions <+: (r.offer o).descriptions := by
  rcases offer_cases r o with same | ⟨name, handler, -, -, ⟨text, both⟩ | ⟨-, alone⟩⟩
  · rw [same]
    exact ⟨List.prefix_rfl, List.prefix_rfl⟩
  · rw [both]
    exact ⟨List.prefix_append .., List.prefix_append ..⟩
  · rw [alone]
    exact ⟨List.prefix_append .., List.prefix_rfl⟩

/-- An action that can be dispatched after an offer, and is not listed, was so before or was offered with a
description that is not accepted. -/
theorem unlisted_offer {o : Offer} (there : name ∈ (r.offer o).dispatched) (unlisted : name ∉ (r.offer o).listed) :
    name ∈ r.dispatched ∧ name ∉ r.listed ∨
      nameOf o.name = .ok name ∧ ∀ text, descriptionOf o.description ≠ .ok text := by
  rcases offer_cases r o with same | ⟨own, handler, named, -, ⟨text, both⟩ | ⟨undescribed, alone⟩⟩
  · rw [same] at there unlisted
    exact .inl ⟨there, unlisted⟩
  · rw [both] at there unlisted
    rw [dispatched_append] at there
    have apart : name ∉ r.listed ∧ name ≠ own := by
      simpa [listed, not_or] using unlisted
    rcases List.mem_append.1 there with before | now
    · exact .inl ⟨before, apart.1⟩
    · exact absurd (List.mem_singleton.1 now) apart.2
  · rw [alone] at there unlisted
    rw [dispatched_append] at there
    rcases List.mem_append.1 there with before | now
    · exact .inl ⟨before, unlisted⟩
    · obtain rfl := List.mem_singleton.1 now
      exact .inr ⟨named, undescribed⟩

/-- The registry that is left when handlers were offered one after another. -/
def offers (r : Registry) (os : List Offer) : Registry := os.foldl offer r

theorem WellNamed.offers (well : r.WellNamed) (os : List Offer) : (r.offers os).WellNamed := by
  induction os generalizing r with
  | nil => exact well
  | cons o rest ih => exact ih (well.offer o)

theorem prefix_offers (r : Registry) (os : List Offer) :
    r.handlers <+: (r.offers os).handlers ∧ r.descriptions <+: (r.offers os).descriptions := by
  induction os generalizing r with
  | nil => exact ⟨List.prefix_rfl, List.prefix_rfl⟩
  | cons o rest ih =>
    have first := prefix_offer r o
    have later := ih (r.offer o)
    exact ⟨first.1.trans later.1, first.2.trans later.2⟩

/-- No handler is ever replaced. -/
theorem handler?_offers (found : r.handler? name = some handler) (os : List Offer) :
    (r.offers os).handler? name = some handler := by
  obtain ⟨more, grown⟩ := (prefix_offers r os).1
  unfold handler? at found ⊢
  obtain ⟨entry, first, same⟩ := Option.map_eq_some_iff.1 found
  rw [← grown, List.find?_append, first]
  exact congrArg some same

theorem unlisted_offers {os : List Offer} (there : name ∈ (r.offers os).dispatched)
    (unlisted : name ∉ (r.offers os).listed) : name ∈ r.dispatched ∧ name ∉ r.listed ∨
      ∃ o ∈ os, nameOf o.name = .ok name ∧ ∀ text, descriptionOf o.description ≠ .ok text := by
  induction os generalizing r with
  | nil => exact .inl ⟨there, unlisted⟩
  | cons o rest ih =>
    rcases ih there unlisted with ⟨before, hidden⟩ | ⟨o', later, offered⟩
    · rcases unlisted_offer before hidden with earlier | offered
      · exact .inl earlier
      · exact .inr ⟨o, .head _, offered⟩
    · exact .inr ⟨o', .tail _ later, offered⟩

/-- Whatever is offered to the registry of the built-in actions, its entries stay, in their order. Names are
trimmed, not empty and taken once. Every action that is listed can be dispatched; one that can be dispatched
is listed, unless a handler was offered for it with a description that is no text and counts as true. -/
theorem listed_or_undescribed (timeout : Value) (os : List Offer) :
    (standard timeout).handlers <+: ((standard timeout).offers os).handlers ∧
    ((standard timeout).offers os).WellNamed ∧
    ∀ name, (((standard timeout).offers os).handler? name).isSome = true →
      name ∈ ((standard timeout).offers os).listed ∨ ∃ o ∈ os, nameOf o.name = .ok name ∧
        (∀ s, o.description ≠ .text s) ∧ o.description.isTruthy = true := by
  refine ⟨(prefix_offers _ os).1, (wellNamed_standard timeout).offers os, fun name there => ?_⟩
  by_cases known : name ∈ ((standard timeout).offers os).listed
  · exact .inl known
  · right
    rcases unlisted_offers (isSome_handler?.1 there) known with ⟨builtin, unlisted⟩ | ⟨o, offered, named, undescribed⟩
    · exact absurd builtin unlisted
    · have never := mt exists_description.2 (not_exists.2 undescribed)
      rw [not_or, Bool.not_eq_false] at never
      exact ⟨o, offered, named, not_exists.1 never.1, never.2⟩

/-- Where all descriptions are accepted, the actions that are listed are those that can be dispatched. -/
theorem listed_eq_dispatched (timeout : Value) {os : List Offer}
    (described : ∀ o ∈ os, (∃ s, o.description = .text s) ∨ o.description.isTruthy = false) :
    ((standard timeout).offers os).listed = ((standard timeout).offers os).dispatched := by
  obtain ⟨-, well, known⟩ := listed_or_undescribed timeout os
  have all : ((standard timeout).offers os).dispatched ⊆ ((standard timeout).offers os).listed := by
    intro name there
    rcases known name (isSome_handler?.2 there) with here | ⟨o, offered, -, noText, counts⟩
    · exact here
    · rcases described o offered with ⟨s, text⟩ | falsy
      · exact absurd text (noText s)
      · rw [counts] at falsy
        cases falsy
  exact well.listed.eq_of_length_le (List.subperm_of_subset well.distinct all).length_le

/-- A number is no description. -/
example : let r := (standard .null).offer ⟨.text " audit ", .callable 2 false Builtin.setVariable, .int 5⟩
    "audit" ∈ r.dispatched ∧ "audit" ∉ r.listed := by
  decide +kernel

end Runbook.Action.Registry
