import Runbook.Workflow.Definition

/-!
The variables that executions begin with. They hold the payload and, of the names that it does not hold,
the first default that is declared; the dictionary of all defaults holds the last one. So variables are
the defaults overridden by the payload wherever no name is declared with two defaults.
-/
namespace Runbook

namespace Dict

/-- What is written under a text stays apart from keys that are no texts. -/
theorem find?_set_of_other (d : Dict) (name : String) (v : Value) {k : Key} (other : ∀ s, k ≠ .text s) :
    find? (set d name v) k = find? d k := by
  have apart : Key.same (.text name) k = false := by
    cases k with
    | text s => exact absurd rfl (other s)
    | _ => rfl
  induction d with
  | nil => simp [set, put, find?, apart]
  | cons e rest ih =>
    obtain ⟨k', w⟩ := e
    unfold set at ih ⊢
    rw [put]
    split
    · rename_i here
      obtain rfl := Key.same_text.1 here
      simp [find?, apart]
    · rw [find?, find?, ih]

end Dict

/-- The first default that is declared for a name. -/
def firstDefault (declared : List Declaration) (name : String) : Option Value :=
  (declared.find? fun v => v.name == name && !v.default.isNull).map (·.default)

/-- The last one. -/
def lastDefault (declared : List Declaration) (name : String) : Option Value :=
  firstDefault declared.reverse name

/-- Executions begin with the payload and, for what it does not hold, the first default. -/
theorem get?_initialVariables (payload : Dict) (declared : List Declaration) (name : String) :
    Dict.get? (initialVariables payload declared) name =
      (Dict.get? payload name).or (firstDefault declared name) := by
  unfold initialVariables
  induction declared generalizing payload with
  | nil => simp [firstDefault]
  | cons v rest ih =>
    rw [List.foldl_cons, ih]
    by_cases own : v.name = name
    · subst own
      cases held : Dict.get? payload v.name with
      | some a => simp [Dict.contains, held]
      | none => cases null : v.default.isNull <;> simp [Dict.contains, held, null, firstDefault, Dict.get?_set_self]
    · have later : firstDefault (v :: rest) name = firstDefault rest name := by simp [firstDefault, own]
      rw [later]
      split
      · rfl
      · rw [Dict.get?_set_of_ne _ _ (Ne.symm own)]

/-- Of keys that are no texts, they hold what the payload holds. -/
theorem find?_initialVariables (payload : Dict) (declared : List Declaration) {k : Key} (other : ∀ s, k ≠ .text s) :
    Dict.find? (initialVariables payload declared) k = Dict.find? payload k := by
  unfold initialVariables
  induction declared generalizing payload with
  | nil => rfl
  | cons v rest ih =>
    rw [List.foldl_cons, ih]
    split
    · rfl
    · exact Dict.find?_set_of_other _ _ _ other

/-- The defaults hold the last one of each name. -/
theorem Workflow.get?_defaults (w : Workflow) (name : String) :
    Dict.get? w.defaults name = lastDefault w.vars name := by
  unfold defaults lastDefault
  rw [← List.foldr_reverse]
  induction w.vars.reverse with
  | nil => rfl
  | cons v rest ih =>
    rw [List.foldr_cons]
    cases null : v.default.isNull with
    | true => simpa [firstDefault, null] using ih
    | false =>
      by_cases own : v.name = name
      · subst own
        simp [firstDefault, null, Dict.get?_set_self]
      · simpa [firstDefault, own, Dict.get?_set_of_ne _ _ (Ne.symm own)] using ih

/-- Executions begin with the defaults overridden by the payload just where the payload holds a name or its
first and last default are the same. -/
theorem overrides_defaults_iff (payload : Dict) (w : Workflow) (name : String) :
    Dict.get? (initialVariables payload w.vars) name = (Dict.get? payload name).or (Dict.get? w.defaults name) ↔
      (Dict.get? payload name).isSome ∨ firstDefault w.vars name = lastDefault w.vars name := by
  rw [get?_initialVariables, w.get?_defaults]
  cases Dict.get? payload name <;> simp

/-- So they do when no name is declared with two different defaults. -/
theorem overrides_defaults (payload : Dict) (w : Workflow)
    (consistent : ∀ u ∈ w.vars, ∀ v ∈ w.vars, u.name = v.name → u.default.isNull = false →
      v.default.isNull = false → u.default = v.default) (name : String) :
    Dict.get? (initialVariables payload w.vars) name = (Dict.get? payload name).or (Dict.get? w.defaults name) := by
  refine (overrides_defaults_iff payload w name).2 (.inr ?_)
  unfold lastDefault firstDefault
  generalize declares : (fun v : Declaration => v.name == name && !v.default.isNull) = p
  have sort {v : Declaration} (named : p v = true) : v.name = name ∧ v.default.isNull = false := by
    subst declares
    simpa using named
  cases first : w.vars.find? p with
  | none =>
    have none : w.vars.reverse.find? p = none := by simpa using first
    rw [none]
  | some u =>
    have there := List.mem_of_find?_eq_some first
    obtain ⟨v, last⟩ : ∃ v, w.vars.reverse.find? p = some v := by
      refine Option.isSome_iff_exists.1 (List.find?_isSome.2 ⟨u, by simpa using there, List.find?_some first⟩)
    have there' : v ∈ w.vars := by simpa using List.mem_of_find?_eq_some last
    obtain ⟨named, full⟩ := sort (List.find?_some first)
    obtain ⟨named', full'⟩ := sort (List.find?_some last)
    rw [last]
    exact congrArg some (consistent u there v there' (named.trans named'.symm) full full')

/-- Of two defaults of a name, executions begin with the first one. -/
example : Dict.get? (initialVariables [] [⟨"x", none, .int 1, none⟩, ⟨"x", none, .int 2, none⟩]) "x" = some (.int 1) ∧
    lastDefault [⟨"x", none, .int 1, none⟩, ⟨"x", none, .int 2, none⟩] "x" = some (.int 2) := ⟨rfl, rfl⟩

end Runbook
