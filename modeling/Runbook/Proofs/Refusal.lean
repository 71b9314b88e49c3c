import Runbook.Proofs.Endpoints

/-!
What becomes of data that is no definition. The fields of a definition are read without breaking off,
whatever stands in their places; only the rules that look into the configuration of a node before the node
is read can break off, over a condition without a comparison, a delay without an amount or a loop without a
number of iterations. So data is a definition or is refused, with issues that name its fields, unless one
of its nodes is of this kind; the first of these says then over what reading it broke off.
-/
namespace Runbook

namespace Reading

variable {α β : Type} {spot : List Place → Prop} {fault more : Option Mismatch} {r : Reading α}

/-- What comes of a reading: it breaks off over just this, or else is accepted, or is refused and says
what is wrong, each time at such a place. -/
inductive Fares (spot : List Place → Prop) : Option Mismatch → Reading α → Prop where
  | accepted (a : α) : Fares spot none (.accepted a)
  | refused {is : List Issue} (told : is ≠ []) (each : ∀ i ∈ is, spot i.place) : Fares spot none (.refused is)
  | broken (m : Mismatch) : Fares spot (some m) (.broken m)

namespace Fares

theorem imp {wider : List Place → Prop} (fares : r.Fares spot fault) (within : ∀ p, spot p → wider p) :
    r.Fares wider fault := by
  cases fares with
  | accepted a => exact .accepted a
  | refused told each => exact .refused told fun i there => within _ (each i there)
  | broken m => exact .broken m

theorem refuse (k : IssueKind) (here : spot []) : (Reading.refuse k : Reading α).Fares spot none :=
  .refused (by simp) (by simpa using here)

theorem map (fares : r.Fares spot fault) (f : α → β) : (f <$> r).Fares spot fault := by
  cases fares with
  | accepted a => exact .accepted _
  | refused told each => exact .refused told each
  | broken m => exact .broken m

/-- Of two readings the first break counts, and the issues of both are told. -/
theorem seq {f : Reading (α → β)} (first : f.Fares spot fault) (second : r.Fares spot more) :
    (f <*> r).Fares spot (fault.or more) := by
  cases first with
  | broken m => cases r <;> exact .broken m
  | accepted g =>
    cases second with
    | accepted a => exact .accepted _
    | refused told each => exact .refused told each
    | broken m => exact .broken m
  | refused told each =>
    cases second with
    | accepted a => exact .refused told each
    | broken m => exact .broken m
    | refused told' each' =>
      refine .refused (by simp [told]) fun i there => ?_
      exact (List.mem_append.1 there).elim (each i) (each' i)

theorem also {f : Reading (α → β)} (first : f.Fares spot none) (second : r.Fares spot fault) :
    (f <*> r).Fares spot fault := first.seq second

theorem before {f : Reading (α → β)} (first : f.Fares spot fault) (second : r.Fares spot none) :
    (f <*> r).Fares spot fault := by
  simpa only [Option.or_none] using first.seq second

theorem within {p : Place} (fares : r.Fares (fun place => spot (p :: place)) fault) : (r.within p).Fares spot fault := by
  cases fares with
  | accepted a => exact .accepted a
  | broken m => exact .broken m
  | refused told each =>
    refine .refused (by simpa using told) fun i there => ?_
    obtain ⟨j, here, rfl⟩ := List.mem_map.1 there
    exact each j here

theorem check {rule : α → Reading β} (fares : r.Fares spot fault) (whole : ∀ a, (rule a).Fares spot none) :
    (r.check rule).Fares spot fault := by
  cases fares with
  | accepted a => exact whole a
  | refused told each => exact .refused told each
  | broken m => exact .broken m

/-- A list breaks off over the first of its items that does. -/
theorem items {read : Value → Reading α} {fault : Value → Option Mismatch}
    (fares : ∀ v, (read v).Fares (fun _ => True) (fault v)) (n : Nat) (vs : List Value) :
    (items read n vs).Fares (fun _ => True) (vs.findSome? fault) := by
  induction vs generalizing n with
  | nil => exact .accepted []
  | cons v rest ih =>
    have all := ((Fares.within (p := .index n) (fares v)).map List.cons).seq (ih (n + 1))
    rw [List.findSome?_cons]
    cases here : fault v with
    | none =>
      rw [here, Option.none_or] at all
      exact all
    | some m =>
      rw [here, Option.some_or] at all
      exact all

end Fares

/-- It is accepted, or says what is wrong. -/
abbrev Told (r : Reading α) : Prop := r.Fares (fun _ => True) none

abbrev Tells (read : Value → Reading α) : Prop := ∀ v, (read v).Told

end Reading

open Reading

namespace Read

variable {α : Type} {d : Dict} {read : Value → Reading α}

theorem tells_text : Tells text := fun v => by
  cases v with
  | text s => exact .accepted s
  | _ => exact .refuse _ trivial

theorem tells_any : Tells any := .accepted

theorem tells_dict : Tells dict := fun v => by
  cases v with
  | dict d => exact .accepted d
  | _ => exact .refuse _ trivial

theorem tells_whole : Tells whole := fun v => by
  cases v with
  | int n => exact .accepted n
  | bool b => exact .accepted _
  | text s =>
    unfold whole
    dsimp only
    split
    · split
      · exact .refuse _ trivial
      · exact .accepted _
    · exact .refuse _ trivial
  | float x =>
    unfold whole
    dsimp only
    split
    · split
      · exact .accepted _
      · exact .refuse _ trivial
    all_goals exact .refuse _ trivial
  | _ => exact .refuse _ trivial

theorem tells_nullable (tells : Tells read) : Tells (nullable read) := fun v => by
  cases v with
  | null => exact .accepted none
  | _ => exact (tells _).map some

theorem tells_choice (ofName? : String → Option α) : Tells (choice ofName?) := fun v => by
  unfold choice
  split
  · split
    · exact .accepted _
    · exact .refuse _ trivial
  · exact .refuse _ trivial

/-- A list tells what is wrong with its items, or breaks off over the first that does. -/
theorem fares_list {fault : Value → Option Mismatch} (fares : ∀ v, (read v).Fares (fun _ => True) (fault v)) (v : Value) :
    (list read v).Fares (fun _ => True) (match v with | .list vs => vs.findSome? fault | _ => none) := by
  cases v with
  | list vs => exact .items fares 0 vs
  | _ => exact .refuse _ trivial

/-! What is wrong with a field is told under its name. -/

variable {name : String} {names : List String}

theorem fares_optional {fault : Value → Option Mismatch} (default : α)
    (fares : ∀ v, (read v).Fares (fun _ => True) (fault v)) :
    (optional d (name :: names) default read).Fares (·.head? = some (.name name))
      ((Dict.first? d (name :: names)).bind fault) := by
  unfold optional
  cases Dict.first? d (name :: names) with
  | none => exact .accepted default
  | some v => exact Fares.within ((fares v).imp fun _ _ => rfl)

theorem named_required (tells : Tells read) :
    (required d (name :: names) read).Fares (·.head? = some (.name name)) none := by
  unfold required
  refine Fares.within ?_
  cases Dict.first? d (name :: names) with
  | none => exact .refuse _ rfl
  | some v => exact (tells v).imp fun _ _ => rfl

theorem named_optional (default : α) (tells : Tells read) :
    (optional d (name :: names) default read).Fares (·.head? = some (.name name)) none := by
  have none : (Dict.first? d (name :: names)).bind (fun _ => (none : Option Mismatch)) = none := by simp
  exact none ▸ fares_optional default tells

theorem told_required (tells : Tells read) : (required d (name :: names) read).Told :=
  (named_required tells).imp fun _ _ => trivial

theorem told_optional (default : α) (tells : Tells read) : (optional d (name :: names) default read).Told :=
  (named_optional default tells).imp fun _ _ => trivial

end Read

open Read

/-- A number or a truth value, in which nothing can be looked for. -/
def Value.isPlain : Value → Bool
  | .bool _ | .int _ | .float _ => true
  | _ => false

namespace Node

variable {d : Dict} {m : Mismatch}

theorem told_nonBlank (message s : String) : (nonBlank message s).Told := by
  unfold nonBlank
  dsimp only
  split
  · exact .refuse _ trivial
  · exact .accepted _

theorem told_iterationCount (n : Option Int) : (iterationCount n).Told := by
  cases n with
  | none => exact .accepted none
  | some n =>
    unfold iterationCount
    dsimp only
    split
    · exact .refuse _ trivial
    · split <;> exact .accepted _

theorem tells_readCondition : Tells readCondition := fun v => by
  cases v with
  | dict d =>
    exact (((told_required tells_text).map Condition.mk).also (told_required tells_text)).also
      (told_optional .null tells_any)
  | _ => exact .refuse _ trivial

theorem told_readFields {kind : Reading NodeKind} (told : kind.Told) : (readFields d kind).Told := by
  unfold readFields
  refine ((((Fares.map ?_ Node.mk).also ?_).also ?_).also ?_).also told
  · exact told_required fun v => (tells_text v).check (told_nonBlank _)
  · exact told_optional none (tells_nullable tells_text)
  · exact told_optional none (tells_nullable tells_text)
  · exact told_optional [] tells_dict

/-- What a type of node takes from the configuration before a node is read. -/
def ruleOf (d : Dict) : String → Except Mismatch Dict
  | "condition" => withCondition d
  | "delay" => withAmount d
  | "loop" => withIterations d
  | _ => .ok d

/-- Over what this breaks off, when it does. -/
def flaw? (rule : Except Mismatch Dict) : Option Mismatch :=
  match rule with
  | .ok _ => none
  | .error m => some m

/-- Over what the reading of a node breaks off, when it does. -/
def breaks? : Value → Option Mismatch
  | .dict d =>
    match Dict.get? d "type" with
    | some (.text tag) => flaw? (ruleOf d tag)
    | _ => none
  | _ => none

theorem fares_withRule {rule : Except Mismatch Dict} {kind : Dict → Reading NodeKind} (told : ∀ d, (kind d).Told) :
    (withRule rule fun d => readFields d (kind d)).Fares (fun _ => True) (flaw? rule) := by
  cases rule with
  | ok d => exact told_readFields (told d)
  | error m => exact .broken m

theorem fares_readTagged {tag : String} {r : Reading Node} (known : readTagged d tag = some r) :
    r.Fares (fun _ => True) (flaw? (ruleOf d tag)) := by
  unfold readTagged at known
  split at known
  all_goals cases known
  · exact told_readFields ((told_required tells_text).map _)
  · exact fares_withRule fun d => (told_required tells_readCondition).map _
  · exact told_readFields ((told_required fun v => (tells_text v).check (told_nonBlank _)).map _)
  · exact fares_withRule fun d => ((told_required tells_any).map _).also (told_optional "minutes" tells_text)
  · exact fares_withRule fun d => (told_optional none fun v =>
      (tells_nullable tells_whole v).check told_iterationCount).map _
  · exact told_readFields ((told_optional "split" tells_text).map _)

/-- A type that is not known has no rule. -/
theorem flaw?_of_unknown {tag : String} (unknown : readTagged d tag = none) : flaw? (ruleOf d tag) = none := by
  unfold ruleOf
  split
  all_goals first | rfl | cases unknown

theorem fares_read (v : Value) : (read v).Fares (fun _ => True) (breaks? v) := by
  cases v with
  | dict d =>
    unfold read breaks?
    dsimp only
    cases Dict.get? d "type" with
    | none => exact .refuse _ trivial
    | some type =>
      cases type with
      | text tag =>
        dsimp only
        cases known : readTagged d tag with
        | none => exact flaw?_of_unknown known ▸ .refuse _ trivial
        | some r => exact Fares.within (fares_readTagged known)
      | _ => exact .refuse _ trivial
  | _ => exact .refuse _ trivial

/-- A node that is broken off over: something is looked for in a configuration that is no dictionary,
and cannot even be looked for there, or is found there. -/
inductive Breaks (d : Dict) : Mismatch → Prop where
  | plain {tag name : String} (type : Dict.get? d "type" = some (.text tag))
      (looks : (tag, name) = ("condition", "condition") ∨ (tag, name) = ("delay", "amount"))
      (lacks : Dict.contains d name = false) (config : (configOf d).isPlain = true) : Breaks d .operation
  | condition (type : Dict.get? d "type" = some (.text "condition")) (lacks : Dict.contains d "condition" = false)
      (config : ∀ c, configOf d ≠ .dict c) (field : holds "field" (configOf d) = .ok true)
      (operator : holds "operator" (configOf d) = .ok true) : Breaks d .attribute
  | delay (type : Dict.get? d "type" = some (.text "delay")) (lacks : Dict.contains d "amount" = false)
      (config : ∀ c, configOf d ≠ .dict c) (duration : holds "duration" (configOf d) = .ok true) :
      Breaks d .operation
  | loop (type : Dict.get? d "type" = some (.text "loop")) (lacks : (Dict.getD d "iterations").isNull = true)
      (config : ∀ c, configOf d ≠ .dict c) : Breaks d .attribute

theorem configOf_ne_null (d : Dict) : configOf d ≠ .null := by
  unfold configOf Value.orElse
  split
  · rename_i true
    intro null
    simp [null, Value.isTruthy] at true
  · exact fun other => nomatch other

/-- Names can be looked for everywhere but in plain values. -/
theorem holds_of_not_plain {name : String} {v : Value} (plain : v.isPlain = false) (null : v ≠ .null) :
    ∃ b, holds name v = .ok b := by
  cases v with
  | null => exact absurd rfl null
  | bool | int | float => cases plain
  | text | list | dict => exact ⟨_, rfl⟩

theorem holds_of_plain (name : String) {v : Value} (plain : v.isPlain = true) : holds name v = .error .operation := by
  cases v with
  | bool | int | float => rfl
  | null | text | list | dict => cases plain

/-- Looking for a name either breaks off, or ends with an answer. -/
theorem holds_cases (d : Dict) (name : String) :
    (configOf d).isPlain = true ∧ holds name (configOf d) = .error .operation ∨
      (configOf d).isPlain = false ∧ ∃ b, holds name (configOf d) = .ok b := by
  cases plain : (configOf d).isPlain with
  | true => exact .inl ⟨rfl, holds_of_plain name plain⟩
  | false => exact .inr ⟨rfl, holds_of_not_plain plain (configOf_ne_null d)⟩

theorem flaw?_withCondition (lacks : Dict.contains d "condition" = false) :
    flaw? (withCondition d) = some m ↔
      (configOf d).isPlain = true ∧ m = .operation ∨ (∀ c, configOf d ≠ .dict c) ∧
        holds "field" (configOf d) = .ok true ∧ holds "operator" (configOf d) = .ok true ∧ m = .attribute := by
  unfold withCondition
  dsimp only
  rw [lacks]
  obtain ⟨plain, field⟩ | ⟨plain, has, field⟩ := holds_cases d "field"
  · rw [field, plain]
    simpa [flaw?, bind, Except.bind] using eq_comm
  · obtain ⟨plain', -⟩ | ⟨-, has', operator⟩ := holds_cases d "operator"
    · cases plain.symm.trans plain'
    rw [field, operator, plain]
    cases has <;> cases has'
    case true.true =>
      cases configOf d <;> simp [flaw?, bind, Except.bind, pure, Except.pure]
      all_goals exact eq_comm
    all_goals simp [flaw?, bind, Except.bind, pure, Except.pure]

theorem flaw?_withAmount (lacks : Dict.contains d "amount" = false) :
    flaw? (withAmount d) = some m ↔
      (configOf d).isPlain = true ∧ m = .operation ∨ (∀ c, configOf d ≠ .dict c) ∧
        holds "duration" (configOf d) = .ok true ∧ m = .operation := by
  unfold withAmount
  dsimp only
  rw [lacks]
  obtain ⟨plain, duration⟩ | ⟨plain, has, duration⟩ := holds_cases d "duration"
  · rw [duration, plain]
    simpa [flaw?, bind, Except.bind] using eq_comm
  · rw [duration, plain]
    cases has with
    | true =>
      cases configOf d <;> simp [flaw?, bind, Except.bind, pure, Except.pure]
      all_goals exact eq_comm
    | false => simp [flaw?, bind, Except.bind, pure, Except.pure]

theorem flaw?_withIterations (lacks : (Dict.getD d "iterations").isNull = true) :
    flaw? (withIterations d) = some m ↔ (∀ c, configOf d ≠ .dict c) ∧ m = .attribute := by
  unfold withIterations
  rw [lacks]
  cases configOf d with
  | dict c => cases most : Dict.getD c "maxIterations" <;> simp [most, flaw?]
  | _ => simpa [flaw?] using eq_comm

/-- A rule that has nothing to look for breaks nothing off. -/
theorem flaw?_of_has :
    (Dict.contains d "condition" = true → flaw? (withCondition d) = none) ∧
      (Dict.contains d "amount" = true → flaw? (withAmount d) = none) ∧
      ((Dict.getD d "iterations").isNull = false → flaw? (withIterations d) = none) := by
  refine ⟨fun has => ?_, fun has => ?_, fun has => ?_⟩
  · simp [withCondition, has, flaw?, pure, Except.pure]
  · simp [withAmount, has, flaw?, pure, Except.pure]
  · simp [withIterations, has, flaw?]

/-- The reading of a node breaks off exactly so. -/
theorem breaks?_eq_some_iff : breaks? (.dict d) = some m ↔ Breaks d m := by
  constructor
  · intro breaks
    unfold breaks? at breaks
    dsimp only at breaks
    split at breaks
    · rename_i tag type
      unfold ruleOf at breaks
      split at breaks
      · cases lacks : Dict.contains d "condition" with
        | true => rw [flaw?_of_has.1 lacks] at breaks; cases breaks
        | false =>
          obtain ⟨plain, rfl⟩ | ⟨config, field, operator, rfl⟩ := (flaw?_withCondition lacks).1 breaks
          · exact .plain type (.inl rfl) lacks plain
          · exact .condition type lacks config field operator
      · cases lacks : Dict.contains d "amount" with
        | true => rw [flaw?_of_has.2.1 lacks] at breaks; cases breaks
        | false =>
          obtain ⟨plain, rfl⟩ | ⟨config, duration, rfl⟩ := (flaw?_withAmount lacks).1 breaks
          · exact .plain type (.inr rfl) lacks plain
          · exact .delay type lacks config duration
      · cases lacks : (Dict.getD d "iterations").isNull with
        | false => rw [flaw?_of_has.2.2 lacks] at breaks; cases breaks
        | true =>
          obtain ⟨config, rfl⟩ := (flaw?_withIterations lacks).1 breaks
          exact .loop type lacks config
      · cases breaks
    · cases breaks
  · rintro (⟨type, looks, lacks, config⟩ | ⟨type, lacks, config, field, operator⟩ | ⟨type, lacks, config, duration⟩ |
      ⟨type, lacks, config⟩)
    · obtain same | same := looks <;> cases same
      · simp only [breaks?, type, ruleOf]
        exact (flaw?_withCondition lacks).2 (.inl ⟨config, rfl⟩)
      · simp only [breaks?, type, ruleOf]
        exact (flaw?_withAmount lacks).2 (.inl ⟨config, rfl⟩)
    · simp only [breaks?, type, ruleOf]
      exact (flaw?_withCondition lacks).2 (.inr ⟨config, field, operator, rfl⟩)
    · simp only [breaks?, type, ruleOf]
      exact (flaw?_withAmount lacks).2 (.inr ⟨config, duration, rfl⟩)
    · simp only [breaks?, type, ruleOf]
      exact (flaw?_withIterations lacks).2 ⟨config, rfl⟩

end Node

namespace Workflow

variable {data : Value}

/-- The fields of a definition. -/
def fieldNames : List String :=
  ["id", "tenant_id", "name", "description", "module_type", "status", "nodes", "connections", "variables", "version"]

/-- Where issues of a definition are told: at one of its fields, or that it has no fields at all. -/
def Spot (place : List Place) : Prop := place = [] ∨ ∃ name ∈ fieldNames, place.head? = some (.name name)

theorem told_decodedList (v : Value) : (decodedList v).Told := by
  unfold decodedList
  split
  · exact .accepted _
  · dsimp only
    split
    · exact .accepted _
    · exact .refuse _ trivial
  · exact .accepted _

theorem tells_connection : Tells Connection.read := fun v => by
  cases v with
  | dict d =>
    exact (((told_optional none (tells_nullable tells_text)).map Connection.mk).also (told_required tells_text)).also
      (told_required tells_text) |>.also (told_optional none (tells_nullable tells_text))
  | _ => exact .refuse _ trivial

theorem told_nameRule (s : String) : (Declaration.nameRule s).Told := by
  unfold Declaration.nameRule
  dsimp only
  split <;> split
  all_goals first | exact .accepted s | exact .refuse _ trivial

theorem tells_declaration : Tells Declaration.read := fun v => by
  cases v with
  | dict d =>
    exact (((told_required fun v => (tells_text v).check told_nameRule).map Declaration.mk).also
      (told_optional none (tells_nullable tells_text))).also (told_optional .null tells_any) |>.also
      (told_optional none (tells_nullable tells_text))
  | _ => exact .refuse _ trivial

theorem tells_listOf {α : Type} {read : Value → Reading α} (tells : Tells read) : Tells (listOf read) := fun v =>
  (told_decodedList v).check fun u => by
    have fares := fares_list tells u
    cases u with
    | list vs =>
      have none : vs.findSome? (fun _ => (none : Option Mismatch)) = none := by simp
      exact none ▸ fares
    | _ => exact fares

theorem told_uniqueIds (nodes : List Node) : (uniqueIds nodes).Told := by
  unfold uniqueIds
  split
  · exact .accepted nodes
  · exact .refuse _ trivial

/-- Over what the reading of a list of nodes breaks off, when it does. -/
def breaksIn? (v : Value) : Option Mismatch :=
  match decodedList v with
  | .accepted (.list vs) => vs.findSome? Node.breaks?
  | _ => none

theorem fares_nodes (v : Value) :
    ((listOf Node.read v).check uniqueIds).Fares (fun _ => True) (breaksIn? v) := by
  refine Fares.check ?_ told_uniqueIds
  unfold listOf breaksIn?
  have decoded := told_decodedList v
  cases text : decodedList v with
  | accepted u =>
    have fares := fares_list Node.fares_read u
    cases u <;> exact fares
  | refused is =>
    rw [text] at decoded
    cases decoded with
    | refused told each => exact .refused told each
  | broken m =>
    rw [text] at decoded
    cases decoded

/-- The nodes of a definition break its reading off as the first of them does that does. -/
theorem bind_breaksIn? (d : Dict) :
    (Dict.first? d ["nodes"]).bind breaksIn? = (writtenItems (.dict d) "nodes").findSome? Node.breaks? := by
  have same : Dict.first? d ["nodes"] = (Value.dict d).field? "nodes" := by simp [Dict.first?, Value.field?]
  unfold writtenItems
  rw [same]
  cases (Value.dict d).field? "nodes" with
  | none => rfl
  | some v =>
    rw [Option.bind_some, Option.map_some]
    unfold breaksIn?
    cases decodedList v with
    | accepted u => cases u <;> rfl
    | refused | broken => rfl

theorem named {α : Type} {r : Reading α} {fault : Option Mismatch} {name : String}
    (fares : r.Fares (·.head? = some (.name name)) fault) (known : name ∈ fieldNames) : r.Fares Spot fault :=
  fares.imp fun _ head => .inr ⟨name, known, head⟩

/-- A definition is read, or is refused with issues of its fields, or its reading breaks off over the first
of its nodes for which it does. -/
theorem fares_read (data : Value) : (read data).Fares Spot ((writtenItems data "nodes").findSome? Node.breaks?) := by
  cases data with
  | dict d =>
    rw [← bind_breaksIn?]
    unfold read
    refine ((((((((Fares.map ?_ Workflow.mk).also ?_).also ?_).also ?_).also ?_).also ?_).also ?_).before ?_).before ?_
      |>.before ?_
    · exact named (named_optional none (tells_nullable tells_text)) (by decide)
    · exact named (named_required tells_text) (by decide)
    · exact named (named_required fun v => (tells_text v).check (Node.told_nonBlank _)) (by decide)
    · exact named (named_optional none (tells_nullable tells_text)) (by decide)
    · exact named (named_required tells_text) (by decide)
    · exact named (named_optional WorkflowStatus.draft (tells_choice _)) (by decide)
    · exact named (fares_optional [] fares_nodes) (by decide)
    · exact named (named_optional [] (tells_listOf tells_connection)) (by decide)
    · exact named (named_optional [] (tells_listOf tells_declaration)) (by decide)
    · exact named (named_optional 1 tells_whole) (by decide)
  | _ => exact .refuse _ (.inl rfl)

/-- Parsing answers a definition, or the definition error of its workflow with issues that name fields;
unless one of the nodes breaks the reading off, and then as the first of these does. -/
theorem parse_cases (data : Value) :
    match (writtenItems data "nodes").findSome? Node.breaks? with
    | some m => parse data = .error (.ofMismatch m)
    | none => (∃ w, parse data = .ok w) ∨ ∃ issues, issues ≠ [] ∧ (∀ i ∈ issues, Spot i.place) ∧
        parse data = .error (.program (.malformed ((data.field? "id").getD .null) issues)) := by
  have fares := fares_read data
  unfold parse
  revert fares
  generalize (writtenItems data "nodes").findSome? Node.breaks? = fault
  intro fares
  cases outcome : read data with
  | accepted w =>
    rw [outcome] at fares
    cases fares
    exact .inl ⟨w, rfl⟩
  | refused is =>
    rw [outcome] at fares
    cases fares with
    | refused told each => exact .inr ⟨is, told, each, rfl⟩
  | broken m =>
    rw [outcome] at fares
    cases fares
    rfl

/-- A delay without an amount breaks the reading off when its configuration is a number, and is refused when
it is a text. -/
example : ([.int 5, .text "5"].map fun config =>
    match parse (written [writtenNode "T" "trigger" [("triggerType", .text "created")],
        writtenNode "D" "delay" [("config", config)]] []) with
    | .ok _ => ""
    | .error f => f.kindName) = ["TypeError", "WorkflowDefinitionError"] := by
  decide +kernel

end Workflow

end Runbook
