import Runbook.Proofs.Content
import Runbook.Proofs.Refusal
import Runbook.Proofs.Snapshot
import Runbook.Workflow.Record

/-!
The compact form of nodes, connections and variables, read again. Fields that are null are left out there, so
a null amount of a delay, and a number of iterations that is null, leave room for what the configuration says
in their place; everything else comes back as it was written.
-/
namespace Runbook

open Reading

@[simp] theorem Value.isNull_text (s : String) : (Value.text s).isNull = false := rfl

theorem Value.eq_null_of_isNull {v : Value} (null : v.isNull = true) : v = .null := by
  cases v <;> first | rfl | cases null

/-- What the compact form keeps of the fields of a record. -/
def compacted (entries : List (String × Value)) : Dict :=
  (entries.filter (!·.2.isNull)).map fun (k, v) => (.text k, v)

theorem get?_compacted (entries : List (String × Value)) (name : String) :
    Dict.get? (compacted entries) name = (entries.find? fun e => !e.2.isNull && e.1 == name).map (·.2) := by
  unfold compacted
  induction entries with
  | nil => rfl
  | cons e rest ih =>
    obtain ⟨k, v⟩ := e
    cases null : v.isNull
    · by_cases own : k = name
      · simp [null, own, Dict.get?, Dict.find?, Key.same]
      · simpa [null, own, Dict.get?, Dict.find?, Key.same] using ih
    · simpa [null] using ih

namespace Read

variable {α : Type} {d : Dict} {name : String} {names : List String} {r : Value → Reading α} {a : α}

theorem first?_of_get? {v : Value} (found : Dict.get? d name = some v) :
    Dict.first? d (name :: names) = some v := by
  simp [Dict.first?, found]

theorem required_eq {v : Value} (found : Dict.get? d name = some v) :
    required d (name :: names) r = (r v).within (.name name) := by
  unfold required
  rw [first?_of_get? found]
  rfl

theorem optional_eq {default : α} {v : Value} (found : Dict.get? d name = some v) :
    optional d (name :: names) default r = (r v).within (.name name) := by
  unfold optional
  rw [first?_of_get? found]
  rfl

theorem required_of_get? {v : Value} (found : Dict.get? d name = some v) (accepted : r v = .accepted a) :
    required d (name :: names) r = .accepted a :=
  (required_eq found).trans (within_eq_accepted.2 accepted)

theorem optional_of_get? {default : α} {v : Value} (found : Dict.get? d name = some v)
    (accepted : r v = .accepted a) : optional d (name :: names) default r = .accepted a :=
  (optional_eq found).trans (within_eq_accepted.2 accepted)

theorem optional_of_absent {default : α} (absent : Dict.get? d name = none) :
    optional d [name] default r = .accepted default := by
  simp [optional, Dict.first?, absent]

/-- A text that may be missing is read as it is written, whether null is left out or not. -/
theorem nullable_ofText? (s : Option String) : nullable text (.ofText? s) = .accepted s := by
  cases s <;> rfl

theorem optional_ofText? {s : Option String} (written : Dict.get? d name = s.map .text) :
    optional d [name] none (nullable text) = .accepted s := by
  cases s with
  | none => exact optional_of_absent written
  | some s => exact optional_of_get? written rfl

end Read

open Read

namespace Node

/-- A dictionary holds what every node has, as it is of this one. -/
structure Shown (n : Node) (d : Dict) : Prop where
  id : Dict.get? d "id" = some (.text n.id)
  label : Dict.get? d "label" = n.label.map .text
  description : Dict.get? d "description" = n.description.map .text
  config : Dict.get? d "config" = some (.dict n.config)

/-- What is trimmed and not empty is kept. -/
theorem nonBlank_of_trimmed {message s : String} (trimmed : Text.trim s = s) (filled : s ≠ "") :
    nonBlank message s = .accepted s := by
  simp [nonBlank, trimmed, filled]

theorem check_nonBlank_of_trimmed {message s : String} (trimmed : Text.trim s = s) (filled : s ≠ "") :
    (text (.text s)).check (nonBlank message) = .accepted s :=
  check_eq_accepted.2 ⟨s, rfl, nonBlank_of_trimmed trimmed filled⟩

theorem Shown.readFields {n : Node} {d : Dict} (shown : n.Shown d) (trimmed : Text.trim n.id = n.id)
    (named : n.id ≠ "") (kind : Reading NodeKind) :
    readFields d kind = (fun k => { n with kind := k }) <$> kind := by
  have id : required d ["id"] (fun v => (text v).check (nonBlank "Node ID cannot be empty")) = .accepted n.id :=
    required_of_get? shown.id (check_nonBlank_of_trimmed trimmed named)
  have config : Read.optional d ["config"] [] dict = .accepted n.config := optional_of_get? shown.config rfl
  unfold Node.readFields
  rw [id, optional_ofText? shown.label, optional_ofText? shown.description, config]
  cases kind <;> rfl

theorem Shown.set {n : Node} {d : Dict} (shown : n.Shown d) {name : String} (v : Value)
    (other : name ∉ ["id", "label", "description", "config"]) : n.Shown (Dict.set d name v) := by
  have apart (field : String) (there : field ∈ ["id", "label", "description", "config"]) :
      Dict.get? (Dict.set d name v) field = Dict.get? d field :=
    Dict.get?_set_of_ne d v fun same => other (same ▸ there)
  exact ⟨(apart _ (by simp)).trans shown.id, (apart _ (by simp)).trans shown.label,
    (apart _ (by simp)).trans shown.description, (apart _ (by simp)).trans shown.config⟩

/-- The compact form of a node. -/
def compact (n : Node) : Dict := compacted ([("id", .text n.id), ("label", .ofText? n.label),
    ("description", .ofText? n.description), ("config", .dict n.config),
    ("type", .text n.kind.name)] ++ n.kind.fields true)

theorem record_true (n : Node) : n.record true = .dict n.compact := rfl

theorem shown_compact (n : Node) : n.Shown n.compact := by
  obtain ⟨id, label, description, config, kind⟩ := n
  have own : ∀ name ∈ ["id", "label", "description", "config"],
      ((kind.fields true).find? fun e => !e.2.isNull && e.1 == name) = none := by
    intro name there
    cases kind <;> simp at there <;> rcases there with rfl | rfl | rfl | rfl <;> simp [NodeKind.fields]
  constructor <;> unfold compact <;> rw [get?_compacted, List.find?_append, own _ (by simp)] <;>
    cases label <;> cases description <;> simp [Value.ofText?, Value.isNull]

theorem get?_type_compact (n : Node) : Dict.get? n.compact "type" = some (.text n.kind.name) := by
  obtain ⟨id, label, description, config, kind⟩ := n
  unfold compact
  rw [get?_compacted, List.find?_append]
  cases label <;> cases description <;> simp [Value.ofText?, Value.isNull]

/-- The fields of its kind. -/
theorem get?_compact (n : Node) (name : String) (other : name ∉ ["id", "label", "description", "config", "type"]) :
    Dict.get? n.compact name = ((n.kind.fields true).find? fun e => !e.2.isNull && e.1 == name).map (·.2) := by
  simp only [List.mem_cons, List.not_mem_nil, or_false, not_or] at other
  unfold compact
  rw [get?_compacted, List.find?_append]
  simp [Ne.symm other.1, Ne.symm other.2.1, Ne.symm other.2.2.1, Ne.symm other.2.2.2.1, Ne.symm other.2.2.2.2]

/-! What reading makes sure of. -/

/-- What every node that was read keeps to. -/
structure Checked (n : Node) : Prop where
  trimmed : Text.trim n.id = n.id
  named : n.id ≠ ""
  action : ∀ a, n.kind = .action a → Text.trim a = a ∧ a ≠ ""
  loop : ∀ k, n.kind = .loop (some k) → k ≠ 0

theorem iterationCount_eq_accepted {n : Option Int} {k : Nat} (accepted : iterationCount n = .accepted (some k)) :
    k ≠ 0 := by
  cases n with
  | none => cases accepted
  | some n =>
    unfold iterationCount at accepted
    dsimp only at accepted
    split at accepted
    · cases accepted
    · split at accepted
      · cases accepted
      · cases accepted
        omega

theorem kind_of_withRule {rule : Except Mismatch Dict} {kind : Dict → Reading NodeKind} {n : Node}
    (accepted : (withRule rule fun d => readFields d (kind d)) = .accepted n) :
    ∃ d, kind d = .accepted n.kind := by
  cases rule with
  | ok d => exact ⟨d, (readFields_eq_accepted accepted).kind⟩
  | error m => cases accepted

theorem kind_of_readTagged {d : Dict} {tag : String} {r : Reading Node} {n : Node}
    (known : readTagged d tag = some r) (accepted : r = .accepted n) :
    (∀ a, n.kind = .action a → Text.trim a = a ∧ a ≠ "") ∧ ∀ k, n.kind = .loop (some k) → k ≠ 0 := by
  unfold readTagged at known
  split at known
  all_goals cases known
  · obtain ⟨_, -, kind⟩ := map_eq_accepted.1 (readFields_eq_accepted accepted).kind
    simp [← kind]
  · obtain ⟨d, kind⟩ := kind_of_withRule accepted
    obtain ⟨_, -, kind⟩ := map_eq_accepted.1 kind
    simp [← kind]
  · obtain ⟨a, field, kind⟩ := map_eq_accepted.1 (readFields_eq_accepted accepted).kind
    obtain ⟨_, -, checked⟩ := required_eq_accepted.1 field
    obtain ⟨_, -, filled⟩ := check_eq_accepted.1 checked
    obtain ⟨rfl, some⟩ := nonBlank_eq_accepted filled
    simpa [← kind] using ⟨Text.trim_trim _, some⟩
  · obtain ⟨d, kind⟩ := kind_of_withRule accepted
    obtain ⟨_, _, before, -, kind⟩ := seq_eq_accepted.1 kind
    obtain ⟨_, -, rfl⟩ := map_eq_accepted.1 before
    simp [← kind]
  · obtain ⟨d, kind⟩ := kind_of_withRule accepted
    obtain ⟨i, field, kind⟩ := map_eq_accepted.1 kind
    refine ⟨by simp [← kind], fun k same => ?_⟩
    obtain rfl : i = some k := by simpa [← kind] using same
    unfold Read.optional at field
    split at field
    · obtain ⟨_, -, counted⟩ := check_eq_accepted.1 (within_eq_accepted.1 field)
      exact iterationCount_eq_accepted counted
    · cases field
  · obtain ⟨_, -, kind⟩ := map_eq_accepted.1 (readFields_eq_accepted accepted).kind
    simp [← kind]

theorem checked_of_read {v : Value} {n : Node} (accepted : read v = .accepted n) : n.Checked := by
  obtain ⟨s, -, id⟩ := id_of_read accepted
  have kinds : (∀ a, n.kind = .action a → Text.trim a = a ∧ a ≠ "") ∧ ∀ k, n.kind = .loop (some k) → k ≠ 0 := by
    unfold read at accepted
    split at accepted
    · split at accepted
      · cases accepted
      · split at accepted
        · rename_i known
          exact kind_of_readTagged known (within_eq_accepted.1 accepted)
        · cases accepted
      · cases accepted
    · cases accepted
  exact ⟨by rw [id, Text.trim_trim], id_ne_of_read accepted, kinds.1, kinds.2⟩

/-! What is read from the compact form. -/

/-- The kind that a node has when it is read from its compact form. An amount and a number of iterations that
are null are left out there, and what the configuration says takes their place. -/
def kindAgain (n : Node) : Reading NodeKind :=
  match n.kind with
  | .delay .null unit =>
    match Dict.get? n.config "duration" with
    | some v => .accepted (.delay v unit)
    | none => .refused [⟨[.name "amount"], .missing⟩]
  | .loop none => .loop <$>
      ((nullable whole (Dict.getD n.config "maxIterations")).check iterationCount).within (.name "iterations")
  | k => .accepted k

theorem configOf_compact (n : Node) : configOf n.compact = .dict n.config := by
  unfold configOf Dict.getD
  rw [(shown_compact n).config]
  exact Value.orElse_dict _

theorem readCondition_record (c : Condition) : readCondition (c.record true) = .accepted c := by
  obtain ⟨field, operator, value⟩ := c
  change readCondition (.dict (compacted _)) = _
  unfold readCondition
  dsimp only
  rw [required_of_get? (a := field) (v := .text field) ?_ rfl,
    required_of_get? (a := operator) (v := .text operator) ?_ rfl]
  · cases null : value.isNull with
    | false =>
      rw [optional_of_get? (r := any) (a := value) (v := value) ?_ rfl]
      · rfl
      · rw [get?_compacted]
        simp [null]
    | true =>
      rw [optional_of_absent]
      · cases value <;> first | rfl | cases null
      · rw [get?_compacted]
        simp [null]
  all_goals
    rw [get?_compacted]
    simp

/-- What a delay takes from a configuration that is a dictionary. -/
theorem withAmount_of_dict {d c : Dict} (config : configOf d = .dict c) (absent : Dict.get? d "amount" = none) :
    withAmount d = .ok (match Dict.get? c "duration" with
      | some v => Dict.set (Dict.set d "amount" v) "unit" ((Dict.get? d "unit").getD (.text "minutes"))
      | none => d) := by
  unfold withAmount Dict.contains
  rw [absent, config]
  cases given : Dict.get? c "duration" with
  | none =>
    have lacks : holds "duration" (.dict c) = .ok false := by simp [holds, Dict.contains, given]
    simp only [lacks]
    rfl
  | some v =>
    have has : holds "duration" (.dict c) = .ok true := by simp [holds, Dict.contains, given]
    simp only [has, Dict.getD, given]
    rfl

/-- What a loop takes from it. -/
theorem withIterations_of_dict {d c : Dict} (config : configOf d = .dict c)
    (absent : Dict.get? d "iterations" = none) :
    withIterations d = .ok (if (Dict.getD c "maxIterations").isNull then d
      else Dict.set d "iterations" (Dict.getD c "maxIterations")) := by
  unfold withIterations
  rw [config, show Dict.getD d "iterations" = .null by rw [Dict.getD, absent]; rfl]
  dsimp only
  cases Dict.getD c "maxIterations" <;> rfl

section

variable {n : Node} {d : Dict} (shown : n.Shown d) (checked : n.Checked) (config : configOf d = .dict n.config)

include shown checked config

theorem readTagged_delay {amount : Value} {unit : String} (kind : n.kind = .delay amount unit)
    (written : Dict.get? d "amount" = if amount.isNull then none else some amount)
    (ofUnit : Dict.get? d "unit" = some (.text unit)) :
    readTagged d "delay" = some ((fun k => { n with kind := k }) <$> n.kindAgain) := by
  have reads (e : Dict) (shown : n.Shown e) (v : Value) (given : Dict.get? e "amount" = some v)
      (unitGiven : Dict.get? e "unit" = some (.text unit)) :
      readFields e (NodeKind.delay <$> required e ["amount"] any <*> Read.optional e ["unit"] "minutes" text) =
        .accepted { n with kind := .delay v unit } := by
    rw [shown.readFields checked.trimmed checked.named, required_of_get? (r := any) (a := v) given rfl,
      optional_of_get? (r := text) (a := unit) unitGiven rfl]
    rfl
  change some (withRule (withAmount d) _) = _
  unfold kindAgain
  rw [kind]
  cases null : amount.isNull with
  | false =>
    rw [null] at written
    have rule : withAmount d = .ok d := by
      unfold withAmount Dict.contains
      rw [written]
      rfl
    rw [rule]
    refine congrArg some ((reads d shown amount written ofUnit).trans ?_)
    cases amount <;> first | rfl | cases null
  | true =>
    rw [null] at written
    obtain rfl := Value.eq_null_of_isNull null
    rw [withAmount_of_dict config written]
    dsimp only
    cases given : Dict.get? n.config "duration" with
    | none =>
      have lacking : required d ["amount"] any = .refused [⟨[.name "amount"], .missing⟩] := by
        simp [required, Dict.first?, written, refuse, within]
      change some (readFields d _) = _
      rw [shown.readFields checked.trimmed checked.named, lacking,
        optional_of_get? (r := text) (a := unit) ofUnit rfl]
      rfl
    | some v =>
      refine congrArg some (reads _ ((shown.set _ (by simp)).set _ (by simp)) v ?_ ?_)
      · rw [Dict.get?_set_of_ne _ _ (by decide), Dict.get?_set_self]
      · rw [Dict.get?_set_self, ofUnit]
        rfl

theorem readTagged_loop {iterations : Option Nat} (kind : n.kind = .loop iterations)
    (written : Dict.get? d "iterations" = iterations.map fun k => .int k) :
    readTagged d "loop" = some ((fun k => { n with kind := k }) <$> n.kindAgain) := by
  have reads (e : Dict) (shown : n.Shown e) := shown.readFields checked.trimmed checked.named
  change some (withRule (withIterations d) _) = _
  unfold kindAgain
  rw [kind]
  cases iterations with
  | some k =>
    have positive := checked.loop k kind
    have count : iterationCount (some (k : Int)) = .accepted (some k) := by simp [iterationCount, positive]
    have rule : withIterations d = .ok d := by
      unfold withIterations Dict.getD
      rw [written]
      rfl
    rw [rule]
    change some (readFields d _) = _
    rw [reads d shown, optional_of_get? (a := some k) written count]
    rfl
  | none =>
    rw [withIterations_of_dict config written]
    by_cases null : (Dict.getD n.config "maxIterations").isNull = true
    · rw [if_pos null]
      change some (readFields d _) = _
      rw [Value.eq_null_of_isNull null, reads d shown, optional_of_absent written]
      rfl
    · rw [if_neg null]
      change some (readFields _ _) = _
      rw [reads _ (shown.set _ (by simp))]
      rw [optional_eq (Dict.get?_set_self d "iterations" _)]

end

theorem readTagged_compact {n : Node} (checked : n.Checked) :
    readTagged n.compact n.kind.name = some ((fun k => { n with kind := k }) <$> n.kindAgain) := by
  have shown := shown_compact n
  have fields := get?_compact n
  have config := configOf_compact n
  have reads := shown.readFields checked.trimmed checked.named
  generalize n.compact = d at shown fields config reads ⊢
  cases kind : n.kind <;> simp only [kind] at fields
  case trigger event =>
    change some (readFields _ _) = _
    rw [reads, required_of_get? (r := text) (a := event) (fields "triggerType" (by simp)) rfl, kindAgain, kind]
    rfl
  case condition c =>
    have written : Dict.get? d "condition" = some (c.record true) := fields "condition" (by simp)
    have rule : withCondition d = .ok d := by
      unfold withCondition Dict.contains
      rw [written]
      rfl
    change some (withRule _ _) = _
    rw [rule]
    change some (readFields _ _) = _
    rw [reads, required_of_get? written (readCondition_record c), kindAgain, kind]
    rfl
  case action a =>
    obtain ⟨trimmed, filled⟩ := checked.action a kind
    have written : Dict.get? d "actionType" = some (.text a) := fields "actionType" (by simp)
    have read : required d ["actionType", "action_type"]
        (fun v => (text v).check (nonBlank "Action type cannot be empty")) = .accepted a :=
      required_of_get? written (check_nonBlank_of_trimmed trimmed filled)
    change some (readFields _ _) = _
    rw [reads, read, kindAgain, kind]
    rfl
  case junction junctionType =>
    change some (readFields _ _) = _
    rw [reads, optional_of_get? (r := text) (a := junctionType) (fields "junctionType" (by simp)) rfl,
      kindAgain, kind]
    rfl
  case delay amount unit =>
    refine readTagged_delay shown checked config kind ?_ ?_
    · rw [fields "amount" (by simp)]
      cases null : amount.isNull <;> simp [NodeKind.fields, null]
    · rw [fields "unit" (by simp)]
      simp [NodeKind.fields]
  case loop iterations =>
    refine readTagged_loop shown checked config kind ?_
    rw [fields "iterations" (by simp)]
    cases iterations <;> simp [NodeKind.fields, Value.isNull]

/-- A checked node is read from its compact form as it was, but for what is left out there. -/
theorem read_compact {n : Node} (checked : n.Checked) :
    read (.dict n.compact) = ((fun k => { n with kind := k }) <$> n.kindAgain).within (.name n.kind.name) := by
  unfold read
  simp only [get?_type_compact, readTagged_compact checked]

/-- The node that is read again, when one is. -/
def again? (n : Node) : Option Node :=
  match n.kindAgain with
  | .accepted k => some { n with kind := k }
  | _ => none

/-- A configured maximum that bounds nothing: there is none, or it is zero. -/
def BoundsNothing (most : Value) : Prop := (nullable whole most).check iterationCount = .accepted none

/-- A node is read again as it is, unless an amount or a number of iterations is null and the configuration says
something else in its place, or has no amount to say. -/
theorem again?_eq_self_iff {n : Node} : n.again? = some n ↔
    (∀ unit, n.kind = .delay .null unit → Dict.get? n.config "duration" = some .null) ∧
      (n.kind = .loop none → BoundsNothing (Dict.getD n.config "maxIterations")) := by
  obtain ⟨id, label, description, config, kind⟩ := n
  unfold again? kindAgain BoundsNothing
  cases kind with
  | delay amount unit =>
    cases amount with
    | null => cases Dict.get? config "duration" <;> simp
    | _ => simp
  | loop iterations =>
    cases iterations with
    | none =>
      cases counted : (nullable whole (Dict.getD config "maxIterations")).check iterationCount <;>
        simp [within, Functor.map, Reading.map]
    | some k => simp
  | _ => simp

/-- The kind that is read again is the kind that was there, or comes from the configuration. -/
theorem kindAgain_eq_accepted {n : Node} {k : NodeKind} (accepted : n.kindAgain = .accepted k) :
    k = n.kind ∨ (∃ v unit, n.kind = .delay .null unit ∧ Dict.get? n.config "duration" = some v ∧ k = .delay v unit) ∨
      ∃ i, n.kind = .loop none ∧
        (nullable whole (Dict.getD n.config "maxIterations")).check iterationCount = .accepted i ∧ k = .loop i := by
  unfold kindAgain at accepted
  split at accepted
  · rename_i unit kind
    cases given : Dict.get? n.config "duration" with
    | none => simp [given] at accepted
    | some v => exact .inr (.inl ⟨v, unit, kind, rfl, by simpa [given, eq_comm] using accepted⟩)
  · rename_i kind
    obtain ⟨i, counted, same⟩ := map_eq_accepted.1 accepted
    exact .inr (.inr ⟨i, kind, within_eq_accepted.1 counted, same.symm⟩)
  · cases accepted
    exact .inl rfl

theorem again?_eq_some_iff {n m : Node} :
    n.again? = some m ↔ ∃ k, n.kindAgain = .accepted k ∧ m = { n with kind := k } := by
  unfold again?
  cases n.kindAgain <;> simp [eq_comm]

/-- What has been read again is read again as it is. -/
theorem again?_of_again? {n m : Node} (again : n.again? = some m) : m.again? = some m := by
  obtain ⟨k, accepted, rfl⟩ := again?_eq_some_iff.1 again
  obtain rfl | ⟨v, unit, -, given, rfl⟩ | ⟨i, -, counted, rfl⟩ := kindAgain_eq_accepted accepted
  · exact again
  · refine again?_eq_self_iff.2 ⟨fun u same => ?_, nofun⟩
    obtain ⟨rfl, -⟩ := NodeKind.delay.inj same
    exact given
  · refine again?_eq_self_iff.2 ⟨nofun, fun same => ?_⟩
    obtain rfl := NodeKind.loop.inj same
    exact counted

theorem id_of_again? {n m : Node} (again : n.again? = some m) : m.id = n.id := by
  obtain ⟨_, -, rfl⟩ := again?_eq_some_iff.1 again
  rfl

theorem read_record_iff {n m : Node} (checked : n.Checked) :
    read (n.record true) = .accepted m ↔ n.again? = some m := by
  rw [record_true, read_compact checked, within_eq_accepted]
  unfold again?
  cases n.kindAgain <;> simp [Functor.map, Reading.map]

/-- Its reading does not break off, since its configuration is a dictionary. -/
theorem breaks?_record (n : Node) : breaks? (n.record true) = none := by
  rw [Option.eq_none_iff_forall_ne_some]
  intro m breaks
  have config := configOf_compact n
  obtain ⟨-, -, -, plain⟩ | ⟨-, -, other, -⟩ | ⟨-, -, other, -⟩ | ⟨-, -, other⟩ :=
    breaks?_eq_some_iff.1 (n.record_true ▸ breaks)
  · rw [config] at plain
    cases plain
  all_goals exact other _ config

end Node

/-! Lists of nodes, connections and variables. -/

theorem Reading.items_eq_accepted {α : Type} {read : Value → Reading α} {n : Nat} {vs : List Value} {as : List α} :
    items read n vs = .accepted as ↔ List.Forall₂ (fun v a => read v = .accepted a) vs as := by
  refine ⟨forall₂_of_items, fun each => ?_⟩
  induction each generalizing n with
  | nil => rfl
  | cons first _ ih =>
    rw [items, seq_eq_accepted]
    exact ⟨_, _, map_eq_accepted.2 ⟨_, within_eq_accepted.2 first, rfl⟩, ih, rfl⟩

theorem mapM_eq_some_iff {α β : Type} {f : α → Option β} {as : List α} {bs : List β} :
    as.mapM f = some bs ↔ List.Forall₂ (fun a b => f a = some b) as bs := by
  induction as generalizing bs with
  | nil => cases bs <;> simp
  | cons a rest ih =>
    rw [List.mapM_cons, List.forall₂_cons_left_iff]
    simp only [Option.bind_eq_bind, Option.bind_eq_some_iff, ih, Option.pure_def, Option.some.injEq]
    constructor
    · rintro ⟨b, first, others, later, rfl⟩
      exact ⟨b, others, first, later, rfl⟩
    · rintro ⟨b, others, first, later, rfl⟩
      exact ⟨b, first, others, later, rfl⟩

namespace Connection

theorem read_record (c : Connection) : read (c.record true) = .accepted c := by
  obtain ⟨id, source, target, label⟩ := c
  change read (.dict (compacted _)) = _
  unfold read
  dsimp only
  rw [optional_ofText? (s := id), required_of_get? (r := text) (a := source) (v := .text source) ?_ rfl,
    required_of_get? (r := text) (a := target) (v := .text target) ?_ rfl, optional_ofText? (s := label)]
  · rfl
  all_goals
    rw [get?_compacted]
    cases id <;> cases label <;> simp [Value.ofText?, Value.isNull]

end Connection

namespace Declaration

theorem read_record {v : Declaration} (named : nameRule v.name = .accepted v.name) :
    read v.record = .accepted v := by
  obtain ⟨name, type, default, description⟩ := v
  unfold read record Value.record
  dsimp only
  rw [required_of_get? (a := name) (v := .text name) ?_ named,
    optional_of_get? (a := type) (v := .ofText? type) ?_ (nullable_ofText? type),
    optional_of_get? (r := any) (a := default) (v := default) ?_ rfl,
    optional_of_get? (a := description) (v := .ofText? description) ?_ (nullable_ofText? description)]
  · rfl
  all_goals simp [Dict.get?, Dict.find?, Key.same]

theorem nameRule_of_read {u : Value} {v : Declaration} (accepted : read u = .accepted v) :
    nameRule v.name = .accepted v.name := by
  have same {s t : String} (ruled : nameRule s = .accepted t) : nameRule t = .accepted t := by
    have own := ruled
    unfold nameRule at ruled
    dsimp only at ruled
    split at ruled <;> split at ruled <;> cases ruled <;> exact own
  obtain ⟨d, -, fields⟩ := read_eq_accepted accepted
  obtain ⟨_, -, checked⟩ := required_eq_accepted.1 fields.name
  obtain ⟨_, -, ruled⟩ := check_eq_accepted.1 checked
  exact same ruled

end Declaration

end Runbook
