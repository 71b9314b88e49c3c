import Mathlib.Data.List.Forall2
import Mathlib.Data.List.TakeWhile
import Runbook.Proofs.Definition
import Runbook.Proofs.Variables

/-!
The laws of substitution. A text refers to the names that stand in it behind a dollar sign and cannot be
read any further. What becomes of a value hangs on the variables of these names alone, and what is inserted
for one of them is not looked at again.
-/
namespace Runbook

/-- What holds of a list when it holds of its items, and of a dictionary when it holds of its values, holds of
all values. -/
theorem Value.induction {P : Value → Prop} (null : P .null) (bool : ∀ b, P (.bool b)) (int : ∀ n, P (.int n))
    (float : ∀ x, P (.float x)) (text : ∀ s, P (.text s))
    (list : ∀ items : List Value, (∀ v ∈ items, P v) → P (.list items))
    (dict : ∀ d : Dict, (∀ p ∈ d, P p.2) → P (.dict d)) (v : Value) : P v :=
  @Value.rec P (fun items => ∀ v ∈ items, P v) (fun d => ∀ p ∈ d, P p.2) (fun p => P p.2)
    null bool int float text list dict
    (fun _ no => absurd no List.not_mem_nil) (fun _ _ first others => List.forall_mem_cons.2 ⟨first, others⟩)
    (fun _ no => absurd no List.not_mem_nil) (fun _ _ first others => List.forall_mem_cons.2 ⟨first, others⟩)
    (fun _ _ own => own) v

namespace Template

/-! Cutting texts into pieces. -/

/-- A text begins with a character of a name. -/
def Continues (cs : List Char) : Prop := ∃ c rest, cs = c :: rest ∧ isNameChar c = true

section Scan

variable {c : Char} {a b cs name rest : List Char}

theorem not_continues_nil : ¬Continues [] := by
  rintro ⟨c, rest, same, -⟩
  cases same

theorem not_continues_cons : ¬Continues (c :: rest) ↔ isNameChar c = false := by
  constructor
  · intro ends
    by_contra long
    exact ends ⟨c, rest, rfl, by simpa using long⟩
  · rintro plain ⟨d, rest', same, long⟩
    cases same
    exact Bool.noConfusion (plain.symm.trans long)

theorem not_continues_dollar : ¬Continues ('$' :: rest) := not_continues_cons.2 (by decide)

theorem scan_name (long : isNameChar c = true) : scan (c :: cs) = (c :: (scan cs).1, (scan cs).2) := by
  rw [scan]
  exact if_pos long

theorem scan_dollar (run : (scan cs).1 ≠ []) : scan ('$' :: cs) = ([], .reference (scan cs).1 :: (scan cs).2) := by
  rw [scan]
  exact (if_neg (by decide)).trans (if_pos ⟨rfl, run⟩)

theorem scan_plain (plain : isNameChar c = false) (other : ¬(c = '$' ∧ (scan cs).1 ≠ [])) :
    scan (c :: cs) = ([], .plain c :: pieces cs) := by
  rw [scan]
  exact (if_neg (by simp [plain])).trans (if_neg other)

/-- The run at the front of a text is as long as it can be. -/
theorem fst_scan (cs : List Char) : (scan cs).1 = cs.takeWhile isNameChar := by
  induction cs with
  | nil => rfl
  | cons c rest ih =>
    by_cases long : isNameChar c = true
    · rw [scan_name long, List.takeWhile_cons, if_pos long, ih]
    · rw [List.takeWhile_cons, if_neg long, scan]
      simp only [if_neg long]
      split <;> rfl

theorem scan_of_not_continues (ends : ¬Continues cs) : scan cs = ([], pieces cs) := by
  have run : (scan cs).1 = [] := by
    rw [fst_scan, List.takeWhile_eq_nil_iff]
    intro nonempty long
    obtain ⟨c, rest, rfl⟩ := List.exists_cons_of_ne_nil (List.length_pos_iff.1 nonempty)
    exact ends ⟨c, rest, rfl, long⟩
  unfold pieces
  exact Prod.ext run (by simp [run])

/-- Where a text ends that the next one does not continue, the scan of the two may be cut. -/
theorem scan_append (ends : ¬Continues b) (a : List Char) :
    scan (a ++ b) = ((scan a).1, (scan a).2 ++ pieces b) := by
  induction a with
  | nil => exact scan_of_not_continues ends
  | cons c rest ih =>
    have cut : pieces (rest ++ b) = pieces rest ++ pieces b := by simp [pieces, ih]
    rw [List.cons_append]
    by_cases long : isNameChar c = true
    · rw [scan_name long, scan_name long, ih]
    · by_cases refers : c = '$' ∧ (scan rest).1 ≠ []
      · obtain ⟨rfl, run⟩ := refers
        have run' : (scan (rest ++ b)).1 ≠ [] := by rwa [ih]
        rw [scan_dollar run, scan_dollar run', ih, List.cons_append]
      · have plain : isNameChar c = false := by simpa using long
        have refers' : ¬(c = '$' ∧ (scan (rest ++ b)).1 ≠ []) := by rwa [ih]
        rw [scan_plain plain refers, scan_plain plain refers', cut, List.cons_append]

theorem pieces_append (ends : ¬Continues b) (a : List Char) : pieces (a ++ b) = pieces a ++ pieces b := by
  simp [pieces, scan_append ends]

/-- A run of such characters is a name as a whole. -/
theorem scan_run (long : ∀ c ∈ name, isNameChar c = true) (ends : ¬Continues rest) :
    scan (name ++ rest) = (name, pieces rest) := by
  induction name with
  | nil => exact scan_of_not_continues ends
  | cons c name ih =>
    rw [List.cons_append, scan_name (long c (.head _)), ih fun d later => long d (.tail _ later)]

theorem pieces_reference (some : name ≠ []) (long : ∀ c ∈ name, isNameChar c = true) (ends : ¬Continues rest) :
    pieces ('$' :: (name ++ rest)) = .reference name :: pieces rest := by
  have run := scan_run long ends
  have cut : scan ('$' :: (name ++ rest)) = ([], .reference name :: pieces rest) := by
    rw [scan_dollar (by rwa [run]), run]
  unfold pieces
  rw [cut]
  rfl

/-- A reference is cut from a place where its name stands behind a dollar sign and ends. -/
theorem exists_of_reference_mem (there : .reference name ∈ (scan cs).2) :
    ∃ before after, cs = before ++ '$' :: (name ++ after) ∧ name ≠ [] ∧ (∀ c ∈ name, isNameChar c = true) ∧
      ¬Continues after := by
  induction cs with
  | nil => cases there
  | cons c rest ih =>
    have later (there : .reference name ∈ (scan rest).2) : ∃ before after,
        c :: rest = before ++ '$' :: (name ++ after) ∧ name ≠ [] ∧ (∀ d ∈ name, isNameChar d = true) ∧
          ¬Continues after := by
      obtain ⟨before, after, same, found⟩ := ih there
      exact ⟨c :: before, after, congrArg (c :: ·) same, found⟩
    by_cases long : isNameChar c = true
    · rw [scan_name long] at there
      exact later there
    · by_cases refers : c = '$' ∧ (scan rest).1 ≠ []
      · obtain ⟨rfl, run⟩ := refers
        rw [scan_dollar run] at there
        rcases List.mem_cons.1 there with same | there
        · injection same with same
          subst same
          refine ⟨[], rest.dropWhile isNameChar, ?_, run, fun c there => ?_, ?_⟩
          · rw [fst_scan, List.takeWhile_append_dropWhile]
            rfl
          · rw [fst_scan] at there
            exact List.mem_takeWhile_imp there
          · rintro ⟨d, tail, same, long⟩
            have first := List.head?_dropWhile_not isNameChar rest
            simp [same, long] at first
        · exact later there
      · rw [scan_plain (by simpa using long) refers] at there
        unfold pieces at there
        rcases List.mem_cons.1 there with same | there
        · cases same
        · rcases List.mem_append.1 there with plain | there
          · obtain ⟨d, -, same⟩ := List.mem_map.1 plain
            cases same
          · exact later there

end Scan

/-! What texts and values refer to. -/

/-- A text can stand behind a dollar sign as a name. -/
structure IsName (name : String) : Prop where
  filled : name ≠ ""
  long : ∀ c ∈ name.toList, isNameChar c = true

/-- A name stands in a text behind a dollar sign, and no character behind it would belong to it. -/
def Refers (s name : String) : Prop :=
  ∃ before after : String, s = before ++ "$" ++ name ++ after ∧ IsName name ∧ ¬Continues after.toList

/-- A value refers to a name when one of the texts in it does. Keys of dictionaries are not looked at. -/
inductive Mentions (name : String) : Value → Prop where
  | text {s : String} (here : Refers s name) : Mentions name (.text s)
  | item {items : List Value} {v : Value} (there : v ∈ items) (within : Mentions name v) :
      Mentions name (.list items)
  | entry {entries : Dict} {p : Key × Value} (there : p ∈ entries) (within : Mentions name p.2) :
      Mentions name (.dict entries)

/-- Values that differ in their texts alone: their lists have the same lengths, and their dictionaries the
same keys in the same order. -/
inductive SameShape : Value → Value → Prop where
  | null : SameShape .null .null
  | bool (b : Bool) : SameShape (.bool b) (.bool b)
  | int (n : Int) : SameShape (.int n) (.int n)
  | float (x : Float) : SameShape (.float x) (.float x)
  | text (s t : String) : SameShape (.text s) (.text t)
  | list {items others : List Value} (each : List.Forall₂ SameShape items others) :
      SameShape (.list items) (.list others)
  | dict {d e : Dict} (keys : d.map Prod.fst = e.map Prod.fst)
      (each : List.Forall₂ SameShape (d.map Prod.snd) (e.map Prod.snd)) : SameShape (.dict d) (.dict e)

/-- What stands for a name once variables are inserted. -/
def inserted (vars : Dict) (name : String) : String :=
  match Dict.get? vars name with
  | some v => v.templateText
  | none => "$" ++ name

/-- The references among the pieces of a text are what it refers to. -/
theorem reference_mem_pieces {s name : String} : .reference name.toList ∈ pieces s.toList ↔ Refers s name := by
  constructor
  · intro there
    have there : .reference name.toList ∈ (scan s.toList).2 := by
      unfold pieces at there
      rcases List.mem_append.1 there with plain | there
      · obtain ⟨c, -, same⟩ := List.mem_map.1 plain
        cases same
      · exact there
    obtain ⟨before, after, same, some, long, ends⟩ := exists_of_reference_mem there
    refine ⟨String.ofList before, String.ofList after, ?_, ⟨by simpa using some, long⟩, by simpa using ends⟩
    apply String.toList_injective
    simp [same]
  · rintro ⟨before, after, rfl, ⟨filled, long⟩, ends⟩
    have same : (before ++ "$" ++ name ++ after).toList = before.toList ++ '$' :: (name.toList ++ after.toList) := by simp
    rw [same, pieces_append not_continues_dollar, pieces_reference (by simpa using filled) long ends]
    simp

section Texts

variable {vars vars' : Dict} {s name : String}

/-- Texts are expanded apart where the second one does not continue a name at the end of the first one. -/
theorem expandText_append (vars : Dict) (a : String) {b : String} (ends : ¬Continues b.toList) :
    expandText vars (a ++ b) = expandText vars a ++ expandText vars b := by
  unfold expandText
  rw [String.toList_append, pieces_append ends, List.flatMap_append, String.ofList_append]

/-- A reference is expanded as a whole. -/
theorem expandText_reference (vars : Dict) (named : IsName name) {after : String} (ends : ¬Continues after.toList) :
    expandText vars ("$" ++ name ++ after) = inserted vars name ++ expandText vars after := by
  have cut : pieces ("$" ++ name ++ after).toList = .reference name.toList :: pieces after.toList := by
    have same : ("$" ++ name ++ after).toList = '$' :: (name.toList ++ after.toList) := by simp
    rw [same]
    exact pieces_reference (by simpa using named.filled) named.long ends
  unfold expandText
  rw [cut, List.flatMap_cons, String.ofList_append]
  congr 1
  simp only [Piece.expand, inserted, String.ofList_toList]
  cases Dict.get? vars name with
  | some v => exact String.ofList_toList
  | none =>
    apply String.toList_injective
    simp

/-- What becomes of a text hangs on the variables that it refers to. -/
theorem expandText_congr (agree : ∀ name, Refers s name → Dict.get? vars name = Dict.get? vars' name) :
    expandText vars s = expandText vars' s := by
  unfold expandText
  congr 1
  apply List.flatMap_congr
  intro piece there
  cases piece with
  | plain c => rfl
  | reference name =>
    have refers : Refers s (String.ofList name) := reference_mem_pieces.1 (by rwa [String.toList_ofList])
    simp only [Piece.expand, agree _ refers]

end Texts

section Values

variable {vars vars' : Dict}

theorem expandItems_eq_map (vars : Dict) (items : List Value) : expandItems vars items = items.map (expand vars) := by
  induction items with
  | nil => rfl
  | cons v rest ih => rw [expandItems, ih, List.map_cons]

theorem expandEntries_eq_map (vars : Dict) (entries : Dict) :
    expandEntries vars entries = entries.map fun p => (p.1, expand vars p.2) := by
  induction entries with
  | nil => rfl
  | cons p rest ih => rw [expandEntries, ih, List.map_cons]

theorem sameShape_expand (vars : Dict) (v : Value) : SameShape v (expand vars v) := by
  induction v using Value.induction with
  | null => exact .null
  | bool b => exact .bool b
  | int n => exact .int n
  | float x => exact .float x
  | text s => exact .text s _
  | list items ih =>
    rw [expand, expandItems_eq_map]
    exact .list (List.forall₂_map_right_iff.2 (List.forall₂_same.2 ih))
  | dict d ih =>
    rw [expand, expandEntries_eq_map]
    refine .dict (by simp) ?_
    rw [List.map_map, List.forall₂_map_left_iff, List.forall₂_map_right_iff, List.forall₂_same]
    exact ih

/-- What becomes of a value hangs on the variables that it refers to. -/
theorem expand_congr {v : Value} (agree : ∀ name, Mentions name v → Dict.get? vars name = Dict.get? vars' name) :
    expand vars v = expand vars' v := by
  induction v using Value.induction with
  | text s => exact congrArg Value.text (expandText_congr fun name refers => agree name (.text refers))
  | list items ih =>
    rw [expand, expand, expandItems_eq_map, expandItems_eq_map]
    apply congrArg Value.list
    exact List.map_congr_left fun v there => ih v there fun name within => agree name (.item there within)
  | dict d ih =>
    rw [expand, expand, expandEntries_eq_map, expandEntries_eq_map]
    apply congrArg Value.dict
    apply List.map_congr_left
    intro p there
    rw [ih p there fun name within => agree name (.entry there within)]
  | _ => rfl

/-- Without variables every value stays as it is. -/
theorem expand_nil (v : Value) : expand [] v = v := by
  induction v using Value.induction with
  | text s => exact congrArg Value.text (expandText_nil s)
  | list items ih =>
    rw [expand, expandItems_eq_map]
    exact congrArg Value.list ((List.map_congr_left ih).trans (List.map_id _))
  | dict d ih =>
    rw [expand, expandEntries_eq_map]
    apply congrArg Value.dict
    calc
      d.map (fun p => (p.1, expand [] p.2)) = d.map id := List.map_congr_left fun p there => by rw [ih p there]; rfl
      _ = d := List.map_id d
  | _ => rfl

/-- The laws of substitution. A value keeps its shape; what becomes of it hangs on the variables that it refers
to, and it stays as it is when there are none of them; texts are expanded apart where no name goes on from the
one to the other. So each reference is replaced as a whole by the text of its own variable, which is not
expanded again, or stays. -/
theorem expand_lawful (vars vars' : Dict) (v : Value) :
    SameShape v (expand vars v) ∧
    ((∀ name, Mentions name v → Dict.get? vars name = Dict.get? vars' name) → expand vars v = expand vars' v) ∧
    ((∀ name, Mentions name v → Dict.get? vars name = none) → expand vars v = v) ∧
    (∀ a b : String, ¬Continues b.toList → expand vars (.text (a ++ b)) = .text (expandText vars a ++ expandText vars b)) ∧
    ∀ before name after : String, IsName name → ¬Continues after.toList →
      expand vars (.text (before ++ "$" ++ name ++ after)) =
        .text (expandText vars before ++ inserted vars name ++ expandText vars after) := by
  refine ⟨sameShape_expand vars v, expand_congr, fun unbound => ?_, fun a b ends => ?_,
    fun before name after named ends => ?_⟩
  · have same : expand vars v = expand [] v := expand_congr fun name within => (unbound name within).trans rfl
    exact same.trans (expand_nil v)
  · exact congrArg Value.text (expandText_append vars a ends)
  · have dollar : ¬Continues ("$" ++ name ++ after).toList := by
      rw [show ("$" ++ name ++ after).toList = '$' :: (name.toList ++ after.toList) by simp]
      exact not_continues_dollar
    apply congrArg Value.text
    calc
      expandText vars (before ++ "$" ++ name ++ after) = expandText vars (before ++ ("$" ++ name ++ after)) := by
        rw [String.append_assoc, String.append_assoc, String.append_assoc]
      _ = expandText vars before ++ (inserted vars name ++ expandText vars after) := by
        rw [expandText_append vars before dollar, expandText_reference vars named ends]
      _ = expandText vars before ++ inserted vars name ++ expandText vars after := (String.append_assoc ..).symm

/-- A variable that holds what reads like a reference, and one whose name begins other names. -/
def misleading : Dict := [(.text "name", .text "$x"), (.text "x", .int 1)]

theorem expand_lawful_misleading :
    expand misleading (.list [.text "$names $ $y"]) = .list [.text "$names $ $y"] ∧
    expand misleading (.text "To $name-$x") = .text "To $x-1" := by
  obtain ⟨-, -, unbound, -, whole⟩ := expand_lawful misleading [] (.list [.text "$names $ $y"])
  refine ⟨unbound fun name within => ?_, ?_⟩
  · cases within with
    | item there within =>
      rw [List.mem_singleton.1 there] at within
      cases within with
      | text refers =>
        have cut : pieces "$names $ $y".toList = [.reference "names".toList, .plain ' ', .plain '$', .plain ' ',
          .reference "y".toList] := by decide
        have found := reference_mem_pieces.2 refers
        simp only [cut, List.mem_cons, Piece.reference.injEq, reduceCtorEq, false_or, List.not_mem_nil, or_false,
          String.toList_inj] at found
        rcases found with rfl | rfl <;> decide
  · have named : IsName "name" := ⟨by decide, List.all_eq_true.1 (by decide)⟩
    have ends : ¬Continues "-$x".toList := not_continues_cons.2 (by decide)
    exact (whole "To " "name" "-$x" named ends).trans (congrArg Value.text (by decide +kernel))

end Values

end Template

/-! Declared names. -/

namespace Declaration

open Template

theorem isName_ofList {cs : List Char} (rule : (!cs.isEmpty && cs.all isNameChar) = true) :
    IsName (String.ofList cs) := by
  obtain ⟨filled, long⟩ := Bool.and_eq_true_iff.1 rule
  exact ⟨by simpa using filled, by simpa using long⟩

/-- What is accepted as a name can be referred to, but for a line break at its end. -/
theorem name_of_nameRule {s name : String} (accepted : nameRule s = .accepted name) :
    name = s ∧ (IsName s ∨ ∃ body, s = body ++ "\n" ∧ IsName body) := by
  unfold nameRule at accepted
  dsimp only at accepted
  generalize front : (if s.toList.getLast? = some '\n' then s.toList.dropLast else s.toList) = cs at accepted
  split at accepted
  · rename_i rule
    injection accepted with same
    have named := isName_ofList rule
    refine ⟨same.symm, ?_⟩
    split at front
    · rename_i last
      refine .inr ⟨String.ofList cs, ?_, named⟩
      apply String.toList_injective
      rw [← front]
      simpa using (List.dropLast_append_getLast? '\n' last).symm
    · rw [← front, String.ofList_toList] at named
      exact .inl named
  · cases accepted

theorem name_of_read {v : Value} {d : Declaration} (accepted : read v = .accepted d) :
    IsName d.name ∨ ∃ body, d.name = body ++ "\n" ∧ IsName body := by
  obtain ⟨u, -, fields⟩ := read_eq_accepted accepted
  obtain ⟨_, -, checked⟩ := Read.required_eq_accepted.1 fields.name
  obtain ⟨s, -, ruled⟩ := Reading.check_eq_accepted.1 checked
  obtain ⟨same, rule⟩ := name_of_nameRule ruled
  exact same ▸ rule

/-- A variable that the payload lacks is referred to by its declared name, and its default is inserted. If the
name ends in a line break, the reference is to the name without it. -/
theorem expandText_name {v : Value} {d : Declaration} (accepted : read v = .accepted d)
    (given : d.default.isNull = false) {payload : Dict} (lacks : Dict.get? payload d.name = none) :
    IsName d.name ∧ expandText (initialVariables payload [d]) ("$" ++ d.name) = d.default.templateText ∨
    ∃ name, d.name = name ++ "\n" ∧ IsName name ∧
      expandText (initialVariables payload [d]) ("$" ++ d.name) = inserted payload name ++ "\n" := by
  have held (name : String) : Dict.get? (initialVariables payload [d]) name =
      (Dict.get? payload name).or (firstDefault [d] name) := get?_initialVariables payload [d] name
  rcases name_of_read accepted with named | ⟨name, same, named⟩
  · refine .inl ⟨named, ?_⟩
    have ends : ¬Continues "".toList := not_continues_nil
    have whole := expandText_reference (initialVariables payload [d]) named ends
    have own : Dict.get? (initialVariables payload [d]) d.name = some d.default := by
      rw [held, lacks]
      simp [firstDefault, given]
    rw [inserted, own] at whole
    simpa [expandText, pieces, scan] using whole
  · refine .inr ⟨name, same, named, ?_⟩
    have other : d.name ≠ name := by
      rw [same]
      intro long
      simpa using congrArg String.length long
    have ends : ¬Continues "\n".toList := not_continues_cons.2 (by decide)
    have whole := expandText_reference (initialVariables payload [d]) named ends
    have others : Dict.get? (initialVariables payload [d]) name = Dict.get? payload name := by
      rw [held]
      simp [firstDefault, other]
    rw [inserted, others, show expandText (initialVariables payload [d]) "\n" = "\n" from rfl] at whole
    rw [same, ← String.append_assoc]
    exact whole

/-- The line break is not part of the reference. -/
example : expandText (initialVariables [] [⟨"x\n", none, .int 1, none⟩]) "$x\n" = "$x\n" := by decide +kernel

end Declaration

end Runbook
