import Runbook.Condition
import Runbook.Proofs.Json
import Runbook.Proofs.Rounding

/-!
Comparisons fit together. Of values that JSON can express, equality is symmetric, the two orders are converse
to one another, and no two of the three hold at once.
-/
namespace Runbook

theorem Number.same_comm (a b : Number) : a.same b = b.same a := by
  cases a <;> cases b <;> simp only [Number.same]
  · exact Bool.eq_iff_iff.2 (by rw [beq_iff_eq, beq_iff_eq, eq_comm])
  · exact BEq.comm

namespace Dict

variable {d e : Dict} {k : Key} {v : Value}

/-- Under distinct names every entry is found. -/
theorem find?_of_mem (named : Named d) (distinct : Distinct d) (there : (k, v) ∈ d) : find? d k = some v := by
  induction d with
  | nil => cases there
  | cons q rest ih =>
    obtain ⟨k', w⟩ := q
    obtain ⟨first, others⟩ := List.pairwise_cons.1 distinct
    rw [find?]
    rcases List.mem_cons.1 there with same | later
    · cases same
      obtain ⟨s, rfl⟩ := named _ (.head _)
      rw [if_pos (by simp [Key.same])]
    · have apart : k'.same k = false := first k (List.mem_map_of_mem later)
      rw [if_neg (by simp [apart])]
      exact ih (fun p there => named p (.tail _ there)) others later

theorem mem_of_find?_text {s : String} (found : find? d (.text s) = some v) : (.text s, v) ∈ d := by
  induction d with
  | nil => cases found
  | cons q rest ih =>
    obtain ⟨k', w⟩ := q
    rw [find?] at found
    split at found
    · rename_i same
      cases found
      rw [Key.same_text.1 same]
      exact .head _
    · exact .tail _ (ih found)

theorem nodup_keys (distinct : Distinct d) (named : Named d) : (d.map Prod.fst).Nodup := by
  refine (List.Pairwise.imp_of_mem ?_ distinct)
  intro a b first _ apart same
  subst same
  obtain ⟨p, there, rfl⟩ := List.mem_map.1 first
  obtain ⟨s, key⟩ := named p there
  simp [key, Key.same] at apart

end Dict

theorem forall₂_flip_of_mem {α β : Type} {R : α → β → Prop} {S : β → α → Prop} {xs : List α} {ys : List β}
    (each : List.Forall₂ R xs ys) (turn : ∀ x ∈ xs, ∀ y ∈ ys, R x y → S y x) : List.Forall₂ S ys xs := by
  induction each with
  | nil => exact .nil
  | cons first _ ih =>
    refine .cons (turn _ (.head _) _ (.head _) first) (ih fun x there y there' => ?_)
    exact turn x (.tail _ there) y (.tail _ there')

namespace Value

variable {v w : Value}

theorem sameItems_iff {xs ys : List Value} :
    sameItems xs ys = true ↔ List.Forall₂ (fun x y => same x y = true) xs ys := by
  induction xs generalizing ys with
  | nil => cases ys <;> simp [sameItems]
  | cons x xs ih => cases ys <;> simp [sameItems, ih]

theorem sameEntries_iff {d e : Dict} :
    sameEntries d e = true ↔ ∀ p ∈ d, ∃ w, Dict.find? e p.1 = some w ∧ same p.2 w = true := by
  induction d with
  | nil => simp [sameEntries]
  | cons p rest ih =>
    obtain ⟨k, v⟩ := p
    rw [sameEntries, Bool.and_eq_true, ih, List.forall_mem_cons]
    apply and_congr_left'
    cases Dict.find? e k <;> simp

theorem same_of_number? {a : Number} (number : v.number? = some a) (w : Value) : v.same w = sameNumber a w := by
  cases v <;> cases number <;> cases w <;> rfl

theorem same_of_number?_none (none : v.number? = none) {b : Number} (number : w.number? = some b) :
    v.same w = false := by
  cases w <;> cases number <;> cases v <;> first | rfl | cases none

/-- Numbers equal other values as their own numbers do. -/
theorem same_comm_of_number? {a : Number} (number : v.number? = some a) (w : Value) : v.same w = w.same v := by
  cases other : w.number? with
  | none => rw [same_of_number? number, sameNumber, other, same_of_number?_none other number]
  | some b =>
    rw [same_of_number? number, same_of_number? other, sameNumber, sameNumber, other, number]
    exact Number.same_comm a b

/-- Of values that JSON can express, equality is symmetric. Two dictionaries have each entry of the one in the
other, and as many entries. -/
theorem IsJson.same_symm (json : v.IsJson) (json' : w.IsJson) (same : v.same w = true) : w.same v = true := by
  induction json generalizing w with
  | null =>
    cases w with
    | null => exact same
    | _ => cases same
  | bool b => rwa [same_comm_of_number? rfl] at same
  | int n => rwa [same_comm_of_number? rfl] at same
  | float x => rwa [same_comm_of_number? rfl] at same
  | text s =>
    cases w with
    | text t =>
      rw [Value.same, beq_iff_eq] at same
      rw [same, Value.same, beq_self_eq_true]
    | _ => cases same
  | @list items each ih =>
    cases w with
    | list others =>
      rw [Value.same, sameItems_iff] at same ⊢
      exact forall₂_flip_of_mem same fun v there w there' => ih v there (isJson_list.1 json' w there')
    | _ => cases same
  | @dict d named distinct each ih =>
    cases w with
    | dict e =>
      obtain ⟨named', proper'⟩ := isJson_dict.1 json'
      rw [Value.same, Bool.and_eq_true, beq_iff_eq, sameEntries_iff] at same ⊢
      obtain ⟨length, entries⟩ := same
      refine ⟨length.symm, fun p there => ?_⟩
      -- The keys of the one are among the keys of the other and as many, so they are the same keys.
      have sub : d.map Prod.fst ⊆ e.map Prod.fst := by
        intro k listed
        obtain ⟨q, here, rfl⟩ := List.mem_map.1 listed
        obtain ⟨w, found, -⟩ := entries q here
        obtain ⟨s, key⟩ := named q here
        rw [key] at found ⊢
        exact List.mem_map_of_mem (Dict.mem_of_find?_text found)
      have keys : (d.map Prod.fst).Perm (e.map Prod.fst) := by
        apply (List.subperm_of_subset (Dict.nodup_keys distinct named) sub).perm_of_length_le
        simp [length]
      obtain ⟨q, here, key⟩ := List.mem_map.1 (keys.mem_iff.2 (List.mem_map_of_mem there))
      obtain ⟨w, found, same⟩ := entries q here
      have own : w = p.2 := by
        rw [key, Dict.find?_of_mem named' proper'.distinct there] at found
        exact (Option.some.inj found).symm
      refine ⟨q.2, key ▸ Dict.find?_of_mem named distinct here, ?_⟩
      exact ih q here (proper'.each p there) (own ▸ same)
    | _ => cases same

theorem IsJson.same_comm (json : v.IsJson) (json' : w.IsJson) : v.same w = w.same v :=
  Bool.eq_iff_iff.2 ⟨json.same_symm json', json'.same_symm json⟩

end Value

namespace Comparison

variable {l r : Value}

/-- A value can be compared as a number, or is none; it is no whole number beyond all floating-point ones. -/
def Converts (v : Value) : Prop := ∃ x, toNumber? v = .ok x

theorem eq_tooLarge {v : Value} {f : Failure} (failed : toNumber? v = .error f) : f = tooLarge := by
  unfold toNumber? at failed
  split at failed
  · cases failed
  · split at failed
    · cases failed
    · injection failed with same
      exact same.symm
  · cases failed
  · dsimp only at failed
    split at failed
    · cases failed
    · split at failed <;> cases failed
  · cases failed

/-- Which of the two is converted first makes no difference. -/
theorem numbers_swap (compare : Float → Float → Bool) (l r : Value) :
    numbers compare l r = numbers (fun x y => compare y x) r l := by
  unfold numbers
  cases left : toNumber? l with
  | error f =>
    cases right : toNumber? r with
    | error g =>
      rw [eq_tooLarge left, eq_tooLarge right]
      rfl
    | ok y => rfl
  | ok x =>
    cases right : toNumber? r with
    | error g => rfl
    | ok y => cases x <;> cases y <;> rfl

theorem numbers_of_toNumber? {compare : Float → Float → Bool} {x y : Float} (left : toNumber? l = .ok (some x))
    (right : toNumber? r = .ok (some y)) : numbers compare l r = .ok (compare x y) := by
  unfold numbers
  rw [left, right]
  rfl

theorem numbers_eq_true {compare : Float → Float → Bool} :
    numbers compare l r = .ok true ↔
      ∃ x y, toNumber? l = .ok (some x) ∧ toNumber? r = .ok (some y) ∧ compare x y = true := by
  constructor
  · intro holds
    unfold numbers at holds
    obtain ⟨x?, left, holds⟩ := bind_eq_ok holds
    obtain ⟨y?, right, holds⟩ := bind_eq_ok holds
    split at holds
    · exact ⟨_, _, left, right, Except.ok.inj holds⟩
    · cases holds
  · rintro ⟨x, y, left, right, same⟩
    rw [numbers_of_toNumber? left right, same]

theorem exists_numbers {compare : Float → Float → Bool} (converts : Converts l) (converts' : Converts r) :
    ∃ b, numbers compare l r = .ok b := by
  obtain ⟨x?, left⟩ := converts
  obtain ⟨y?, right⟩ := converts'
  unfold numbers
  rw [left, right]
  cases x? <;> cases y? <;> exact ⟨_, rfl⟩

/-- Neither of two values is null, and not both are texts. -/
structure Mixed (l r : Value) : Prop where
  filled : l.isNull = false
  filled' : r.isNull = false
  other : ∀ a b, ¬(l = .text a ∧ r = .text b)

theorem Mixed.symm (mixed : Mixed l r) : Mixed r l :=
  ⟨mixed.filled', mixed.filled, fun a b both => mixed.other b a both.symm⟩

/-- The pairs of values that comparisons tell apart. -/
theorem null_or_texts_or_mixed (l r : Value) :
    l = .null ∨ r = .null ∨ (∃ a b, l = .text a ∧ r = .text b) ∨ Mixed l r := by
  by_cases texts : ∃ a b, l = .text a ∧ r = .text b
  · exact .inr (.inr (.inl texts))
  · cases none : l.isNull with
    | true => cases l <;> cases none; exact .inl rfl
    | false =>
      cases none' : r.isNull with
      | true => cases r <;> cases none'; exact .inr (.inl rfl)
      | false => exact .inr (.inr (.inr ⟨none, none', fun a b both => texts ⟨a, b, both⟩⟩))

theorem looseEquals_null (v : Value) : looseEquals v .null = .ok v.isNull := by
  cases v <;> rfl

theorem lessThan_null (v : Value) : lessThan v .null = .ok false := by
  cases v <;> rfl

theorem Mixed.looseEquals (mixed : Mixed l r) :
    looseEquals l r =
      if isNumeric l || isNumeric r then
        if isContainer l || isContainer r then .ok false else numbers (· == ·) l r
      else .ok (l.same r) := by
  unfold Comparison.looseEquals
  split
  · cases mixed.filled
  · cases mixed.filled'
  · exact absurd ⟨rfl, rfl⟩ (mixed.other _ _)
  · rfl

theorem Mixed.ordered {text : String → String → Bool} {number : Float → Float → Bool} (mixed : Mixed l r) :
    ordered text number l r = numbers number l r := by
  unfold Comparison.ordered
  split
  · cases mixed.filled
  · cases mixed.filled'
  · exact absurd ⟨rfl, rfl⟩ (mixed.other _ _)
  · rfl

theorem Mixed.lessThan (mixed : Mixed l r) : lessThan l r = numbers (fun x y => decide (x < y)) l r := mixed.ordered

theorem looseEquals_comm (json : l.IsJson) (json' : r.IsJson) : looseEquals l r = looseEquals r l := by
  rcases null_or_texts_or_mixed l r with rfl | rfl | ⟨a, b, rfl, rfl⟩ | mixed
  · rw [looseEquals_null, looseEquals]
  · rw [looseEquals_null, looseEquals]
  · exact congrArg Except.ok (Bool.beq_comm)
  · rw [mixed.looseEquals, mixed.symm.looseEquals, json.same_comm json', Bool.or_comm (isNumeric l),
      Bool.or_comm (isContainer l), numbers_swap]
    simp only [@BEq.comm Float]

/-- The two orders are converse to one another. -/
theorem greaterThan_eq (l r : Value) : greaterThan l r = lessThan r l := by
  rcases null_or_texts_or_mixed l r with rfl | rfl | ⟨a, b, rfl, rfl⟩ | mixed
  · rw [lessThan_null]
    rfl
  · cases l <;> rfl
  · rfl
  · rw [mixed.symm.lessThan, numbers_swap]
    exact mixed.ordered

theorem lessThan_of_looseEquals (equal : looseEquals l r = .ok true) : lessThan l r = .ok false := by
  rcases null_or_texts_or_mixed l r with rfl | rfl | ⟨a, b, rfl, rfl⟩ | mixed
  · rfl
  · exact lessThan_null l
  · have same : a = b := by simpa [looseEquals] using equal
    simp [same, lessThan, ordered]
  · rw [mixed.looseEquals] at equal
    rw [mixed.lessThan]
    split at equal
    · split at equal
      · cases equal
      · obtain ⟨x, y, left, right, same⟩ := numbers_eq_true.1 equal
        rw [numbers_of_toNumber? left right, decide_eq_false (Decimal.not_lt_of_beq same)]
    · -- Without a number on either side equal values are both lists or both dictionaries.
      rename_i numberless
      have same : l.same r = true := Except.ok.inj equal
      cases l with
      | null => cases mixed.filled
      | bool b | int n | float x => exact absurd rfl numberless
      | text s =>
        cases r with
        | text t => exact absurd ⟨rfl, rfl⟩ (mixed.other s t)
        | _ => cases same
      | list items =>
        cases r with
        | list others => rfl
        | _ => cases same
      | dict d =>
        cases r with
        | dict e => rfl
        | _ => cases same

theorem lessThan_asymm (below : lessThan l r = .ok true) : lessThan r l ≠ .ok true := by
  intro above
  rcases null_or_texts_or_mixed l r with rfl | rfl | ⟨a, b, rfl, rfl⟩ | mixed
  · cases below
  · cases above
  · have below : a < b := by simpa [lessThan, ordered] using below
    have above : b < a := by simpa [lessThan, ordered] using above
    exact String.lt_asymm below above
  · rw [mixed.lessThan] at below
    rw [mixed.symm.lessThan] at above
    obtain ⟨x, y, left, right, before⟩ := numbers_eq_true.1 below
    obtain ⟨y', x', right', left', behind⟩ := numbers_eq_true.1 above
    obtain rfl := Option.some.inj (Except.ok.inj (left.symm.trans left'))
    obtain rfl := Option.some.inj (Except.ok.inj (right.symm.trans right'))
    exact Decimal.not_lt_of_lt (of_decide_eq_true before) (of_decide_eq_true behind)

theorem exists_looseEquals (converts : Converts l) (converts' : Converts r) : ∃ b, looseEquals l r = .ok b := by
  rcases null_or_texts_or_mixed l r with rfl | rfl | ⟨a, b, rfl, rfl⟩ | mixed
  · exact ⟨_, rfl⟩
  · exact ⟨_, looseEquals_null l⟩
  · exact ⟨_, rfl⟩
  · rw [mixed.looseEquals]
    split
    · split
      · exact ⟨_, rfl⟩
      · exact exists_numbers converts converts'
    · exact ⟨_, rfl⟩

theorem exists_lessThan (converts : Converts l) (converts' : Converts r) : ∃ b, lessThan l r = .ok b := by
  rcases null_or_texts_or_mixed l r with rfl | rfl | ⟨a, b, rfl, rfl⟩ | mixed
  · exact ⟨_, rfl⟩
  · exact ⟨_, lessThan_null l⟩
  · exact ⟨_, rfl⟩
  · rw [mixed.lessThan]
    exact exists_numbers converts converts'

/-- Comparisons fit together. Two values that JSON can express, and that can be compared as numbers if they are
numbers, are equal or not, whichever of them comes first; the one is greater than the other just when the
other is less than it; what is said to be not equal is what is not equal; and at most one of the three holds. -/
theorem coherent (json : l.IsJson) (json' : r.IsJson) (converts : Converts l) (converts' : Converts r) :
    ∃ equal greater less : Bool,
      Operator.equals.apply l r = .ok equal ∧ Operator.equals.apply r l = .ok equal ∧
      Operator.greaterThan.apply l r = .ok greater ∧ Operator.lessThan.apply r l = .ok greater ∧
      Operator.lessThan.apply l r = .ok less ∧ Operator.greaterThan.apply r l = .ok less ∧
      Operator.notEquals.apply l r = .ok (!equal) ∧ [equal, greater, less].count true ≤ 1 := by
  obtain ⟨equal, equals⟩ := exists_looseEquals converts converts'
  obtain ⟨less, below⟩ := exists_lessThan converts converts'
  obtain ⟨greater, above⟩ := exists_lessThan converts' converts
  have equals' : looseEquals r l = .ok equal := (looseEquals_comm json' json).trans equals
  refine ⟨equal, greater, less, equals, equals', (greaterThan_eq l r).trans above, above, below,
    (greaterThan_eq r l).trans below, ?_, ?_⟩
  · change (! ·) <$> looseEquals l r = _
    rw [equals]
    rfl
  · have level : equal = true → less = false ∧ greater = false := by
      rintro rfl
      exact ⟨Except.ok.inj (below.symm.trans (lessThan_of_looseEquals equals)),
        Except.ok.inj (above.symm.trans (lessThan_of_looseEquals equals'))⟩
    have apart : less = true → greater = false := by
      rintro rfl
      cases greater with
      | true => exact absurd above (lessThan_asymm below)
      | false => rfl
    revert level apart
    cases equal <;> cases greater <;> cases less <;> simp

/-- Dictionaries with the same entries in another order, of which only one has a truth value for a number. -/
theorem coherent_reordered :
    let l := Value.record [("open", .int 1), ("tags", .list [.null])]
    let r := Value.record [("tags", .list [.null]), ("open", .bool true)]
    Operator.equals.apply l r = .ok true ∧ Operator.equals.apply r l = .ok true ∧
      Operator.notEquals.apply l r = .ok false ∧ Operator.lessThan.apply l r = .ok false := by
  intro l r
  have json : l.IsJson := Value.isJson_record (by decide) (by simp [Value.isJson_list, Value.IsJson.int, Value.IsJson.null])
  have json' : r.IsJson := Value.isJson_record (by decide) (by simp [Value.isJson_list, Value.IsJson.bool, Value.IsJson.null])
  obtain ⟨equal, greater, less, equals, equals', -, -, below, -, unequal, most⟩ :=
    coherent json json' ⟨none, rfl⟩ ⟨none, rfl⟩
  have same : equal = true := Except.ok.inj (equals.symm.trans rfl)
  subst same
  have none : less = false := by
    cases less with
    | false => rfl
    | true => cases greater <;> exact absurd most (by decide)
  exact ⟨equals, equals', unequal, none ▸ below⟩

/-! Integers. -/

theorem numbers_int {test : Float → Float → Bool} {judge : Ordering → Bool}
    (agree : ∀ {x y : Float} {o : Ordering}, Decimal.order x y = some o → test x y = judge o) (a b : Int) :
    numbers test (.int a) (.int b) =
      if a.natAbs < Decimal.limit ∧ b.natAbs < Decimal.limit then
        .ok (judge (compare (Decimal.rounded a) (Decimal.rounded b)))
      else .error tooLarge := by
  have outside {n : Int} (beyond : ¬n.natAbs < Decimal.limit) : toNumber? (.int n) = .error tooLarge := by
    rw [toNumber?, Decimal.ofWhole?_of_limit_le (Nat.not_lt.1 beyond)]
  have inside {n : Int} (inside : n.natAbs < Decimal.limit) :
      ∃ x : Float, toNumber? (.int n) = .ok (some x) ∧ Decimal.IsWhole x.toModel.unpack (Decimal.rounded n) := by
    obtain ⟨x, converted, whole⟩ := Decimal.exists_ofWhole? inside
    exact ⟨x, by rw [toNumber?, converted], whole⟩
  by_cases left : a.natAbs < Decimal.limit
  · obtain ⟨x, first, whole⟩ := inside left
    by_cases right : b.natAbs < Decimal.limit
    · obtain ⟨y, second, whole'⟩ := inside right
      rw [if_pos ⟨left, right⟩, numbers_of_toNumber? first second, agree (whole.compare_eq whole')]
    · rw [if_neg fun both => right both.2, numbers, first, outside right]
      rfl
  · rw [if_neg fun both => left both.1, numbers, outside left]
    rfl

/-- What an operator makes of how two numbers stand to one another. -/
def Operator.judge? : Operator → Option (Ordering → Bool)
  | .equals => some (· == .eq)
  | .notEquals => some (· != .eq)
  | .greaterThan => some (· == .gt)
  | .lessThan => some (· == .lt)
  | _ => none

theorem apply_int {op : Operator} {judge : Ordering → Bool} (known : op.judge? = some judge) (a b : Int) :
    op.apply (.int a) (.int b) =
      if a.natAbs < Decimal.limit ∧ b.natAbs < Decimal.limit then
        .ok (judge (compare (Decimal.rounded a) (Decimal.rounded b)))
      else .error tooLarge := by
  have same {x y : Float} {o : Ordering} (stand : Decimal.order x y = some o) : (x == y) = (o == .eq) := by
    rw [Bool.eq_iff_iff, Decimal.beq_iff_order, stand, Option.some.injEq, beq_iff_eq]
  have below {x y : Float} {o : Ordering} (stand : Decimal.order x y = some o) : decide (x < y) = (o == .lt) := by
    rw [Bool.eq_iff_iff, decide_eq_true_iff, Decimal.lt_iff_order, stand, Option.some.injEq, beq_iff_eq]
  have above {x y : Float} {o : Ordering} (stand : Decimal.order x y = some o) : decide (y < x) = (o == .gt) := by
    rw [below (Decimal.order_swap x y ▸ congrArg (Option.map Ordering.swap) stand)]
    cases o <;> rfl
  cases op with
  | equals =>
    cases known
    exact numbers_int same a b
  | notEquals =>
    cases known
    change (! ·) <$> numbers (· == ·) (.int a) (.int b) = _
    rw [numbers_int same]
    split <;> rfl
  | greaterThan =>
    cases known
    exact numbers_int above a b
  | lessThan =>
    cases known
    exact numbers_int below a b
  | _ => cases known

end Comparison

namespace Condition

open Comparison

variable {c : Condition} {vars : Dict} {a b : Int} {judge : Ordering → Bool}

/-- Integers are compared as the numbers of 53 bits that they are rounded to, and not at all if one of them is
beyond the range. -/
theorem evaluate_int (known : (Operator.ofName? c.operator).bind Operator.judge? = some judge)
    (left : Template.resolve vars (.text c.field) = .int a) (right : Template.resolve vars c.value = .int b) :
    c.evaluate vars =
      if a.natAbs < Decimal.limit ∧ b.natAbs < Decimal.limit then
        .ok (judge (compare (Decimal.rounded a) (Decimal.rounded b)))
      else .error tooLarge := by
  obtain ⟨op, named, judged⟩ := Option.bind_eq_some_iff.1 known
  rw [evaluate, named, left, right]
  exact apply_int judged a b

/-- The answer is right unless different integers are rounded to one number. -/
theorem evaluate_int_exact (known : (Operator.ofName? c.operator).bind Operator.judge? = some judge)
    (left : Template.resolve vars (.text c.field) = .int a) (right : Template.resolve vars c.value = .int b)
    (inside : a.natAbs < Decimal.limit) (inside' : b.natAbs < Decimal.limit)
    (apart : Decimal.rounded a = Decimal.rounded b → a = b) : c.evaluate vars = .ok (judge (compare a b)) := by
  rw [evaluate_int known left right, if_pos ⟨inside, inside'⟩, Decimal.compare_rounded apart]

/-- Integers of up to 53 bits are compared exactly. -/
theorem evaluate_int_of_le (known : (Operator.ofName? c.operator).bind Operator.judge? = some judge)
    (left : Template.resolve vars (.text c.field) = .int a) (right : Template.resolve vars c.value = .int b)
    (small : a.natAbs ≤ 2 ^ 53) (small' : b.natAbs ≤ 2 ^ 53) : c.evaluate vars = .ok (judge (compare a b)) := by
  have wide : 2 ^ 53 < Decimal.limit := by decide +kernel
  refine evaluate_int_exact known left right (Nat.lt_of_le_of_lt small wide) (Nat.lt_of_le_of_lt small' wide) ?_
  rw [Decimal.rounded_of_le small, Decimal.rounded_of_le small']
  exact id

end Condition

end Runbook
