import Mathlib.Data.List.Basic
import Mathlib.Data.Prod.Lex
import Mathlib.Order.Compare
import Runbook.Clock

/-!
The order in which timers fire. Points in time that are no numbers aside, they stand in one line; so
what is due by some time is taken off the clock in an order that hangs only on what is due at each
point in time, and on the order in which that was set.
-/
namespace Runbook

/-! Lists in order. -/

section Order

variable {α K : Type} [LinearOrder K] {rank : α → K} {le : α → α → Bool}

/-- The items that stand at one place of the order. -/
def standing (rank : α → K) (k : K) (items : List α) : List α := items.filter fun a => rank a = k

theorem mem_standing {k : K} {items : List α} {a : α} :
    a ∈ standing rank k items ↔ a ∈ items ∧ rank a = k := by
  simp [standing]

/-- An item is inserted before all that stand at its place. -/
theorem standing_insertBy {a : α} {items : List α}
    (ranked : ∀ b ∈ items, le a b = true ↔ rank a ≤ rank b) (k : K) :
    standing rank k (insertBy le a items) = standing rank k (a :: items) := by
  induction items with
  | nil => rfl
  | cons b rest ih =>
    have later := ih fun c there => ranked c (.tail _ there)
    unfold insertBy
    by_cases before : le a b = true
    · rw [if_pos before]
    · rw [if_neg before]
      have apart : rank a ≠ rank b := fun same => before ((ranked b (.head _)).2 same.le)
      unfold standing at later ⊢
      rw [List.filter_cons, later]
      by_cases first : rank b = k
      · have other : rank a ≠ k := fun same => apart (same.trans first.symm)
        simp [first, other]
      · simp [first, List.filter_cons]

/-- Sorting keeps the order of items that stand at one place. -/
theorem standing_sortBy {items : List α}
    (ranked : ∀ a ∈ items, ∀ b ∈ items, le a b = true ↔ rank a ≤ rank b) (k : K) :
    standing rank k (sortBy le items) = standing rank k items := by
  induction items with
  | nil => rfl
  | cons a rest ih =>
    have others := ih fun b there c present => ranked b (.tail _ there) c (.tail _ present)
    unfold sortBy
    rw [standing_insertBy fun b there => ranked a (.head _) b (.tail _ (mem_sortBy.1 there))]
    unfold standing at others ⊢
    rw [List.filter_cons, List.filter_cons, others]

theorem pairwise_insertBy {a : α} {items : List α}
    (ranked : ∀ b ∈ items, le a b = true ↔ rank a ≤ rank b)
    (sorted : items.Pairwise fun b c => rank b ≤ rank c) :
    (insertBy le a items).Pairwise fun b c => rank b ≤ rank c := by
  induction items with
  | nil => exact List.pairwise_singleton _ _
  | cons b rest ih =>
    obtain ⟨first, others⟩ := List.pairwise_cons.1 sorted
    unfold insertBy
    by_cases before : le a b = true
    · rw [if_pos before]
      have lower : rank a ≤ rank b := (ranked b (.head _)).1 before
      apply List.pairwise_cons.2
      refine ⟨fun c there => ?_, sorted⟩
      rcases List.mem_cons.1 there with rfl | later
      · exact lower
      · exact lower.trans (first c later)
    · rw [if_neg before]
      have higher : rank b ≤ rank a := by
        have higher := mt (ranked b (.head _)).2 before
        exact (not_le.1 higher).le
      apply List.pairwise_cons.2
      refine ⟨fun c there => ?_, ih (fun c later => ranked c (.tail _ later)) others⟩
      rcases List.mem_cons.1 ((insertBy_perm le a rest).mem_iff.1 there) with rfl | later
      · exact higher
      · exact first c later

theorem pairwise_sortBy {items : List α}
    (ranked : ∀ a ∈ items, ∀ b ∈ items, le a b = true ↔ rank a ≤ rank b) :
    (sortBy le items).Pairwise fun a b => rank a ≤ rank b := by
  induction items with
  | nil => exact List.Pairwise.nil
  | cons a rest ih =>
    unfold sortBy
    apply pairwise_insertBy
    · exact fun b there => ranked a (.head _) b (.tail _ (mem_sortBy.1 there))
    · exact ih fun b there c present => ranked b (.tail _ there) c (.tail _ present)

/-- Two lists in order are the same when at each place the same items stand. -/
theorem eq_of_standing {items others : List α}
    (sorted : items.Pairwise fun a b => rank a ≤ rank b)
    (sorted' : others.Pairwise fun a b => rank a ≤ rank b)
    (same : ∀ k, standing rank k items = standing rank k others) : items = others := by
  induction items generalizing others with
  | nil =>
    cases others with
    | nil => rfl
    | cons b rest =>
      have there : b ∈ standing rank (rank b) (b :: rest) := mem_standing.2 ⟨.head _, rfl⟩
      rw [← same] at there
      cases there
  | cons a rest ih =>
    cases others with
    | nil =>
      have there : a ∈ standing rank (rank a) (a :: rest) := mem_standing.2 ⟨.head _, rfl⟩
      rw [same] at there
      cases there
    | cons b rest' =>
      obtain ⟨first, sorted⟩ := List.pairwise_cons.1 sorted
      have first' := (List.pairwise_cons.1 sorted').1
      have rest_sorted := (List.pairwise_cons.1 sorted').2
      -- Each of the two heads occurs in the other list, so neither stands behind the other.
      have below : rank b ≤ rank a := by
        have there : a ∈ standing rank (rank a) (a :: rest) := mem_standing.2 ⟨.head _, rfl⟩
        rw [same] at there
        rcases List.mem_cons.1 (mem_standing.1 there).1 with rfl | later
        · exact le_rfl
        · exact first' a later
      have above : rank a ≤ rank b := by
        have there : b ∈ standing rank (rank b) (b :: rest') := mem_standing.2 ⟨.head _, rfl⟩
        rw [← same] at there
        rcases List.mem_cons.1 (mem_standing.1 there).1 with rfl | later
        · exact le_rfl
        · exact first b later
      have level : rank b = rank a := le_antisymm below above
      have heads := same (rank a)
      unfold standing at heads
      simp only [List.filter_cons, level, decide_true, if_true, List.cons.injEq] at heads
      obtain ⟨rfl, -⟩ := heads
      congr 1
      refine ih sorted rest_sorted fun k => ?_
      have both := same k
      unfold standing at both ⊢
      simp only [List.filter_cons] at both
      split at both
      · exact (List.cons.inj both).2
      · exact both

/-- What is sorted hangs only on what stands at each place. -/
theorem sortBy_congr {items others : List α}
    (ranked : ∀ a ∈ items, ∀ b ∈ items, le a b = true ↔ rank a ≤ rank b)
    (ranked' : ∀ a ∈ others, ∀ b ∈ others, le a b = true ↔ rank a ≤ rank b)
    (same : ∀ k, standing rank k items = standing rank k others) :
    sortBy le items = sortBy le others := by
  apply eq_of_standing (pairwise_sortBy ranked) (pairwise_sortBy ranked')
  intro k
  rw [standing_sortBy ranked, standing_sortBy ranked', same]

/-- Leaving out items before or after sorting is the same. -/
theorem filter_sortBy {items : List α} (rank : α → K)
    (ranked : ∀ a ∈ items, ∀ b ∈ items, le a b = true ↔ rank a ≤ rank b) (p : α → Bool) :
    (sortBy le items).filter p = sortBy le (items.filter p) := by
  have fewer : ∀ a ∈ items.filter p, ∀ b ∈ items.filter p, le a b = true ↔ rank a ≤ rank b :=
    fun a there b present => ranked a (List.mem_filter.1 there).1 b (List.mem_filter.1 present).1
  apply eq_of_standing ((pairwise_sortBy ranked).filter p) (pairwise_sortBy fewer)
  intro k
  have sorted := standing_sortBy ranked k
  rw [standing_sortBy fewer]
  unfold standing at sorted ⊢
  rw [List.filter_comm, sorted, List.filter_comm]

end Order

/-- Inserting an item under another name. -/
theorem map_insertBy {α β : Type} {le : α → α → Bool} {le' : β → β → Bool} {f : α → β} {a : α}
    {items : List α} (same : ∀ b ∈ items, le' (f a) (f b) = le a b) :
    (insertBy le a items).map f = insertBy le' (f a) (items.map f) := by
  induction items with
  | nil => rfl
  | cons b rest ih =>
    rw [List.map_cons]
    unfold insertBy
    rw [same b (.head _)]
    split
    · rfl
    · rw [List.map_cons, ih fun c later => same c (.tail _ later)]

/-- Items that are called by other names stand in the same order. -/
theorem map_sortBy {α β : Type} {le : α → α → Bool} {le' : β → β → Bool} {f : α → β} {items : List α}
    (same : ∀ a ∈ items, ∀ b ∈ items, le' (f a) (f b) = le a b) :
    (sortBy le items).map f = sortBy le' (items.map f) := by
  induction items with
  | nil => rfl
  | cons a rest ih =>
    rw [List.map_cons]
    unfold sortBy
    rw [map_insertBy fun b there => same a (.head _) b (.tail _ (mem_sortBy.1 there)),
      ih fun b there c present => same b (.tail _ there) c (.tail _ present)]

/-! Points in time. -/

namespace Clock

open Float.Model (UnpackedFloat)

/-- Where a number stands: by its sign and then by its size, and behind all others when it is none. -/
def place : UnpackedFloat → ℤ ×ₗ ℤ ×ₗ ℤ
  | .infinity .negative => toLex (-2, toLex (0, 0))
  | .finite .negative m e _ => toLex (-1, toLex (-e, -(m : ℤ)))
  | .zero _ => toLex (0, toLex (0, 0))
  | .finite .positive m e _ => toLex (1, toLex (e, (m : ℤ)))
  | .infinity .positive => toLex (2, toLex (0, 0))
  | .notANumber => toLex (3, toLex (0, 0))

theorem isLE_compare {e e' : ℤ} {m m' : ℕ} :
    ((compare e e').then (compare m m')).isLE = true ↔ e < e' ∨ e = e' ∧ m ≤ m' := by
  rcases lt_trichotomy e e' with before | rfl | behind
  · simp [compare_lt_iff_lt.2 before, before]
  · simp [Nat.isLE_compare]
  · simp [compare_gt_iff_gt.2 behind, behind.not_gt, behind.ne']

theorem isLE_swap_compare {e e' : ℤ} {m m' : ℕ} :
    ((compare e e').then (compare m m')).swap.isLE = true ↔ e' < e ∨ e' = e ∧ m' ≤ m := by
  rcases lt_trichotomy e e' with before | rfl | behind
  · simp [compare_lt_iff_lt.2 before, before.not_gt, before.ne']
  · simp [Nat.isGE_compare]
  · simp [compare_gt_iff_gt.2 behind, behind]

theorem le_iff_place {a b : UnpackedFloat} (number : a ≠ .notANumber) (number' : b ≠ .notANumber) :
    a.le b = true ↔ place a ≤ place b := by
  rcases a with (_ | _) | _ | _ | ⟨_ | _, m, e, _⟩ <;>
    rcases b with (_ | _) | _ | _ | ⟨_ | _, m', e', _⟩ <;>
    first
      | exact absurd rfl number
      | exact absurd rfl number'
      | dsimp only [UnpackedFloat.le, UnpackedFloat.compare, place]
        simp only [Option.any_some, Prod.Lex.le_iff, ofLex_toLex, isLE_compare, isLE_swap_compare]
        first
          | decide
          | clear number number'
            grind [Ordering.isLE]

/-- What is due by some time is due at a number. -/
theorem number_of_le {a b : UnpackedFloat} (below : a.le b = true) : a ≠ .notANumber := by
  rintro rfl
  cases b <;> cases below

/-- Where a point in time stands. -/
def rank (x : Float) : ℤ ×ₗ ℤ ×ₗ ℤ := place x.toModel.unpack

theorem le_iff_unpack {x y : Float} : x ≤ y ↔ x.toModel.unpack.le y.toModel.unpack = true := by
  have compared : x ≤ y ↔ x.le y = true := Iff.rfl
  rw [compared, Float.le, decide_eq_true_iff]
  exact Iff.rfl

/-- Of what is due by some time the one is due no later than the other as they stand. -/
theorem le_iff_rank {x y now : Float} (due : x ≤ now) (due' : y ≤ now) : x ≤ y ↔ rank x ≤ rank y := by
  rw [le_iff_unpack] at due due' ⊢
  exact le_iff_place (number_of_le due) (number_of_le due')

end Clock

end Runbook
