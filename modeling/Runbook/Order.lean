/-!
Sorting by insertion. Items that may stand either way round keep their order.
-/
namespace Runbook

variable {α : Type}

/-- Inserts an item before the first one that it may precede. -/
def insertBy (le : α → α → Bool) (a : α) : List α → List α
  | [] => [a]
  | b :: rest => if le a b then a :: b :: rest else b :: insertBy le a rest

/-- The items in order. -/
def sortBy (le : α → α → Bool) : List α → List α
  | [] => []
  | a :: rest => insertBy le a (sortBy le rest)

theorem insertBy_perm (le : α → α → Bool) (a : α) (items : List α) :
    (insertBy le a items).Perm (a :: items) := by
  induction items with
  | nil => exact .refl _
  | cons b rest ih =>
    unfold insertBy
    split
    · exact .refl _
    · exact (List.Perm.cons b ih).trans (.swap a b rest)

/-- Sorting loses nothing and adds nothing. -/
theorem sortBy_perm (le : α → α → Bool) (items : List α) : (sortBy le items).Perm items := by
  induction items with
  | nil => exact .refl _
  | cons a rest ih => exact (insertBy_perm le a _).trans (ih.cons a)

@[simp] theorem mem_sortBy {le : α → α → Bool} {items : List α} {a : α} :
    a ∈ sortBy le items ↔ a ∈ items :=
  (sortBy_perm le items).mem_iff

end Runbook
