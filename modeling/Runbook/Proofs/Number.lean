import Mathlib
import Runbook.Decimal.Binary

/-!
Floating-point numbers. Two of them stand to one another as their signs, exponents and mantissas say, unless
one of them is no number.
-/
namespace Runbook.Decimal

open Float.Model (UnpackedFloat)

/-! How numbers stand to one another. -/

theorem compare_eq_compare {α β : Type} [LinearOrder α] [LinearOrder β] {a b : α} {x y : β} (below : a < b → x < y)
    (same : a = b → x = y) (above : b < a → y < x) : compare a b = compare x y := by
  rcases lt_trichotomy a b with less | equal | more
  · rw [compare_lt_iff_lt.2 less, compare_lt_iff_lt.2 (below less)]
  · rw [compare_eq_iff_eq.2 equal, compare_eq_iff_eq.2 (same equal)]
  · rw [compare_gt_iff_gt.2 more, compare_gt_iff_gt.2 (above more)]

/-- How a number stands to another one, if the two can be compared. -/
def order (x y : Float) : Option Ordering := x.toModel.unpack.compare y.toModel.unpack

theorem beq_iff_order {x y : Float} : (x == y) = true ↔ order x y = some .eq := by
  change x.toModel.unpack.beq y.toModel.unpack = true ↔ _
  exact beq_iff_eq

theorem lt_iff_order {x y : Float} : x < y ↔ order x y = some .lt := by
  have compared : x < y ↔ x.lt y = true := Iff.rfl
  rw [compared, Float.lt, decide_eq_true_iff]
  change x.toModel.unpack.lt y.toModel.unpack = true ↔ _
  exact beq_iff_eq

theorem then_compare_swap (e e' : Int) (m m' : Nat) :
    (compare e' e).then (compare m' m) = ((compare e e').then (compare m m')).swap := by
  rw [Ordering.swap_then, Int.compare_swap, Nat.compare_swap]

theorem order_swap (x y : Float) : order y x = (order x y).map Ordering.swap := by
  unfold order
  generalize x.toModel.unpack = a, y.toModel.unpack = b
  rcases a with (_ | _) | _ | _ | ⟨_ | _, m, e, _⟩ <;> rcases b with (_ | _) | _ | _ | ⟨_ | _, m', e', _⟩ <;>
    first
      | rfl
      | exact congrArg some (then_compare_swap e e' m m')
      | exact congrArg (fun o => some o.swap) (then_compare_swap e e' m m')

/-- A number is not below one that it equals. -/
theorem not_lt_of_beq {x y : Float} (same : (x == y) = true) : ¬x < y := by
  rw [lt_iff_order, beq_iff_order.1 same]
  decide

theorem not_lt_of_lt {x y : Float} (below : x < y) : ¬y < x := by
  rw [lt_iff_order, order_swap x y, lt_iff_order.1 below]
  decide

end Runbook.Decimal
