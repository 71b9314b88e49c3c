import Runbook.Proofs.Exact

/-!
Sums, products and quotients of numbers that are not negative. What comes of one is rounded, but never beyond
a number that the exact result does not exceed, and it is infinite only when it is too large.
-/
namespace Runbook.Decimal

open Float.Model (Format UnpackedFloat totalExponent)
open Float.Model.UnpackedFloat (Accuracy ExtendedMantissa Sign pack packComponents roundWithAccuracy
  shiftToTargetExponent unpack unpackExponent_packComponents unpackMantissa_packComponents unpackSign_packComponents)

/-! Rounding. -/

/-- What is left of a mantissa. -/
def kept (m : Nat) (e : Int) (accuracy : Accuracy) : Nat :=
  (ExtendedMantissa.ofMantissaAndAccuracy m accuracy >>> dropped m e).roundedMantissa

/-- A mantissa that is long enough, or an exponent that is low enough, for all bits of the result. -/
def Wide (m : Nat) (e : Int) : Prop := 52 ≤ m.log2 ∨ e ≤ -1074

variable {m : Nat} {e : Int} {accuracy : Accuracy}

theorem exponent_dropped (wide : Wide m e) : e + dropped m e = max ((m.log2 : Int) + e - 52) (-1074) := by
  unfold dropped
  rcases wide with long | low
  · omega
  · omega

theorem lt_dropped (m : Nat) (e : Int) : m < 2 ^ 53 * 2 ^ dropped m e := by
  have bits : m.log2 + 1 ≤ 53 + dropped m e := by
    unfold dropped
    omega
  calc
    m < 2 ^ (m.log2 + 1) := Nat.lt_log2_self
    _ ≤ 2 ^ (53 + dropped m e) := Nat.pow_le_pow_right (by decide) bits
    _ = 2 ^ 53 * 2 ^ dropped m e := Nat.pow_add ..

theorem mantissa_shiftRight (x : ExtendedMantissa) (k : Nat) : (x >>> k).mantissa = x.mantissa / 2 ^ k := by
  induction k with
  | zero => simp [HShiftRight.hShiftRight, Nat.repeat]
  | succ k ih =>
    change (x >>> k).mantissa / 2 = _
    rw [ih, Nat.div_div_eq_div_mul, Nat.pow_succ]

theorem le_roundedMantissa (x : ExtendedMantissa) : x.mantissa ≤ x.roundedMantissa := by
  obtain ⟨m, r, s⟩ := x
  cases r <;> cases s <;>
    simp [ExtendedMantissa.roundedMantissa, ExtendedMantissa.accuracy, Accuracy.roundToNearestEven]

theorem roundedMantissa_le (x : ExtendedMantissa) : x.roundedMantissa ≤ x.mantissa + 1 := by
  obtain ⟨m, r, s⟩ := x
  cases r <;> cases s <;>
    simp [ExtendedMantissa.roundedMantissa, ExtendedMantissa.accuracy, Accuracy.roundToNearestEven]
  omega

theorem mantissa_ofMantissaAndAccuracy (m : Nat) (accuracy : Accuracy) :
    (ExtendedMantissa.ofMantissaAndAccuracy m accuracy).mantissa = m := by
  cases accuracy with
  | exact => rfl
  | inexact o => cases o <;> rfl

theorem div_le_kept : m / 2 ^ dropped m e ≤ kept m e accuracy := by
  have floor := le_roundedMantissa (ExtendedMantissa.ofMantissaAndAccuracy m accuracy >>> dropped m e)
  rwa [mantissa_shiftRight, mantissa_ofMantissaAndAccuracy] at floor

theorem kept_le : kept m e accuracy ≤ m / 2 ^ dropped m e + 1 := by
  have ceiling := roundedMantissa_le (ExtendedMantissa.ofMantissaAndAccuracy m accuracy >>> dropped m e)
  rwa [mantissa_shiftRight, mantissa_ofMantissaAndAccuracy] at ceiling

theorem kept_le_two_pow : kept m e accuracy ≤ 2 ^ 53 := by
  have less : m / 2 ^ dropped m e < 2 ^ 53 := Nat.div_lt_of_lt_mul (Nat.mul_comm .. ▸ lt_dropped m e)
  exact kept_le.trans less

theorem kept_exact : kept m e .exact = (Ratio.mk m (2 ^ dropped m e)).round := roundedMantissa_shiftRight ..

theorem dropped_of_lt (small : m < 2 ^ 53) (low : -1074 ≤ e) : dropped m e = 0 := by
  have bits : m.log2 ≤ 52 := by
    rcases Nat.eq_zero_or_pos m with rfl | pos
    · exact Nat.zero_le _
    · exact Nat.le_of_lt_succ ((Nat.log2_lt pos.ne').2 small)
  unfold dropped
  omega

theorem dropped_two_pow (low : -1074 ≤ e) : dropped (2 ^ 53) e = 1 := by
  have bits : (2 ^ 53).log2 = 53 := Nat.log2_two_pow
  unfold dropped
  rw [bits]
  omega

theorem unpack_pack_of_canonical {s : Sign} (canonical : Canonical m e) (pos : 0 < m) :
    unpack Format.binary64 (pack Format.binary64 (.finite s m e pos)) = .finite s m e pos := by
  rcases Nat.lt_or_ge m (2 ^ 52) with short | long
  · have low : e = -1074 := canonical.full.resolve_left (Nat.not_le.2 short)
    have bits : m.log2 < 52 := (Nat.log2_lt pos.ne').2 short
    have mantissa : (BitVec.ofNat 52 m).toNat = m := by rw [BitVec.toNat_ofNat, Nat.mod_eq_of_lt short]
    have nonzero : BitVec.ofNat 52 m ≠ 0#52 := by
      intro zero
      rw [zero] at mantissa
      exact pos.ne mantissa
    have packed : pack Format.binary64 (.finite s m e pos) =
        packComponents Format.binary64 s 0#11 (BitVec.ofNat 52 m) := by
      rw [pack]
      dsimp only
      have apart : m.log2 + 1 ≠ Format.binary64.mantissaBits := by
        change m.log2 + 1 ≠ 53
        omega
      rw [low, if_neg (by decide), if_neg apart]
    have top : (0#11 : BitVec 11) ≠ -1#11 := by decide
    rw [packed, unpack]
    simp only [unpackExponent_packComponents, unpackMantissa_packComponents, unpackSign_packComponents,
      Sign.ofBitVec_toBitVec]
    rw [if_neg top, if_pos trivial, dif_neg nonzero]
    simp only [mantissa, low]
    rfl
  · have bits : m.log2 = 52 := (Nat.log2_eq_iff pos.ne').2 ⟨long, canonical.upper⟩
    rw [unpack_pack bits canonical.low, if_pos canonical.high]

/-- What a number is when it has been rounded and put away. -/
def outcome (m : Nat) (e : Int) (accuracy : Accuracy) : UnpackedFloat :=
  unpack Format.binary64 (pack Format.binary64 (roundWithAccuracy Format.binary64 .positive m e accuracy))

/-- The second shift drops the bit by which rounding has made it longer. -/
theorem roundWithAccuracy_dropped {s : Sign} : roundWithAccuracy Format.binary64 s m e accuracy =
    (let n := kept m e accuracy
     let k := dropped n (e + dropped m e)
     if zero : n / 2 ^ k = 0 then .zero s
     else .finite s (n / 2 ^ k) (e + dropped m e + k) (Nat.pos_of_ne_zero zero)) := by
  have rounded : (ExtendedMantissa.ofMantissaAndAccuracy m accuracy >>> dropped m e).roundedMantissa =
      kept m e accuracy := rfl
  rw [roundWithAccuracy, shiftToTargetExponent_dropped]
  dsimp only
  rw [rounded, shiftToTargetExponent_dropped]
  simp only [mantissa_shiftRight, mantissa_ofMantissaAndAccuracy]

/-- It is in the range. -/
def Fits (m : Nat) (e : Int) (accuracy : Accuracy) : Prop :=
  e + dropped m e < 971 ∨ e + dropped m e = 971 ∧ kept m e accuracy < 2 ^ 53

theorem full_kept (wide : Wide m e) (pos : 0 < m) : 2 ^ 52 ≤ kept m e accuracy ∨ e + dropped m e = -1074 := by
  rcases le_or_gt ((m.log2 : Int) + e - 52) (-1074) with low | normal
  · right
    rw [exponent_dropped wide]
    omega
  · left
    have bits : 52 + dropped m e = m.log2 := by
      have := exponent_dropped wide
      omega
    have whole : 2 ^ 52 * 2 ^ dropped m e ≤ m := by
      rw [← Nat.pow_add, bits]
      exact Nat.log2_self_le pos.ne'
    exact ((Nat.le_div_iff_mul_le (Nat.two_pow_pos _)).2 whole).trans div_le_kept

theorem low_dropped (wide : Wide m e) : -1074 ≤ e + dropped m e := by
  rw [exponent_dropped wide]
  exact le_max_right ..

theorem measures_outcome (wide : Wide m e) (pos : 0 < m) (fits : Fits m e accuracy) :
    Measures (outcome m e accuracy) (kept m e accuracy * 2 ^ (e + dropped m e)) := by
  have low := low_dropped wide
  have full : 2 ^ 52 ≤ kept m e accuracy ∨ e + dropped m e = -1074 := full_kept wide pos
  have most : kept m e accuracy ≤ 2 ^ 53 := kept_le_two_pow
  unfold outcome
  unfold Fits at fits
  rw [roundWithAccuracy_dropped]
  dsimp only
  generalize e + dropped m e = t at *
  generalize kept m e accuracy = n at *
  rcases Nat.lt_or_eq_of_le most with short | rfl
  · simp only [dropped_of_lt short low, Nat.pow_zero, Nat.div_one, Int.natCast_zero, Int.add_zero]
    rcases Nat.eq_zero_or_pos n with rfl | pos'
    · rw [dif_pos rfl, Nat.cast_zero, zero_mul]
      exact .zero .positive
    · have canonical : Canonical n t := ⟨short, low, by omega, full⟩
      rw [dif_neg pos'.ne', unpack_pack_of_canonical canonical]
      exact .finite pos' canonical
  · have half : 2 ^ 53 / 2 ^ 1 = 2 ^ 52 := by decide
    have canonical : Canonical (2 ^ 52) (t + 1) := ⟨by decide, by omega, by omega, .inl le_rfl⟩
    have value : ((2 ^ 53 : Nat) * 2 ^ t : ℚ) = (2 ^ 52 : Nat) * 2 ^ (t + 1) := by
      rw [zpow_add_one₀ two_ne_zero]
      push_cast
      ring
    simp only [dropped_two_pow low, half, Int.natCast_one]
    rw [dif_neg (by decide), unpack_pack_of_canonical canonical, value]
    exact .finite _ canonical

theorem outcome_infinite (wide : Wide m e) (pos : 0 < m) (beyond : ¬Fits m e accuracy) :
    outcome m e accuracy = .infinity .positive := by
  have low := low_dropped wide
  have full : 2 ^ 52 ≤ kept m e accuracy ∨ e + dropped m e = -1074 := full_kept wide pos
  have most : kept m e accuracy ≤ 2 ^ 53 := kept_le_two_pow
  unfold outcome
  unfold Fits at beyond
  rw [roundWithAccuracy_dropped]
  dsimp only
  generalize e + dropped m e = t at *
  generalize kept m e accuracy = n at *
  rcases Nat.lt_or_eq_of_le most with short | rfl
  · have bits : n.log2 = 52 := (Nat.log2_eq_iff (by omega)).2 ⟨by omega, short⟩
    simp only [dropped_of_lt short low, Nat.pow_zero, Nat.div_one, Int.natCast_zero, Int.add_zero]
    rw [dif_neg (by omega), unpack_pack bits low, if_neg (by omega)]
  · have half : 2 ^ 53 / 2 ^ 1 = 2 ^ 52 := by decide
    have bits : (2 ^ 52).log2 = 52 := Nat.log2_two_pow
    simp only [dropped_two_pow low, half, Int.natCast_one]
    rw [dif_neg (by decide), unpack_pack bits (by omega), if_neg (by omega)]

/-- The exponent of what is rounded is no higher than that of a number above. -/
theorem exponent_dropped_le {c : Nat} {f : Int} (wide : Wide m e) (pos : 0 < m) (canonical : Canonical c f)
    (below : (m * 2 ^ e : ℚ) ≤ c * 2 ^ f) : e + dropped m e ≤ f := by
  by_contra beyond
  have := exponent_dropped wide
  have := canonical.low
  have large : (c * 2 ^ f : ℚ) < m * 2 ^ e := by
    calc
      (c * 2 ^ f : ℚ) < 2 ^ 53 * 2 ^ f := by
        gcongr
        exact_mod_cast canonical.upper
      _ = 2 ^ ((53 : Int) + f) := by
        rw [zpow_add₀ two_ne_zero]
        rfl
      _ ≤ 2 ^ ((m.log2 : Int) + e) := zpow_le_zpow_right₀ one_le_two (by omega)
      _ ≤ m * 2 ^ e := two_pow_log2_le pos e
  exact absurd below (not_le.2 large)

/-- Rounding does not go beyond a number. -/
theorem outcome_le {c : Nat} {f : Int} (wide : Wide m e) (pos : 0 < m) (canonical : Canonical c f)
    (below : (m * 2 ^ e : ℚ) ≤ c * 2 ^ f) : ∃ q, Measures (outcome m e .exact) q ∧ q ≤ c * 2 ^ f := by
  obtain ⟨j, rfl⟩ := Int.le.dest (exponent_dropped_le wide pos canonical below)
  have whole : m ≤ c * 2 ^ j * 2 ^ dropped m e := by
    have scaled : (m * 2 ^ e : ℚ) ≤ (c * 2 ^ j * 2 ^ dropped m e : Nat) * 2 ^ e := by
      calc
        (m * 2 ^ e : ℚ) ≤ c * 2 ^ (e + dropped m e + j) := below
        _ = (c * 2 ^ j * 2 ^ dropped m e : Nat) * 2 ^ e := by
          rw [zpow_add₀ two_ne_zero, zpow_add₀ two_ne_zero, zpow_natCast, zpow_natCast]
          push_cast
          ring
    exact_mod_cast le_of_mul_le_mul_right scaled (by positivity)
  have least : kept m e .exact ≤ c * 2 ^ j := by
    rw [kept_exact]
    exact Ratio.round_le (Nat.two_pow_pos _) whole
  have fits : Fits m e .exact := by
    have := canonical.high
    have := canonical.upper
    rcases Nat.eq_zero_or_pos j with rfl | more
    · unfold Fits
      omega
    · left
      omega
  refine ⟨_, measures_outcome wide pos fits, ?_⟩
  calc
    (kept m e .exact * 2 ^ (e + dropped m e) : ℚ) ≤ (c * 2 ^ j : Nat) * 2 ^ (e + dropped m e) := by
      gcongr
    _ = c * 2 ^ (e + dropped m e + j) := by
      rw [zpow_add₀ two_ne_zero _ (j : Int), zpow_natCast]
      push_cast
      ring

theorem outcome_of_canonical (canonical : Canonical m e) (pos : 0 < m) :
    outcome m e .exact = .finite .positive m e pos := by
  have all : kept m e .exact = m := by
    rw [kept_exact, dropped_of_lt canonical.upper canonical.low]
    simp [Ratio.round, Nat.mod_one]
  unfold outcome
  rw [roundWithAccuracy_dropped]
  simp only [all, dropped_of_lt canonical.upper canonical.low, Nat.pow_zero, Nat.div_one, Int.natCast_zero,
    Int.add_zero]
  rw [dif_neg pos.ne', unpack_pack_of_canonical canonical]

/-- A number that comes of an exact value by rounding. -/
inductive Rounds : UnpackedFloat → ℚ → Prop where
  | zero (s : Sign) : Rounds (.zero s) 0
  | positive {m : Nat} {e : Int} (wide : Wide m e) (pos : 0 < m) : Rounds (outcome m e .exact) (m * 2 ^ e)

namespace Rounds

variable {u v : UnpackedFloat} {a c : ℚ}

/-- It is infinite when the value is too large. -/
theorem measures_or_infinite (rounds : Rounds u a) : (∃ r, Measures u r) ∨ u = .infinity .positive := by
  cases rounds with
  | zero s => exact .inl ⟨0, .zero s⟩
  | @positive m e wide pos =>
    by_cases fits : Fits m e .exact
    · exact .inl ⟨_, measures_outcome wide pos fits⟩
    · exact .inr (outcome_infinite wide pos fits)

theorem le (rounds : Rounds u a) (bound : Measures v c) (below : a ≤ c) : ∃ r, Measures u r ∧ r ≤ c := by
  cases rounds with
  | zero s => exact ⟨0, .zero s, below⟩
  | @positive m e wide pos =>
    cases bound with
    | zero =>
      have : (0 : ℚ) < m * 2 ^ e := by positivity
      linarith
    | finite _ canonical => exact outcome_le wide pos canonical below

end Rounds

/-! Products and sums. -/

theorem unpack_pack_zero (s : Sign) : unpack Format.binary64 (pack Format.binary64 (.zero s)) = .zero s := by
  cases s <;> rfl

theorem Canonical.wide (canonical : Canonical m e) (pos : 0 < m) : Wide m e := by
  rcases canonical.full with full | low
  · exact .inl ((Nat.le_log2 pos.ne').2 full)
  · exact .inr low.le

theorem Canonical.wide_mul {m' : Nat} {e' : Int} (canonical : Canonical m e) (canonical' : Canonical m' e')
    (pos : 0 < m) (pos' : 0 < m') : Wide (m * m') (e + e') := by
  have nonzero : m * m' ≠ 0 := (Nat.mul_pos pos pos').ne'
  rcases canonical.full with full | low
  · exact .inl ((Nat.le_log2 nonzero).2 (full.trans (Nat.le_mul_of_pos_right m pos')))
  · rcases canonical'.full with full' | low'
    · exact .inl ((Nat.le_log2 nonzero).2 (full'.trans (Nat.le_mul_of_pos_left m' pos)))
    · right
      omega

variable {x y : Float} {a b : ℚ}

theorem rounds_self {u : UnpackedFloat} (measured : Measures u a) : Rounds u a := by
  cases measured with
  | zero s => exact .zero s
  | finite pos canonical =>
    rw [← outcome_of_canonical canonical pos]
    exact .positive (canonical.wide pos) pos

/-- A product is the exact one rounded. -/
theorem rounds_mul (left : Measures x.toModel.unpack a) (right : Measures y.toModel.unpack b) :
    Rounds (x * y).toModel.unpack (a * b) := by
  rw [unpack_mul]
  generalize x.toModel.unpack = u at left
  generalize y.toModel.unpack = v at right
  cases left with
  | zero s =>
    rw [zero_mul]
    cases right with
    | zero s' => exact unpack_pack_zero (s * s') ▸ .zero _
    | finite => exact unpack_pack_zero (s * .positive) ▸ .zero _
  | @finite m e pos canonical =>
    cases right with
    | zero s =>
      rw [mul_zero]
      exact unpack_pack_zero (.positive * s) ▸ .zero _
    | @finite m' e' pos' canonical' =>
      have value : (m * 2 ^ e * (m' * 2 ^ e') : ℚ) = (m * m' : Nat) * 2 ^ (e + e') := by
        rw [zpow_add₀ two_ne_zero]
        push_cast
        ring
      rw [value]
      exact .positive (canonical.wide_mul canonical' pos pos') (Nat.mul_pos pos pos')

theorem unpack_add (x y : Float) : (x + y).toModel.unpack =
    unpack Format.binary64 (pack Format.binary64
      (UnpackedFloat.add Format.binary64 x.toModel.unpack y.toModel.unpack)) := rfl

/-- A mantissa that is too short is made longer first. -/
theorem rounds_round (pos : 0 < m) :
    Rounds (unpack Format.binary64 (pack Format.binary64 (UnpackedFloat.round Format.binary64 .positive m e)))
      (m * 2 ^ e) := by
  generalize shift : (e - max ((m.log2 : Int) + e - 52) (-1074)).toNat = k
  have bits := log2_mul_two_pow pos.ne' k
  have wide : Wide (m * 2 ^ k) (e - k) := by
    unfold Wide
    omega
  have value : (m * 2 ^ e : ℚ) = (m * 2 ^ k : Nat) * 2 ^ (e - k) := by
    rw [zpow_sub₀ two_ne_zero, zpow_natCast]
    push_cast
    field_simp
  rw [UnpackedFloat.round, targetExponent_eq, UnpackedFloat.decreaseExponent, shift, Nat.shiftLeft_eq, value]
  exact .positive wide (Nat.mul_pos pos (Nat.two_pow_pos k))

/-- A sum is the exact one rounded. -/
theorem rounds_add (left : Measures x.toModel.unpack a) (right : Measures y.toModel.unpack b) :
    Rounds (x + y).toModel.unpack (a + b) := by
  rw [unpack_add]
  generalize x.toModel.unpack = u at left
  generalize y.toModel.unpack = v at right
  cases left with
  | zero s =>
    rw [zero_add]
    cases right with
    | zero s' => cases s <;> cases s' <;> exact .zero _
    | finite pos canonical =>
      change Rounds (unpack Format.binary64 (pack Format.binary64 (.finite .positive _ _ pos))) _
      rw [unpack_pack_of_canonical canonical]
      exact rounds_self (.finite pos canonical)
  | @finite m e pos canonical =>
    cases right with
    | zero s =>
      rw [add_zero]
      change Rounds (unpack Format.binary64 (pack Format.binary64 (.finite .positive _ _ pos))) _
      rw [unpack_pack_of_canonical canonical]
      exact rounds_self (.finite pos canonical)
    | @finite m' e' pos' canonical' =>
      generalize common : min e e' = f
      obtain ⟨k, shift⟩ := Int.eq_ofNat_of_zero_le (show 0 ≤ e - f by omega)
      obtain ⟨k', shift'⟩ := Int.eq_ofNat_of_zero_le (show 0 ≤ e' - f by omega)
      have value : (m * 2 ^ e + m' * 2 ^ e' : ℚ) = (m * 2 ^ k + m' * 2 ^ k' : Nat) * 2 ^ f := by
        rw [show e = k + f by omega, show e' = k' + f by omega, zpow_add₀ two_ne_zero, zpow_add₀ two_ne_zero,
          zpow_natCast, zpow_natCast]
        push_cast
        ring
      have pos'' : 0 < m * 2 ^ k + m' * 2 ^ k' := Nat.add_pos_left (Nat.mul_pos pos (Nat.two_pow_pos k)) _
      have sum : UnpackedFloat.add Format.binary64 (.finite .positive m e pos) (.finite .positive m' e' pos') =
          UnpackedFloat.normalize Format.binary64 (m * 2 ^ k + m' * 2 ^ k' : Nat) f .positive := by
        rw [UnpackedFloat.add]
        simp only [common, UnpackedFloat.decreaseExponent, shift, shift', Int.toNat_natCast, Nat.shiftLeft_eq]
        rfl
      rw [sum, UnpackedFloat.normalize, Int.compare_eq_gt.2 (Int.natCast_pos.2 pos''), value]
      exact rounds_round pos''

/-! One, and one half. -/

theorem measures_one : Measures (1.0 : Float).toModel.unpack 1 := by
  have unpacked : (1.0 : Float).toModel.unpack = .finite .positive (2 ^ 52) (-52) (by decide) := rfl
  exact measures_of_unpack unpacked ⟨by decide, by decide, by decide, .inl le_rfl⟩ (by norm_num)

theorem measures_half : Measures (0.5 : Float).toModel.unpack (1 / 2) := by
  have unpacked : (0.5 : Float).toModel.unpack = .finite .positive (2 ^ 52) (-53) (by decide) := rfl
  exact measures_of_unpack unpacked ⟨by decide, by decide, by decide, .inl le_rfl⟩ (by norm_num)

end Runbook.Decimal
