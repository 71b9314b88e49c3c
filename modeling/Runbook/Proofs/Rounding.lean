import Runbook.Proofs.Number

/-!
Whole numbers as floating-point numbers. Of a long one 53 bits are kept and the rest is rounded off; by that two
numbers may fall together, but they never change places.
-/
namespace Runbook.Decimal

open Float.Model (Format UnpackedFloat totalExponent)
open Float.Model.UnpackedFloat (Accuracy ExtendedMantissa Sign pack packComponents packedInfinity roundWithAccuracy
  shiftToTargetExponent unpack unpackExponent unpackExponent_packComponents unpackMantissa_packComponents
  unpackSign_packComponents)

/-! Fractions rounded to whole numbers. -/

namespace Ratio

variable {m n d : Nat}

theorem div_le_round (r : Ratio) : r.num / r.den ≤ r.round := by
  unfold round
  dsimp only
  split_ifs <;> omega

theorem round_le_succ (r : Ratio) : r.round ≤ r.num / r.den + 1 := by
  unfold round
  dsimp only
  split_ifs <;> omega

theorem round_le {c : Nat} (whole : 0 < d) (below : m ≤ c * d) : (Ratio.mk m d).round ≤ c := by
  rcases Nat.lt_or_eq_of_le below with less | rfl
  · have := (Nat.div_lt_iff_lt_mul whole).2 less
    have := round_le_succ ⟨m, d⟩
    dsimp only at this
    omega
  · simp [round, Nat.mul_div_cancel c whole, whole]

theorem le_round {c : Nat} (whole : 0 < d) (above : c * d ≤ m) : c ≤ (Ratio.mk m d).round :=
  Nat.le_trans ((Nat.le_div_iff_mul_le whole).2 above) (div_le_round ⟨m, d⟩)

theorem round_mono (below : m ≤ n) : (Ratio.mk m d).round ≤ (Ratio.mk n d).round := by
  rcases Nat.lt_or_eq_of_le (Nat.div_le_div_right (c := d) below) with less | same
  · have := round_le_succ ⟨m, d⟩
    have := div_le_round ⟨n, d⟩
    dsimp only at *
    omega
  · have rest : m % d ≤ n % d := by
      have := Nat.div_add_mod m d
      have := Nat.div_add_mod n d
      rw [same] at *
      omega
    unfold round
    dsimp only
    rw [same]
    split_ifs <;> omega

theorem round_mul_right {c : Nat} (pos : 0 < c) : (Ratio.mk (m * c) (d * c)).round = (Ratio.mk m d).round := by
  have twice : 2 * (m % d * c) = 2 * (m % d) * c := (Nat.mul_assoc ..).symm
  simp only [round, Nat.mul_div_mul_right m d pos, Nat.mul_mod_mul_right, twice, Nat.mul_lt_mul_right pos, gt_iff_lt]

end Ratio

/-! Bits that are kept. -/

variable {m n k : Nat}

/-- How many bits of a whole number do not fit. -/
def excess (n : Nat) : Nat := n.log2 - 52

/-- A whole number with 53 of its bits, an exact half going to the even neighbour. -/
def nearest (n : Nat) : Nat := (Ratio.mk n (2 ^ excess n)).round * 2 ^ excess n

theorem log2_mul_two_pow (pos : n ≠ 0) (k : Nat) : (n * 2 ^ k).log2 = n.log2 + k := by
  have scaled : n * 2 ^ k ≠ 0 := Nat.mul_ne_zero pos (Nat.two_pow_pos k).ne'
  rw [Nat.log2_eq_iff scaled, Nat.add_right_comm, Nat.pow_add, Nat.pow_add]
  exact ⟨Nat.mul_le_mul_right _ (Nat.log2_self_le pos),
    Nat.mul_lt_mul_of_pos_right Nat.lt_log2_self (Nat.two_pow_pos k)⟩

theorem lower_of_log2 (bits : m.log2 = 52) : 2 ^ 52 ≤ m := by
  have positive : m ≠ 0 := by
    rintro rfl
    exact absurd bits (by decide)
  exact (Nat.le_log2 positive).1 bits.ge

theorem upper_of_log2 (bits : m.log2 = 52) : m < 2 ^ 53 := by
  have := lower_of_log2 bits
  exact (Nat.log2_lt (by omega)).1 (by omega)

theorem nearest_of_lt (small : n < 2 ^ 53) : nearest n = n := by
  have fits : excess n = 0 := by
    rcases Nat.eq_zero_or_pos n with rfl | pos
    · rfl
    · have := (Nat.log2_lt pos.ne').2 small
      unfold excess
      omega
  simp [nearest, fits, Ratio.round, Nat.mod_one]

theorem nearest_le (n : Nat) : nearest n ≤ 2 ^ (n.log2 + 1) := by
  have apart : n.log2 + 1 = n.log2 + 1 - excess n + excess n := by
    unfold excess
    omega
  rw [nearest, apart, Nat.pow_add]
  refine Nat.mul_le_mul_right _ (Ratio.round_le (Nat.two_pow_pos _) ?_)
  rw [← Nat.pow_add, ← apart]
  exact Nat.le_of_lt Nat.lt_log2_self

theorem le_nearest (pos : n ≠ 0) : 2 ^ n.log2 ≤ nearest n := by
  have apart : n.log2 = n.log2 - excess n + excess n := by
    unfold excess
    omega
  calc
    2 ^ n.log2 = 2 ^ (n.log2 - excess n) * 2 ^ excess n := by rw [← Nat.pow_add, ← apart]
    _ ≤ nearest n := ?_
  refine Nat.mul_le_mul_right _ (Ratio.le_round (Nat.two_pow_pos _) ?_)
  rw [← Nat.pow_add, ← apart]
  exact Nat.log2_self_le pos

/-- Rounding keeps the order. -/
theorem nearest_mono (below : m ≤ n) : nearest m ≤ nearest n := by
  rcases Nat.eq_zero_or_pos m with rfl | pos
  · exact (nearest_of_lt (by decide)).trans_le (Nat.zero_le _)
  have pos' : n ≠ 0 := by omega
  have bits : m.log2 ≤ n.log2 := (Nat.le_log2 pos').2 ((Nat.log2_self_le pos.ne').trans below)
  rcases Nat.lt_or_eq_of_le bits with shorter | same
  · calc
      nearest m ≤ 2 ^ (m.log2 + 1) := nearest_le m
      _ ≤ 2 ^ n.log2 := Nat.pow_le_pow_right (by decide) shorter
      _ ≤ nearest n := le_nearest pos'
  · have cut : excess m = excess n := congrArg (· - 52) same
    rw [nearest, nearest, cut]
    exact Nat.mul_le_mul_right _ (Ratio.round_mono below)

theorem nearest_of_dvd (zeros : 2 ^ excess n ∣ n) : nearest n = n := by
  obtain ⟨q, split⟩ := zeros
  have whole := Nat.two_pow_pos (excess n)
  rw [Nat.mul_comm] at split
  have kept : (Ratio.mk n (2 ^ excess n)).round = q :=
    Nat.le_antisymm (Ratio.round_le whole split.le) (Ratio.le_round whole split.ge)
  rw [nearest, kept, ← split]

theorem nearest_mul_two_pow (n k : Nat) : nearest (n * 2 ^ k) = nearest n * 2 ^ k := by
  rcases Nat.eq_zero_or_pos n with rfl | pos
  · simp [nearest_of_lt]
  have bits := log2_mul_two_pow pos.ne' k
  rcases Nat.lt_or_ge n.log2 52 with short | long
  · -- All bits of the first factor fit, so that those of the product that do not are zeros.
    have zeros : 2 ^ excess (n * 2 ^ k) ∣ n * 2 ^ k :=
      Dvd.dvd.mul_left (Nat.pow_dvd_pow 2 (by unfold excess; omega)) n
    rw [nearest_of_dvd zeros, nearest_of_lt ((Nat.log2_lt pos.ne').1 (by omega))]
  · have cut : excess (n * 2 ^ k) = excess n + k := by
      unfold excess
      omega
    rw [nearest, cut, Nat.pow_add, Ratio.round_mul_right (Nat.two_pow_pos k), ← Nat.mul_assoc, ← nearest]

/-! The conversion. -/

/-- What is kept of a mantissa that is shifted, and what is known of the rest. -/
theorem shiftRight_eq (m k : Nat) : ExtendedMantissa.mk m false false >>> k =
    ⟨m / 2 ^ k, decide (2 ^ k ≤ 2 * (m % 2 ^ k)), decide (2 * (m % 2 ^ k) % 2 ^ k ≠ 0)⟩ := by
  induction k with
  | zero => simp [HShiftRight.hShiftRight, Nat.repeat, Nat.mod_one]
  | succ k ih =>
    change (ExtendedMantissa.mk m false false >>> k).shiftRightOne = _
    have less := Nat.mod_lt m (Nat.two_pow_pos k)
    have rest : m % 2 ^ (k + 1) = m % 2 ^ k + 2 ^ k * (m / 2 ^ k % 2) := by rw [Nat.pow_succ, Nat.mod_mul]
    have again : 2 * (m % 2 ^ (k + 1)) % 2 ^ (k + 1) = 2 * (m % 2 ^ k) := by
      rw [Nat.pow_succ', Nat.mul_mod_mul_left, Nat.mod_mul_left_mod]
    rw [ih, ExtendedMantissa.shiftRightOne, again, rest, Nat.pow_succ, ← Nat.div_div_eq_div_mul]
    have bit := Nat.mod_two_eq_zero_or_one (m / 2 ^ k)
    congr 1
    · rw [Bool.eq_iff_iff]
      rcases bit with zero | one
      · simp [zero]
        omega
      · simp [one]
        omega
    · have pos := Nat.two_pow_pos k
      rcases Nat.lt_or_ge (2 * (m % 2 ^ k)) (2 ^ k) with below | above
      · simp [Nat.mod_eq_of_lt below, below]
      · simp [above]
        omega

theorem roundedMantissa_shiftRight (m k : Nat) :
    (ExtendedMantissa.mk m false false >>> k).roundedMantissa = (Ratio.mk m (2 ^ k)).round := by
  have less := Nat.mod_lt m (Nat.two_pow_pos k)
  rw [shiftRight_eq, Ratio.round]
  dsimp only
  rcases Nat.lt_trichotomy (2 * (m % 2 ^ k)) (2 ^ k) with below | half | above
  · rw [decide_eq_false (by omega), if_pos below]
    cases decide (2 * (m % 2 ^ k) % 2 ^ k ≠ 0) <;> rfl
  · have zeros : 2 * (m % 2 ^ k) % 2 ^ k = 0 := by rw [half, Nat.mod_self]
    rw [decide_eq_true half.ge, decide_eq_false (not_not.2 zeros), if_neg (by omega), if_neg (by omega)]
    change m / 2 ^ k + m / 2 ^ k % 2 = _
    split_ifs <;> omega
  · have rest : 2 * (m % 2 ^ k) % 2 ^ k ≠ 0 := by
      rw [Nat.mod_eq_sub_mod (Nat.le_of_lt above), Nat.mod_eq_of_lt (by omega)]
      omega
    rw [decide_eq_true (Nat.le_of_lt above), decide_eq_true rest, if_neg (by omega), if_pos above]
    rfl

/-- The exponent at which all bits fit, which is never lower than the least one. -/
theorem targetExponent_eq (m : Nat) (e : Int) :
    Format.binary64.targetExponent (totalExponent m e) = max ((m.log2 : Int) + e - 52) (-1074) := by
  simp only [Format.targetExponent, totalExponent, Format.mantissaBits, Format.minExponent]
  omega

/-- How many bits of a mantissa are rounded off. -/
def dropped (m : Nat) (e : Int) : Nat := (max ((m.log2 : Int) + e - 52) (-1074) - e).toNat

theorem shiftToTargetExponent_dropped (m : Nat) (e : Int) (accuracy : Accuracy) :
    shiftToTargetExponent Format.binary64 m e accuracy =
      (ExtendedMantissa.ofMantissaAndAccuracy m accuracy >>> dropped m e, e + dropped m e) := by
  rw [shiftToTargetExponent, targetExponent_eq]
  rfl

/-- A mantissa that is long enough is cut down to 53 bits. -/
theorem shiftToTargetExponent_eq {e : Int} (long : 52 ≤ m.log2) (low : -1074 ≤ e) :
    shiftToTargetExponent Format.binary64 m e .exact =
      (ExtendedMantissa.mk m false false >>> excess m, e + excess m) := by
  have cut : dropped m e = excess m := by
    unfold dropped excess
    omega
  rw [shiftToTargetExponent_dropped, cut]
  rfl

/-- Rounding may make a mantissa longer by one bit. -/
theorem round_bounds (long : 52 ≤ m.log2) :
    2 ^ 52 ≤ (Ratio.mk m (2 ^ excess m)).round ∧ (Ratio.mk m (2 ^ excess m)).round ≤ 2 ^ 53 := by
  have nonzero : m ≠ 0 := by
    rintro rfl
    exact absurd long (by decide)
  have bits : 52 + excess m = m.log2 := Nat.add_sub_cancel' long
  have bits' : 53 + excess m = m.log2 + 1 := by omega
  have above : 2 ^ 52 * 2 ^ excess m ≤ nearest m := by
    rw [← Nat.pow_add, bits]
    exact le_nearest nonzero
  have below : nearest m ≤ 2 ^ 53 * 2 ^ excess m := by
    rw [← Nat.pow_add, bits']
    exact nearest_le m
  exact ⟨Nat.le_of_mul_le_mul_right above (Nat.two_pow_pos _), Nat.le_of_mul_le_mul_right below (Nat.two_pow_pos _)⟩

/-- The bit by which it is longer is dropped, and it is a zero. -/
theorem div_excess (least : 2 ^ 52 ≤ m) (most : m ≤ 2 ^ 53) :
    (m / 2 ^ excess m).log2 = 52 ∧ m / 2 ^ excess m * 2 ^ excess m = m := by
  rcases Nat.lt_or_eq_of_le most with less | rfl
  · have fits : m.log2 = 52 := (Nat.log2_eq_iff (by omega)).2 ⟨least, less⟩
    simp [excess, fits]
  · decide +kernel

theorem roundWithAccuracy_eq {e : Int} (s : Sign) (long : 52 ≤ m.log2) (low : -1074 ≤ e) :
    ∃ (m' k : Nat) (pos : 0 < m'), m'.log2 = 52 ∧ nearest m = m' * 2 ^ k ∧
      roundWithAccuracy Format.binary64 s m e .exact = .finite s m' (e + k) pos := by
  obtain ⟨least, most⟩ := round_bounds long
  generalize kept : (Ratio.mk m (2 ^ excess m)).round = q at least most
  obtain ⟨bits, zeros⟩ := div_excess least most
  have long' : 52 ≤ q.log2 := (Nat.le_log2 (by omega)).2 least
  have pos : 0 < q / 2 ^ excess q := Nat.lt_of_lt_of_le (by decide) (lower_of_log2 bits)
  have first := shiftToTargetExponent_eq long low
  have second := shiftToTargetExponent_eq (m := q) (e := e + excess m) long' (by omega)
  refine ⟨q / 2 ^ excess q, excess q + excess m, pos, bits, ?_, ?_⟩
  · rw [nearest, kept, Nat.pow_add, ← Nat.mul_assoc, zeros]
  · rw [roundWithAccuracy, first]
    dsimp only
    rw [roundedMantissa_shiftRight, kept, second]
    dsimp only
    rw [shiftRight_eq]
    dsimp only
    rw [dif_neg pos.ne', Int.add_assoc, Nat.add_comm, Int.natCast_add]

/-! Packing. -/

theorem unpack_packedInfinity (s : Sign) :
    unpack Format.binary64 (packedInfinity Format.binary64 s) = .infinity s := by
  cases s <;> rfl

theorem toNat_implicit_append (m : BitVec 52) : (1#1 ++ m).toNat = m.toNat + 2 ^ 52 := by
  rw [BitVec.toNat_append, ← Nat.shiftLeft_add_eq_or_of_lt m.isLt]
  change 2 ^ 52 + m.toNat = _
  exact Nat.add_comm ..

theorem toNat_implicit (lower : 2 ^ 52 ≤ m) (upper : m < 2 ^ 53) : (1#1 ++ BitVec.ofNat 52 m).toNat = m := by
  rw [toNat_implicit_append, BitVec.toNat_ofNat]
  omega

theorem unpack_packComponents (s : Sign) {e : BitVec 11} (finite : e ≠ -1#11) (nonzero : e ≠ 0#11) (m : BitVec 52)
    (pos : 0 < (1#1 ++ m).toNat) :
    unpack Format.binary64 (packComponents Format.binary64 s e m) =
      .finite s (1#1 ++ m).toNat ((e.toNat : Int) - 1075) pos := by
  rw [unpack]
  simp only [unpackExponent_packComponents, unpackMantissa_packComponents, unpackSign_packComponents,
    Sign.ofBitVec_toBitVec, if_neg finite, if_neg nonzero]
  rfl

theorem unpack_pack {s : Sign} {e : Int} {pos : 0 < m} (bits : m.log2 = 52) (low : -1074 ≤ e) :
    unpack Format.binary64 (pack Format.binary64 (.finite s m e pos)) =
      if e ≤ 971 then .finite s m e pos else .infinity s := by
  have biased : e + Format.binary64.exponentBias + Format.binary64.mantissaBitsWithoutImplicit = e + 1075 := by
    change e + 1023 + 52 = e + 1075
    omega
  have whole : 52 + 1 = Format.binary64.mantissaBits := rfl
  have most : 2 ^ Format.binary64.exponentBits = 2048 := rfl
  rw [pack]
  dsimp only
  rw [biased, bits, if_pos whole, most]
  by_cases high : e ≤ 971
  · rw [if_neg (by omega), if_pos high]
    have mantissa := toNat_implicit (lower_of_log2 bits) (upper_of_log2 bits)
    have exponent : (BitVec.ofNat 11 (e + 1075).toNat).toNat = (e + 1075).toNat := by
      rw [BitVec.toNat_ofNat, Nat.mod_eq_of_lt (by omega)]
    have apart (other : BitVec 11) (different : (e + 1075).toNat ≠ other.toNat) :
        BitVec.ofNat 11 (e + 1075).toNat ≠ other := by
      rintro rfl
      exact different exponent.symm
    have finite : BitVec.ofNat 11 (e + 1075).toNat ≠ -1#11 := apart _ (by change _ ≠ 2047; omega)
    have normal : BitVec.ofNat 11 (e + 1075).toNat ≠ 0#11 := apart _ (by change _ ≠ 0; omega)
    rw [unpack_packComponents s finite normal _ (mantissa.symm ▸ pos)]
    congr 1
    rw [exponent]
    omega
  · rw [if_pos (by omega), if_neg high, unpack_packedInfinity]

/-! Whole numbers. -/

/-- A whole number by its 53 bits and its exponent. -/
structure Scaled (m : Nat) (e : Int) (n : Nat) : Prop where
  bits : m.log2 = 52
  low : -52 ≤ e
  same : n * 2 ^ 52 = m * 2 ^ (e + 52).toNat

namespace Scaled

variable {m' n' : Nat} {e e' : Int}

theorem pos (scaled : Scaled m e n) : 0 < n := by
  have := lower_of_log2 scaled.bits
  have : 0 < n * 2 ^ 52 := by
    rw [scaled.same]
    exact Nat.mul_pos (by omega) (Nat.two_pow_pos _)
  omega

/-- A mantissa times a power of two that has another one as a factor. -/
theorem of_mul_eq {j : Nat} (bits : m.log2 = 52) (pos : 0 < n) (same : m * 2 ^ k = n * 2 ^ j) :
    Scaled m (-j + k) n := by
  have low : j < 53 + k := by
    refine (Nat.pow_lt_pow_iff_right (by decide : 1 < 2)).1 ?_
    calc
      2 ^ j ≤ n * 2 ^ j := Nat.le_mul_of_pos_left _ pos
      _ = m * 2 ^ k := same.symm
      _ < 2 ^ 53 * 2 ^ k := Nat.mul_lt_mul_of_pos_right (upper_of_log2 bits) (Nat.two_pow_pos k)
      _ = 2 ^ (53 + k) := (Nat.pow_add ..).symm
  refine ⟨bits, by omega, ?_⟩
  apply Nat.eq_of_mul_eq_mul_right (Nat.two_pow_pos j)
  calc
    n * 2 ^ 52 * 2 ^ j = m * 2 ^ k * 2 ^ 52 := by rw [same, Nat.mul_right_comm]
    _ = m * 2 ^ ((-(j : Int) + k + 52).toNat + j) := by
      rw [Nat.mul_assoc, ← Nat.pow_add, show k + 52 = (-(j : Int) + k + 52).toNat + j by omega]
    _ = m * 2 ^ (-(j : Int) + k + 52).toNat * 2 ^ j := by rw [Nat.pow_add, Nat.mul_assoc]

/-- How many bits the number has. -/
theorem exponent_le_iff (scaled : Scaled m e n) (t : Nat) : e + 53 ≤ t ↔ n < 2 ^ t := by
  constructor
  · intro fits
    refine Nat.lt_of_mul_lt_mul_right (a := 2 ^ 52) ?_
    calc
      n * 2 ^ 52 = m * 2 ^ (e + 52).toNat := scaled.same
      _ < 2 ^ 53 * 2 ^ (e + 52).toNat :=
        Nat.mul_lt_mul_of_pos_right (upper_of_log2 scaled.bits) (Nat.two_pow_pos _)
      _ = 2 ^ (53 + (e + 52).toNat) := (Nat.pow_add ..).symm
      _ ≤ 2 ^ (t + 52) := Nat.pow_le_pow_right (by decide) (by have := scaled.low; omega)
      _ = 2 ^ t * 2 ^ 52 := Nat.pow_add ..
  · intro small
    by_contra beyond
    refine Nat.not_le.2 small (Nat.le_of_mul_le_mul_right (c := 2 ^ 52) ?_ (by decide))
    calc
      2 ^ t * 2 ^ 52 = 2 ^ 52 * 2 ^ t := Nat.mul_comm ..
      _ ≤ 2 ^ 52 * 2 ^ (e + 52).toNat := Nat.mul_le_mul_left _ (Nat.pow_le_pow_right (by decide) (by omega))
      _ ≤ m * 2 ^ (e + 52).toNat := Nat.mul_le_mul_right _ (lower_of_log2 scaled.bits)
      _ = n * 2 ^ 52 := scaled.same.symm

/-- Of mantissas of one length that with the greater exponent is the greater number. -/
theorem lt_of_exponent (scaled : Scaled m e n) (scaled' : Scaled m' e' n') (less : e < e') : n < n' := by
  have low := scaled.low
  have below : n < 2 ^ (e + 53).toNat := (scaled.exponent_le_iff _).1 (by omega)
  have above : ¬n' < 2 ^ (e + 53).toNat := mt (scaled'.exponent_le_iff _).2 (by omega)
  exact Nat.lt_of_lt_of_le below (Nat.not_lt.1 above)

theorem lt_of_mantissa (scaled : Scaled m e n) (scaled' : Scaled m' e n') (less : m < m') : n < n' := by
  have below : n * 2 ^ 52 < n' * 2 ^ 52 := by
    rw [scaled.same, scaled'.same]
    exact Nat.mul_lt_mul_of_pos_right less (Nat.two_pow_pos _)
  omega

theorem eq_of_mantissa (scaled : Scaled m e n) (scaled' : Scaled m e n') : n = n' := by
  have := scaled.same
  have := scaled'.same
  omega

theorem compare_eq (scaled : Scaled m e n) (scaled' : Scaled m' e' n') :
    (compare e e').then (compare m m') = compare (n : Int) n' := by
  rcases lt_trichotomy e e' with before | rfl | behind
  · have less := scaled.lt_of_exponent scaled' before
    rw [compare_lt_iff_lt.2 before, compare_lt_iff_lt.2 (Int.ofNat_lt.2 less)]
    rfl
  · rw [compare_eq_iff_eq.2 rfl, Ordering.eq_then]
    apply compare_eq_compare
    · exact fun less => Int.ofNat_lt.2 (scaled.lt_of_mantissa scaled' less)
    · rintro rfl
      exact congrArg Int.ofNat (scaled.eq_of_mantissa scaled')
    · exact fun more => Int.ofNat_lt.2 (scaled'.lt_of_mantissa scaled more)
  · have more := scaled'.lt_of_exponent scaled behind
    rw [compare_gt_iff_gt.2 behind, compare_gt_iff_gt.2 (Int.ofNat_lt.2 more)]
    rfl

end Scaled

/-- A whole number within the range, unpacked. -/
inductive IsWhole : UnpackedFloat → Int → Prop where
  | zero (s : Sign) : IsWhole (.zero s) 0
  | positive {m n : Nat} {e : Int} (pos : 0 < m) (scaled : Scaled m e n) (high : e ≤ 971) :
      IsWhole (.finite .positive m e pos) n
  | negative {m n : Nat} {e : Int} (pos : 0 < m) (scaled : Scaled m e n) (high : e ≤ 971) :
      IsWhole (.finite .negative m e pos) (-n)

namespace IsWhole

variable {u v : UnpackedFloat} {a b : Int}

theorem isFinite (whole : IsWhole u a) : u.isFinite = true := by
  cases whole <;> rfl

theorem exists_scaled (whole : IsWhole u a) (pos : 0 < a) :
    ∃ (m n : Nat) (e : Int) (pos' : 0 < m), u = .finite .positive m e pos' ∧ Scaled m e n ∧ a = n := by
  cases whole with
  | zero => exact absurd pos (Int.lt_irrefl 0)
  | positive pos' scaled => exact ⟨_, _, _, pos', rfl, scaled, rfl⟩
  | negative _ scaled =>
    have := scaled.pos
    omega

theorem neg (whole : IsWhole u a) : IsWhole u.neg (-a) := by
  cases whole with
  | zero s => exact .zero (-s)
  | positive pos scaled high => exact .negative pos scaled high
  | negative pos scaled high =>
    rw [Int.neg_neg]
    exact .positive pos scaled high

/-- Packing loses nothing. -/
theorem unpack_pack (whole : IsWhole u a) : unpack Format.binary64 (pack Format.binary64 u) = u := by
  cases whole with
  | zero s => cases s <;> rfl
  | positive pos scaled high | negative pos scaled high =>
    rw [Decimal.unpack_pack scaled.bits (by have := scaled.low; omega), if_pos high]

theorem compare_neg_neg (a b : Int) : compare (-a) (-b) = compare b a := by
  apply compare_eq_compare <;> omega

/-- Whole numbers stand to one another as they do among the integers. -/
theorem compare_eq (left : IsWhole u a) (right : IsWhole v b) : u.compare v = some (compare a b) := by
  have below {a b : Int} (less : a < b) : compare a b = .lt := compare_lt_iff_lt.2 less
  have above {a b : Int} (more : b < a) : compare a b = .gt := compare_gt_iff_gt.2 more
  cases left with
  | zero =>
    cases right with
    | zero => rfl
    | positive _ scaled' => exact congrArg some (below (Int.natCast_pos.2 scaled'.pos)).symm
    | negative _ scaled' => exact congrArg some (above (by have := scaled'.pos; omega)).symm
  | positive _ scaled =>
    have pos := scaled.pos
    cases right with
    | zero => exact congrArg some (above (by omega)).symm
    | positive _ scaled' => exact congrArg some (scaled.compare_eq scaled')
    | negative _ scaled' => exact congrArg some (above (by omega)).symm
  | negative _ scaled =>
    have pos := scaled.pos
    cases right with
    | zero => exact congrArg some (below (by omega)).symm
    | positive _ scaled' => exact congrArg some (below (by omega)).symm
    | negative _ scaled' =>
      rw [compare_neg_neg, ← Int.compare_swap, ← scaled.compare_eq scaled']
      rfl

end IsWhole

/-- A mantissa whose rounding is a whole number times a power of two becomes that number by the exponent. -/
theorem unpack_roundWithAccuracy {j : Nat} (long : 52 ≤ m.log2) (low : j ≤ 1074) (pos : 0 < n)
    (same : nearest m = n * 2 ^ j) :
    (n < 2 ^ 1024 → IsWhole (unpack Format.binary64 (pack Format.binary64
      (roundWithAccuracy Format.binary64 .positive m (-j) .exact))) n) ∧
    (2 ^ 1024 ≤ n → unpack Format.binary64 (pack Format.binary64
      (roundWithAccuracy Format.binary64 .positive m (-j) .exact)) = .infinity .positive) := by
  have low : -1074 ≤ -(j : Int) := by omega
  obtain ⟨m', k, pos', bits, kept, rounded⟩ := roundWithAccuracy_eq .positive long low
  have scaled : Scaled m' (-j + k) n := .of_mul_eq bits pos (kept.symm.trans same)
  have range : -(j : Int) + k ≤ 971 ↔ n < 2 ^ 1024 := by
    rw [← scaled.exponent_le_iff 1024]
    omega
  rw [rounded, unpack_pack bits (by omega)]
  constructor
  · intro small
    rw [if_pos (range.2 small)]
    exact .positive pos' scaled (range.2 small)
  · intro big
    rw [if_neg fun fits => Nat.not_lt.2 big (range.1 fits)]

theorem lt_two_pow (small : n < 2 ^ 53) {t : Nat} (wide : 53 ≤ t) : n < 2 ^ t :=
  Nat.lt_of_lt_of_le small (Nat.pow_le_pow_right (by decide) wide)

/-- A whole number of up to 53 bits is converted as it is. -/
theorem unpack_ofUInt64 (pos : 0 < n) (small : n < 2 ^ 53) : IsWhole (Float.Model.ofUInt64 n.toUInt64).unpack n := by
  have bits : n.log2 ≤ 52 := Nat.le_of_lt_succ ((Nat.log2_lt pos.ne').2 small)
  have word : n.toUInt64.toNat = n := by
    rw [UInt64.toNat_ofNat', Nat.mod_eq_of_lt (by omega)]
  have target : Format.binary64.targetExponent (totalExponent n 0) = (n.log2 : Int) - 52 := by
    rw [targetExponent_eq]
    omega
  have shift : (0 - ((n.log2 : Int) - 52)).toNat = 52 - n.log2 := by omega
  have converted : UnpackedFloat.ofUInt64 Format.binary64 n.toUInt64 =
      roundWithAccuracy Format.binary64 .positive (n * 2 ^ (52 - n.log2)) (-(52 - n.log2 : Nat)) .exact := by
    rw [UnpackedFloat.ofUInt64, word, UnpackedFloat.ofNat, UnpackedFloat.ofInt, UnpackedFloat.normalize,
      Int.compare_eq_gt.2 (Int.natCast_pos.2 pos)]
    dsimp only
    rw [UnpackedFloat.round, Int.toNat_natCast, target, UnpackedFloat.decreaseExponent, shift, Nat.shiftLeft_eq,
      Int.zero_sub]
  have long : 52 ≤ (n * 2 ^ (52 - n.log2)).log2 := by
    rw [log2_mul_two_pow pos.ne']
    omega
  have value : nearest (n * 2 ^ (52 - n.log2)) = n * 2 ^ (52 - n.log2) := by
    rw [nearest_mul_two_pow, nearest_of_lt small]
  change IsWhole (unpack Format.binary64 (pack Format.binary64 (UnpackedFloat.ofUInt64 Format.binary64 n.toUInt64))) n
  rw [converted]
  exact (unpack_roundWithAccuracy long (by omega) pos value).1 (lt_two_pow small (by decide))

theorem unpack_mul (x y : Float) : (x * y).toModel.unpack =
    unpack Format.binary64 (pack Format.binary64
      (UnpackedFloat.mul Format.binary64 x.toModel.unpack y.toModel.unpack)) := rfl

/-- Multiplying it by one leaves it as it is. -/
theorem unpack_ofNat_of_lt (small : n < 2 ^ 53) : IsWhole (Float.ofNat n).toModel.unpack n := by
  rcases Nat.eq_zero_or_pos n with rfl | pos
  · exact .zero .positive
  have converted : Float.ofNat n = n.toUInt64.toFloat * Float.ofBits 0x3FF0000000000000 := by
    change Float.ofScientific n false 0 = _
    rw [Float.ofScientific, dif_pos ⟨small, by decide⟩]
    rfl
  have one : (Float.ofBits 0x3FF0000000000000).toModel.unpack = .finite .positive (2 ^ 52) (-52) (by decide) := rfl
  obtain ⟨m, _, e, pos', unpacked, scaled, same⟩ := (unpack_ofUInt64 pos small).exists_scaled (Int.natCast_pos.2 pos)
  cases Int.ofNat.inj same
  have unpacked : n.toUInt64.toFloat.toModel.unpack = .finite .positive m e pos' := unpacked
  have high : e + 53 ≤ 53 := (scaled.exponent_le_iff 53).2 small
  have low := scaled.low
  have exponent : e + -52 = -((52 - e).toNat : Int) := by omega
  have long : 52 ≤ (m * 2 ^ 52).log2 := by
    rw [log2_mul_two_pow pos'.ne']
    omega
  have value : nearest (m * 2 ^ 52) = n * 2 ^ (52 - e).toNat := by
    rw [nearest_mul_two_pow, nearest_of_lt (upper_of_log2 scaled.bits)]
    apply Nat.eq_of_mul_eq_mul_right (Nat.two_pow_pos (e + 52).toNat)
    calc
      m * 2 ^ 52 * 2 ^ (e + 52).toNat = n * 2 ^ 52 * 2 ^ 52 := by rw [scaled.same, Nat.mul_right_comm]
      _ = n * 2 ^ ((52 - e).toNat + (e + 52).toNat) := by
        rw [Nat.mul_assoc, ← Nat.pow_add, show (52 - e).toNat + (e + 52).toNat = 52 + 52 by omega]
      _ = n * 2 ^ (52 - e).toNat * 2 ^ (e + 52).toNat := by rw [Nat.pow_add, Nat.mul_assoc]
  rw [converted, unpack_mul, one, unpacked]
  change IsWhole (unpack Format.binary64 (pack Format.binary64
    (roundWithAccuracy Format.binary64 .positive (m * 2 ^ 52) (e + -52) .exact))) n
  rw [exponent]
  exact (unpack_roundWithAccuracy long (by omega) pos value).1 (lt_two_pow small (by decide))

/-- A whole number becomes the nearest one of 53 bits, unless that is too large. -/
theorem unpack_ofNat (n : Nat) :
    (nearest n < 2 ^ 1024 → IsWhole (Float.ofNat n).toModel.unpack (nearest n)) ∧
    (2 ^ 1024 ≤ nearest n → (Float.ofNat n).toModel.unpack = .infinity .positive) := by
  rcases Nat.lt_or_ge n (2 ^ 53) with small | large
  · rw [nearest_of_lt small]
    exact ⟨fun _ => unpack_ofNat_of_lt small, fun big => absurd (lt_two_pow small (by decide)) (Nat.not_lt.2 big)⟩
  have nonzero : n ≠ 0 := by omega
  have slow : Float.ofNat n = Float.ofModel (Float.Model.ofScientific n 0) := by
    change Float.ofScientific n false 0 = _
    rw [Float.ofScientific, dif_neg fun fits => absurd fits.1 (Nat.not_lt.2 large)]
    rfl
  have inside : ¬(0 : Int) < -(2 ^ Format.binary64.exponentBits + n.log2) := by
    change ¬(0 : Int) < -(2048 + n.log2)
    omega
  have converted : UnpackedFloat.ofScientific Format.binary64 n 0 =
      roundWithAccuracy Format.binary64 .positive (n * 2 ^ 53) (-(53 : Nat)) .exact := by
    rw [UnpackedFloat.ofScientific, dif_neg nonzero, if_neg (by decide), if_neg inside, if_pos (by decide)]
    change roundWithAccuracy Format.binary64 .positive ((n <<< 53) * 1) (-53 + 0) .exact = _
    rw [Nat.mul_one, Nat.shiftLeft_eq]
    rfl
  have long : 52 ≤ (n * 2 ^ 53).log2 := by
    rw [log2_mul_two_pow nonzero]
    omega
  have pos : 0 < nearest n := Nat.lt_of_lt_of_le (Nat.two_pow_pos _) (le_nearest nonzero)
  rw [slow]
  change (_ → IsWhole (unpack Format.binary64 (pack Format.binary64
    (UnpackedFloat.ofScientific Format.binary64 n 0))) _) ∧ (_ → unpack Format.binary64 (pack Format.binary64
    (UnpackedFloat.ofScientific Format.binary64 n 0)) = _)
  rw [converted]
  exact unpack_roundWithAccuracy long (by decide) pos (nearest_mul_two_pow n 53)

theorem toNat_unpackExponent (b : BitVec 64) :
    (@unpackExponent Format.binary64 b).toNat = b.toNat / 2 ^ 52 % 2048 := by
  rw [unpackExponent, BitVec.toNat_cast, BitVec.extractLsb_toNat, Nat.shiftRight_eq_div_pow]
  rfl

theorem isFinite_unpack (x : Float) :
    x.toModel.unpack.isFinite = true ↔ ∃ negative m e, Binary.ofFloat x = .finite negative m e := by
  have exponent : @unpackExponent Format.binary64 x.toModel.toBits.toBitVec = -1#11 ↔
      x.toBits.toNat / 2 ^ 52 % 2048 = 2047 := by
    rw [← BitVec.toNat_inj, toNat_unpackExponent]
    rfl
  have biased : x.toBits.toNat / Nat.pow 2 52 % 2048 = x.toBits.toNat / 2 ^ 52 % 2048 := rfl
  unfold Float.Model.unpack unpack Binary.ofFloat
  dsimp only
  rw [biased]
  by_cases all : x.toBits.toNat / 2 ^ 52 % 2048 = 2047
  · rw [if_pos (exponent.2 all), if_pos all]
    constructor
    · intro finite
      split at finite <;> cases finite
    · rintro ⟨_, _, _, finite⟩
      split at finite <;> cases finite
  · rw [if_neg (mt exponent.1 all), if_neg all]
    constructor
    · intro _
      split
      · exact ⟨_, _, _, rfl⟩
      · exact ⟨_, _, _, rfl⟩
    · intro _
      split_ifs <;> rfl

/-! Integers. -/

/-- An integer with 53 of its bits. -/
def rounded (n : Int) : Int := if n < 0 then -(nearest n.natAbs : Int) else nearest n.natAbs

/-- The least number that is rounded to one beyond the range. -/
def limit : Nat := 2 ^ 1024 - 2 ^ 970

theorem nearest_lt_iff : nearest n < 2 ^ 1024 ↔ n < limit := by
  have last : nearest (limit - 1) < 2 ^ 1024 := by decide +kernel
  have first : 2 ^ 1024 ≤ nearest limit := by decide +kernel
  constructor
  · intro small
    by_contra beyond
    exact absurd (Nat.lt_of_le_of_lt (first.trans (nearest_mono (Nat.not_lt.1 beyond))) small) (Nat.lt_irrefl _)
  · intro inside
    exact Nat.lt_of_le_of_lt (nearest_mono (Nat.le_sub_one_of_lt inside)) last

theorem rounded_of_le {n : Int} (small : n.natAbs ≤ 2 ^ 53) : rounded n = n := by
  have kept : nearest n.natAbs = n.natAbs := by
    rcases Nat.lt_or_eq_of_le small with less | edge
    · exact nearest_of_lt less
    · rw [edge]
      decide +kernel
  unfold rounded
  rw [kept]
  split_ifs <;> omega

theorem rounded_mono {a b : Int} (below : a ≤ b) : rounded a ≤ rounded b := by
  unfold rounded
  split_ifs with negative negative'
  · have := nearest_mono (show b.natAbs ≤ a.natAbs by omega)
    omega
  · omega
  · omega
  · have := nearest_mono (show a.natAbs ≤ b.natAbs by omega)
    omega

/-- What is not rounded to one number stays in its order. -/
theorem compare_rounded {a b : Int} (apart : rounded a = rounded b → a = b) :
    compare (rounded a) (rounded b) = compare a b := by
  symm
  apply compare_eq_compare
  · exact fun less => lt_of_le_of_ne (rounded_mono less.le) fun same => less.ne (apart same)
  · exact congrArg rounded
  · exact fun more => lt_of_le_of_ne (rounded_mono more.le) fun same => more.ne' (apart same.symm)

/-- An integer that is not too large becomes the number it is rounded to. -/
theorem exists_ofWhole? {n : Int} (inside : n.natAbs < limit) :
    ∃ x, ofWhole? n = some x ∧ IsWhole x.toModel.unpack (rounded n) := by
  have whole := (unpack_ofNat n.natAbs).1 (nearest_lt_iff.2 inside)
  obtain ⟨negative, m, e, same⟩ := (isFinite_unpack _).1 whole.isFinite
  refine ⟨if n < 0 then -Float.ofNat n.natAbs else Float.ofNat n.natAbs, ?_, ?_⟩
  · unfold ofWhole?
    dsimp only
    rw [same]
  · unfold rounded
    split_ifs with below
    · change IsWhole (unpack Format.binary64 (pack Format.binary64 (Float.ofNat n.natAbs).toModel.unpack.neg)) _
      rw [whole.neg.unpack_pack]
      exact whole.neg
    · exact whole

/-- An integer that is too large has no such number. -/
theorem ofWhole?_of_limit_le {n : Int} (beyond : limit ≤ n.natAbs) : ofWhole? n = none := by
  have big : 2 ^ 1024 ≤ nearest n.natAbs := Nat.not_lt.1 (mt nearest_lt_iff.1 (Nat.not_lt.2 beyond))
  have infinite := (unpack_ofNat n.natAbs).2 big
  unfold ofWhole?
  dsimp only
  split
  · rename_i negative m e same
    have finite := (isFinite_unpack _).2 ⟨negative, m, e, same⟩
    rw [infinite] at finite
    cases finite
  · rfl

/-- No more than 53 bits are kept, and of what lies halfway the even one. -/
example : rounded (2 ^ 53 + 1) = 2 ^ 53 := by decide +kernel

end Runbook.Decimal
