import Runbook.Proofs.Arithmetic

/-!
Powers of numbers that are one or more. The nearest number to a power exists exactly when the power is less than
the least one that is rounded to infinity.
-/
namespace Runbook.Decimal

open Float.Model (Format UnpackedFloat totalExponent)
open Float.Model.UnpackedFloat (Accuracy accuracyOfFraction divCore pack unpack)

variable {n d k : Nat}

theorem log2_le_of_lt_mul (above : n < 2 ^ k * d) : n.log2 ≤ d.log2 + k := by
  rcases Nat.eq_zero_or_pos n with rfl | pos'
  · exact Nat.zero_le _
  apply Nat.le_of_lt_succ
  rw [Nat.log2_lt pos'.ne']
  calc
    n < 2 ^ k * d := above
    _ ≤ 2 ^ k * 2 ^ (d.log2 + 1) := Nat.mul_le_mul_left _ Nat.lt_log2_self.le
    _ = 2 ^ (d.log2 + k + 1) := by rw [← Nat.pow_add, Nat.add_comm k, Nat.add_right_comm]

/-! Quotients. -/

/-- The quotient of two whole numbers is within the range when it is neither too small nor too large. -/
theorem measures_quotient (pos : 0 < d) (below : d ≤ n) (above : n < 2 ^ k * d) (small : k ≤ 1000)
    (pos' : 0 < n) : ∃ q, Measures (unpack Format.binary64 (pack Format.binary64
      (UnpackedFloat.div Format.binary64 (.finite .positive n 0 pos') (.finite .positive d 0 pos)))) q := by
  have upper := log2_le_of_lt_mul above
  have lower : d.log2 ≤ n.log2 := (Nat.le_log2 pos'.ne').2 ((Nat.log2_self_le pos.ne').trans below)
  have target : min ((0 : Int) - 0) (Format.binary64.targetExponent (totalExponent n 0 - totalExponent d 0)) =
      -(53 - (n.log2 - d.log2) : Nat) := by
    simp only [Format.targetExponent, totalExponent, Format.mantissaBits, Format.minExponent]
    omega
  generalize shift : 53 - (n.log2 - d.log2) = s at target
  have divided : UnpackedFloat.div Format.binary64 (.finite .positive n 0 pos') (.finite .positive d 0 pos) =
      UnpackedFloat.roundWithAccuracy Format.binary64 .positive (n * 2 ^ s / d) (-s)
        (accuracyOfFraction (n * 2 ^ s % d) d) := by
    rw [UnpackedFloat.div, divCore]
    simp only [target]
    rw [show ((0 : Int) - 0 - -(s : Int)).toNat = s by omega, Nat.shiftLeft_eq]
    rfl
  have long : 2 ^ 52 ≤ n * 2 ^ s / d := by
    rw [Nat.le_div_iff_mul_le pos]
    calc
      2 ^ 52 * d ≤ 2 ^ 52 * 2 ^ (d.log2 + 1) := Nat.mul_le_mul_left _ Nat.lt_log2_self.le
      _ = 2 ^ (52 + (d.log2 + 1)) := (Nat.pow_add ..).symm
      _ ≤ 2 ^ (n.log2 + s) := Nat.pow_le_pow_right (by decide) (by omega)
      _ = 2 ^ n.log2 * 2 ^ s := Nat.pow_add ..
      _ ≤ n * 2 ^ s := Nat.mul_le_mul_right _ (Nat.log2_self_le pos'.ne')
  have nonzero : n * 2 ^ s / d ≠ 0 := by omega
  have short : (n * 2 ^ s / d).log2 ≤ k + s := by
    apply Nat.le_of_lt_succ
    rw [Nat.log2_lt nonzero, Nat.div_lt_iff_lt_mul pos]
    calc
      n * 2 ^ s < 2 ^ k * d * 2 ^ s := Nat.mul_lt_mul_of_pos_right above (Nat.two_pow_pos s)
      _ = 2 ^ (k + s) * d := by rw [Nat.pow_add, Nat.mul_right_comm]
      _ ≤ 2 ^ (k + s + 1) * d := Nat.mul_le_mul_right _ (Nat.pow_le_pow_right (by decide) (Nat.le_succ _))
  have wide : Wide (n * 2 ^ s / d) (-s) := .inl ((Nat.le_log2 nonzero).2 long)
  have fits : Fits (n * 2 ^ s / d) (-s) (accuracyOfFraction (n * 2 ^ s % d) d) := by
    left
    rw [exponent_dropped wide]
    omega
  rw [divided]
  exact ⟨_, measures_outcome wide (Nat.pos_of_ne_zero nonzero) fits⟩

theorem measures_ofScientific {p : Nat} (long : 2 ^ 53 ≤ n) (pos : 0 < p) (below : 10 ^ p ≤ n)
    (above : n < 2 ^ k * 10 ^ p) (small : k ≤ 1000) (few : p ≤ 1000) :
    ∃ q, Measures (Float.ofScientific n true p).toModel.unpack q := by
  have slow : Float.ofScientific n true p = Float.ofModel (Float.Model.ofScientific n (-p)) := by
    rw [Float.ofScientific, dif_neg fun fits => absurd fits.1 (Nat.not_lt.2 long), if_pos rfl, Int.negOfNat_eq]
    rfl
  have nonzero : n ≠ 0 := by omega
  have high : ¬(-p : Int) > 2 ^ Format.binary64.exponentBits := by
    change ¬(-p : Int) > 2048
    omega
  have low : ¬(-p : Int) < -(2 ^ Format.binary64.exponentBits + n.log2) := by
    change ¬(-p : Int) < -(2048 + n.log2)
    omega
  have places : (-(-p : Int)).toNat = p := by omega
  have divided : UnpackedFloat.ofScientific Format.binary64 n (-p) = UnpackedFloat.div Format.binary64
      (.finite .positive n 0 (Nat.pos_of_ne_zero nonzero))
      (.finite .positive (10 ^ p) 0 (Nat.pow_pos (by decide))) := by
    rw [UnpackedFloat.ofScientific, dif_neg nonzero, if_neg high, if_neg low, if_neg (by omega)]
    simp only [places]
  rw [slow]
  change ∃ q, Measures (unpack Format.binary64 (pack Format.binary64
    (UnpackedFloat.ofScientific Format.binary64 n (-p)))) q
  rw [divided]
  exact measures_quotient _ below above small _

end Runbook.Decimal

namespace Runbook.Retry

open Decimal
open Float.Model (UnpackedFloat)

variable {n d k s : Nat}

/-! The nearest number to a fraction. -/

/-- Twice a quotient, and odd when it has a remainder. -/
def sticky (n d : Nat) : Nat := if n % d = 0 then 2 * (n / d) else 2 * (n / d) + 1

theorem sticky_lt_iff (pos : 0 < d) (k : Nat) : sticky n d < 2 * k ↔ n < k * d := by
  rw [← Nat.div_lt_iff_lt_mul pos]
  unfold sticky
  split_ifs <;> omega

theorem scaled_natCast (m s : Nat) : Ratio.scaled m s = ⟨m * 2 ^ s, 1⟩ := by
  rw [Ratio.scaled, if_pos (Int.natCast_nonneg s)]
  rfl

theorem scaled_neg_natCast (m s : Nat) : Ratio.scaled m (-(s + 1 : Nat)) = ⟨m, 2 ^ (s + 1)⟩ := by
  have negative : ¬(-(s + 1 : Nat) : Int) ≥ 0 := by omega
  rw [Ratio.scaled, if_neg negative, Int.neg_neg]
  rfl

/-- A large one is a whole number. -/
theorem nearest_large (bits : n.log2 = d + 67 + s) :
    nearest ⟨n, 2 ^ d⟩ = Float.ofNat (sticky n (2 ^ (d + s + 1)) * 2 ^ s) := by
  have scale : (((2 ^ d).log2 : Int) - n.log2 + 66) = -((s + 1 : Nat) : Int) := by
    rw [Nat.log2_two_pow, bits]
    omega
  have up : ¬(-((s + 1 : Nat) : Int) ≥ 0) := by omega
  have whole : ((s + 1 : Nat) : Int) - 1 = s := by omega
  unfold nearest
  simp only [scale, if_neg up, Int.neg_neg, whole, scaled_natCast, Int.toNat_natCast, Nat.shiftLeft_eq]
  rw [← Nat.pow_add]
  rfl

/-- A small one is not. -/
theorem nearest_small (bits : n.log2 + s = d + 66) :
    nearest ⟨n, 2 ^ d⟩ = Decimal.ofScientific (sticky (n * 2 ^ s) (2 ^ d) * 5 ^ (s + 1)) (-(s + 1 : Nat)) := by
  have scale : (((2 ^ d).log2 : Int) - n.log2 + 66) = s := by
    rw [Nat.log2_two_pow]
    omega
  have up : (s : Int) ≥ 0 := Int.natCast_nonneg s
  have whole : -(s : Int) - 1 = -(s + 1 : Nat) := by omega
  have apart : 2 ^ (s + 1) ≠ 1 := by simp
  unfold nearest
  simp only [scale, if_pos up, whole, scaled_neg_natCast, Int.toNat_natCast, Nat.shiftLeft_eq, if_neg apart]
  rw [Nat.log2_two_pow]
  rfl

theorem sticky_mul_lt_limit_iff (bits : n.log2 = d + 67 + s) :
    sticky n (2 ^ (d + s + 1)) * 2 ^ s < limit ↔ n < limit * 2 ^ d := by
  have whole := Nat.two_pow_pos (d + s + 1)
  rcases Nat.lt_or_ge s 970 with short | long
  · have even : limit = 2 * ((2 ^ 54 - 1) * 2 ^ (969 - s)) * 2 ^ s := by
      rw [limit_eq, Nat.mul_left_comm, Nat.mul_assoc, ← Nat.pow_succ', ← Nat.pow_add,
        show (969 - s).succ + s = 970 by omega]
    have scaled : limit * 2 ^ d = (2 ^ 54 - 1) * 2 ^ (969 - s) * 2 ^ (d + s + 1) := by
      rw [even, Nat.add_assoc, Nat.add_comm d, Nat.pow_add 2 (s + 1), Nat.pow_succ]
      ring
    rw [scaled, ← sticky_lt_iff whole, even, Nat.mul_lt_mul_right (Nat.two_pow_pos s)]
  · have nonzero : n ≠ 0 := by
      rintro rfl
      rw [Nat.log2_zero] at bits
      omega
    have least : 2 ^ (d + 67 + s) ≤ n := bits ▸ Nat.log2_self_le nonzero
    have beyond : limit * 2 ^ d ≤ n := by
      calc
        limit * 2 ^ d ≤ 2 ^ (67 + s) * 2 ^ d := Nat.mul_le_mul_right _ (limit_le (by omega))
        _ = 2 ^ (d + 67 + s) := by rw [← Nat.pow_add, Nat.add_comm, Nat.add_assoc]
        _ ≤ n := least
    have wide : ¬sticky n (2 ^ (d + s + 1)) < 2 * 2 ^ 66 := by
      rw [sticky_lt_iff whole, ← Nat.pow_add, show 66 + (d + s + 1) = d + 67 + s by omega]
      exact Nat.not_lt.2 least
    have beyond' : limit ≤ sticky n (2 ^ (d + s + 1)) * 2 ^ s := by
      calc
        limit ≤ 2 ^ (67 + s) := limit_le (by omega)
        _ = 2 * 2 ^ 66 * 2 ^ s := by rw [Nat.pow_add, ← Nat.pow_succ']
        _ ≤ _ := Nat.mul_le_mul_right _ (Nat.not_lt.1 wide)
    exact ⟨fun less => absurd less (Nat.not_lt.2 beyond'), fun less => absurd less (Nat.not_lt.2 beyond)⟩

theorem measures_nearest_small (bits : n.log2 + s = d + 66) (whole : 2 ^ d ≤ n) :
    ∃ q, Measures (nearest ⟨n, 2 ^ d⟩).toModel.unpack q := by
  have pos := Nat.two_pow_pos d
  have nonzero : n ≠ 0 := by
    have := Nat.two_pow_pos d
    omega
  have bits' := log2_mul_two_pow nonzero s
  have few : s ≤ 66 := by
    have := (Nat.le_log2 nonzero).2 whole
    omega
  have scaled : n * 2 ^ s ≠ 0 := Nat.mul_ne_zero nonzero (Nat.two_pow_pos s).ne'
  have least : 2 ^ 66 * 2 ^ d ≤ n * 2 ^ s := by
    rw [← Nat.pow_add, Nat.add_comm, ← bits, ← bits']
    exact Nat.log2_self_le scaled
  have most : n * 2 ^ s < 2 ^ 67 * 2 ^ d := by
    rw [← Nat.pow_add, show 67 + d = (n * 2 ^ s).log2 + 1 by omega]
    exact Nat.lt_log2_self
  have odd : ¬sticky (n * 2 ^ s) (2 ^ d) < 2 * 2 ^ 66 := mt (sticky_lt_iff pos _).1 (Nat.not_lt.2 least)
  have odd' : sticky (n * 2 ^ s) (2 ^ d) < 2 * 2 ^ 67 := (sticky_lt_iff pos _).2 most
  rw [nearest_small bits]
  generalize sticky (n * 2 ^ s) (2 ^ d) = m at odd odd'
  have fives : 1 ≤ 5 ^ (s + 1) := Nat.pow_pos (by decide)
  have long : 2 ^ 53 ≤ m * 5 ^ (s + 1) := by
    calc
      2 ^ 53 ≤ m * 1 := by omega
      _ ≤ m * 5 ^ (s + 1) := Nat.mul_le_mul_left _ fives
  have below : 10 ^ (s + 1) ≤ m * 5 ^ (s + 1) := by
    rw [show 10 = 2 * 5 from rfl, Nat.mul_pow]
    have twos : 2 ^ (s + 1) ≤ 2 ^ 67 := Nat.pow_le_pow_right (by decide) (by omega)
    exact Nat.mul_le_mul_right _ (by omega)
  have above : m * 5 ^ (s + 1) < 2 ^ 68 * 10 ^ (s + 1) := by
    calc
      m * 5 ^ (s + 1) < 2 ^ 68 * 5 ^ (s + 1) := Nat.mul_lt_mul_of_pos_right (by omega) fives
      _ ≤ 2 ^ 68 * 10 ^ (s + 1) := Nat.mul_le_mul_left _ (Nat.pow_le_pow_left (by decide) _)
  have digits : (Nat.toDigits 10 (m * 5 ^ (s + 1))).length ≤ 68 + (s + 1) := by
    rw [Nat.length_toDigits_le_iff (by decide) (by omega)]
    calc
      m * 5 ^ (s + 1) < 2 ^ 68 * 10 ^ (s + 1) := above
      _ ≤ 10 ^ 68 * 10 ^ (s + 1) := Nat.mul_le_mul_right _ (Nat.pow_le_pow_left (by decide) _)
      _ = 10 ^ (68 + (s + 1)) := (Nat.pow_add ..).symm
  have read : Decimal.ofScientific (m * 5 ^ (s + 1)) (-(s + 1 : Nat)) =
      Float.ofScientific (m * 5 ^ (s + 1)) true (s + 1) := by
    unfold Decimal.ofScientific
    dsimp only
    rw [if_neg (by omega), if_neg (by omega), if_neg (by omega), Int.neg_neg, Int.toNat_natCast]
  rw [read]
  exact measures_ofScientific long (Nat.succ_pos s) below above (by decide) (by omega)

/-- The nearest number to a fraction that is one or more is infinite only when the fraction is too large. -/
theorem measures_nearest (whole : 2 ^ d ≤ n) (inside : n < limit * 2 ^ d) :
    ∃ q, Measures (nearest ⟨n, 2 ^ d⟩).toModel.unpack q := by
  rcases Nat.lt_or_ge n.log2 (d + 67) with small | large
  · obtain ⟨s, bits⟩ := Nat.exists_eq_add_of_le (Nat.le_of_lt_succ small)
    exact measures_nearest_small bits.symm whole
  · obtain ⟨s, bits⟩ := Nat.exists_eq_add_of_le large
    rw [nearest_large bits]
    have fits := nearest_lt_iff.2 ((sticky_mul_lt_limit_iff bits).2 inside)
    exact ⟨_, ((unpack_ofNat _).1 fits).measures⟩

theorem nearest_infinite (beyond : limit * 2 ^ d ≤ n) : (nearest ⟨n, 2 ^ d⟩).toModel.unpack = .infinity .positive := by
  have large : d + 67 ≤ n.log2 := by
    have nonzero : n ≠ 0 := by
      rintro rfl
      exact absurd beyond (Nat.not_le.2 (Nat.mul_pos (Nat.cast_pos.1 limit_pos) (Nat.two_pow_pos d)))
    rw [Nat.le_log2 nonzero]
    calc
      2 ^ (d + 67) = 2 ^ 67 * 2 ^ d := by rw [Nat.add_comm, Nat.pow_add]
      _ ≤ limit * 2 ^ d := Nat.mul_le_mul_right _ (le_limit (by decide))
      _ ≤ n := beyond
  obtain ⟨s, bits⟩ := Nat.exists_eq_add_of_le large
  rw [nearest_large bits]
  refine (unpack_ofNat _).2 (Nat.not_lt.1 (mt nearest_lt_iff.1 ?_))
  rw [sticky_mul_lt_limit_iff bits]
  exact Nat.not_lt.2 beyond

/-! Powers. -/

variable {x : Float} {m : Nat} {e : Int} {a : ℚ}

theorem exists_scaled_eq (m : Nat) (e : Int) :
    ∃ n d : Nat, Ratio.scaled m e = ⟨n, 2 ^ d⟩ ∧ (n : ℚ) = m * 2 ^ e * 2 ^ d := by
  rcases le_or_gt 0 e with up | down
  · obtain ⟨k, rfl⟩ := Int.eq_ofNat_of_zero_le up
    exact ⟨m * 2 ^ k, 0, scaled_natCast m k, by rw [zpow_natCast]; push_cast; ring⟩
  · obtain ⟨k, below⟩ := Int.le.dest (Int.add_one_le_of_lt down)
    obtain rfl : e = -(k + 1 : Nat) := by omega
    refine ⟨m, k + 1, scaled_neg_natCast m k, ?_⟩
    rw [zpow_neg, zpow_natCast]
    field_simp

theorem floatPower_of_pos (same : Binary.ofFloat x = .finite false m e) (pos : 0 < m) (more : 0 < k)
    (low : -5000 ≤ ((m.log2 : Int) + e) * k) (high : ((m.log2 : Int) + e) * k ≤ 5000) :
    floatPower x k = match Binary.ofFloat (nearest ⟨(Ratio.scaled m e).num ^ k, (Ratio.scaled m e).den ^ k⟩) with
      | .finite .. => .ok (nearest ⟨(Ratio.scaled m e).num ^ k, (Ratio.scaled m e).den ^ k⟩)
      | _ => .error resultTooLarge := by
  have some : ¬(k : Int) = 0 := by omega
  have up : (k : Int) > 0 := by omega
  unfold floatPower
  rw [same]
  simp only [if_neg some, if_neg pos.ne', if_neg (not_lt.2 high), if_neg (not_lt.2 low), if_pos up, Int.natAbs_natCast,
    Bool.false_and]
  rfl

theorem floatPower_zero (same : Binary.ofFloat x = .finite false m e) : floatPower x 0 = .ok 1.0 := by
  unfold floatPower
  rw [same]
  rfl

/-- The exponent alone shows that it is too large. -/
theorem floatPower_of_far (same : Binary.ofFloat x = .finite false m e) (pos : 0 < m) (more : 0 < k)
    (far : 5000 < ((m.log2 : Int) + e) * k) : floatPower x k = .error resultTooLarge := by
  have some : ¬(k : Int) = 0 := by omega
  unfold floatPower
  rw [same]
  simp only [if_neg some, if_neg pos.ne', if_pos far]

theorem limit_le_pow (far : 5000 < ((m.log2 : Int) + e) * k) (up : 0 ≤ (m.log2 : Int) + e) (pos : 0 < m) :
    limit ≤ (m * 2 ^ e : ℚ) ^ k := by
  obtain ⟨t, bits⟩ := Int.eq_ofNat_of_zero_le up
  rw [bits] at far
  have wide : 1024 ≤ t * k := by
    have : (5000 : Int) < (t * k : Nat) := by exact_mod_cast far
    omega
  have least : (2 ^ t : ℚ) ≤ m * 2 ^ e := by
    have below := two_pow_log2_le pos e
    rwa [bits, zpow_natCast] at below
  calc
    (limit : ℚ) ≤ (2 ^ (t * k) : Nat) := Nat.cast_le.2 (limit_le wide)
    _ = (2 ^ t) ^ k := by
      push_cast
      rw [pow_mul]
    _ ≤ (m * 2 ^ e) ^ k := by gcongr

theorem ofFloat_of_one_le (measured : Measures x.toModel.unpack a) (least : 1 ≤ a) :
    ∃ (m : Nat) (e : Int), Binary.ofFloat x = .finite false m e ∧ 0 < m ∧ a = m * 2 ^ e ∧ 0 ≤ (m.log2 : Int) + e := by
  rw [ofFloat_eq]
  generalize x.toModel.unpack = u at measured
  cases measured with
  | zero => norm_num at least
  | @finite m e pos =>
    refine ⟨m, e, rfl, pos, rfl, ?_⟩
    by_contra down
    have less : (m * 2 ^ e : ℚ) < 1 := by
      calc
        (m * 2 ^ e : ℚ) < 2 ^ ((m.log2 : Int) + e + 1) := lt_two_pow_log2 m e
        _ ≤ 1 := zpow_le_one_of_nonpos₀ one_le_two (by omega)
    linarith

theorem one_lt_limit : (1 : ℚ) < limit := by
  have two : 2 ^ 1 ≤ limit := le_limit (by decide)
  exact_mod_cast (Nat.one_lt_two_pow Nat.one_ne_zero).trans_le two

/-- A power is infinite only when it is too large. -/
theorem floatPower_cases (measured : Measures x.toModel.unpack a) (least : 1 ≤ a) (k : Nat) :
    (a ^ k < limit → ∃ y q, floatPower x k = .ok y ∧ Measures y.toModel.unpack q) ∧
      (limit ≤ a ^ k → floatPower x k = .error resultTooLarge) := by
  obtain ⟨m, e, same, pos, rfl, up⟩ := ofFloat_of_one_le measured least
  rcases Nat.eq_zero_or_pos k with rfl | more
  · rw [pow_zero]
    exact ⟨fun _ => ⟨1.0, 1, floatPower_zero same, measures_one⟩, fun beyond => absurd beyond (not_le.2 one_lt_limit)⟩
  rcases lt_or_ge 5000 (((m.log2 : Int) + e) * k) with far | high
  · have beyond := limit_le_pow far up pos
    exact ⟨fun inside => absurd inside (not_lt.2 beyond), fun _ => floatPower_of_far same pos more far⟩
  have low : -5000 ≤ ((m.log2 : Int) + e) * k := by
    have : 0 ≤ ((m.log2 : Int) + e) * k := Int.mul_nonneg up (Int.natCast_nonneg k)
    omega
  obtain ⟨n, d, scaled, value⟩ := exists_scaled_eq m e
  have power : (n ^ k : Nat) = ((m * 2 ^ e) ^ k * (2 ^ (d * k) : Nat) : ℚ) := by
    rw [Nat.cast_pow, value, mul_pow]
    push_cast
    rw [pow_mul]
  rw [floatPower_of_pos same pos more low high, scaled]
  dsimp only
  rw [← Nat.pow_mul]
  constructor
  · intro inside
    have whole : 2 ^ (d * k) ≤ n ^ k := by
      rw [← Nat.cast_le (α := ℚ), power]
      exact le_mul_of_one_le_left (Nat.cast_nonneg _) (one_le_pow₀ least)
    have inside' : n ^ k < limit * 2 ^ (d * k) := by
      rw [← Nat.cast_lt (α := ℚ), power, Nat.cast_mul]
      exact mul_lt_mul_of_pos_right inside (Nat.cast_pos.2 (Nat.two_pow_pos _))
    obtain ⟨q, measured'⟩ := measures_nearest whole inside'
    obtain ⟨negative, m', e', finite⟩ := measured'.isFinite
    rw [finite]
    exact ⟨_, q, rfl, measured'⟩
  · intro beyond
    have beyond' : limit * 2 ^ (d * k) ≤ n ^ k := by
      rw [← Nat.cast_le (α := ℚ), power, Nat.cast_mul]
      exact mul_le_mul_of_nonneg_right beyond (Nat.cast_nonneg _)
    rw [ofFloat_eq, nearest_infinite beyond']
    rfl

end Runbook.Retry
