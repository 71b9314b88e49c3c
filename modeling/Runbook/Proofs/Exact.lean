import Runbook.Proofs.Rounding
import Runbook.Retry

/-!
Numbers by their exact values. A number that is not negative is a mantissa times a power of two, in one way only,
and numbers of both kinds stand to one another as their values do.
-/
namespace Runbook.Decimal

open Float.Model (Format UnpackedFloat)
open Float.Model.UnpackedFloat (Sign unpack unpackExponent unpackMantissa unpackSign)

/-- The parts of a number as it is computed with. -/
def Binary.ofUnpacked : UnpackedFloat → Binary
  | .notANumber => .nan
  | .infinity s => .infinite (s == .negative)
  | .zero s => .finite (s == .negative) 0 (-1074)
  | .finite s m e _ => .finite (s == .negative) m e

theorem toNat_unpackMantissa (b : BitVec 64) : (@unpackMantissa Format.binary64 b).toNat = b.toNat % 2 ^ 52 := by
  rw [unpackMantissa, BitVec.toNat_cast, BitVec.extractLsb_toNat, Nat.shiftRight_zero]
  rfl

theorem ofBitVec_unpackSign (b : BitVec 64) :
    (Sign.ofBitVec (@unpackSign Format.binary64 b) == .negative) = decide (2 ^ 63 ≤ b.toNat) := by
  have bit : (@unpackSign Format.binary64 b).toNat = b.toNat / 2 ^ 63 % 2 := by
    rw [unpackSign, BitVec.toNat_cast, BitVec.extractLsb_toNat, Nat.shiftRight_eq_div_pow]
    rfl
  have less : b.toNat < 2 ^ 64 := b.isLt
  by_cases above : 2 ^ 63 ≤ b.toNat
  · have one : @unpackSign Format.binary64 b = 1#1 := BitVec.eq_of_toNat_eq (by rw [bit]; change _ = 1; omega)
    rw [one, decide_eq_true above]
    rfl
  · have zero : @unpackSign Format.binary64 b = 0#1 := BitVec.eq_of_toNat_eq (by rw [bit]; change _ = 0; omega)
    rw [zero, decide_eq_false above]
    rfl

theorem ofFloat_eq (x : Float) : Binary.ofFloat x = .ofUnpacked x.toModel.unpack := by
  let b : BitVec 64 := x.toModel.toBits.toBitVec
  have exponent (k : BitVec 11) : (@unpackExponent Format.binary64 b).toNat = k.toNat ↔
      @unpackExponent Format.binary64 b = k := BitVec.toNat_inj
  have mantissa : (@unpackMantissa Format.binary64 b).toNat = 0 ↔
      @unpackMantissa Format.binary64 b = 0#52 :=
    BitVec.toNat_inj (y := 0#52)
  change (if b.toNat / 2 ^ 52 % 2048 = (-1#11).toNat then
      if b.toNat % 2 ^ 52 = 0 then Binary.infinite (decide (2 ^ 63 ≤ b.toNat)) else .nan
    else if b.toNat / 2 ^ 52 % 2048 = (0#11).toNat then .finite (decide (2 ^ 63 ≤ b.toNat)) (b.toNat % 2 ^ 52) (-1074)
    else .finite (decide (2 ^ 63 ≤ b.toNat)) (b.toNat % 2 ^ 52 + 2 ^ 52)
      (((b.toNat / 2 ^ 52 % 2048 : Nat) : Int) - 1075)) = .ofUnpacked (unpack Format.binary64 b)
  rw [← ofBitVec_unpackSign, ← toNat_unpackMantissa, ← toNat_unpackExponent, ← toNat_implicit_append]
  unfold unpack
  simp only [exponent, mantissa]
  split_ifs with top exact bottom exact
  · rfl
  · rfl
  · rw [mantissa.2 exact]
    rfl
  · rw [bottom]
    rfl
  · rfl

/-! Values. -/

/-- The exact value of what is finite. -/
def Binary.amount? : Binary → Option ℚ
  | .finite negative m e => some (if negative then -(m * 2 ^ e) else m * 2 ^ e)
  | _ => none

/-- The exact value of a number, if it is finite. -/
def amount? (x : Float) : Option ℚ := (Binary.ofFloat x).amount?

/-- A mantissa and an exponent as a number has them. -/
structure Canonical (m : Nat) (e : Int) : Prop where
  upper : m < 2 ^ 53
  low : -1074 ≤ e
  high : e ≤ 971
  full : 2 ^ 52 ≤ m ∨ e = -1074

/-- A number that is not negative, by its exact value. -/
inductive Measures : UnpackedFloat → ℚ → Prop where
  | zero (s : Sign) : Measures (.zero s) 0
  | finite {m : Nat} {e : Int} (pos : 0 < m) (canonical : Canonical m e) :
      Measures (.finite .positive m e pos) (m * 2 ^ e)

theorem canonical_unpack {b : BitVec 64} {s : Sign} {m : Nat} {e : Int} {pos : 0 < m}
    (unpacked : unpack Format.binary64 b = .finite s m e pos) : Canonical m e := by
  have exponent := toNat_unpackExponent b
  have mantissa := toNat_unpackMantissa b
  have most : b.toNat % 2 ^ 52 < 2 ^ 52 := Nat.mod_lt _ (by decide)
  unfold unpack at unpacked
  dsimp only at unpacked
  split_ifs at unpacked with top exact bottom exact
  · cases unpacked
    rw [bottom]
    exact ⟨by omega, by decide, by decide, .inr (by decide)⟩
  · cases unpacked
    have implicit := toNat_implicit_append (@unpackMantissa Format.binary64 b)
    have apart : (@unpackExponent Format.binary64 b).toNat ≠ 2047 := fun same => top (BitVec.eq_of_toNat_eq same)
    have apart' : (@unpackExponent Format.binary64 b).toNat ≠ 0 := fun same => bottom (BitVec.eq_of_toNat_eq same)
    have bias : (Format.binary64.exponentBias : Int) + (Format.binary64.mantissaBitsWithoutImplicit : Int) = 1075 := rfl
    refine ⟨?_, ?_, ?_, ?_⟩
    · omega
    · rw [bias]
      omega
    · rw [bias]
      omega
    · left
      omega

theorem two_pow_log2_le {m : Nat} (pos : 0 < m) (e : Int) : (2 ^ ((m.log2 : Int) + e) : ℚ) ≤ m * 2 ^ e := by
  rw [zpow_add₀ two_ne_zero, zpow_natCast]
  gcongr
  exact_mod_cast Nat.log2_self_le pos.ne'

theorem lt_two_pow_log2 (m : Nat) (e : Int) : (m * 2 ^ e : ℚ) < 2 ^ ((m.log2 : Int) + e + 1) := by
  rw [Int.add_right_comm, zpow_add₀ two_ne_zero, ← Int.natCast_succ, zpow_natCast]
  gcongr
  exact_mod_cast Nat.lt_log2_self

namespace Canonical

variable {m m' : Nat} {e e' : Int}

theorem lt_of_exponent (canonical : Canonical m e) (canonical' : Canonical m' e') (less : e < e') :
    (m * 2 ^ e : ℚ) < m' * 2 ^ e' := by
  have full : 2 ^ 52 ≤ m' := by
    have := canonical.low
    have := canonical'.full
    omega
  calc
    (m * 2 ^ e : ℚ) < 2 ^ 53 * 2 ^ e := by
      gcongr
      exact_mod_cast canonical.upper
    _ = 2 ^ 52 * 2 ^ (e + 1) := by
      rw [zpow_add_one₀ two_ne_zero]
      ring
    _ ≤ m' * 2 ^ e' := by
      gcongr
      · exact_mod_cast full
      · exact one_le_two
      · omega

theorem compare_eq (canonical : Canonical m e) (canonical' : Canonical m' e') :
    (compare e e').then (compare m m') = compare (m * 2 ^ e : ℚ) (m' * 2 ^ e') := by
  rcases lt_trichotomy e e' with before | rfl | behind
  · rw [compare_lt_iff_lt.2 before, compare_lt_iff_lt.2 (canonical.lt_of_exponent canonical' before)]
    rfl
  · rw [compare_eq_iff_eq.2 rfl, Ordering.eq_then]
    have pos : (0 : ℚ) < 2 ^ e := by positivity
    apply compare_eq_compare
    · intro less
      gcongr
    · rintro rfl
      rfl
    · intro more
      gcongr
  · rw [compare_gt_iff_gt.2 behind, compare_gt_iff_gt.2 (canonical'.lt_of_exponent canonical behind)]
    rfl

end Canonical

namespace Measures

variable {u v : UnpackedFloat} {a b : ℚ}

theorem nonneg (measured : Measures u a) : 0 ≤ a := by
  cases measured with
  | zero => exact le_rfl
  | finite => positivity

/-- Numbers are ordered as their values are. -/
theorem compare_eq (left : Measures u a) (right : Measures v b) : u.compare v = some (compare a b) := by
  cases left with
  | zero =>
    cases right with
    | zero => rfl
    | @finite m e pos =>
      have above : (0 : ℚ) < m * 2 ^ e := by positivity
      exact congrArg some (compare_lt_iff_lt.2 above).symm
  | @finite m e pos canonical =>
    cases right with
    | zero =>
      have above : (0 : ℚ) < m * 2 ^ e := by positivity
      exact congrArg some (compare_gt_iff_gt.2 above).symm
    | finite pos' canonical' => exact congrArg some (canonical.compare_eq canonical')

theorem amount? {x : Float} (measured : Measures x.toModel.unpack a) : amount? x = some a := by
  rw [Decimal.amount?, ofFloat_eq]
  generalize x.toModel.unpack = u at measured
  cases measured with
  | zero => simp [Binary.ofUnpacked, Binary.amount?]
  | finite => simp [Binary.ofUnpacked, Binary.amount?]

end Measures

theorem measures_of_unpack {x : Float} {m : Nat} {e : Int} {pos : 0 < m} {a : ℚ}
    (unpacked : x.toModel.unpack = .finite .positive m e pos) (canonical : Canonical m e)
    (value : (m * 2 ^ e : ℚ) = a) : Measures x.toModel.unpack a := by
  rw [unpacked, ← value]
  exact .finite pos canonical

theorem measures_of_amount? {x : Float} {a : ℚ} (exact : amount? x = some a) (nonneg : 0 ≤ a) :
    Measures x.toModel.unpack a := by
  have canonical {s : Sign} {m : Nat} {e : Int} {pos : 0 < m} (same : x.toModel.unpack = .finite s m e pos) :
      Canonical m e := canonical_unpack (b := x.toModel.toBits.toBitVec) same
  rw [amount?, ofFloat_eq] at exact
  generalize x.toModel.unpack = u at exact canonical
  cases u with
  | notANumber => cases exact
  | infinity => cases exact
  | zero s =>
    have zero : 0 = a := by simpa [Binary.ofUnpacked, Binary.amount?] using exact
    exact zero ▸ .zero s
  | finite s m e pos =>
    cases s with
    | negative =>
      have below : -(m * 2 ^ e : ℚ) = a := by simpa [Binary.ofUnpacked, Binary.amount?] using exact
      have : (0 : ℚ) < m * 2 ^ e := by positivity
      linarith
    | positive =>
      have same : (m * 2 ^ e : ℚ) = a := by simpa [Binary.ofUnpacked, Binary.amount?] using exact
      exact same ▸ .finite pos (canonical rfl)

theorem lt_iff {x y : Float} {a b : ℚ} (left : Measures x.toModel.unpack a) (right : Measures y.toModel.unpack b) :
    x < y ↔ a < b := by
  rw [lt_iff_order, order, left.compare_eq right, Option.some_inj, compare_lt_iff_lt]

/-! Whole numbers among them. -/

theorem scaled_eq (m : Nat) (e : Int) : ((Ratio.scaled m e).num / (Ratio.scaled m e).den : ℚ) = m * 2 ^ e := by
  unfold Ratio.scaled
  split_ifs with up
  · obtain ⟨k, rfl⟩ := Int.eq_ofNat_of_zero_le up
    simp [Nat.pow_eq]
  · obtain ⟨k, same⟩ := Int.eq_ofNat_of_zero_le (show 0 ≤ -e by omega)
    obtain rfl : e = -(k : Int) := by omega
    simp [Nat.pow_eq, div_eq_mul_inv]

theorem scaled_zero (e : Int) : (Ratio.scaled 0 e).num / (Ratio.scaled 0 e).den = 0 := by
  unfold Ratio.scaled
  split_ifs <;> simp

theorem Measures.truncated? {x : Float} {a : ℚ} (measured : Measures x.toModel.unpack a) :
    truncated? x = some (⌊a⌋₊ : Int) := by
  rw [Decimal.truncated?, ofFloat_eq]
  generalize x.toModel.unpack = u at measured
  cases measured with
  | zero s =>
    simp only [Binary.ofUnpacked, scaled_zero]
    split_ifs <;> simp
  | @finite m e pos =>
    change some ((((Ratio.scaled m e).num / (Ratio.scaled m e).den : Nat) : Int)) = _
    rw [← scaled_eq, Nat.floor_div_eq_div]

theorem Measures.isFinite {x : Float} {a : ℚ} (measured : Measures x.toModel.unpack a) :
    ∃ negative m e, Binary.ofFloat x = .finite negative m e := by
  rw [ofFloat_eq]
  generalize x.toModel.unpack = u at measured
  cases measured with
  | zero s => exact ⟨_, _, _, rfl⟩
  | finite => exact ⟨_, _, _, rfl⟩

theorem Scaled.eq {m n : Nat} {e : Int} (scaled : Scaled m e n) : (m * 2 ^ e : ℚ) = n := by
  obtain ⟨k, same⟩ := Int.eq_ofNat_of_zero_le (show 0 ≤ e + 52 by have := scaled.low; omega)
  obtain rfl : e = k - 52 := by omega
  have whole : (n * 2 ^ 52 : ℚ) = m * 2 ^ k := by
    have := scaled.same
    rw [same, Int.toNat_natCast] at this
    exact_mod_cast this
  rw [zpow_sub₀ two_ne_zero, zpow_natCast, ← mul_div_assoc, ← whole]
  norm_num

theorem IsWhole.measures {u : UnpackedFloat} {n : Nat} (whole : IsWhole u n) : Measures u n := by
  generalize same : (n : Int) = z at whole
  cases whole with
  | zero s =>
    obtain rfl : n = 0 := by omega
    exact_mod_cast Measures.zero s
  | @positive m n' e pos scaled high =>
    obtain rfl : n = n' := by omega
    rw [← scaled.eq]
    have := scaled.low
    exact .finite pos ⟨upper_of_log2 scaled.bits, by omega, high, .inl (lower_of_log2 scaled.bits)⟩
  | negative pos scaled high =>
    have := scaled.pos
    omega

theorem Canonical.nearest_floor {m : Nat} {e : Int} (canonical : Canonical m e) :
    nearest ⌊(m * 2 ^ e : ℚ)⌋₊ = ⌊(m * 2 ^ e : ℚ)⌋₊ := by
  rcases lt_or_ge e 0 with down | up
  · have small : ⌊(m * 2 ^ e : ℚ)⌋₊ < 2 ^ 53 := by
      rw [Nat.floor_lt (by positivity)]
      calc
        (m * 2 ^ e : ℚ) ≤ m * 1 := by
          gcongr
          exact zpow_le_one_of_nonpos₀ one_le_two (by omega)
        _ < (2 ^ 53 : Nat) := by
          rw [mul_one]
          exact_mod_cast canonical.upper
    exact nearest_of_lt small
  · obtain ⟨k, rfl⟩ := Int.eq_ofNat_of_zero_le up
    have whole : ⌊(m * 2 ^ (k : Int) : ℚ)⌋₊ = m * 2 ^ k := by
      rw [zpow_natCast]
      exact_mod_cast Nat.floor_natCast (R := ℚ) (m * 2 ^ k)
    rw [whole, nearest_mul_two_pow, nearest_of_lt canonical.upper]

theorem limit_eq : limit = (2 ^ 54 - 1) * 2 ^ 970 := by
  rw [limit, Nat.sub_mul, ← Nat.pow_add, Nat.one_mul]

theorem limit_le {t : Nat} (wide : 1024 ≤ t) : limit ≤ 2 ^ t :=
  (Nat.sub_le ..).trans (pow_le_pow_right₀ (by decide) wide)
theorem le_limit {t : Nat} (narrow : t ≤ 970) : 2 ^ t ≤ limit := by
  have some : 1 ≤ 2 ^ 54 - 1 := by decide
  have less : 2 ^ t ≤ 2 ^ 970 := pow_le_pow_right₀ (by decide) narrow
  rw [limit_eq]
  generalize 2 ^ 54 - 1 = k at some
  generalize 2 ^ 970 = n at less
  exact less.trans (Nat.le_mul_of_pos_left n some)
theorem limit_pos : (0 : ℚ) < limit :=
  Nat.cast_pos.2 ((Nat.two_pow_pos 0).trans_le (le_limit (Nat.zero_le _)))

theorem Canonical.lt_limit {m : Nat} {e : Int} (canonical : Canonical m e) : (m * 2 ^ e : ℚ) < limit := by
  have upper : (m : ℚ) + 1 ≤ 2 ^ 53 := by exact_mod_cast canonical.upper
  have top : (limit : ℚ) = (2 ^ 54 - 1) * 2 ^ 970 := by
    rw [limit_eq, Nat.cast_mul, Nat.cast_pow]
    norm_num
  have high : e ≤ (970 : Nat) + 1 := canonical.high
  rw [top]
  -- The exponent stays a variable, so that no power is computed.
  generalize 970 = k at high
  calc
    (m * 2 ^ e : ℚ) ≤ (2 ^ 53 - 1) * 2 ^ ((k : Int) + 1) := by
      gcongr
      · linarith
      · exact one_le_two
    _ = (2 ^ 54 - 2) * 2 ^ k := by
      rw [zpow_add_one₀ two_ne_zero, zpow_natCast]
      ring
    _ < (2 ^ 54 - 1) * 2 ^ k := by
      gcongr
      exact one_lt_two

theorem Measures.lt_limit {u : UnpackedFloat} {a : ℚ} (measured : Measures u a) : a < limit := by
  cases measured with
  | zero => exact limit_pos
  | finite _ canonical => exact canonical.lt_limit

theorem Measures.nearest_floor {u : UnpackedFloat} {a : ℚ} (measured : Measures u a) : nearest ⌊a⌋₊ = ⌊a⌋₊ := by
  cases measured with
  | zero => simp [nearest_of_lt]
  | finite _ canonical => exact canonical.nearest_floor

/-- A whole number becomes the nearest one of 53 bits. -/
theorem exists_ofWhole?_natCast {n : Nat} (inside : n < limit) :
    ∃ x, ofWhole? n = some x ∧ Measures x.toModel.unpack (nearest n) := by
  obtain ⟨x, converted, whole⟩ := exists_ofWhole? (n := n) inside
  have same : rounded n = nearest n := if_neg (by omega)
  rw [same] at whole
  exact ⟨x, converted, whole.measures⟩

end Runbook.Decimal

namespace Runbook.Number

open Decimal

/-- The exact value of a number, if it is finite. -/
def amount? : Number → Option ℚ
  | .whole n => some n
  | .real x => Decimal.amount? x

theorem exists_natCast {n : Int} {q : ℚ} (same : (whole n).amount? = some q) (nonneg : 0 ≤ q) :
    ∃ k : Nat, n = k ∧ q = k := by
  have cast : (n : ℚ) = q := Option.some_inj.1 same
  obtain ⟨k, rfl⟩ := Int.eq_ofNat_of_zero_le (show 0 ≤ n by exact_mod_cast cast ▸ nonneg)
  exact ⟨k, rfl, by exact_mod_cast cast.symm⟩

/-- What is cut off a number, converted. -/
theorem exists_ofWhole?_floor {y : Float} {q : ℚ} (measured : Measures y.toModel.unpack q) :
    ∃ z, ofWhole? (⌊q⌋₊ : Nat) = some z ∧ Measures z.toModel.unpack ⌊q⌋₊ := by
  have inside : ⌊q⌋₊ < limit := (Nat.floor_lt measured.nonneg).2 measured.lt_limit
  obtain ⟨z, converted, floor⟩ := exists_ofWhole?_natCast inside
  rw [measured.nearest_floor] at floor
  exact ⟨z, converted, floor⟩

theorem whole_less_real {k : Nat} {y : Float} {q : ℚ} (measured : Measures y.toModel.unpack q) :
    (whole k).less (.real y) = true ↔ (k : ℚ) < q := by
  obtain ⟨negative, m, e, finite⟩ := measured.isFinite
  obtain ⟨z, converted, floor⟩ := exists_ofWhole?_floor measured
  rw [less, finite, measured.truncated?]
  simp only [converted, Bool.or_eq_true, Bool.and_eq_true, decide_eq_true_eq, beq_iff_eq, Int.ofNat_lt, Int.ofNat_inj,
    lt_iff floor measured]
  constructor
  · rintro (below | ⟨rfl, below⟩)
    · exact (Nat.cast_lt.2 below).trans_le (Nat.floor_le measured.nonneg)
    · exact below
  · intro below
    rcases Nat.lt_or_eq_of_le (Nat.le_floor below.le) with less | rfl
    · exact .inl less
    · exact .inr ⟨rfl, below⟩

theorem real_less_whole {k : Nat} {x : Float} {p : ℚ} (measured : Measures x.toModel.unpack p) :
    (real x).less (.whole k) = true ↔ p < k := by
  obtain ⟨negative, m, e, finite⟩ := measured.isFinite
  obtain ⟨z, converted, floor⟩ := exists_ofWhole?_floor measured
  have never : ¬p < (⌊p⌋₊ : ℚ) := not_lt.2 (Nat.floor_le measured.nonneg)
  rw [less, finite, measured.truncated?]
  simp only [converted, Bool.or_eq_true, Bool.and_eq_true, decide_eq_true_eq, beq_iff_eq, Int.ofNat_lt, Int.ofNat_inj,
    lt_iff measured floor, never, and_false, or_false, Nat.floor_lt measured.nonneg]

/-- Whole or not, numbers are compared by their values. -/
theorem less_iff {a b : Number} {p q : ℚ} (left : a.amount? = some p) (right : b.amount? = some q) (nonneg : 0 ≤ p)
    (nonneg' : 0 ≤ q) : a.less b = true ↔ p < q := by
  cases a with
  | whole m =>
    obtain ⟨k, rfl, rfl⟩ := exists_natCast left nonneg
    cases b with
    | whole n =>
      obtain ⟨l, rfl, rfl⟩ := exists_natCast right nonneg'
      simp [less]
    | real y => exact whole_less_real (measures_of_amount? right nonneg')
  | real x =>
    have measured := measures_of_amount? left nonneg
    cases b with
    | whole n =>
      obtain ⟨l, rfl, rfl⟩ := exists_natCast right nonneg'
      exact real_less_whole measured
    | real y => simp [less, lt_iff measured (measures_of_amount? right nonneg')]

end Runbook.Number
