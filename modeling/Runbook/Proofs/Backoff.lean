import Runbook.Proofs.Power
import Runbook.Proofs.Retry

/-!
How long a policy waits. The power of the factor is computed before the delay is limited, so that a delay is
defined, and within the limit, as long as the power is in the range of floating-point numbers, or base and factor
are whole. Beyond that range it overflows, and the work that was to be tried again comes to an overflow.
-/
namespace Runbook

variable {A α σ : Type}

namespace Number

open Decimal
open Float.Model (UnpackedFloat)

variable {x : Number} {a : ℚ}

/-- A number that is not too large becomes a floating-point number. -/
theorem exists_toFloat (amount : x.amount? = some a) (nonneg : 0 ≤ a) (inside : a < limit) :
    ∃ y q, x.toFloat = .ok y ∧ Measures y.toModel.unpack q ∧
      (x = .real y ∧ q = a ∨ ∃ k : Nat, x = .whole k ∧ a = k ∧ q = nearest k) := by
  cases x with
  | whole n =>
    obtain ⟨k, rfl, rfl⟩ := exists_natCast amount nonneg
    obtain ⟨y, converted, measured⟩ := exists_ofWhole?_natCast (n := k) (by exact_mod_cast inside)
    refine ⟨y, _, ?_, measured, .inr ⟨k, rfl, rfl, rfl⟩⟩
    rw [toFloat, converted]
  | real y => exact ⟨y, a, rfl, measures_of_amount? amount nonneg, .inl ⟨rfl, rfl⟩⟩

theorem toFloat_of_limit_le (amount : x.amount? = some a) (nonneg : 0 ≤ a) (beyond : limit ≤ a) :
    x.toFloat = .error (.plain .overflow "int too large to convert to float") := by
  cases x with
  | whole n =>
    obtain ⟨k, rfl, rfl⟩ := exists_natCast amount nonneg
    have large : limit ≤ (k : Int).natAbs := by exact_mod_cast beyond
    rw [toFloat, ofWhole?_of_limit_le large]
  | real y => exact absurd (measures_of_amount? amount nonneg).lt_limit (not_lt.2 beyond)

/-- Nothing is more than infinite. -/
theorem less_of_infinite {y : Float} (amount : x.amount? = some a) (nonneg : 0 ≤ a)
    (infinite : y.toModel.unpack = .infinity .positive) : x.less (.real y) = true := by
  have parts : Binary.ofFloat y = .infinite false := by
    rw [ofFloat_eq, infinite]
    rfl
  cases x with
  | whole n =>
    rw [less, parts]
    rfl
  | real x =>
    have measured := measures_of_amount? amount nonneg
    have below : x < y := by
      rw [lt_iff_order, order, infinite]
      generalize x.toModel.unpack = u at measured
      cases measured with
      | zero => rfl
      | finite => rfl
    simp [less, below]

end Number

namespace Retry

open Decimal
open Float.Model (UnpackedFloat)

variable {x y : Number} {a b : ℚ} {k : Nat}

/-- A failure of arithmetic that has become too large. -/
def Overflows {α : Type} (r : Except Failure α) : Prop := ∃ message, r = .error (.plain .overflow message)

/-- Of numbers no larger than one, only the exponent's last bit counts. -/
theorem pow_of_small {m : Int} (small : m.natAbs ≤ 1) (more : 2 ≤ k) : m ^ (2 + k % 2) = m ^ k := by
  have cases : m = 0 ∨ m = 1 ∨ m = -1 := by omega
  rcases cases with rfl | rfl | rfl
  · rw [zero_pow (by omega), zero_pow (by omega)]
  · rw [one_pow, one_pow]
  · rw [neg_one_pow_eq_pow_mod_two, neg_one_pow_eq_pow_mod_two (n := k), Nat.add_mod_left, Nat.mod_mod]

theorem power_whole (m : Int) (k : Nat) : power (.whole m) k = .ok (.whole (m ^ k)) := by
  rw [power, if_pos (Int.natCast_nonneg k)]
  dsimp only
  split_ifs with small
  · have short : ((2 : Int) + k % 2).toNat = 2 + k % 2 := by omega
    rw [short, ← pow_of_small small.1 (by omega)]
    rfl
  · rfl

/-- A power, as a floating-point number. -/
theorem power_cases (amount : x.amount? = some a) (least : 1 ≤ a) (k : Nat) :
    (a ^ k < limit → ∃ y z q, power x k = .ok y ∧ y.toFloat = .ok z ∧ Measures z.toModel.unpack q) ∧
      (limit ≤ a ^ k → Overflows (power x k) ∨ ∃ y, power x k = .ok y ∧ Overflows y.toFloat) := by
  have nonneg : 0 ≤ a ^ k := by positivity
  cases x with
  | whole m =>
    have value : (Number.whole (m ^ k)).amount? = some (a ^ k) := by
      obtain rfl : (m : ℚ) = a := Option.some_inj.1 amount
      exact congrArg some (Int.cast_pow m k)
    rw [power_whole]
    constructor
    · intro inside
      obtain ⟨z, q, converted, measured, -⟩ := Number.exists_toFloat value nonneg inside
      exact ⟨_, z, q, rfl, converted, measured⟩
    · intro beyond
      exact .inr ⟨_, rfl, _, Number.toFloat_of_limit_le value nonneg beyond⟩
  | real x =>
    obtain ⟨fits, overflows⟩ := floatPower_cases (measures_of_amount? amount (by linarith)) least k
    constructor
    · intro inside
      obtain ⟨z, q, ends, measured⟩ := fits inside
      refine ⟨.real z, z, q, ?_, rfl, measured⟩
      rw [power, ends]
      rfl
    · intro beyond
      left
      rw [power, overflows beyond]
      exact ⟨_, rfl⟩

/-- What a delay grows to: a number that is not negative, or infinite. -/
def Grown (x : Number) : Prop :=
  (∃ q, x.amount? = some q ∧ 0 ≤ q) ∨ ∃ y : Float, x = .real y ∧ y.toModel.unpack = .infinity .positive

end Retry

namespace RetryPolicy

open Decimal Retry

/-- The delay of a policy before it is limited. -/
def grown (p : RetryPolicy) (attempt : Int) : Except Failure Number := do
  times p.baseDelay (← power p.factor (attempt - 1))

/-- The arithmetic stays in the range. -/
def Grows (p : RetryPolicy) (base factor : ℚ) (k : Nat) : Prop :=
  ((∃ m, p.baseDelay = .whole m) ∧ ∃ n, p.factor = .whole n) ∨ (base < limit ∧ factor ^ k < limit)

variable {p : RetryPolicy} {base most factor : ℚ} {k : Nat}

/-- A policy whose numbers are finite and not negative, with a factor that is no less than one. -/
structure Sensible (p : RetryPolicy) (base most factor : ℚ) : Prop where
  base_eq : p.baseDelay.amount? = some base
  base_nonneg : 0 ≤ base
  most_eq : p.maxDelay.amount? = some most
  most_nonneg : 0 ≤ most
  factor_eq : p.factor.amount? = some factor
  one_le_factor : 1 ≤ factor

theorem grown_of_mixed (mixed : ¬((∃ m, p.baseDelay = .whole m) ∧ ∃ n, p.factor = .whole n)) (attempt : Int) :
    p.grown attempt = do
      let y ← power p.factor (attempt - 1)
      return .real ((← p.baseDelay.toFloat) * (← y.toFloat)) := by
  unfold grown
  cases first : p.baseDelay with
  | real x => rfl
  | whole m =>
    cases second : p.factor with
    | whole n => exact absurd ⟨⟨m, first⟩, n, second⟩ mixed
    | real y =>
      rw [power]
      cases floatPower y (attempt - 1) <;> rfl

/-- Integers grow without bound. -/
theorem grown_whole (sensible : p.Sensible base most factor) {m n : Int} (first : p.baseDelay = .whole m)
    (second : p.factor = .whole n) (k : Nat) : ∃ g, p.grown (k + 1) = .ok g ∧ Grown g := by
  have growing := sensible.base_eq
  have amount := sensible.factor_eq
  rw [first] at growing
  rw [second] at amount
  have base_eq : (m : ℚ) = base := Option.some_inj.1 growing
  have factor_eq : (n : ℚ) = factor := Option.some_inj.1 amount
  have nonneg : 0 ≤ base * factor ^ k :=
    mul_nonneg sensible.base_nonneg (pow_nonneg (zero_le_one.trans sensible.one_le_factor) k)
  unfold grown
  rw [Int.add_sub_cancel, first, second, power_whole]
  refine ⟨.whole (m * n ^ k), rfl, .inl ⟨_, rfl, ?_⟩⟩
  push_cast
  rwa [base_eq, factor_eq]

theorem exists_grown (sensible : p.Sensible base most factor) (grows : p.Grows base factor k) :
    ∃ g, p.grown (k + 1) = .ok g ∧ Grown g := by
  by_cases whole : (∃ m, p.baseDelay = .whole m) ∧ ∃ n, p.factor = .whole n
  · obtain ⟨⟨m, first⟩, n, second⟩ := whole
    exact grown_whole sensible first second k
  obtain ⟨small, inside⟩ := grows.resolve_left whole
  obtain ⟨y, z, q, ends, converted, measured⟩ := (power_cases sensible.factor_eq sensible.one_le_factor k).1 inside
  obtain ⟨x, r, first, measured', -⟩ := Number.exists_toFloat sensible.base_eq sensible.base_nonneg small
  rw [grown_of_mixed whole, Int.add_sub_cancel]
  refine ⟨.real (x * z), ?_, ?_⟩
  · rw [ends, first]
    change (do return Number.real (x * (← y.toFloat))) = _
    rw [converted]
    rfl
  · rcases (rounds_mul measured' measured).measures_or_infinite with ⟨v, product⟩ | infinite
    · exact .inl ⟨v, product.amount?, product.nonneg⟩
    · exact .inr ⟨_, rfl, infinite⟩

theorem grown_overflows (sensible : p.Sensible base most factor) (beyond : ¬p.Grows base factor k) :
    Overflows (p.grown (k + 1)) := by
  obtain ⟨whole, outside⟩ := not_or.1 beyond
  obtain ⟨fits, overflows⟩ := power_cases sensible.factor_eq sensible.one_le_factor k
  rw [grown_of_mixed whole, Int.add_sub_cancel]
  rcases lt_or_ge base limit with small | large
  · -- The base is converted, so it is the power that overflows, when it is computed or when it is converted.
    have large : limit ≤ factor ^ k := not_lt.1 fun less => outside ⟨small, less⟩
    obtain ⟨x, r, first, -⟩ := Number.exists_toFloat sensible.base_eq sensible.base_nonneg small
    rcases overflows large with ⟨message, fails⟩ | ⟨y, ends, message, fails⟩
    · rw [fails]
      exact ⟨message, rfl⟩
    · rw [ends, first]
      change Overflows (do return Number.real (x * (← y.toFloat)))
      rw [fails]
      exact ⟨message, rfl⟩
  · have never := Number.toFloat_of_limit_le sensible.base_eq sensible.base_nonneg large
    rcases lt_or_ge (factor ^ k) limit with inside | outside'
    · obtain ⟨y, z, q, ends, -⟩ := fits inside
      rw [ends, never]
      exact ⟨_, rfl⟩
    · rcases overflows outside' with ⟨message, fails⟩ | ⟨y, ends, -⟩
      · rw [fails]
        exact ⟨message, rfl⟩
      · rw [ends, never]
        exact ⟨_, rfl⟩

/-- A delay, limited. -/
def capped (p : RetryPolicy) (g : Number) : Number := if p.maxDelay.less g then p.maxDelay else g

theorem delay_eq (p : RetryPolicy) (random : Float) (attempt : Int) : p.delay random attempt = do
    let g ← p.grown attempt
    if p.jitter then times (p.capped g) (.real (0.5 + random * 0.5)) else return p.capped g := by
  unfold delay grown
  cases power p.factor (attempt - 1) <;> rfl

/-- What is limited is not negative, and not above the limit. -/
theorem capped_spec {g : Number} (amount : p.maxDelay.amount? = some most) (nonneg : 0 ≤ most) (growth : Grown g) :
    ∃ q, (p.capped g).amount? = some q ∧ 0 ≤ q ∧ q ≤ most := by
  unfold capped
  rcases growth with ⟨q, value, nonneg'⟩ | ⟨y, rfl, infinite⟩
  · have compared := Number.less_iff amount value nonneg nonneg'
    split_ifs with less
    · exact ⟨most, amount, nonneg, le_rfl⟩
    · exact ⟨q, value, nonneg', not_lt.1 (mt compared.2 less)⟩
  · rw [if_pos (Number.less_of_infinite amount nonneg infinite)]
    exact ⟨most, amount, nonneg, le_rfl⟩

/-- What a delay is shortened by is no more than one. -/
theorem measures_share {random : Float} {r : ℚ} (measured : Measures random.toModel.unpack r) (less : r < 1) :
    ∃ q, Measures (0.5 + random * 0.5).toModel.unpack q ∧ q ≤ 1 := by
  obtain ⟨h, product, small⟩ := (rounds_mul measured measures_half).le measures_half (by linarith)
  exact (rounds_add measures_half product).le measures_one (by linarith)

theorem nearest_of_le {n : Nat} (small : n ≤ 2 ^ 53) : Decimal.nearest n = n := by
  have same := rounded_of_le (n := n) small
  unfold rounded at same
  rw [if_neg (by omega)] at same
  exact_mod_cast same

/-- A limit that is a floating-point number, or whole and no larger than 2^53. -/
def Exact (x : Number) : Prop := ∀ k, x = .whole k → k ≤ 2 ^ 53

theorem Exact.lt_limit {x : Number} (exact : Exact x) (amount : x.amount? = some most) (nonneg : 0 ≤ most) :
    most < limit := by
  cases x with
  | real x => exact (measures_of_amount? amount nonneg).lt_limit
  | whole n =>
    obtain ⟨k, rfl, rfl⟩ := Number.exists_natCast amount nonneg
    have small : (k : Int) ≤ 2 ^ 53 := exact _ rfl
    have large : 2 ^ 54 ≤ limit := le_limit (by decide)
    exact Nat.cast_lt.2 (by omega)

/-- A number below it is still below it as a floating-point number. -/
theorem Exact.nearest_le {x : Number} {k : Nat} (exact : Exact x) (amount : x.amount? = some most)
    (nonneg : 0 ≤ most) (below : k ≤ most) : Decimal.nearest k ≤ most := by
  cases x with
  | real x =>
    have measured := measures_of_amount? amount nonneg
    calc
      (Decimal.nearest k : ℚ) ≤ Decimal.nearest ⌊most⌋₊ := Nat.cast_le.2 (nearest_mono (Nat.le_floor below))
      _ = ⌊most⌋₊ := by rw [measured.nearest_floor]
      _ ≤ most := Nat.floor_le nonneg
  | whole n =>
    obtain ⟨l, rfl, rfl⟩ := Number.exists_natCast amount nonneg
    have small : (l : Int) ≤ 2 ^ 53 := exact _ rfl
    have below : k ≤ l := Nat.cast_le.1 below
    rw [nearest_of_le (by omega)]
    exact Nat.cast_le.2 below

/-- Shortening does not bring a delay above such a limit. -/
theorem times_le {x c : Number} {u : Float} {q r : ℚ} (exact : Exact x) (amount : x.amount? = some most)
    (nonneg : 0 ≤ most) (value : c.amount? = some q) (nonneg' : 0 ≤ q) (below : q ≤ most)
    (measured : Measures u.toModel.unpack r) (share : r ≤ 1) :
    ∃ d v, times c (.real u) = .ok d ∧ d.amount? = some v ∧ 0 ≤ v ∧ v ≤ most := by
  obtain ⟨y, b, converted, measured', kind⟩ :=
    Number.exists_toFloat value nonneg' (below.trans_lt (exact.lt_limit amount nonneg))
  have bounded : b ≤ most := by
    rcases kind with ⟨-, rfl⟩ | ⟨k, -, rfl, rfl⟩
    · exact below
    · exact exact.nearest_le amount nonneg below
  have product : b * r ≤ b := mul_le_of_le_one_right measured'.nonneg share
  obtain ⟨v, result, least⟩ := (rounds_mul measured' measured).le measured' product
  refine ⟨.real (y * u), v, ?_, result.amount?, result.nonneg, least.trans bounded⟩
  have mixed : times c (.real u) = do return .real ((← c.toFloat) * u) := by
    cases c <;> rfl
  rw [mixed, converted]
  rfl

/-- Shortened, a whole limit of more bits can be exceeded. -/
example : let p : RetryPolicy := { baseDelay := .whole (2 ^ 54), maxDelay := .whole (2 ^ 53 + 3), factor := .whole 2 }
    (p.delay 0.9999999999999999 1).toOption.map p.maxDelay.less = some true := by
  decide +kernel

namespace Sensible

variable {random : Float} {r : ℚ}

/-- A delay whose arithmetic stays in the range is a number from zero to the limit. -/
theorem delay_capped (sensible : p.Sensible base most factor) (exact : p.jitter = true → Exact p.maxDelay)
    (drawn : Decimal.amount? random = some r) (nonneg : 0 ≤ r) (less : r < 1) (grows : p.Grows base factor k) :
    ∃ d v, p.delay random (k + 1) = .ok d ∧ d.amount? = some v ∧ 0 ≤ v ∧ v ≤ most := by
  obtain ⟨g, ends, growth⟩ := exists_grown sensible grows
  obtain ⟨q, value, nonneg', below⟩ := capped_spec sensible.most_eq sensible.most_nonneg growth
  rw [delay_eq, ends]
  by_cases jitter : p.jitter = true
  · obtain ⟨share, measured, small⟩ := measures_share (measures_of_amount? drawn nonneg) less
    change ∃ d v, (if p.jitter then _ else _) = _ ∧ _
    rw [if_pos jitter]
    exact times_le (exact jitter) sensible.most_eq sensible.most_nonneg value nonneg' below measured small
  · refine ⟨p.capped g, q, ?_, value, nonneg', below⟩
    exact if_neg jitter

/-- Any other overflows, whatever the limit. -/
theorem delay_overflows (sensible : p.Sensible base most factor) (random : Float) (beyond : ¬p.Grows base factor k) :
    Overflows (p.delay random (k + 1)) := by
  obtain ⟨message, fails⟩ := grown_overflows sensible beyond
  rw [delay_eq, fails]
  exact ⟨message, rfl⟩

/-- The delays of the calls before one, as numbers. -/
theorem exists_delays (sensible : p.Sensible base most factor) (exact : p.jitter = true → Exact p.maxDelay)
    {random : Nat → Float} (drawn : ∀ n, ∃ r, Decimal.amount? (random n) = some r ∧ 0 ≤ r ∧ r < 1)
    (grows : ∀ j, j + 1 < k → p.Grows base factor j) :
    ∃ delay : Nat → Number, ∀ n, 1 ≤ n → n < k →
      p.delay (random n) n = .ok (delay n) ∧ ∃ v, (delay n).amount? = some v ∧ 0 ≤ v ∧ v ≤ most := by
  have each (n : Nat) : ∃ d, 1 ≤ n → n < k →
      p.delay (random n) n = .ok d ∧ ∃ v, d.amount? = some v ∧ 0 ≤ v ∧ v ≤ most := by
    cases n with
    | zero => exact ⟨.whole 0, fun first => absurd first (by decide)⟩
    | succ j =>
      by_cases less : j + 1 < k
      · obtain ⟨r, value, nonneg, small⟩ := drawn (j + 1)
        obtain ⟨d, v, defined, bounds⟩ := sensible.delay_capped exact value nonneg small (grows j less)
        exact ⟨d, fun _ _ => ⟨defined, v, bounds⟩⟩
      · exact ⟨.whole 0, fun _ less' => absurd less' less⟩
  choose delay spec using each
  exact ⟨delay, spec⟩

variable {outcome : Nat → Except Failure α} {j : Nat}

/-- In a run whose delays all stay in the range, each wait is within the limit, and what comes of it is the outcome
of the last call. -/
theorem run_capped (sensible : p.Sensible base most factor) (exact : p.jitter = true → Exact p.maxDelay)
    {random : Nat → Float} (drawn : ∀ n, ∃ r, Decimal.amount? (random n) = some r ∧ 0 ≤ r ∧ r < 1)
    (last : p.IsLast outcome k) (grows : ∀ j, j + 1 < k → p.Grows base factor j)
    (failed gaveUp : Nat → Failure → σ → σ) (a : A) (s : σ) :
    ∃ (delay : Nat → Number) (told : σ),
      (∀ n, 1 ≤ n → n < k → ∃ v, (delay n).amount? = some v ∧ 0 ≤ v ∧ v ≤ most) ∧
      p.run (Watch.hooks p random failed gaveUp) (Watch.work outcome a) ⟨[], s⟩ =
        ending (outcome k) ⟨course a delay 1 k, told⟩ := by
  obtain ⟨delay, spec⟩ := sensible.exists_delays exact drawn grows
  have ends : ∃ told, p.run (Watch.hooks p random failed gaveUp) (Watch.work outcome a) ⟨[], s⟩ =
      ending (outcome k) ⟨course a delay 1 k, told⟩ :=
    attempts_work last (Nat.le_refl 1) last.1.1 (fun n first less => (spec n first less).1) ⟨[], s⟩ rfl
  obtain ⟨told, run⟩ := ends
  exact ⟨delay, told, fun n first less => (spec n first less).2, run⟩

/-- The first delay beyond the range ends a run with an overflow, and the work is not called again. -/
theorem run_overflows (sensible : p.Sensible base most factor) (exact : p.jitter = true → Exact p.maxDelay)
    {random : Nat → Float} (drawn : ∀ n, ∃ r, Decimal.amount? (random n) = some r ∧ 0 ≤ r ∧ r < 1)
    (last : p.IsLast outcome k) (less : j + 1 < k) (grows : ∀ i, i < j → p.Grows base factor i)
    (beyond : ¬p.Grows base factor j) (failed gaveUp : Nat → Failure → σ → σ) (a : A) (s : σ) :
    ∃ (delay : Nat → Number) (told : σ) (message : String),
      p.run (Watch.hooks p random failed gaveUp) (Watch.work outcome a) ⟨[], s⟩ =
        .error (.plain .overflow message) ⟨course a delay 1 (j + 1), told⟩ := by
  obtain ⟨delay, spec⟩ := sensible.exists_delays exact drawn (k := j + 1) fun i earlier => grows i (by omega)
  obtain ⟨message, broken⟩ := sensible.delay_overflows (random (j + 1)) beyond
  have ends : ∃ told, p.run (Watch.hooks p random failed gaveUp) (Watch.work outcome a) ⟨[], s⟩ =
      .error (.plain .overflow message) ⟨course a delay 1 (j + 1), told⟩ :=
    attempts_broken last (Nat.le_refl 1) (Nat.le_add_left 1 j) less (fun n first less => (spec n first less).1)
      broken ⟨[], s⟩ rfl
  obtain ⟨told, run⟩ := ends
  exact ⟨delay, told, message, run⟩

end Sensible

theorem sensible_standard : Sensible {} 1 60 2 where
  base_eq := measures_one.amount?
  base_nonneg := zero_le_one
  most_eq := by
    have unpacked : (60.0 : Float).toModel.unpack = .finite .positive (15 * 2 ^ 49) (-47) (by decide) := rfl
    have measured : Measures (60.0 : Float).toModel.unpack 60 :=
      measures_of_unpack unpacked ⟨by decide, by decide, by decide, by decide⟩ (by norm_num)
    exact measured.amount?
  most_nonneg := by norm_num
  factor_eq := by
    have unpacked : (2.0 : Float).toModel.unpack = .finite .positive (2 ^ 52) (-51) (by decide) := rfl
    have measured : Measures (2.0 : Float).toModel.unpack 2 :=
      measures_of_unpack unpacked ⟨by decide, by decide, by decide, by decide⟩ (by norm_num)
    exact measured.amount?
  one_le_factor := one_le_two

/-- The standard policy has no delay after the 1024th call. -/
theorem standard_overflows (random : Float) (long : 1024 ≤ k) :
    Overflows (({} : RetryPolicy).delay random (k + 1)) := by
  refine sensible_standard.delay_overflows random (not_or.2 ⟨?_, ?_⟩)
  · intro whole
    obtain ⟨⟨m, base⟩, -⟩ := whole
    cases base
  · intro inside
    have beyond : (limit : ℚ) ≤ 2 ^ k := by exact_mod_cast limit_le long
    exact absurd inside.2 (not_lt.2 beyond)

end RetryPolicy

end Runbook
