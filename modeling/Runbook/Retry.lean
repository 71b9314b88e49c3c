import Runbook.Failure
import Runbook.Journal

/-!
Trying again. A policy says which failures are worth another attempt, how many attempts there are
and how long to wait after each: a delay that grows by a factor, up to a limit, and is shortened
at random by at most a half.
-/
namespace Runbook

namespace Failure

/-- The classes that a failure belongs to, from its own to the most general. -/
def classes : Failure → List String
  | .program e => [e.kind.name, "WorkflowEngineError", "Exception"]
  | .plain .key _ => ["KeyError", "LookupError", "Exception"]
  | .plain .overflow _ => ["OverflowError", "ArithmeticError", "Exception"]
  | .plain .division _ => ["ZeroDivisionError", "ArithmeticError", "Exception"]
  | .plain k _ => [k.name, "Exception"]
  | .invalid _ => ["ValidationError", "ValueError", "Exception"]
  | .transport name _ => [name, "RequestException", "OSError", "Exception"]

end Failure

namespace Number

def toFloat : Number → Except Failure Float
  | .real x => .ok x
  | .whole n =>
    match Decimal.ofWhole? n with
    | some x => .ok x
    | none => .error (.plain .overflow "int too large to convert to float")

/-- The second is smaller, by exact values. -/
def less (a b : Number) : Bool :=
  match a, b with
  | .whole m, .whole n => m < n
  | .real x, .real y => x < y
  | .whole m, .real y =>
    match Decimal.Binary.ofFloat y, Decimal.truncated? y with
    | .finite .., some t =>
      m < t || (m == t && (match Decimal.ofWhole? t with | some z => z < y | none => false))
    | .infinite negative, _ => !negative
    | _, _ => false
  | .real x, .whole n =>
    match Decimal.Binary.ofFloat x, Decimal.truncated? x with
    | .finite .., some t =>
      t < n || (t == n && (match Decimal.ofWhole? t with | some z => x < z | none => false))
    | .infinite negative, _ => negative
    | _, _ => false

def value : Number → Value
  | .whole n => .int n
  | .real x => .float x

end Number

namespace Retry

def zeroToNegative : Failure :=
  .plain .division "0.0 cannot be raised to a negative power"

def resultTooLarge : Failure := .plain .overflow "(34, 'Numerical result out of range')"

/-- The nearest floating-point number to a fraction, zero when it is too small. -/
def nearest (r : Decimal.Ratio) : Float :=
  -- Scaled so that the quotient has at least 64 bits; a remainder is kept as one more odd bit.
  let shift : Int := (r.den.log2 : Int) - r.num.log2 + 66
  let (num, den) := if shift ≥ 0 then (r.num <<< shift.toNat, r.den) else (r.num, r.den <<< (-shift).toNat)
  let q := num / den
  let odd := if num % den = 0 then 2 * q else 2 * q + 1
  let rounded := Decimal.Ratio.scaled odd (-shift - 1)
  -- An exact binary fraction `odd · 2^(-shift-1)` is a decimal one as well.
  if rounded.den = 1 then Float.ofScientific rounded.num false 0
  else
    let places := rounded.den.log2
    Decimal.ofScientific (rounded.num * Nat.pow 5 places) (-places)

/-- A floating-point number to a whole power, correctly rounded. -/
def floatPower (x : Float) (n : Int) : Except Failure Float :=
  match Decimal.Binary.ofFloat x with
  | .nan => .ok (if n = 0 then 1.0 else x)
  | .infinite negative =>
    if n = 0 then .ok 1.0
    else
      let minus := negative && n % 2 != 0
      if n > 0 then .ok (if minus then -1.0 / 0.0 else 1.0 / 0.0)
      else .ok (if minus then -0.0 else 0.0)
  | .finite negative m e =>
    let minus := negative && n % 2 != 0
    if n = 0 then .ok 1.0
    else if m = 0 then
      if n < 0 then .error zeroToNegative else .ok (if minus then -0.0 else 0.0)
    else
      let k := n.natAbs
      -- The power is far outside the range when the exponent alone shows it.
      let bits : Int := (m.log2 + e) * n
      if bits > 5000 then .error resultTooLarge
      else if bits < -5000 then .ok (if minus then -0.0 else 0.0)
      else
        let r := Decimal.Ratio.scaled m e
        let (num, den) := (r.num.pow k, r.den.pow k)
        let r : Decimal.Ratio := if n > 0 then ⟨num, den⟩ else ⟨den, num⟩
        let y := nearest r
        match Decimal.Binary.ofFloat y with
        | .finite .. => .ok (if minus then -y else y)
        | _ => .error resultTooLarge

/-- A number to a whole power: whole as long as base and exponent allow it. -/
def power (x : Number) (n : Int) : Except Failure Number :=
  match x with
  | .whole b =>
    if n ≥ 0 then
      -- Powers of numbers no larger than one only hang on whether the exponent is odd.
      let k := if b.natAbs ≤ 1 ∧ n ≥ 2 then 2 + n % 2 else n
      .ok (.whole (b.pow k.toNat))
    else if b = 0 then .error zeroToNegative
    else do return .real (← floatPower (← (Number.whole b).toFloat) n)
  | .real y => .real <$> floatPower y n

/-- The product, whole when both factors are. -/
def times (a b : Number) : Except Failure Number :=
  match a, b with
  | .whole m, .whole n => .ok (.whole (m * n))
  | _, _ => do return .real ((← a.toFloat) * (← b.toFloat))

end Retry

/-- When and how to try again. -/
structure RetryPolicy where
  maxAttempts : Int := 3
  baseDelay : Number := .real 1.0
  maxDelay : Number := .real 60.0
  factor : Number := .real 2.0
  jitter : Bool := true
  /-- The classes of failures worth another attempt. -/
  retryable : List String := ["TransientError", "StorageError"]

namespace RetryPolicy

/-- A failure is worth another attempt when its class is; a failure of the program must also be
marked recoverable. -/
def accepts (p : RetryPolicy) (f : Failure) : Bool :=
  p.retryable.any f.classes.contains &&
    match f with
    | .program e => e.recoverable
    | _ => true

/-- Seconds to wait after a failed attempt, counted from one. -/
def delay (p : RetryPolicy) (random : Float) (attempt : Int) : Except Failure Number := do
  let grown ← Retry.times p.baseDelay (← Retry.power p.factor (attempt - 1))
  let capped := if p.maxDelay.less grown then p.maxDelay else grown
  if p.jitter then Retry.times capped (.real (0.5 + random * 0.5)) else return capped

/-- What happens besides the attempts: a failed one is reported and waited after, and giving up
is reported. -/
structure Hooks (σ : Type) where
  failed : Nat → Failure → EStateM Failure σ Unit
  gaveUp : Nat → Failure → EStateM Failure σ Unit

/-- Attempts with `left` more to come after this one. -/
def attempts {σ α : Type} (p : RetryPolicy) (hooks : Hooks σ) (call : EStateM Failure σ α) :
    (left attempt : Nat) → EStateM Failure σ α
  | 0, attempt =>
    tryCatch call fun f => do
      if p.accepts f then hooks.gaveUp attempt f
      throw f
  | left + 1, attempt =>
    tryCatch call fun f => do
      if p.accepts f then
        hooks.failed attempt f
        attempts p hooks call left (attempt + 1)
      else throw f

/-- Calls until it succeeds, fails for good or has failed too often. -/
def run {σ α : Type} (p : RetryPolicy) (hooks : Hooks σ) (call : EStateM Failure σ α) :
    EStateM Failure σ α :=
  p.attempts hooks call (p.maxAttempts - 1).toNat 1

end RetryPolicy

namespace Retry

/-- The report of a failed attempt. -/
def reportFailed (j : Journal) (component operation : String) (attempt : Int) (most : Int)
    (f : Failure) : Journal :=
  j.write .warning ("deskflow.retry." ++ component)
    (operation ++ " failed (attempt " ++ toString attempt ++ "/" ++ toString most ++ "): " ++ f.text)
    [(.text "component", .text component), (.text "operation", .text operation),
      (.text "error_type", .text f.kindName), (.text "attempt", .int attempt)] none

/-- The report of giving up. -/
def reportGaveUp (j : Journal) (component operation : String) (used : Int) (f : Failure) : Journal :=
  j.write .error ("deskflow.retry." ++ component)
    (operation ++ " failed after " ++ toString used ++ " attempts: " ++ f.text)
    [(.text "component", .text component), (.text "operation", .text operation),
      (.text "error_type", .text f.kindName), (.text "attempts_used", .int used)] none

end Retry

end Runbook
