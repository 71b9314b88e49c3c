/-!
The exact value of a binary floating-point number: a whole mantissa times a power of two.
Everything that writes or compares numbers starts from here, in exact integer arithmetic.
-/
namespace Runbook.Decimal

/-- What the 64 bits of a number stand for; a finite one is `(-1)^negative · mantissa · 2^exponent`. -/
inductive Binary where
  | finite (negative : Bool) (mantissa : Nat) (exponent : Int)
  | infinite (negative : Bool)
  | nan
  deriving DecidableEq, Repr

/-- Sign, biased exponent and fraction, read off the bits. -/
def Binary.ofFloat (x : Float) : Binary :=
  let bits := x.toBits.toNat
  let negative := Nat.pow 2 63 ≤ bits
  let biased : Nat := bits / Nat.pow 2 52 % 2048
  let fraction : Nat := bits % Nat.pow 2 52
  if biased = 2047 then
    if fraction = 0 then .infinite negative else .nan
  else if biased = 0 then .finite negative fraction (-1074)
  else .finite negative (fraction + Nat.pow 2 52) ((biased : Int) - 1075)

/-- A non-negative fraction; the denominator is not zero. -/
structure Ratio where
  num : Nat
  den : Nat
  deriving Repr

/-- `m · 2^e` as a fraction. -/
def Ratio.scaled (m : Nat) (e : Int) : Ratio :=
  if e ≥ 0 then ⟨m * Nat.pow 2 e.toNat, 1⟩ else ⟨m, Nat.pow 2 (-e).toNat⟩

/-- The whole number that a finite number equals, when it is one. -/
def wholePart? (x : Float) : Option Int :=
  match Binary.ofFloat x with
  | .finite negative m e =>
    let r := Ratio.scaled m e
    if r.num % r.den = 0 then
      let n : Int := (r.num / r.den : Nat)
      some (if negative then -n else n)
    else none
  | _ => none

/-- The whole number nearest to zero between a finite number and zero. -/
def truncated? (x : Float) : Option Int :=
  match Binary.ofFloat x with
  | .finite negative m e =>
    let r := Ratio.scaled m e
    let n : Int := (r.num / r.den : Nat)
    some (if negative then -n else n)
  | _ => none

/-- A whole number and a floating-point number are compared by their exact values. -/
def wholeEquals (n : Int) (x : Float) : Bool := wholePart? x == some n

/-- The nearest floating-point number to a whole one, an exact half going to the even neighbour;
none when the result would be infinite. -/
def ofWhole? (n : Int) : Option Float :=
  let x := Float.ofNat n.natAbs
  match Binary.ofFloat x with
  | .finite .. => some (if n < 0 then -x else x)
  | _ => none

/-- A fraction rounded to a whole number, an exact half going to the even neighbour. -/
def Ratio.round (r : Ratio) : Nat :=
  let q := r.num / r.den
  let twice := 2 * (r.num % r.den)
  if twice < r.den then q
  else if twice > r.den then q + 1
  else if q % 2 = 0 then q else q + 1

end Runbook.Decimal
