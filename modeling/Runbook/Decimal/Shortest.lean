import Runbook.Decimal.Binary

/-!
Numbers as decimal text. The shortest form has the fewest digits that read back as the same
number and, among those, the ones nearest to it; the rounded forms have a fixed number of
significant digits or of places. All are found in exact integer arithmetic.
-/
namespace Runbook.Decimal

/-- A decimal number `digits · 10^exponent`. -/
structure Scientific where
  digits : Nat
  exponent : Int
  deriving DecidableEq, Repr

/-- Trailing zeros of the digits move into the exponent, at most `n` of them. -/
def Scientific.strip : Nat → Scientific → Scientific
  | 0, s => s
  | n + 1, s =>
    if s.digits ≠ 0 ∧ s.digits % 10 = 0 then strip n ⟨s.digits / 10, s.exponent + 1⟩ else s

/-- The decimal exponent of the first digit of a fraction that is not zero. -/
def Ratio.magnitude (r : Ratio) : Int :=
  if r.num ≥ r.den then ((Nat.toDigits 10 (r.num / r.den)).length : Int) - 1
  else -((Nat.toDigits 10 ((r.den + r.num - 1) / r.num - 1)).length : Int)

/-- `r / 10^k`. -/
def Ratio.shift (r : Ratio) (k : Int) : Ratio :=
  if k ≥ 0 then ⟨r.num, r.den * Nat.pow 10 k.toNat⟩
  else ⟨r.num * Nat.pow 10 (-k).toNat, r.den⟩

/-- The numbers that round to a given floating-point number: from `low` to `high`, the ends
included when the mantissa is even. -/
structure Interval where
  low : Ratio
  high : Ratio
  closed : Bool

/-- `⟨a, b⟩` lies below or at `⟨c, d⟩`. -/
def Ratio.le (x y : Ratio) : Bool := x.num * y.den ≤ y.num * x.den

/-- `⟨a, b⟩` lies below `⟨c, d⟩`. -/
def Ratio.lt (x y : Ratio) : Bool := x.num * y.den < y.num * x.den

def Interval.contains (i : Interval) (r : Ratio) : Bool :=
  if i.closed then i.low.le r && r.le i.high else i.low.lt r && r.lt i.high

/-- The numbers that round to `m · 2^e`. The gap below a power of two is half as wide, except at
the bottom of the range. -/
def Interval.around (m : Nat) (e : Int) : Interval :=
  let below := if m = Nat.pow 2 52 ∧ e > -1074 then Ratio.scaled (4 * m - 1) (e - 2)
    else Ratio.scaled (2 * m - 1) (e - 1)
  ⟨below, Ratio.scaled (2 * m + 1) (e - 1), m % 2 = 0⟩

/-- The point of the grid of multiples of `10^k` that lies in the interval and nearest to `r`. -/
def nearestOnGrid (r : Ratio) (i : Interval) (k : Int) : Option Scientific :=
  let s := r.shift k
  let d := s.num / s.den
  let value (n : Nat) : Ratio :=
    if k ≥ 0 then ⟨n * Nat.pow 10 k.toNat, 1⟩ else ⟨n, Nat.pow 10 (-k).toNat⟩
  match i.contains (value d), i.contains (value (d + 1)) with
  | true, true => some ⟨s.round, k⟩
  | true, false => some ⟨d, k⟩
  | false, true => some ⟨d + 1, k⟩
  | false, false => none

/-- Tries grids of one digit, two digits and so on, `fuel` of them. -/
def coarsestGrid (r : Ratio) (i : Interval) (k : Int) : Nat → Scientific
  | 0 => ⟨(r.shift k).round, k⟩
  | fuel + 1 => (nearestOnGrid r i k).getD (coarsestGrid r i (k - 1) fuel)

/-- The shortest decimal that reads back as `m · 2^e`, for `m` not zero. -/
def shortest (m : Nat) (e : Int) : Scientific :=
  let r := Ratio.scaled m e
  (coarsestGrid r (.around m e) r.magnitude 16).strip 20

/-- How a decimal is laid out: which exponents of the first digit are written positionally, and
whether a whole number keeps a point and a zero. -/
structure Layout where
  lowest : Int
  highest : Int
  pointZero : Bool

/-- The shortest form is positional from `0.0001` up to and without `10^16`. -/
def Layout.shortest : Layout := ⟨-4, 15, true⟩

def zerosText (n : Nat) : String := String.ofList (List.replicate n '0')

/-- The exponent has a sign and at least two digits. -/
def exponentText (e : Int) : String :=
  let digits := toString e.natAbs
  "e" ++ (if e < 0 then "-" else "+") ++ (if digits.length < 2 then "0" ++ digits else digits)

/-- Lays out a decimal; its digits carry no trailing zero unless it is zero. -/
def Layout.render (l : Layout) (s : Scientific) : String :=
  let ds := toString s.digits
  let n : Int := ds.length
  let first := s.exponent + n - 1
  if first < l.lowest ∨ first > l.highest then
    (match ds.toList with
      | [] => ""
      | [c] => c.toString
      | c :: rest => String.ofList (c :: '.' :: rest)) ++ exponentText first
  else if s.exponent ≥ 0 then
    ds ++ zerosText s.exponent.toNat ++ (if l.pointZero then ".0" else "")
  else if first ≥ 0 then
    let cut := (first + 1).toNat
    String.ofList (ds.toList.take cut ++ '.' :: ds.toList.drop cut)
  else "0." ++ zerosText (-first - 1).toNat ++ ds

/-- A number in shortest form: `1.5`, `100.0`, `1e-05`, `-0.0`, `nan`, `inf`. -/
def text (x : Float) : String :=
  match Binary.ofFloat x with
  | .nan => "nan"
  | .infinite negative => if negative then "-inf" else "inf"
  | .finite negative m e =>
    (if negative then "-" else "") ++
      (if m = 0 then "0.0" else Layout.shortest.render (shortest m e))

/-- A number rounded to six significant digits, without trailing zeros: `0.5`, `100000`, `1e+06`. -/
def general (x : Float) : String :=
  match Binary.ofFloat x with
  | .nan => "nan"
  | .infinite negative => if negative then "-inf" else "inf"
  | .finite negative m e =>
    (if negative then "-" else "") ++
      (if m = 0 then "0" else
        let r := Ratio.scaled m e
        let k := r.magnitude - 5
        Layout.render ⟨-4, 5, false⟩ (Scientific.strip 7 ⟨(r.shift k).round, k⟩))

/-- A number rounded to a whole one, an exact half going to the even neighbour. -/
def wholeText (x : Float) : String :=
  match Binary.ofFloat x with
  | .nan => "nan"
  | .infinite negative => if negative then "-inf" else "inf"
  | .finite negative m e =>
    (if negative then "-" else "") ++ toString (Ratio.scaled m e).round

end Runbook.Decimal
