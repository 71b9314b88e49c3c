import Runbook.Text.Blank
import Runbook.Text.Digit

/-!
Reading numbers. A decimal has an optional sign, digits with an optional point, and an optional
exponent; single underscores may stand between digits; `inf`, `infinity` and `nan` are numbers in
any case. Digits of every script count.
-/
namespace Runbook.Decimal

open Runbook.Text

/-- The value of a run of digits. -/
def digitsValue (ds : List Nat) : Nat := ds.foldl (fun n d => 10 * n + d) 0

/-- The text starts with a digit. -/
def startsWithDigit : List Char → Bool
  | [] => false
  | c :: _ => (digitValue? c).isSome

/-- Reads digits off the front; with `joined`, one underscore may stand between two digits.
`inside` says that a digit has just been read. -/
def takeDigits (joined : Bool) (inside : Bool) : List Char → List Nat × List Char
  | [] => ([], [])
  | c :: rest =>
    match digitValue? c with
    | some d =>
      let (ds, tail) := takeDigits joined true rest
      (d :: ds, tail)
    | none =>
      if joined && inside && c == '_' && startsWithDigit rest then takeDigits joined false rest
      else ([], c :: rest)

/-- Splits a sign off the front; true stands for minus. -/
def takeSign : List Char → Bool × List Char
  | '-' :: rest => (true, rest)
  | '+' :: rest => (false, rest)
  | cs => (false, cs)

/-- The number `digits · 10^exponent`, correctly rounded. Exponents far outside the range are
settled without the power. -/
def ofScientific (digits : Nat) (exponent : Int) : Float :=
  let first := exponent + (Nat.toDigits 10 digits).length
  if digits = 0 ∨ first < -400 then 0.0
  else if first > 400 then 1.0 / 0.0
  else if exponent ≥ 0 then Float.ofScientific digits false exponent.toNat
  else Float.ofScientific digits true (-exponent).toNat

def lowered (cs : List Char) : List Char := cs.map Char.toLower

/-- Reads an unsigned decimal. -/
def readUnsigned (joined : Bool) (cs : List Char) : Option Float :=
  let named := lowered cs
  if named = "inf".toList ∨ named = "infinity".toList then some (1.0 / 0.0)
  else if named = "nan".toList then some (0.0 / 0.0)
  else
    let (whole, rest) := takeDigits joined false cs
    let (places, rest) := match rest with
      | '.' :: after => takeDigits joined false after
      | _ => ([], rest)
    if whole = [] ∧ places = [] then none
    else
      let digits := digitsValue (whole ++ places)
      match rest with
      | [] => some (ofScientific digits (-places.length))
      | c :: after =>
        if c = 'e' ∨ c = 'E' then
          let (minus, after) := takeSign after
          let (power, tail) := takeDigits joined false after
          if power = [] ∨ tail ≠ [] then none
          else
            let p : Int := digitsValue power
            some (ofScientific digits ((if minus then -p else p) - places.length))
        else none

/-- Reads a signed decimal that fills the text. -/
def readSigned (joined : Bool) (cs : List Char) : Option Float :=
  let (minus, rest) := takeSign cs
  (readUnsigned joined rest).map fun x => if minus then -x else x

/-- The characters that may stand around a number in a text. -/
def isAround (c : Char) : Bool := isSpace c

/-- The number that a text spells, if it spells one. -/
def read (s : String) : Option Float := readSigned true (trimOf isAround s.toList)

/-- Reads an optional sign and digits, with single underscores between digits. -/
def readWhole (cs : List Char) : Option Int :=
  let (minus, rest) := takeSign cs
  match takeDigits true false rest with
  | ([], _) => none
  | (ds, []) => some (if minus then -(digitsValue ds : Int) else digitsValue ds)
  | _ => none

end Runbook.Decimal
