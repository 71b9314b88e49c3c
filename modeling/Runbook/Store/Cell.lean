import Runbook.Failure
import Runbook.Decimal.Shortest
import Runbook.Text.Blank

/-!
What a column makes of a value. A text column keeps numbers and truth values as their text; a
whole-number column turns what spells a number into one. Lists and dictionaries fit neither.
-/
namespace Runbook.Store

/-- Why a row was not written. -/
inductive Refusal where
  /-- The database said no. -/
  | rejected
  /-- Something else went wrong on the way. -/
  | raised (f : Failure)

/-- A whole number beyond 64 bits fits no column. -/
def tooLarge : Refusal :=
  .raised (.plain .overflow "Python int too large to convert to SQLite INTEGER")

def fits (n : Int) : Bool := -Int.pow 2 63 ≤ n && n < Int.pow 2 63

/-- A float in a text column has at most fifteen digits and always a point. -/
def floatText (x : Float) : Option String :=
  match Decimal.Binary.ofFloat x with
  | .nan => none
  | .infinite negative => some (if negative then "-Inf" else "Inf")
  | .finite negative m e =>
    let sign := if negative ∧ m ≠ 0 then "-" else ""
    if m = 0 then some (sign ++ "0.0")
    else
      let r := Decimal.Ratio.scaled m e
      let k := r.magnitude - 14
      let s := Decimal.Scientific.strip 16 ⟨(r.shift k).round, k⟩
      let body := Decimal.Layout.render ⟨-4, 14, true⟩ s
      let digits := toString s.digits
      some (sign ++ (if digits.length = 1 ∧ body.contains 'e' then
        digits ++ ".0" ++ (body.drop 1).toString else body))

/-- The content of a text column. -/
def textCell : Value → Except Refusal (Option String)
  | .null => .ok none
  | .bool b => .ok (some (if b then "1" else "0"))
  | .int n => if fits n then .ok (some (toString n)) else .error tooLarge
  | .float x => .ok (floatText x)
  | .text s => .ok (some s)
  | .list _ | .dict _ => .error .rejected

/-- A column that may not be null. -/
def notNull {α : Type} : Option α → Except Refusal α
  | some a => .ok a
  | none => .error .rejected

/-- The content of a whole-number column. -/
def wholeCell : Value → Except Refusal Value
  | .null => .ok .null
  | .bool b => .ok (.int (if b then 1 else 0))
  | .int n => if fits n then .ok (.int n) else .error tooLarge
  | .float x =>
    match Decimal.Binary.ofFloat x, Decimal.wholePart? x with
    | .nan, _ => .ok .null
    | _, some n => .ok (if fits n then .int n else .float x)
    | _, none => .ok (.float x)
  | .text s =>
    let cs := Text.trimOf (· == ' ') s.toList
    if cs.all fun c => Text.isDigit c || "+-.eE".toList.contains c then
      match Decimal.readSigned false cs with
      | some x =>
        match (if cs.all fun c => Text.isDigit c || c == '+' || c == '-' then Decimal.readWhole cs
            else Decimal.wholePart? x) with
        | some n => .ok (if fits n then .int n else .float x)
        | none => .ok (.float x)
      | none => .ok (.text s)
    else .ok (.text s)
  | .list _ | .dict _ => .error .rejected

end Runbook.Store
