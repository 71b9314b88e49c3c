import Runbook.Failure
import Runbook.Template

/-!
Comparisons made by condition nodes. Two texts are compared as texts; when only one side is a
number or a truth value, the other is read as a number if it can be.
-/
namespace Runbook

/-- A comparison as a definition writes it. -/
structure Condition where
  field : String
  operator : String
  value : Value

namespace Comparison

/-- A whole number beyond the range of floating-point numbers cannot be compared as one. -/
def tooLarge : Failure := .plain .overflow "int too large to convert to float"

/-- The number that a value is compared as; a blank text counts as zero. -/
def toNumber? : Value → Except Failure (Option Float)
  | .bool b => .ok (some (if b then 1.0 else 0.0))
  | .int n =>
    match Decimal.ofWhole? n with
    | some x => .ok (some x)
    | none => .error tooLarge
  | .float x => .ok (some x)
  | .text s =>
    let t := Text.trim s
    if t = "" then .ok (some 0.0)
    else
      match Decimal.read t with
      | some x => .ok (if x.isNaN then none else some x)
      | none => .ok none
  | _ => .ok none

def isNumeric (v : Value) : Bool := v.number?.isSome

def isContainer : Value → Bool
  | .list _ | .dict _ => true
  | _ => false

/-- Compares two values as numbers; false when one of them is none. The left one is converted
first. -/
def numbers (compare : Float → Float → Bool) (l r : Value) : Except Failure Bool := do
  let x ← toNumber? l
  let y ← toNumber? r
  match x, y with
  | some x, some y => .ok (compare x y)
  | _, _ => .ok false

/-- Equality that treats a number and a text that spells it alike. -/
def looseEquals (l r : Value) : Except Failure Bool :=
  match l, r with
  | .null, w => .ok w.isNull
  | v, .null => .ok v.isNull
  | .text a, .text b => .ok (a == b)
  | v, w =>
    if isNumeric v || isNumeric w then
      if isContainer v || isContainer w then .ok false
      else numbers (· == ·) v w
    else .ok (v.same w)

/-- An order on texts, by code points, and on numbers. -/
def ordered (text : String → String → Bool) (number : Float → Float → Bool) (l r : Value) :
    Except Failure Bool :=
  match l, r with
  | .null, _ => .ok false
  | _, .null => .ok false
  | .text a, .text b => .ok (text a b)
  | v, w => numbers number v w

def lessThan : Value → Value → Except Failure Bool :=
  ordered (fun a b => decide (a < b)) (fun x y => decide (x < y))

def greaterThan : Value → Value → Except Failure Bool :=
  ordered (fun a b => decide (b < a)) (fun x y => decide (y < x))

/-- Null and the empty text are empty. -/
def isEmpty : Value → Bool
  | .null => true
  | .text s => s == ""
  | _ => false

/-- The text of a value as characters, the way templates write it. -/
def chars (v : Value) : List Char := v.templateText.toList

inductive Operator where
  | equals | notEquals | greaterThan | lessThan | contains | notContains
  | startsWith | endsWith | isEmpty | isNotEmpty
  deriving DecidableEq, Repr

def Operator.all : List Operator := [
  .equals, .notEquals, .greaterThan, .lessThan, .contains, .notContains, .startsWith, .endsWith,
  .isEmpty, .isNotEmpty]

def Operator.name : Operator → String
  | .equals => "equals"
  | .notEquals => "not_equals"
  | .greaterThan => "greater_than"
  | .lessThan => "less_than"
  | .contains => "contains"
  | .notContains => "not_contains"
  | .startsWith => "starts_with"
  | .endsWith => "ends_with"
  | .isEmpty => "is_empty"
  | .isNotEmpty => "is_not_empty"

def Operator.ofName? (s : String) : Option Operator := Operator.all.find? (·.name == s)

def Operator.apply (op : Operator) (l r : Value) : Except Failure Bool :=
  match op with
  | .equals => looseEquals l r
  | .notEquals => (! ·) <$> looseEquals l r
  | .greaterThan => Comparison.greaterThan l r
  | .lessThan => Comparison.lessThan l r
  | .contains => .ok (Text.occursIn (chars r) (chars l))
  | .notContains => .ok (!Text.occursIn (chars r) (chars l))
  | .startsWith => .ok ((chars r).isPrefixOf (chars l))
  | .endsWith => .ok ((chars r).isSuffixOf (chars l))
  | .isEmpty => .ok (Comparison.isEmpty l)
  | .isNotEmpty => .ok (!Comparison.isEmpty l)

end Comparison

/-- Resolves both operands and compares them; an unknown operator is false. -/
def Condition.evaluate (c : Condition) (vars : Dict) : Except Failure Bool :=
  match Comparison.Operator.ofName? c.operator with
  | none => .ok false
  | some op => op.apply (Template.resolve vars (.text c.field)) (Template.resolve vars c.value)

end Runbook
