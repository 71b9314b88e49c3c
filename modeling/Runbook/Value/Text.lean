import Runbook.Value.Basic
import Runbook.Decimal.Shortest
import Runbook.Text.Quoted

/-!
Values as text, in three forms. The JSON form is what templates and logs insert for lists and
dictionaries. The literal form names truth values `True` and `False`, null `None` and quotes
texts. The display form is the literal one, except that a text stands for itself.
-/
namespace Runbook

/-- A float in JSON: not-a-number and the infinities have names of their own. -/
def jsonFloat (x : Float) : String :=
  match Decimal.Binary.ofFloat x with
  | .nan => "NaN"
  | .infinite negative => if negative then "-Infinity" else "Infinity"
  | _ => Decimal.text x

/-- The text that a key has in JSON. -/
def Key.jsonText : Key → String
  | .null => "null"
  | .bool b => if b then "true" else "false"
  | .int n => toString n
  | .float x => jsonFloat x
  | .text s => s

def Key.literal : Key → String
  | .null => "None"
  | .bool b => if b then "True" else "False"
  | .int n => toString n
  | .float x => Decimal.text x
  | .text s => Text.quoted s

namespace Value

mutual

/-- JSON text on one line, with a blank after each comma and colon. -/
def json : Value → String
  | .null => "null"
  | .bool b => if b then "true" else "false"
  | .int n => toString n
  | .float x => jsonFloat x
  | .text s => Text.jsonQuoted s
  | .list items => "[" ++ ", ".intercalate (jsonItems items) ++ "]"
  | .dict entries => "\x7b" ++ ", ".intercalate (jsonEntries entries) ++ "\x7d"

def jsonItems : List Value → List String
  | [] => []
  | v :: rest => json v :: jsonItems rest

def jsonEntries : List (Key × Value) → List String
  | [] => []
  | (k, v) :: rest => (Text.jsonQuoted k.jsonText ++ ": " ++ json v) :: jsonEntries rest

end

mutual

/-- The literal form: `{'a': [1, True, None]}`. -/
def literal : Value → String
  | .null => "None"
  | .bool b => if b then "True" else "False"
  | .int n => toString n
  | .float x => Decimal.text x
  | .text s => Text.quoted s
  | .list items => "[" ++ ", ".intercalate (literalItems items) ++ "]"
  | .dict entries => "\x7b" ++ ", ".intercalate (literalEntries entries) ++ "\x7d"

def literalItems : List Value → List String
  | [] => []
  | v :: rest => literal v :: literalItems rest

def literalEntries : List (Key × Value) → List String
  | [] => []
  | (k, v) :: rest => (k.literal ++ ": " ++ literal v) :: literalEntries rest

end

/-- The display form: a text as it is, anything else as its literal. -/
def display : Value → String
  | .text s => s
  | v => v.literal

/-- The form that a template inserts: a text as it is, a whole float without its point, lists and
dictionaries in JSON. -/
def templateText : Value → String
  | .null => "null"
  | .bool b => if b then "true" else "false"
  | .int n => toString n
  | .float x =>
    match Decimal.wholePart? x with
    | some n => toString n
    | none => Decimal.text x
  | .text s => s
  | v => v.json

mutual

/-- The value as a JSON column gives it back: keys have become texts, and of two keys with one
text the later value stays. -/
def stored : Value → Value
  | .list items => .list (storedItems items)
  | .dict entries => .dict (Dict.ofPairs (storedEntries entries))
  | v => v

def storedItems : List Value → List Value
  | [] => []
  | v :: rest => stored v :: storedItems rest

def storedEntries : List (Key × Value) → List (Key × Value)
  | [] => []
  | (k, v) :: rest => (.text k.jsonText, stored v) :: storedEntries rest

end

end Value

end Runbook
