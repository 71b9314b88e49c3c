import Runbook.Value.Basic
import Runbook.Decimal.Read
import Runbook.Text.Search

/-!
Reading typed data out of values. A reader accepts a value, or reports every issue it finds with
the place of each, in the order of the fields; a value whose kind a rule cannot even examine
breaks the reading off. Numbers and truth values may come as text; texts are never made from
anything else.
-/
namespace Runbook

open Runbook.Text

/-- One step of the way to a place inside a value. -/
inductive Place where
  | name (s : String)
  | index (n : Nat)
  deriving DecidableEq, Repr

/-- What an issue is about. -/
inductive IssueKind where
  | missing
  | textType
  | wholeType
  | wholeFromText
  | wholeFromFloat
  | wholeRange
  | finite
  | floatType
  | floatFromText
  | boolType
  | boolFromText
  | listType
  | dictType
  | recordType
  | taggedType
  | tagMissing
  | tagUnknown
  | choice
  | atLeast
  | atMost
  | above
  | jsonText
  | rule (message : String)
  deriving DecidableEq, Repr

def IssueKind.name : IssueKind → String
  | .missing => "missing"
  | .textType => "string_type"
  | .wholeType => "int_type"
  | .wholeFromText => "int_parsing"
  | .wholeFromFloat => "int_from_float"
  | .wholeRange => "int_parsing_size"
  | .finite => "finite_number"
  | .floatType => "float_type"
  | .floatFromText => "float_parsing"
  | .boolType => "bool_type"
  | .boolFromText => "bool_parsing"
  | .listType => "list_type"
  | .dictType => "dict_type"
  | .recordType => "model_type"
  | .taggedType => "model_attributes_type"
  | .tagMissing => "union_tag_not_found"
  | .tagUnknown => "union_tag_invalid"
  | .choice => "enum"
  | .atLeast => "greater_than_equal"
  | .atMost => "less_than_equal"
  | .above => "greater_than"
  | .jsonText => "json_invalid"
  | .rule _ => "value_error"

/-- One thing wrong with a value, and where. -/
structure Issue where
  place : List Place
  kind : IssueKind
  deriving DecidableEq, Repr

/-- Why a reading broke off: an operation that the value's kind does not have. -/
inductive Mismatch where
  | operation
  | attribute
  deriving DecidableEq, Repr

/-- The outcome of reading a value. -/
inductive Reading (α : Type) where
  | accepted (a : α)
  | refused (issues : List Issue)
  | broken (m : Mismatch)

namespace Reading

variable {α β : Type}

def map (f : α → β) : Reading α → Reading β
  | .accepted a => .accepted (f a)
  | .refused is => .refused is
  | .broken m => .broken m

/-- Both readings are made; their issues are joined in order, and the first break wins. -/
def both (f : Reading (α → β)) (x : Reading α) : Reading β :=
  match f, x with
  | .broken m, _ => .broken m
  | _, .broken m => .broken m
  | .refused is, .refused js => .refused (is ++ js)
  | .refused is, .accepted _ => .refused is
  | .accepted _, .refused js => .refused js
  | .accepted g, .accepted a => .accepted (g a)

instance : Applicative Reading where
  pure := .accepted
  map := map
  seq f x := both f (x ())

/-- A further rule on what was accepted. -/
def check (r : Reading α) (rule : α → Reading β) : Reading β :=
  match r with
  | .accepted a => rule a
  | .refused is => .refused is
  | .broken m => .broken m

/-- Moves issues to a place further out. -/
def within (p : Place) : Reading α → Reading α
  | .refused is => .refused (is.map fun i => { i with place := p :: i.place })
  | r => r

def refuse (k : IssueKind) : Reading α := .refused [⟨[], k⟩]

def violate (message : String) : Reading α := refuse (.rule message)

/-- Reads the items of a list, each at its index, counted from `n`. -/
def items (read : Value → Reading α) : Nat → List Value → Reading (List α)
  | _, [] => pure []
  | n, v :: rest => List.cons <$> (read v).within (.index n) <*> items read (n + 1) rest

end Reading

/-- The value under the first of several names that a dictionary holds. -/
def Dict.first? (d : Dict) (names : List String) : Option Value := names.findSome? (Dict.get? d)

namespace Read

open Reading

def text : Value → Reading String
  | .text s => .accepted s
  | _ => refuse .textType

/-- A sign, digits with single underscores between them, and a tail of a point and zeros. -/
def wholeText? (cs : List Char) : Option Int :=
  let (body, tail) := (cs.takeWhile (· != '.'), cs.dropWhile (· != '.'))
  if cs.all (·.toNat < 128) && (tail.drop 1).all (· == '0') then Decimal.readWhole body else none

def whole : Value → Reading Int
  | .int n => .accepted n
  | .bool b => .accepted (if b then 1 else 0)
  | .float x =>
    match Decimal.Binary.ofFloat x, Decimal.wholePart? x with
    | .finite .., some n =>
      if -Int.pow 2 63 < n ∧ n < Int.pow 2 63 then .accepted n else refuse .wholeRange
    | .finite .., none => refuse .wholeFromFloat
    | _, _ => refuse .finite
  | .text s =>
    let cs := trimOf isSpace s.toList
    match wholeText? cs with
    | some n => if cs.length > 4300 then refuse .wholeRange else .accepted n
    | none => refuse .wholeFromText
  | _ => refuse .wholeType

/-- A decimal in ASCII; single underscores between its characters do not count. -/
def floatText? (cs : List Char) : Option Float :=
  if cs.all (·.toNat < 128) then
    (Decimal.readSigned false cs).or
      (if cs.contains '_' && cs.head? != some '_' && cs.getLast? != some '_' &&
          !occursIn "__".toList cs then
        Decimal.readSigned false (cs.filter (· != '_'))
      else none)
  else none

def float : Value → Reading Float
  | .float x => .accepted x
  | .bool b => .accepted (if b then 1.0 else 0.0)
  | .int n =>
    match Decimal.ofWhole? n with
    | some x => .accepted x
    | none => refuse .floatType
  | .text s =>
    match floatText? (trimOf isSpace s.toList) with
    | some x => .accepted x
    | none => refuse .floatFromText
  | _ => refuse .floatType

/-- Zero and one as a truth value; a number beyond 64 bits is not even looked at. -/
def boolOfWhole (n : Int) : Reading Bool :=
  if n = 0 then .accepted false
  else if n = 1 then .accepted true
  else if -Int.pow 2 63 ≤ n ∧ n < Int.pow 2 63 then refuse .boolFromText
  else refuse .boolType

def bool : Value → Reading Bool
  | .bool b => .accepted b
  | .int n => boolOfWhole n
  | .float x =>
    match Decimal.wholePart? x with
    | some n => boolOfWhole n
    | none => refuse .boolType
  | .text s =>
    let word := s.toLower
    if ["0", "f", "n", "no", "off", "false"].contains word then .accepted false
    else if ["1", "t", "y", "yes", "on", "true"].contains word then .accepted true
    else refuse .boolFromText
  | _ => refuse .boolType

def any (v : Value) : Reading Value := .accepted v

def dict : Value → Reading Dict
  | .dict d => .accepted d
  | _ => refuse .dictType

def list {α : Type} (read : Value → Reading α) : Value → Reading (List α)
  | .list vs => items read 0 vs
  | _ => refuse .listType

/-- Null, or what the reader accepts. -/
def nullable {α : Type} (read : Value → Reading α) : Value → Reading (Option α)
  | .null => .accepted none
  | v => some <$> read v

/-- One of a fixed set of texts. -/
def choice {α : Type} (ofName? : String → Option α) : Value → Reading α
  | .text s =>
    match ofName? s with
    | some a => .accepted a
    | none => refuse .choice
  | _ => refuse .choice

/-- A field that must be there. Issues name it by the first of its names. -/
def required {α : Type} (d : Dict) (names : List String) (read : Value → Reading α) : Reading α :=
  (match Dict.first? d names with
    | some v => read v
    | none => refuse .missing).within (.name (names.headD ""))

/-- A field with a default. -/
def optional {α : Type} (d : Dict) (names : List String) (default : α) (read : Value → Reading α) :
    Reading α :=
  match Dict.first? d names with
  | some v => (read v).within (.name (names.headD ""))
  | none => .accepted default

end Read

end Runbook
