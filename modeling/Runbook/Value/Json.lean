import Runbook.Value.Basic
import Runbook.Decimal.Read

/-!
Reading JSON. Objects keep the order of their keys, whole numbers are exact, and `NaN`,
`Infinity` and `-Infinity` are numbers. A flaw says what was expected and where.
-/
namespace Runbook.Json

open Runbook.Text (isDigit)

/-- What can be wrong with a JSON text. -/
inductive Expectation where
  | value
  | propertyName
  | colon
  | comma
  | closedString
  | noControl
  | escape
  | unicodeEscape
  | endOfText
  | noMark
  deriving DecidableEq, Repr

def Expectation.message : Expectation → String
  | .value => "Expecting value"
  | .propertyName => "Expecting property name enclosed in double quotes"
  | .colon => "Expecting ':' delimiter"
  | .comma => "Expecting ',' delimiter"
  | .closedString => "Unterminated string starting at"
  | .noControl => "Invalid control character at"
  | .escape => "Invalid \\escape"
  | .unicodeEscape => "Invalid \\uXXXX escape"
  | .endOfText => "Extra data"
  | .noMark => "Unexpected UTF-8 BOM (decode using utf-8-sig)"

/-- A flaw, and how many characters were left where it was found. -/
structure Flaw where
  expected : Expectation
  left : Nat

/-- Where in a text a flaw is, counted in characters from zero. -/
def Flaw.position (f : Flaw) (cs : List Char) : Nat := cs.length - f.left

/-- The flaw with its line, column and position in the text. -/
def Flaw.message (f : Flaw) (cs : List Char) : String :=
  let before := cs.take (f.position cs)
  let line := before.count '\n' + 1
  let column := (before.reverse.takeWhile (· != '\n')).length + 1
  f.expected.message ++ ": line " ++ toString line ++ " column " ++ toString column ++
    " (char " ++ toString (f.position cs) ++ ")"

def isLayout (c : Char) : Bool := c == ' ' || c == '\t' || c == '\n' || c == '\r'

def skipLayout (cs : List Char) : List Char := cs.dropWhile isLayout

def hexDigit? (c : Char) : Option Nat :=
  if isDigit c then some (c.toNat - 48)
  else if 'a' ≤ c ∧ c ≤ 'f' then some (c.toNat - 87)
  else if 'A' ≤ c ∧ c ≤ 'F' then some (c.toNat - 55)
  else none

/-- The value of four hexadecimal digits. -/
def hexFour? : List Char → Option Nat
  | [a, b, c, d] => do
    some ((((← hexDigit? a) * 16 + (← hexDigit? b)) * 16 + (← hexDigit? c)) * 16 + (← hexDigit? d))
  | _ => none

def simpleEscape? : Char → Option Char
  | '"' => some '"'
  | '\\' => some '\\'
  | '/' => some '/'
  | 'b' => some (Char.ofNat 8)
  | 'f' => some (Char.ofNat 12)
  | 'n' => some '\n'
  | 'r' => some '\r'
  | 't' => some '\t'
  | _ => none

/-- A unit of UTF-16 as a character; half a pair stands for the replacement character. -/
def unitChar (u : Nat) : Char := if 0xd800 ≤ u ∧ u < 0xe000 then Char.ofNat 0xfffd else Char.ofNat u

/-- Reads the rest of a string after its quote. `opened` is what was left at that quote. -/
def readString (opened : Nat) : Nat → List Char → Except Flaw (List Char × List Char)
  | 0, _ => .error ⟨.closedString, opened⟩
  | _, [] => .error ⟨.closedString, opened⟩
  | _, '"' :: rest => .ok ([], rest)
  | _, ['\\'] => .error ⟨.closedString, opened⟩
  | fuel + 1, '\\' :: 'u' :: rest =>
    let left := rest.length + 1
    if rest.length ≤ 4 then .error ⟨.unicodeEscape, left⟩
    else
      match hexFour? (rest.take 4) with
      | none => .error ⟨.unicodeEscape, left⟩
      | some u =>
        let rest := rest.drop 4
        if 0xd800 ≤ u ∧ u < 0xdc00 ∧ rest.length > 6 ∧ rest.take 2 = ['\\', 'u'] then
          match hexFour? ((rest.drop 2).take 4) with
          | none => .error ⟨.unicodeEscape, rest.length - 1⟩
          | some v =>
            if 0xdc00 ≤ v ∧ v < 0xe000 then do
              let (cs, tail) ← readString opened fuel (rest.drop 6)
              .ok (Char.ofNat (0x10000 + (u - 0xd800) * 0x400 + (v - 0xdc00)) :: cs, tail)
            else do
              let (cs, tail) ← readString opened fuel rest
              .ok (unitChar u :: cs, tail)
        else do
          let (cs, tail) ← readString opened fuel rest
          .ok (unitChar u :: cs, tail)
  | fuel + 1, '\\' :: c :: rest =>
    match simpleEscape? c with
    | none => .error ⟨.escape, rest.length + 2⟩
    | some e => do
      let (cs, tail) ← readString opened fuel rest
      .ok (e :: cs, tail)
  | fuel + 1, c :: rest =>
    if c.toNat ≤ 0x1f then .error ⟨.noControl, rest.length + 1⟩
    else do
      let (cs, tail) ← readString opened fuel rest
      .ok (c :: cs, tail)

def digitsValue (cs : List Char) : Nat := cs.foldl (fun n c => 10 * n + (c.toNat - 48)) 0

/-- Reads the places after a point; a point without a digit is not part of the number. -/
def takePlaces : List Char → Option (List Char) × List Char
  | '.' :: c :: rest =>
    if isDigit c then (some (c :: rest.takeWhile isDigit), rest.dropWhile isDigit)
    else (none, '.' :: c :: rest)
  | cs => (none, cs)

/-- Reads an exponent; a letter without a digit after it is not part of the number. -/
def takePower (cs : List Char) : Option Int × List Char :=
  match cs with
  | c :: rest =>
    if c == 'e' || c == 'E' then
      let (minus, tail) := Decimal.takeSign rest
      let digits := tail.takeWhile isDigit
      if digits.isEmpty then (none, cs)
      else
        let n : Int := digitsValue digits
        (some (if minus then -n else n), tail.dropWhile isDigit)
    else (none, cs)
  | [] => (none, [])

/-- Reads a number off the front: a whole one unless it has places or an exponent. -/
def readNumber? (cs : List Char) : Option (Value × List Char) :=
  let (minus, rest) := match cs with
    | '-' :: rest => (true, rest)
    | _ => (false, cs)
  let (whole, rest) := match rest with
    | '0' :: after => (['0'], after)
    | _ => (rest.takeWhile isDigit, rest.dropWhile isDigit)
  if whole.isEmpty then none
  else
    let (places, rest) := takePlaces rest
    let (power, rest) := takePower rest
    match places, power with
    | none, none =>
      let n : Int := digitsValue whole
      some (.int (if minus then -n else n), rest)
    | _, _ =>
      let places := places.getD []
      let x := Decimal.ofScientific (digitsValue (whole ++ places)) (power.getD 0 - places.length)
      some (.float (if minus then -x else x), rest)

/-- The words that stand for values. -/
def words : List (String × Value) := [
  ("null", .null), ("true", .bool true), ("false", .bool false), ("NaN", .float (0.0 / 0.0)),
  ("Infinity", .float (1.0 / 0.0)), ("-Infinity", .float (-1.0 / 0.0))]

def readWord? (cs : List Char) : Option (Value × List Char) :=
  (words.find? fun (w, _) => w.toList.isPrefixOf cs).map fun (w, v) => (v, cs.drop w.length)

mutual

/-- Reads one value off the front. -/
def readValue : Nat → List Char → Except Flaw (Value × List Char)
  | 0, cs => .error ⟨.value, cs.length⟩
  | fuel + 1, cs =>
    match cs with
    | '"' :: rest => do
      let (text, tail) ← readString cs.length rest.length.succ rest
      .ok (.text (String.ofList text), tail)
    | '[' :: rest => do
      match skipLayout rest with
      | ']' :: tail => .ok (.list [], tail)
      | inner =>
        let (items, tail) ← readItems fuel inner
        .ok (.list items, tail)
    | '{' :: rest => do
      match skipLayout rest with
      | '}' :: tail => .ok (.dict [], tail)
      | inner =>
        let (entries, tail) ← readEntries fuel inner
        .ok (.dict (Dict.ofPairs entries), tail)
    | _ =>
      match (readWord? cs).or (readNumber? cs) with
      | some found => .ok found
      | none => .error ⟨.value, cs.length⟩

/-- Reads the items of a list up to its closing bracket. -/
def readItems : Nat → List Char → Except Flaw (List Value × List Char)
  | 0, cs => .error ⟨.value, cs.length⟩
  | fuel + 1, cs => do
    let (v, rest) ← readValue fuel cs
    match skipLayout rest with
    | ']' :: tail => .ok ([v], tail)
    | ',' :: tail =>
      let (vs, tail) ← readItems fuel (skipLayout tail)
      .ok (v :: vs, tail)
    | other => .error ⟨.comma, other.length⟩

/-- Reads the entries of an object up to its closing brace. -/
def readEntries : Nat → List Char → Except Flaw (List (Key × Value) × List Char)
  | 0, cs => .error ⟨.value, cs.length⟩
  | fuel + 1, cs => do
    match cs with
    | '"' :: rest =>
      let (name, rest) ← readString cs.length rest.length.succ rest
      match skipLayout rest with
      | ':' :: rest =>
        let (v, rest) ← readValue fuel (skipLayout rest)
        match skipLayout rest with
        | '}' :: tail => .ok ([(.text (String.ofList name), v)], tail)
        | ',' :: tail =>
          let (es, tail) ← readEntries fuel (skipLayout tail)
          .ok ((.text (String.ofList name), v) :: es, tail)
        | other => .error ⟨.comma, other.length⟩
      | other => .error ⟨.colon, other.length⟩
    | _ => .error ⟨.propertyName, cs.length⟩

end

/-- Reads a text that holds one JSON value. -/
def read (s : String) : Except Flaw Value :=
  let cs := s.toList
  if cs.head? = some (Char.ofNat 0xfeff) then .error ⟨.noMark, cs.length⟩
  else do
    let (v, rest) ← readValue (2 * cs.length + 2) (skipLayout cs)
    match skipLayout rest with
    | [] => .ok v
    | other => .error ⟨.endOfText, other.length⟩

end Runbook.Json
