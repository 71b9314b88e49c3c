import Runbook.Value.Text

/-!
Templates. A dollar sign and the longest run of letters, digits and underscores after it refer to
a variable. A template is cut into plain characters and references; the text of a bound variable
is inserted as it is and never looked at again, and an unbound reference stays.
-/
namespace Runbook

namespace Template

/-- The characters of a variable's name. -/
def isNameChar (c : Char) : Bool :=
  ('a' ≤ c && c ≤ 'z') || ('A' ≤ c && c ≤ 'Z') || ('0' ≤ c && c ≤ '9') || c == '_'

/-- A part of a template. -/
inductive Piece where
  | plain (c : Char)
  | reference (name : List Char)
  deriving DecidableEq, Repr

/-- The name characters that a text starts with, and the pieces of what follows them. -/
def scan : List Char → List Char × List Piece
  | [] => ([], [])
  | c :: rest =>
    let (run, pieces) := scan rest
    if isNameChar c then (c :: run, pieces)
    else if c = '$' ∧ run ≠ [] then ([], .reference run :: pieces)
    else ([], .plain c :: (run.map .plain ++ pieces))

/-- A template cut into pieces. -/
def pieces (cs : List Char) : List Piece :=
  let (run, rest) := scan cs
  run.map .plain ++ rest

/-- The characters that a piece was cut from. -/
def Piece.source : Piece → List Char
  | .plain c => [c]
  | .reference name => '$' :: name

/-- The characters that stand for a piece once variables are inserted. -/
def Piece.expand (vars : Dict) : Piece → List Char
  | .plain c => [c]
  | .reference name =>
    match Dict.get? vars (String.ofList name) with
    | some v => v.templateText.toList
    | none => '$' :: name

/-- A text with its references replaced. -/
def expandText (vars : Dict) (s : String) : String :=
  String.ofList ((pieces s.toList).flatMap (Piece.expand vars))

/-- Cutting a template loses nothing. -/
theorem scan_source (cs : List Char) :
    (scan cs).1 ++ (scan cs).2.flatMap Piece.source = cs := by
  induction cs with
  | nil => rfl
  | cons c rest ih =>
    simp only [scan]
    split
    · simp [ih]
    · split
      · rename_i h
        simp [Piece.source, ih, h.1]
      · simp [Piece.source, List.flatMap_append, List.flatMap_map, ih]

theorem source_pieces (cs : List Char) : (pieces cs).flatMap Piece.source = cs := by
  have plain (run : List Char) : (run.map Piece.plain).flatMap Piece.source = run := by
    induction run with
    | nil => rfl
    | cons _ _ ih => simpa [Piece.source] using ih
  simp only [pieces, List.flatMap_append, plain]
  exact scan_source cs

/-- Without variables every template stays as it is. -/
theorem expandText_nil (s : String) : expandText [] s = s := by
  have same : Piece.expand [] = Piece.source := by
    funext p
    cases p <;> simp [Piece.expand, Piece.source, Dict.get?, Dict.find?]
  simp [expandText, same, source_pieces]

/-- The text is one reference and nothing else. -/
def isReference (s : String) : Bool :=
  match s.toList with
  | '$' :: name => !name.isEmpty && name.all isNameChar
  | _ => false

mutual

/-- Replaces the references in every text of a value; keys are left alone. -/
def expand (vars : Dict) : Value → Value
  | .text s => .text (expandText vars s)
  | .list items => .list (expandItems vars items)
  | .dict entries => .dict (expandEntries vars entries)
  | v => v

def expandItems (vars : Dict) : List Value → List Value
  | [] => []
  | v :: rest => expand vars v :: expandItems vars rest

def expandEntries (vars : Dict) : List (Key × Value) → List (Key × Value)
  | [] => []
  | (k, v) :: rest => (k, expand vars v) :: expandEntries vars rest

end

/-- A text that starts with a dollar sign stands for the variable named by the rest of it, null
when there is none; any other value stands for itself. -/
def resolve (vars : Dict) : Value → Value
  | .text s =>
    match s.toList with
    | '$' :: name => Dict.getD vars (String.ofList name)
    | _ => .text s
  | v => v

end Template

end Runbook
