import Runbook.Failure
import Runbook.Text.Digit
import Runbook.Text.Search

/-!
Patterns for lines of text. A pattern holds directives such as `%(message)s` or `%(levelno)5d`,
each of which stands for a named field, filled up or cut to a width; two percent signs stand for
one.
-/
namespace Runbook

/-- How the value of a field is written: as it displays, as its literal, or as a whole number. -/
inductive Conversion where
  | display | literal | whole
  deriving DecidableEq, Repr

/-- What a directive asks for. -/
structure Directive where
  field : String
  flags : List Char := []
  width : Nat := 0
  precision : Option Nat := none
  conversion : Conversion := .display

/-- A part of a pattern. -/
inductive Piece where
  | plain (c : Char)
  | directive (d : Directive)

/-- A pattern, and the text that it was read from. -/
structure Pattern where
  source : String
  /-- The pieces, unless the source is malformed somewhere. -/
  pieces : Option (List Piece)

namespace Pattern

def isFlag (c : Char) : Bool := ['#', '0', '+', ' ', '-'].contains c

def digitsValue (ds : List Char) : Nat := ds.foldl (fun n d => 10 * n + (d.toNat - 48)) 0

/-- What follows the field of a directive: flags, width, precision and conversion. -/
def readDirective? (field : List Char) (cs : List Char) : Option (Directive × List Char) :=
  let flags := cs.takeWhile isFlag
  let rest := cs.dropWhile isFlag
  let width := rest.takeWhile Text.isDigit
  let rest := rest.dropWhile Text.isDigit
  let (precision, rest) := match rest with
    | '.' :: more => (some (more.takeWhile Text.isDigit), more.dropWhile Text.isDigit)
    | _ => (none, rest)
  let make (conversion : Conversion) (rest : List Char) : Option (Directive × List Char) :=
    some ({ field := String.ofList field, flags, width := digitsValue width
            precision := precision.map digitsValue, conversion }, rest)
  match rest with
  | 's' :: rest => make .display rest
  | 'r' :: rest => make .literal rest
  | 'd' :: rest => make .whole rest
  | 'i' :: rest => make .whole rest
  | 'u' :: rest => make .whole rest
  | _ => none

/-- The pieces of a pattern, with at most `fuel` characters. -/
def readPieces? : Nat → List Char → Option (List Piece)
  | _, [] => some []
  | 0, _ => none
  | fuel + 1, '%' :: '%' :: rest => (readPieces? fuel rest).map (.plain '%' :: ·)
  | fuel + 1, '%' :: '(' :: rest => do
    let (field, rest) ← Text.cutAt? [')'] rest
    let (d, rest) ← readDirective? field rest
    return .directive d :: (← readPieces? fuel rest)
  | _ + 1, '%' :: _ => none
  | fuel + 1, c :: rest => (readPieces? fuel rest).map (.plain c :: ·)

/-- The characters of a field's name. -/
def isNameChar (c : Char) : Bool := c.isAlphanum || c == '_' || c.toNat ≥ 0x80

/-- A directive starts here: the name of a field in brackets, and a conversion. -/
def startsDirective : List Char → Bool
  | '%' :: '(' :: rest =>
    let name := rest.takeWhile isNameChar
    match rest.dropWhile isNameChar with
    | ')' :: more =>
      let afterWidth (cs : List Char) : List Char := match cs with
        | '*' :: rest => rest
        | _ => cs.dropWhile Text.isDigit
      let precision (cs : List Char) : Option (List Char) := match cs with
        | '.' :: '*' :: rest => some rest
        | '.' :: d :: rest => if Text.isDigit d then some (rest.dropWhile Text.isDigit) else none
        | '.' :: [] => none
        | _ => some cs
      !name.isEmpty && match precision (afterWidth (more.dropWhile isFlag)) with
        | some (c :: _) => "diouxefgcrsa%".toList.contains c
        | _ => false
    | _ => false
  | _ => false

/-- A directive stands somewhere in the text. -/
def holdsDirective : List Char → Bool
  | [] => false
  | c :: rest => startsDirective (c :: rest) || holdsDirective rest

/-- Reads a pattern; a text without any directive is none. -/
def read (source : String) : Except Failure Pattern :=
  let cs := source.toList
  if holdsDirective cs then .ok ⟨source, readPieces? cs.length cs⟩
  else .error (.plain .value ("Invalid format '" ++ source ++ "' for '%' style"))

/-- Fills a text up to a width, at its right end when the flags hold a minus sign. -/
def fill (d : Directive) (text : List Char) : List Char :=
  let blanks := List.replicate (d.width - text.length) ' '
  if d.flags.contains '-' then text ++ blanks else blanks ++ text

/-- A whole number with its sign, filled up with zeros or blanks. -/
def wholeText (d : Directive) (n : Int) : List Char :=
  let sign := if n < 0 then ['-'] else if d.flags.contains '+' then ['+']
    else if d.flags.contains ' ' then [' '] else []
  let digits := (toString n.natAbs).toList
  let least := if d.flags.contains '0' && !d.flags.contains '-' then d.width - sign.length else 0
  let digits := List.replicate (max least (d.precision.getD 0) - digits.length) '0' ++ digits
  fill d (sign ++ digits)

/-- The text of a directive for a value. -/
def Directive.text? (d : Directive) (v : Value) : Option (List Char) :=
  let cut (cs : List Char) : List Char := match d.precision with
    | some n => cs.take n
    | none => cs
  match d.conversion, v with
  | .display, v => some (fill d (cut v.display.toList))
  | .literal, v => some (fill d (cut v.literal.toList))
  | .whole, .int n => some (wholeText d n)
  | .whole, _ => none

/-- The text of a pattern with the values of some fields; none when the pattern is malformed or
asks for a field that is not there. -/
def text? (p : Pattern) (fields : List (String × Value)) : Option String := do
  let parts ← (← p.pieces).mapM fun
    | .plain c => some [c]
    | .directive d => (fields.lookup d.field).bind (Directive.text? d)
  return String.ofList parts.flatten

end Pattern

end Runbook
