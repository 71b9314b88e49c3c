import Runbook.Text.Blank

/-!
Environment variables, and files that set them. Such a file has one assignment on a line, maybe
after `export`; a value may be quoted, and then goes over line ends and has escapes, and it may
refer to variables as `${NAME}` or `${NAME:-default}`. What cannot be read is passed over to the
end of the line. Variables that are set already keep their values.
-/
namespace Runbook

/-- Variables and their values. -/
abbrev Environment := List (String × String)

namespace Environment

def get? (e : Environment) (name : String) : Option String := (e.find? (·.1 == name)).map (·.2)

end Environment

namespace EnvFile

open Text

/-- A line ends with a line feed or a carriage return. -/
def isLineEnd (c : Char) : Bool := c == '\n' || c == '\r'

/-- A blank within a line. -/
def isInnerBlank (c : Char) : Bool := isBlank c && !isLineEnd c

/-- A text up to a closing quote, and what follows it. A quote after a backslash closes only when
no other one does. -/
def quotedBody (quote : Char) : List Char → Option (List Char × List Char)
  | [] => none
  | [c] => if c == quote then some ([], []) else none
  | c :: d :: rest =>
    if c == quote then some ([], d :: rest)
    else if c == '\\' && d == quote then
      match quotedBody quote rest with
      | some (body, after) => some (c :: d :: body, after)
      | none => some ([c], rest)
    else (quotedBody quote (d :: rest)).map fun (body, after) => (c :: body, after)

/-- The character that an escape stands for. -/
def escaped? (double : Bool) (c : Char) : Option Char :=
  if c == '\\' || c == '\'' then some c
  else if !double then none
  else
    match c with
    | '"' => some '"'
    | 'a' => some (Char.ofNat 7)
    | 'b' => some (Char.ofNat 8)
    | 'f' => some (Char.ofNat 12)
    | 'n' => some '\n'
    | 'r' => some '\r'
    | 't' => some '\t'
    | 'v' => some (Char.ofNat 11)
    | _ => none

/-- Replaces escapes by what they stand for. -/
def unescape (double : Bool) : List Char → List Char
  | [] => []
  | [c] => [c]
  | c :: d :: rest =>
    if c == '\\' then
      match escaped? double d with
      | some x => x :: unescape double rest
      | none => c :: unescape double (d :: rest)
    else c :: unescape double (d :: rest)

/-- A value without the comment behind it: a comment starts with a number sign after blanks. -/
def withoutComment : Bool → List Char → List Char
  | _, [] => []
  | afterBlank, c :: rest =>
    if afterBlank && c == '#' then [] else c :: withoutComment (isBlank c) rest

def trimEnd (cs : List Char) : List Char := (cs.reverse.dropWhile isBlank).reverse

/-- A value, and what follows it; none when a quote is not closed. -/
def value? (cs : List Char) : Option (List Char × List Char) :=
  match cs with
  | '\'' :: rest => (quotedBody '\'' rest).map fun (body, after) => (unescape false body, after)
  | '"' :: rest => (quotedBody '"' rest).map fun (body, after) => (unescape true body, after)
  | _ =>
    let line := cs.takeWhile (!isLineEnd ·)
    some (trimEnd (withoutComment false line), cs.dropWhile (!isLineEnd ·))

/-- A name, and what follows it. A line that is only a comment has no name. -/
def name? (cs : List Char) : Option (Option (List Char) × List Char) :=
  match cs with
  | '#' :: _ => some (none, cs)
  | '\'' :: rest =>
    let name := rest.takeWhile (· != '\'')
    match rest.dropWhile (· != '\'') with
    | _ :: after => if name.isEmpty then none else some (some name, after)
    | [] => none
  | _ =>
    let part (c : Char) : Bool := c != '=' && c != '#' && !isBlank c
    let name := cs.takeWhile part
    if name.isEmpty then none else some (some name, cs.dropWhile part)

/-- Passes over `export` and the blanks after it. -/
def afterExport (cs : List Char) : List Char :=
  let word := "export".toList
  if word.isPrefixOf cs then
    let rest := cs.drop word.length
    if (rest.head?.map isInnerBlank).getD false then rest.dropWhile isInnerBlank else cs
  else cs

/-- Passes over the end of a line; none when something else stands there. -/
def afterLine? (cs : List Char) : Option (List Char) :=
  match cs.dropWhile isInnerBlank with
  | [] => some []
  | '\r' :: '\n' :: rest => some rest
  | c :: rest => if isLineEnd c then some rest else none

/-- Passes over a comment, if there is one. -/
def afterComment (cs : List Char) : List Char :=
  match cs.dropWhile isInnerBlank with
  | '#' :: rest => rest.dropWhile (!isLineEnd ·)
  | _ => cs

/-- Passes over the rest of a line. -/
def restOfLine (cs : List Char) : List Char := (cs.dropWhile (!isLineEnd ·)).drop 1

/-- One assignment, or none when the line holds none, and what follows it. A name without an equals
sign has no value. -/
def binding (cs : List Char) : Option (List Char × Option (List Char)) × List Char :=
  let start := afterExport cs
  match name? start with
  | none => (none, restOfLine start)
  | some (name, afterName) =>
    let finish (value : Option (List Char)) (rest : List Char) :
        Option (List Char × Option (List Char)) × List Char :=
      let rest := afterComment rest
      match afterLine? rest with
      | some next => (name.map fun n => (n, value), next)
      | none => (none, restOfLine rest)
    match afterName.dropWhile isInnerBlank with
    | '=' :: rest =>
      let rest := rest.dropWhile isInnerBlank
      match value? rest with
      | some (v, after) => finish (some v) after
      | none => (none, restOfLine rest)
    | rest => finish none rest

/-- The assignments of a file, in order. Each takes at least one character. -/
def bindings : Nat → List Char → List (List Char × Option (List Char))
  | 0, _ => []
  | fuel + 1, cs =>
    match cs.dropWhile isBlank with
    | [] => []
    | cs =>
      let (b, rest) := binding cs
      b.toList ++ bindings fuel rest

/-- A reference at the start of a text: the name, the default and what follows. -/
def reference? (cs : List Char) : Option (List Char × List Char × List Char) :=
  match cs with
  | '$' :: '\x7b' :: rest =>
    let part (c : Char) : Bool := c != '\x7d' && c != ':'
    let name := rest.takeWhile part
    match rest.dropWhile part with
    | '\x7d' :: after => some (name, [], after)
    | ':' :: '-' :: after =>
      match after.dropWhile (· != '\x7d') with
      | _ :: next => some (name, after.takeWhile (· != '\x7d'), next)
      | [] => none
    | _ => none
  | _ => none

/-- Replaces references by the values of variables. -/
def interpolate (lookup : String → Option String) : Nat → List Char → List Char
  | 0, cs => cs
  | _, [] => []
  | fuel + 1, c :: rest =>
    match reference? (c :: rest) with
    | some (name, default, next) =>
      ((lookup (String.ofList name)).getD (String.ofList default)).toList ++
        interpolate lookup fuel next
    | none => c :: interpolate lookup fuel rest

/-- The variables that a file sets, given those that are set already. -/
def resolve (env : Environment) (known : List (String × Option String)) :
    List (List Char × Option (List Char)) → List (String × Option String)
  | [] => known
  | (name, value) :: rest =>
    let lookup (n : String) : Option String :=
      match env.get? n with
      | some v => some v
      | none => ((known.find? (·.1 == n)).map (·.2)).map fun v => v.getD ""
    let result := value.map fun cs => String.ofList (interpolate lookup cs.length cs)
    let name := String.ofList name
    resolve env (known.filter (·.1 != name) ++ [(name, result)]) rest

/-- The environment after a file was loaded. -/
def load (env : Environment) (text : String) : Environment :=
  let cs := text.toList
  (resolve env [] (bindings (cs.length + 1) cs)).foldl (fun env (name, value) =>
    match value with
    | some v => if (env.get? name).isSome then env else env ++ [(name, v)]
    | none => env) env

end EnvFile

end Runbook
