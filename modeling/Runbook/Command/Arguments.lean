import Runbook.Text.Digit

/-!
Arguments of a command. A grammar lists options and the words of further commands, each with a
grammar of its own. Options come before the word and may be shortened as long as no other begins
the same way; what follows the word is left to its grammar.
-/
namespace Runbook.Arguments

open Text (isDigit)

/-- An option that stands for itself, or one that takes a value of a certain form. -/
structure Flag where
  name : String
  accepts : Option (String → Bool) := none

/-- Options, and words that lead to other grammars. -/
inductive Grammar where
  | mk (flags : List Flag) (words : List (String × Grammar))

def Grammar.flags : Grammar → List Flag
  | .mk flags _ => flags

def Grammar.words : Grammar → List (String × Grammar)
  | .mk _ words => words

/-- Why arguments are not followed: somebody asks for help, or they make no sense. -/
inductive Stop where
  | help
  | nonsense
  deriving DecidableEq, Repr

/-- What arguments say: the options with their values, and the words. -/
structure Given where
  values : List (String × String) := []
  words : List String := []

/-- The value of an option; the last one counts. -/
def Given.value? (g : Given) (name : String) : Option String :=
  (g.values.reverse.find? (·.1 == name)).map (·.2)

def Given.has (g : Given) (name : String) : Bool := (g.value? name).isSome

/-- What a single argument is. -/
inductive Piece where
  | word
  /-- Somebody asks for help; more may be joined to it. -/
  | help (joined : Option (List Char))
  | flag (f : Flag) (value : Option String)
  | unknown
  | ambiguous
  deriving Inhabited

/-- The option that asks for help. -/
def helpFlag : Flag := { name := "--help" }

/-- A negative number is no option. -/
def isNegative (cs : List Char) : Bool :=
  match cs with
  | '-' :: rest =>
    let whole := rest.takeWhile isDigit
    match rest.dropWhile isDigit with
    | [] => !whole.isEmpty
    | '.' :: places => !places.isEmpty && places.all isDigit
    | _ => false
  | _ => false

/-- An argument without what follows its equals sign, and that. -/
def parts (cs : List Char) : String × Option String :=
  match cs.dropWhile (· != '=') with
  | '=' :: rest => (String.ofList (cs.takeWhile (· != '=')), some (String.ofList rest))
  | _ => (String.ofList cs, none)

def asPiece (f : Flag) (value : Option String) : Piece :=
  if f.name = helpFlag.name then .help (value.map fun _ => []) else .flag f value

/-- The options that an argument may be short for. -/
def matching (g : Grammar) (name : String) : List Flag :=
  (helpFlag :: g.flags).filter fun f => name.toList.isPrefixOf f.name.toList

/-- An argument that is neither an option nor short for one. -/
def otherPiece (cs : List Char) : Piece :=
  if isNegative cs || cs.contains ' ' then .word else .unknown

/-- What an argument is to a grammar. -/
def Piece.of (g : Grammar) (arg : String) : Piece :=
  match arg.toList with
  | '-' :: '-' :: rest =>
    let cs := '-' :: '-' :: rest
    let (name, value) := parts cs
    match (helpFlag :: g.flags).find? (·.name == arg), (helpFlag :: g.flags).find? (·.name == name) with
    | some f, _ => asPiece f none
    | none, some f => asPiece f value
    | none, none =>
      match matching g name with
      | [] => otherPiece cs
      | [f] => asPiece f value
      | _ => .ambiguous
  | ['-', 'h'] => .help none
  | '-' :: 'h' :: '=' :: rest => .help (some rest)
  | '-' :: 'h' :: rest => .help (some rest)
  | '-' :: c :: rest => otherPiece ('-' :: c :: rest)
  | _ => .word

/-- Some argument before the mark `--` may be short for several options. -/
def isAmbiguous (g : Grammar) (args : List String) : Bool :=
  (args.takeWhile (· != "--")).any fun arg => match Piece.of g arg with
    | .ambiguous => true
    | _ => false

/-- Asking for help is meant only when nothing is joined to it but the same letter again. -/
def helpStop : Option (List Char) → Stop
  | none => .help
  | some joined => if !joined.isEmpty && joined.all (· == 'h') then .help else .nonsense

/-- Follows arguments from left to right. `sound` tells that all so far were understood. -/
def follow (g : Grammar) (sound : Bool) (given : Given) : List String → Except Stop Given
  | [] => if sound then .ok given else .error .nonsense
  | arg :: rest =>
    if arg = "--" then .error .nonsense
    else
      match Piece.of g arg with
      | .word =>
        match g.words, g.words.lookup arg with
        | [], _ => follow g false given rest
        | _, none => .error .nonsense
        | _, some sub =>
          if isAmbiguous sub rest then .error .nonsense
          else follow sub sound { given with words := given.words ++ [arg] } rest
      | .help joined => .error (helpStop joined)
      | .unknown => follow g false given rest
      | .ambiguous => .error .nonsense
      | .flag f joined =>
        let put (v : String) : Given := { given with values := given.values ++ [(f.name, v)] }
        match f.accepts, joined with
        | none, none => follow g sound (put "") rest
        | none, some _ => .error .nonsense
        | some accepts, some v => if accepts v then follow g sound (put v) rest else .error .nonsense
        | some accepts, none =>
          match rest with
          | [] => .error .nonsense
          | v :: rest =>
            match Piece.of g v with
            | .word => if accepts v then follow g sound (put v) rest else .error .nonsense
            | _ => .error .nonsense

/-- Reads arguments. -/
def read (g : Grammar) (args : List String) : Except Stop Given :=
  if isAmbiguous g args then .error .nonsense else follow g true {} args

end Runbook.Arguments
