import Runbook.Reading
import Runbook.Text.Percent
import Runbook.Value.Json

/-!
Requests to the service: a method, a path, the parameters of the query and a body in JSON.
-/
namespace Runbook.Service

open Text (splitOnChar percentDecoded)

/-- Path segments without those that lead nowhere or back. -/
def straightened (segments : List String) : List String :=
  if segments.any fun s => s == "." || s == ".." then
    segments.foldl (fun out s =>
      if s = "." then out
      else if s = ".." then (if out = [] ∨ out = [""] then out else out.dropLast)
      else out ++ [s]) []
  else segments

/-- The path that an address names. Escapes are taken out twice: once by the sender, who writes
them again, and once by the receiver. -/
def pathOf (address : String) : String :=
  let segments := straightened ((splitOnChar '/' address.toList).map String.ofList)
  percentDecoded (percentDecoded ("/" ++ "/".intercalate (segments.dropWhile (· = ""))))

/-- The parameters of a query, in their order. A plus sign stands for a blank. -/
def queryOf (query : List Char) : List (String × String) :=
  let part (cs : List Char) : String :=
    percentDecoded (String.ofList (cs.map fun c => if c = '+' then ' ' else c))
  ((splitOnChar '&' query).filter (!·.isEmpty)).map fun cs =>
    (part (cs.takeWhile (· != '=')), part ((cs.dropWhile (· != '=')).drop 1))

/-- What came with a request as its body. -/
inductive Body where
  | absent
  | data (v : Value)
  /-- The text is no JSON from this position on. -/
  | malformed (position : Nat)

/-- Reads a body. An empty one is none, and a byte order mark at its start does not count. -/
def Body.ofText (text : String) : Body :=
  if text = "" then .absent
  else
    let cs := text.toList
    let cs := if cs.head? = some (Char.ofNat 0xfeff) then cs.drop 1 else cs
    match Json.read (String.ofList cs) with
    | .ok v => .data v
    | .error flaw => .malformed (flaw.position cs)

/-- A request. -/
structure Request where
  method : String
  path : String
  query : List (String × String) := []
  body : Body := .absent

/-- A request to an address, which may hold a query; further parameters replace those of the same
name. -/
def Request.make (method address : String) (parameters : List (String × String)) (body : Body) :
    Request :=
  let cs := address.toList.takeWhile (· != '#')
  let inAddress := queryOf ((cs.dropWhile (· != '?')).drop 1)
  { method, body
    path := pathOf (String.ofList (cs.takeWhile (· != '?')))
    query := inAddress.filter (fun (k, _) => !parameters.any (·.1 == k)) ++ parameters }

/-- The parameter of a name; of several the last. -/
def Request.parameter? (r : Request) (name : String) : Option String :=
  (r.query.reverse.find? (·.1 == name)).map (·.2)

namespace Body

open Read

/-- Reads data that must be there. -/
def required {α : Type} (b : Body) (read : Value → Reading α) : Reading α :=
  let reading : Reading α := match b with
    | .absent => .refuse .missing
    | .malformed position => .refused [⟨[.index position], .jsonText⟩]
    | .data v => read v
  reading.within (.name "body")

/-- Reads data that may be missing or null. -/
def optional {α : Type} (b : Body) (read : Value → Reading α) : Reading (Option α) :=
  match b with
  | .absent => .accepted none
  | b => b.required (nullable read)

end Body

/-- Reads a dictionary of fields. -/
def fields {α : Type} (read : Dict → Reading α) : Value → Reading α
  | .dict d => read d
  | _ => .refuse .taggedType

end Runbook.Service
