import Runbook.Decimal.Binary

/-!
The values that workflows carry: payloads, variables and configurations. A dictionary keeps the
order in which its keys were first written. Keys are mostly texts; a variable may also be named
by a number or a truth value, and such keys are equal when the numbers are.
-/
namespace Runbook

/-- A dictionary key. -/
inductive Key where
  | null
  | bool (b : Bool)
  | int (n : Int)
  | float (x : Float)
  | text (s : String)

/-- Any value a definition, a payload or a variable may hold. -/
inductive Value where
  | null
  | bool (b : Bool)
  | int (n : Int)
  | float (x : Float)
  | text (s : String)
  | list (items : List Value)
  | dict (entries : List (Key × Value))
  deriving Inhabited

/-- Entries in the order in which their keys were first written. -/
abbrev Dict := List (Key × Value)

/-- A number, exactly: truth values count as zero and one. -/
inductive Number where
  | whole (n : Int)
  | real (x : Float)

/-- Numbers are the same when their exact values are. -/
def Number.same : Number → Number → Bool
  | .whole a, .whole b => a == b
  | .whole a, .real x => Decimal.wholeEquals a x
  | .real x, .whole a => Decimal.wholeEquals a x
  | .real x, .real y => x == y

def Key.number? : Key → Option Number
  | .bool b => some (.whole (if b then 1 else 0))
  | .int n => some (.whole n)
  | .float x => some (.real x)
  | _ => none

/-- Keys that name the same entry. -/
def Key.same : Key → Key → Bool
  | .null, .null => true
  | .text a, .text b => a == b
  | a, b =>
    match a.number?, b.number? with
    | some x, some y => x.same y
    | _, _ => false

theorem Key.same_text {k : Key} {s : String} : k.same (.text s) = true ↔ k = .text s := by
  cases k <;> simp [Key.same, Key.number?]

namespace Value

def number? : Value → Option Number
  | .bool b => some (.whole (if b then 1 else 0))
  | .int n => some (.whole n)
  | .float x => some (.real x)
  | _ => none

/-- The key that a value stands for; lists and dictionaries are no keys. -/
def key? : Value → Option Key
  | .null => some .null
  | .bool b => some (.bool b)
  | .int n => some (.int n)
  | .float x => some (.float x)
  | .text s => some (.text s)
  | .list _ | .dict _ => none

/-- A value counts as true unless it is null, false, zero or empty. -/
def isTruthy : Value → Bool
  | .null => false
  | .bool b => b
  | .int n => n != 0
  | .float x => x != 0.0
  | .text s => s != ""
  | .list items => !items.isEmpty
  | .dict entries => !entries.isEmpty

def isNull : Value → Bool
  | .null => true
  | _ => false

/-- The value itself when it counts as true, else the other one. -/
def orElse (v w : Value) : Value := if v.isTruthy then v else w

/-- An absent text is null. -/
def ofText? : Option String → Value
  | some s => .text s
  | none => .null

def texts (xs : List String) : Value := .list (xs.map .text)

/-- The place of a date and time that is left open. -/
def untold : Value := .text ""

/-- A dictionary with text keys. -/
def record (fields : List (String × Value)) : Value :=
  .dict (fields.map fun (k, v) => (.text k, v))

end Value

namespace Dict

/-- The value under a key. -/
def find? : Dict → Key → Option Value
  | [], _ => none
  | (k', v) :: rest, k => if k'.same k then some v else find? rest k

/-- The value under a text key. -/
def get? (d : Dict) (name : String) : Option Value := find? d (.text name)

def contains (d : Dict) (name : String) : Bool := (get? d name).isSome

/-- Writes an entry. A new key goes to the end; an old key keeps its place and its spelling. -/
def put : Dict → Key → Value → Dict
  | [], k, v => [(k, v)]
  | (k', v') :: rest, k, v => if k'.same k then (k', v) :: rest else (k', v') :: put rest k v

/-- Writes an entry under a text key. -/
def set (d : Dict) (name : String) (v : Value) : Dict := put d (.text name) v

/-- Writes all entries of the second dictionary into the first. -/
def merge (d e : Dict) : Dict := e.foldl (fun d (k, v) => put d k v) d

/-- A dictionary from pairs, a later pair overwriting an earlier one. -/
def ofPairs (pairs : List (Key × Value)) : Dict := merge [] pairs

/-- Drops the entry under a text key. -/
def erase (d : Dict) (name : String) : Dict := d.filter fun (k, _) => !k.same (.text name)

/-- The value under a text key, null when there is none. -/
def getD (d : Dict) (name : String) : Value := (get? d name).getD .null

theorem get?_set_self (d : Dict) (name : String) (v : Value) :
    get? (set d name v) name = some v := by
  induction d with
  | nil => simp [set, put, get?, find?, Key.same]
  | cons e rest ih =>
    obtain ⟨k, w⟩ := e
    by_cases h : k.same (.text name) <;> simp_all [set, put, get?, find?]

theorem get?_set_of_ne (d : Dict) {name other : String} (v : Value) (h : other ≠ name) :
    get? (set d name v) other = get? d other := by
  induction d with
  | nil => simp [set, put, get?, find?, Key.same, h.symm]
  | cons e rest ih =>
    obtain ⟨k, w⟩ := e
    by_cases hk : k.same (.text name)
    · have hk' := Key.same_text.1 hk
      subst hk'
      simp [set, put, get?, find?, Key.same, h.symm]
    · simp_all [set, put, get?, find?]

/-- A new name goes to the end, and an old one keeps its place. -/
theorem keys_set (d : Dict) (name : String) (v : Value) :
    (set d name v).map (·.1) =
      if contains d name then d.map (·.1) else d.map (·.1) ++ [.text name] := by
  induction d with
  | nil => simp [set, put, contains, get?, find?]
  | cons e rest ih =>
    obtain ⟨k, w⟩ := e
    by_cases h : k.same (.text name) = true
    · simp [set, put, contains, get?, find?, h]
    · simp only [set, contains, get?] at ih ⊢
      by_cases hr : (find? rest (.text name)).isSome = true <;> simp_all [put, find?]

theorem get?_erase_self (d : Dict) (name : String) : get? (erase d name) name = none := by
  induction d with
  | nil => rfl
  | cons e rest ih =>
    obtain ⟨k, w⟩ := e
    by_cases h : k.same (.text name) <;> simp_all [erase, get?, find?]

end Dict

namespace Value

/-- The value under a text key of a dictionary. -/
def field? : Value → String → Option Value
  | .dict d, name => Dict.get? d name
  | _, _ => none

mutual

/-- Values that are equal: numbers by their exact value, lists item by item, dictionaries key by
key in any order. -/
def same : Value → Value → Bool
  | .null, .null => true
  | .text a, .text b => a == b
  | .list xs, .list ys => sameItems xs ys
  | .dict d, .dict e => d.length == e.length && sameEntries d e
  | .bool a, w => sameNumber (.whole (if a then 1 else 0)) w
  | .int a, w => sameNumber (.whole a) w
  | .float a, w => sameNumber (.real a) w
  | _, _ => false

def sameNumber (a : Number) (w : Value) : Bool :=
  match w.number? with
  | some b => a.same b
  | none => false

def sameItems : List Value → List Value → Bool
  | [], [] => true
  | x :: xs, y :: ys => same x y && sameItems xs ys
  | _, _ => false

def sameEntries : List (Key × Value) → Dict → Bool
  | [], _ => true
  | (k, v) :: rest, e =>
    (match Dict.find? e k with
      | some w => same v w
      | none => false) && sameEntries rest e

end

end Value

end Runbook
