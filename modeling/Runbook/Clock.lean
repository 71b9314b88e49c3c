import Runbook.Failure
import Runbook.Order
import Runbook.Decimal.Shortest

/-!
Points in time and timers. A clock runs on seconds as floating-point numbers; stored points in
time are rounded to microseconds and lie within the years 1 to 9999.
-/
namespace Runbook

/-- A point in time, in microseconds since the first instant of 1970. -/
structure Instant where
  micros : Int
  deriving DecidableEq, Repr

namespace Instant

/-- Year, month and day of a day counted from the first of January 1970. -/
def civil (day : Int) : Int × Int × Int :=
  let z := day + 719468
  let era := Int.fdiv z 146097
  let dayOfEra := z - era * 146097
  let yearOfEra := (dayOfEra - dayOfEra / 1460 + dayOfEra / 36524 - dayOfEra / 146096) / 365
  let dayOfYear := dayOfEra - (365 * yearOfEra + yearOfEra / 4 - yearOfEra / 100)
  let shifted := (5 * dayOfYear + 2) / 153
  let dayOfMonth := dayOfYear - (153 * shifted + 2) / 5 + 1
  let month := if shifted < 10 then shifted + 3 else shifted - 9
  (yearOfEra + era * 400 + (if month ≤ 2 then 1 else 0), month, dayOfMonth)

def microsPerDay : Int := 86400000000

/-- The year that a point in time lies in. -/
def year (t : Instant) : Int := (civil (Int.fdiv t.micros microsPerDay)).1

def notANumber : Failure := .plain .value "Invalid value NaN (not a number)"

def outOfRange : Failure := .plain .overflow "timestamp out of range for platform time_t"

def unrepresentable : Failure := .plain .system "[Errno 75] Value too large for defined data type"

def yearOutOfRange (year : Int) : Failure :=
  .plain .value ("year " ++ toString year ++ " is out of range")

/-- A number of seconds since 1970 as a point in time. The part behind the point is scaled first
and then rounded, a half going to the even neighbour. -/
def ofSeconds (x : Float) : Except Failure Instant :=
  match Decimal.Binary.ofFloat x, Decimal.truncated? x with
  | .nan, _ => .error notANumber
  | _, some whole =>
    if whole < -Int.pow 2 63 ∨ whole ≥ Int.pow 2 63 then .error outOfRange
    else
      let part := (x - (Decimal.ofWhole? whole).getD 0.0) * 1000000.0
      let micros : Int := match Decimal.Binary.ofFloat part with
        | .finite negative m e =>
          let n : Int := (Decimal.Ratio.scaled m e).round
          if negative then -n else n
        | _ => 0
      let t : Instant := ⟨whole * 1000000 + micros⟩
      if 1 ≤ t.year ∧ t.year ≤ 9999 then .ok t
      else if -Int.pow 2 31 ≤ t.year - 1900 ∧ t.year - 1900 < Int.pow 2 31 then .error (yearOutOfRange t.year)
      else .error unrepresentable
  | _, none => .error outOfRange

/-- The seconds from one point in time to another. -/
def secondsSince (t start : Instant) : Float :=
  let d := t.micros - start.micros
  let x := Decimal.ofScientific d.natAbs (-6)
  if d < 0 then -x else x

def padded (width : Nat) (n : Int) : String :=
  let digits := toString n.natAbs
  Decimal.zerosText (width - digits.length) ++ digits

/-- Date and time of day, with microseconds only when there are any. -/
def text (t : Instant) : String :=
  let day := Int.fdiv t.micros microsPerDay
  let rest := t.micros - day * microsPerDay
  let (y, m, d) := civil day
  let second := rest / 1000000
  let micro := rest % 1000000
  padded 4 y ++ "-" ++ padded 2 m ++ "-" ++ padded 2 d ++ "T" ++
    padded 2 (second / 3600) ++ ":" ++ padded 2 (second / 60 % 60) ++ ":" ++ padded 2 (second % 60) ++
    (if micro = 0 then "" else "." ++ padded 6 micro)

end Instant

/-- A pending timer: when it is due, and which continuation of which execution it stands for. -/
structure Timer where
  id : Nat
  due : Float
  execution : String
  node : String
  marker : Nat

/-- The time, and the pending timers in the order in which they were set. -/
structure Clock where
  now : Float
  timers : List Timer
  nextTimer : Nat

namespace Clock

/-- The point in time at which clocks start when nothing else is said. -/
def epoch : Float := 1700000000.0

/-- A clock without timers. -/
def starting (now : Float) : Clock := ⟨now, [], 0⟩

/-- Sets a timer that is due after some seconds. -/
def schedule (c : Clock) (seconds : Float) (execution node : String) (marker : Nat) : Nat × Clock :=
  (c.nextTimer,
    { c with
      timers := c.timers ++ [⟨c.nextTimer, c.now + seconds, execution, node, marker⟩]
      nextTimer := c.nextTimer + 1 })

/-- Removes timers. -/
def cancel (c : Clock) (ids : List Nat) : Clock :=
  { c with timers := c.timers.filter fun t => !ids.contains t.id }

/-- Moves to a point in time, and takes off the timers that are due by then: the earliest first,
and of those due together the one that was set first. -/
def moveTo (c : Clock) (now : Float) : List Timer × Clock :=
  let (due, pending) := c.timers.partition fun t => t.due ≤ now
  (sortBy (fun a b => a.due ≤ b.due) due, { c with now, timers := pending })

/-- Moves on by some seconds. -/
def advance (c : Clock) (seconds : Float) : List Timer × Clock := c.moveTo (c.now + seconds)

/-- When the next timer is due. -/
def nextDue? (c : Clock) : Option Float :=
  (c.timers.map (·.due)).foldl (fun best due => match best with
    | some b => some (if due < b then due else b)
    | none => some due) none

/-- The timers that are taken off are those that are due. -/
theorem mem_moveTo {c : Clock} {now : Float} {t : Timer} :
    t ∈ (c.moveTo now).1 ↔ t ∈ c.timers ∧ t.due ≤ now := by
  simp [moveTo, List.partition_eq_filter_filter]

/-- The others stay, in their order. -/
theorem timers_moveTo (c : Clock) (now : Float) :
    (c.moveTo now).2.timers = c.timers.filter fun t => !decide (t.due ≤ now) := by
  simp [moveTo, List.partition_eq_filter_filter, Function.comp_def]

end Clock

end Runbook
