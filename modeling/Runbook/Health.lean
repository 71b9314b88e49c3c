import Runbook.Failure
import Runbook.Journal

/-!
Health checks. A check has a name; checking it tells whether it passed, with what it had to say,
or why it did not. All checks together are healthy when each of them is.
-/
namespace Runbook

/-- What comes of calling a check. -/
inductive CheckOutcome where
  | passed (answer : Value)
  | failed (f : Failure)
  | hung

/-- A named check. -/
structure Check where
  name : String
  timeout : Value := .float 5.0
  outcome : CheckOutcome

namespace Check

/-- The failure of a given class with a message. -/
def failureOf (kind message : String) : Failure :=
  match kind with
  | "ValueError" => .plain .value message
  | "LookupError" => .plain .lookup message
  | "OSError" => .plain .system message
  | "Exception" => .plain .general message
  | _ =>
    match ErrorClass.ofName? kind with
    | some k => .program (.make k message [])
    | none => .plain .runtime message

end Check

/-- The registered checks, and the last result of each that was run. -/
structure HealthChecker where
  checks : List Check := []
  results : List (String × Dict) := []

namespace HealthChecker

/-- Registers a check; one of the same name is replaced where it stands. -/
def register (h : HealthChecker) (c : Check) : HealthChecker :=
  { h with checks :=
      if h.checks.any (·.name == c.name) then
        h.checks.map fun d => if d.name == c.name then c else d
      else h.checks ++ [c] }

/-- The result of a check that was called. What it answers goes into its result: a text as the
message, the entries of a dictionary beside the others. -/
def result (c : Check) : Dict :=
  match c.outcome with
  | .passed answer =>
    let message := match answer with
      | .text s => s
      | _ => "Check passed"
    Dict.merge [(.text "status", .text "healthy"), (.text "message", .text message)]
      (match answer with | .dict d => d | _ => [])
  | .hung => [(.text "status", .text "timeout"),
      (.text "message", .text ("Health check timed out after " ++ c.timeout.display ++ "s"))]
  | .failed f => [(.text "status", .text "unhealthy"), (.text "message", .text f.text),
      (.text "error_type", .text f.kindName)]

/-- A result with its times, which are left open. -/
def timed (d : Dict) : Dict :=
  Dict.set (Dict.set d "duration_ms" (.float 0.0)) "timestamp" .untold

def putResult : List (String × Dict) → String → Dict → List (String × Dict)
  | [], name, d => [(name, d)]
  | (k, e) :: rest, name, d =>
    if k == name then (k, d) :: rest else (k, e) :: putResult rest name d

/-- The logger of checks. -/
def logger : String := "deskflow.core.error_recovery"

/-- What a failed check leaves in the process log. -/
def complaint (c : Check) : Option String :=
  match c.outcome with
  | .failed f => some ("Health check " ++ c.name ++ " failed: " ++ f.text)
  | _ => none

/-- Runs the check of a name; its result is kept. -/
def run (h : HealthChecker) (name : String) : Dict × HealthChecker :=
  match h.checks.find? (·.name == name) with
  | none =>
    ([(.text "status", .text "error"),
      (.text "message", .text ("Health check '" ++ name ++ "' not found")),
      (.text "timestamp", .untold)], h)
  | some c =>
    let d := timed (result c)
    (d, { h with results := putResult h.results name d })

def runEach (h : HealthChecker) : List Check → List (String × Dict) × HealthChecker
  | [] => ([], h)
  | c :: rest =>
    let (d, h) := h.run c.name
    let (ds, h) := runEach h rest
    ((c.name, d) :: ds, h)

/-- Runs all checks, in the order in which they were registered. -/
def runAll (h : HealthChecker) : List (String × Dict) × HealthChecker := runEach h h.checks

/-- Whether every result is a healthy one. -/
def isHealthy (results : List (String × Dict)) : Bool :=
  results.all fun (_, d) => (Dict.getD d "status").same (.text "healthy")

/-- The word for the state of all checks. -/
def overall (results : List (String × Dict)) : String :=
  if isHealthy results then "healthy" else "unhealthy"

end HealthChecker

/-- A result without its times. -/
def withoutTimes (d : Dict) : Dict := Dict.erase (Dict.erase d "duration_ms") "timestamp"

end Runbook
