import Runbook.Retry

/-!
Trials of a retry policy: work whose outcomes are given in advance, one for each call.
-/
namespace Runbook

namespace RetryPolicy

/-- A number among some fields. -/
def numberField (d : Dict) (name : String) (default : Number) : Number :=
  ((Dict.get? d name).bind Value.number?).getD default

/-- A policy from fields; what is missing has its default, and so has an empty list of classes. -/
def ofFields (d : Dict) : RetryPolicy :=
  let standard : RetryPolicy := {}
  let classes : List String := match Dict.get? d "retryable_exceptions" with
    | some (.list vs) => vs.filterMap fun | .text s => some s | _ => none
    | _ => []
  { maxAttempts := match Dict.get? d "max_attempts" with
      | some (.int n) => n
      | _ => standard.maxAttempts
    baseDelay := numberField d "base_delay" standard.baseDelay
    maxDelay := numberField d "max_delay" standard.maxDelay
    factor := numberField d "exponential_base" standard.factor
    jitter := ((Dict.get? d "jitter").getD (.bool standard.jitter)).isTruthy
    retryable := if classes.isEmpty then standard.retryable else classes }

end RetryPolicy

namespace Retry

/-- The failure that a word stands for. -/
def failure? (word : String) : Option Failure :=
  match word with
  | "storage" => some (.program (.make .storage word []))
  | "transient" => some (.program (.make .transient word []))
  | "engine" => some (.program (.make .general word []))
  | "recoverable" => some (.program { ProgramError.make .general word [] with recoverable := true })
  | "value" => some (.plain .value word)
  | "key" => some (.missingKey (.text word))
  | "os" => some (.plain .system word)
  | _ => none

/-- What a trial has come to. -/
structure Trial where
  outcomes : List String
  calls : Nat := 0
  slept : List Value := []
  journal : Journal := Journal.empty

namespace Trial

/-- One call: it fails when its outcome stands for a failure, and answers it otherwise. -/
def call : EStateM Failure Trial String := do
  let t ← get
  let (word, rest) := match t.outcomes with
    | [] => ("ok", [])
    | word :: rest => (word, rest)
  set { t with outcomes := rest, calls := t.calls + 1 }
  match failure? word with
  | some f => throw f
  | none => return word

/-- The name of the work. -/
def name : String := "work"

def hooks (p : RetryPolicy) (random : Float) : RetryPolicy.Hooks Trial where
  failed attempt f := do
    modify fun t => { t with journal := reportFailed t.journal name name attempt p.maxAttempts f }
    match p.delay random attempt with
    | .ok d => modify fun t => { t with slept := t.slept ++ [d.value] }
    | .error g => throw g
  gaveUp used f := modify fun t => { t with journal := reportGaveUp t.journal name name used f }

/-- Runs a trial; answers the outcome and what it has come to. -/
def run (p : RetryPolicy) (random : Float) (outcomes : List String) :
    Except Failure String × Trial :=
  match (p.run (hooks p random) call).run { outcomes } with
  | .ok a t => (.ok a, t)
  | .error f t => (.error f, t)

end Trial

end Retry

end Runbook
