import Runbook.Value.Basic

/-!
The process log: records with a level, the name of a logger, a message and context fields. Fields
can be bound for a while; they go into every record, under the record's own fields.
-/
namespace Runbook

inductive Level where
  | debug | info | warning | error | critical
  deriving DecidableEq, Repr

def Level.name : Level → String
  | .debug => "DEBUG"
  | .info => "INFO"
  | .warning => "WARNING"
  | .error => "ERROR"
  | .critical => "CRITICAL"

def Level.rank : Level → Nat
  | .debug => 10
  | .info => 20
  | .warning => 30
  | .error => 40
  | .critical => 50

/-- The exception that a record reports: its class and its text. -/
structure Incident where
  kind : String
  text : String

/-- One record of the process log. -/
structure Record where
  level : Level
  logger : String
  message : String
  context : Dict
  incident : Option Incident := none

/-- The records so far, and the fields that are bound at the moment. -/
structure Journal where
  records : Array Record
  bound : Dict

namespace Journal

def empty : Journal := ⟨#[], []⟩

/-- Adds a record; its own fields win over the bound ones. -/
def write (j : Journal) (level : Level) (logger message : String) (context : Dict)
    (incident : Option Incident) : Journal :=
  { j with records := j.records.push ⟨level, logger, message, Dict.merge j.bound context, incident⟩ }

end Journal

end Runbook
