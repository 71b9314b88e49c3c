import Runbook.Clock
import Runbook.Journal
import Runbook.Journal.Pattern
import Runbook.Settings.Folder
import Runbook.Text.Upper
import Runbook.Value.Json

/-!
The process log as it is kept: which records are written at all, the line each of them makes, and
the file that the lines go to besides the console. A file that has grown too long is put aside
under a numbered name, and the oldest of those is dropped.
-/
namespace Runbook

/-- The rank below which records are left out. Ranks and levels are the same but for the rank zero,
which leaves out nothing. -/
abbrev Threshold := Nat

namespace Threshold

/-- The names of thresholds, in upper case. Some have two. -/
def names : List (String × Threshold) := [
  ("CRITICAL", 50), ("FATAL", 50), ("ERROR", 40), ("WARNING", 30), ("WARN", 30), ("INFO", 20),
  ("DEBUG", 10), ("NOTSET", 0)]

/-- The first name of a threshold. -/
def name (t : Threshold) : String :=
  ((names.find? (·.2 == t)).map (·.1)).getD ("Level " ++ toString t)

/-- The threshold that a name stands for, in upper or lower case. -/
def ofName (s : String) : Except Failure Threshold :=
  match names.lookup (Text.upper s) with
  | some t => .ok t
  | none => .error .noAttribute

end Threshold

/-- How the line of a record is made. -/
inductive LineForm where
  | structured
  | pattern (p : Pattern)

namespace LineForm

/-- The pattern that is used when none is given. -/
def usual : String := "%(asctime)s - %(name)s - %(levelname)s - [%(threadName)s] - %(message)s"

/-- The name of the thread that all records come from. -/
def thread : String := "MainThread"

/-- The fields that a pattern can ask for. -/
def patternFields (now : Instant) (r : Record) : List (String × Value) := [
  ("name", .text r.logger), ("levelname", .text r.level.name), ("levelno", .int r.level.rank),
  ("message", .text r.message), ("msg", .text r.message), ("threadName", .text thread),
  ("processName", .text "MainProcess"), ("context", .dict r.context),
  ("asctime", .text (String.ofList (((now.text.toList.map fun c => if c = 'T' then ' ' else c)).take 19)))]

/-- A record as data. The fields of its context win over its own. -/
def entry (now : Instant) (r : Record) : Dict :=
  let own : List (String × Value) := [
    ("timestamp", .text (now.text ++ "Z")), ("level", .text r.level.name),
    ("logger", .text r.logger), ("thread", .text thread), ("message", .text r.message)]
  let incident : List (String × Value) := match r.incident with
    | some i => [("exception", .record [("type", .text i.kind), ("message", .text i.text),
        ("traceback", .list [])])]
    | none => []
  Dict.merge ((own ++ incident).map fun (k, v) => (.text k, v)) r.context

/-- The text of a record, if its form can be filled in. -/
def text? (form : LineForm) (now : Instant) (r : Record) : Option String :=
  match form with
  | structured => some (Value.dict (entry now r)).json
  | pattern p => (p.text? (patternFields now r)).map fun s =>
    match r.incident with
    | some i => s ++ "\n" ++ i.kind ++ ": " ++ i.text
    | none => s

end LineForm

/-- How the log is to be kept. -/
structure LogSetup where
  level : String := "INFO"
  file : Option String := none
  format : Option String := none
  structured : Bool := false
  maxSize : Int := 10485760
  backups : Int := 5

/-- The path of the file, if there is one. -/
def LogSetup.path? (s : LogSetup) : Option String := s.file.filter (· ≠ "")

/-- A log that is being kept. -/
structure Logbook where
  /-- The threshold of loggers that have none of their own. -/
  root : Threshold
  /-- The threshold of the engine's logger. -/
  engine : Threshold
  form : LineForm
  setup : LogSetup
  folder : Folder
  /-- The texts written to the console. -/
  console : Array String := #[]
  bound : Dict := []

namespace Logbook

/-- The logger of the engine. Its records are the audit trail, so they are kept from the level of
information on even when the others are not. -/
def engineLogger : String := "deskflow.execution"

/-- The loggers that are noisy, and are kept from the level of warnings on. -/
def quietLoggers : List String :=
  ["sqlalchemy", "sqlalchemy.engine", "sqlalchemy.pool", "urllib3", "uvicorn.access"]

/-- Makes sure that the directory of the file is there. -/
def prepare (folder : Folder) (path : String) : Except Failure Folder :=
  let directory := pathSteps (parentPath path)
  let shown := Text.quoted (Folder.pathText directory)
  if folder.hasDirectory directory then .ok folder
  else if folder.hasFile directory then
    .error (.plain .fileExists ("[Errno 17] File exists: " ++ shown))
  else if (Folder.ancestors directory).any folder.hasFile then
    .error (.plain .notDirectory ("[Errno 20] Not a directory: " ++ shown))
  else .ok (((Folder.ancestors directory) ++ [directory]).foldl Folder.addDirectory folder)

/-- Starts a log. Its file is created, with the directories that it stands in, unless it is there. -/
def start (s : LogSetup) (folder : Folder) : Except Failure Logbook := do
  let format := match s.format with
    | some f => if f = "" then LineForm.usual else f
    | none => LineForm.usual
  let form ← if s.structured then pure .structured else .pattern <$> Pattern.read format
  let root ← Threshold.ofName s.level
  let folder ← match s.path? with
    | none => pure folder
    | some path => do
      let folder ← prepare folder path
      pure (if folder.hasFile (pathSteps path) then folder else folder.write path "")
  return {
    root, engine := if Text.upper s.level = Level.debug.name then Level.debug.rank else Level.info.rank
    form, setup := s, folder }

/-- The thresholds that loggers have of their own. -/
def ownThresholds (b : Logbook) : List (String × Threshold) :=
  (engineLogger, b.engine) :: quietLoggers.map ((·, Level.warning.rank))

/-- The threshold of a logger: its own, or that of the nearest logger above it. A logger stands
above another when its name, with a point, begins the other's name. -/
def threshold (b : Logbook) (logger : String) : Threshold :=
  let above := b.ownThresholds.filter fun (name, _) =>
    name == logger || (name ++ ".").toList.isPrefixOf logger.toList
  (above.foldl (fun best (name, t) =>
    if name.length ≥ best.1 then (name.length, t) else best) (0, b.root)).2

/-- The name of a rotated file. -/
def backupPath (path : String) (n : Nat) : String := path ++ "." ++ toString n

/-- Moves a file to another name, if it is there. -/
def move (folder : Folder) (source target : String) : Folder :=
  match folder.text? source with
  | none => folder
  | some text =>
    let kept := { folder with files := folder.files.filter (·.1 != pathSteps source) }
    kept.write target text

/-- Puts the file aside: every backup moves up by one, the last is dropped, and the file starts
again. -/
def rotate (folder : Folder) (path : String) (backups : Nat) : Folder :=
  if backups = 0 then folder
  else
    let moved := (List.range (backups - 1)).foldl (fun folder k =>
      let n := backups - 1 - k
      move folder (backupPath path n) (backupPath path (n + 1))) folder
    (move moved path (backupPath path 1)).write path ""

/-- Writes a line to the file; one that has grown too long is put aside before. -/
def append (s : LogSetup) (folder : Folder) (path line : String) : Folder :=
  let size := ((folder.text? path).getD "").utf8ByteSize
  let full := s.maxSize > 0 && size > 0 && (size : Int) + line.length + 1 ≥ s.maxSize
  let folder := if full then rotate folder path s.backups.toNat else folder
  folder.write path ((folder.text? path).getD "" ++ line ++ "\n")

/-- Writes a record: its own fields win over the bound ones. -/
def write (b : Logbook) (now : Instant) (level : Level) (logger message : String) (context : Dict)
    (incident : Option Incident) : Logbook :=
  if level.rank < b.threshold logger then b
  else
    let name := if logger = "" then "root" else logger
    let r : Record := ⟨level, name, message, Dict.merge b.bound context, incident⟩
    match b.form.text? now r with
    | none => b
    | some line =>
      { b with
        console := b.console.push line
        folder := match b.setup.path? with
          | some path => append b.setup b.folder path line
          | none => b.folder }

/-- Binds fields to all records from now on. -/
def bind (b : Logbook) (fields : Dict) : Logbook := { b with bound := Dict.merge b.bound fields }

/-- Unbinds all fields. -/
def clear (b : Logbook) : Logbook := { b with bound := [] }

/-- The parts of a record, after which none of its own fields can be named. -/
def parts : List String := ["logger", "level", "message"]

/-- Writes a record with fields of its own. -/
def report (b : Logbook) (now : Instant) (level : Level) (logger message : String)
    (context : Dict) : Except Failure Logbook :=
  if parts.any (Dict.contains context) then .error .wrongType
  else .ok (b.write now level logger message context none)

/-- Binds fields for a while; afterwards exactly those are bound that were before. -/
def during (b : Logbook) (fields : Dict) (work : Logbook → Except Failure Logbook) :
    Except Failure Logbook := do
  return { ← work (b.bind fields) with bound := b.bound }

/-- Writes the records of a journal. -/
def copy (b : Logbook) (now : Instant) (j : Journal) : Logbook :=
  j.records.foldl (fun b r => b.write now r.level r.logger r.message r.context r.incident) b

end Logbook

end Runbook
