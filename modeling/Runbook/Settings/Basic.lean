import Runbook.Failure
import Runbook.Journal
import Runbook.Settings.Environment
import Runbook.Settings.Folder
import Runbook.Text.Lower
import Runbook.Text.Upper

/-!
The settings of the service: read from values, from the environment or from one of three presets,
and checked against each other and against the working directory.
-/
namespace Runbook

structure Settings where
  appName : String := "DeskFlow Workflow Engine"
  appVersion : String := "1.0.0"
  debug : Bool := false
  host : String := "0.0.0.0"
  port : Int := 8000
  reload : Bool := false
  databaseUrl : String := "sqlite:///./deskflow.db"
  databaseEcho : Bool := false
  maxConcurrent : Int := 10
  httpTimeout : Float := 30.0
  maxLoopIterations : Option Int := some 10000
  resumeDelays : Bool := true
  logLevel : Level := .info
  logFormat : Option String := none
  logFile : Option String := none
  logMaxSize : Int := 10485760
  logBackups : Int := 5
  structuredLogging : Bool := false
  slowRequest : Float := 5.0
  corsOrigins : List Value := [.text "*"]
  corsMethods : List Value := [.text "GET", .text "POST", .text "PUT", .text "DELETE"]

def Level.all : List Level := [.debug, .info, .warning, .error, .critical]

def Level.ofName? (s : String) : Option Level := all.find? (·.name == s)

namespace Settings

open Read

/-- A whole number that is not smaller than another. -/
def atLeast (least n : Int) : Reading Int := if n < least then .refuse .atLeast else .accepted n

/-- A number of a port. -/
def portRule (n : Int) : Reading Int :=
  if n < 1 then .refuse .atLeast else if n > 65535 then .refuse .atMost else .accepted n

/-- A number above zero. -/
def positive (x : Float) : Reading Float := if x > 0.0 then .accepted x else .refuse .above

/-- The databases that can be used. -/
def databases : List String := ["sqlite", "postgresql", "mysql"]

/-- The part of an address before `separator`. -/
def before (separator : String) (s : String) : String :=
  match Text.cutAt? separator.toList s.toList with
  | some (front, _) => String.ofList front
  | none => s

def databaseRule (url : String) : Reading String :=
  if url = "" then .violate "Database URL cannot be empty"
  else
    let scheme := before "+" (Text.lower (before "://" url))
    if databases.contains scheme then .accepted url
    else .violate ("Unsupported database scheme: " ++ scheme ++ ". Supported: " ++
      (Value.texts databases).literal)

/-- The name of a level, in upper or lower case. -/
def levelRule (v : Value) : Reading Level :=
  match v with
  | .text s => choice Level.ofName? (.text (Text.upper s))
  | _ => .refuse .choice

/-- Reads settings; what is missing has its default. -/
def read (d : Dict) : Reading Settings :=
  let s : Settings := {}
  Settings.mk
    <$> optional d ["app_name"] s.appName text
    <*> optional d ["app_version"] s.appVersion text
    <*> optional d ["debug"] s.debug bool
    <*> optional d ["host"] s.host text
    <*> optional d ["port"] s.port (fun v => (whole v).check portRule)
    <*> optional d ["reload"] s.reload bool
    <*> optional d ["database_url"] s.databaseUrl (fun v => (text v).check databaseRule)
    <*> optional d ["database_echo"] s.databaseEcho bool
    <*> optional d ["max_concurrent_executions"] s.maxConcurrent
      (fun v => (whole v).check (atLeast 1))
    <*> optional d ["http_timeout"] s.httpTimeout (fun v => (float v).check positive)
    <*> optional d ["max_loop_iterations"] s.maxLoopIterations
      (nullable fun v => (whole v).check (atLeast 1))
    <*> optional d ["resume_pending_delays"] s.resumeDelays bool
    <*> optional d ["log_level"] s.logLevel levelRule
    <*> optional d ["log_format"] s.logFormat (nullable text)
    <*> optional d ["log_file"] s.logFile (nullable text)
    <*> optional d ["log_max_size"] s.logMaxSize whole
    <*> optional d ["log_backup_count"] s.logBackups whole
    <*> optional d ["structured_logging"] s.structuredLogging bool
    <*> optional d ["slow_request_threshold"] s.slowRequest float
    <*> optional d ["cors_origins"] s.corsOrigins (list any)
    <*> optional d ["cors_methods"] s.corsMethods (list any)

/-- The settings as data. -/
def record (s : Settings) : Value :=
  .record [
    ("app_name", .text s.appName), ("app_version", .text s.appVersion), ("debug", .bool s.debug),
    ("host", .text s.host), ("port", .int s.port), ("reload", .bool s.reload),
    ("database_url", .text s.databaseUrl), ("database_echo", .bool s.databaseEcho),
    ("max_concurrent_executions", .int s.maxConcurrent), ("http_timeout", .float s.httpTimeout),
    ("max_loop_iterations", match s.maxLoopIterations with | some n => .int n | none => .null),
    ("resume_pending_delays", .bool s.resumeDelays), ("log_level", .text s.logLevel.name),
    ("log_format", .ofText? s.logFormat), ("log_file", .ofText? s.logFile),
    ("log_max_size", .int s.logMaxSize), ("log_backup_count", .int s.logBackups),
    ("structured_logging", .bool s.structuredLogging),
    ("slow_request_threshold", .float s.slowRequest), ("cors_origins", .list s.corsOrigins),
    ("cors_methods", .list s.corsMethods)]

/-- The names of all settings. -/
def names : List String :=
  match ({} : Settings).record with
  | .dict d => d.map fun (k, _) => k.jsonText
  | _ => []

/-- The items of a list that is written with commas; empty ones do not count. -/
def listItems (s : String) : List Value :=
  ((Text.splitOnChar ',' s.toList).map fun cs => Text.trim (String.ofList cs)).filterMap fun item =>
    if item = "" then none else some (.text item)

/-- The value of a setting as it is written in the environment. Lists are written with commas; some
settings are switched off by `none` or by nothing. -/
def written (name raw : String) : Value :=
  if name = "cors_origins" ∨ name = "cors_methods" then .list (listItems raw)
  else if (name = "max_loop_iterations" ∨ name = "log_file") ∧
      ["", "none"].contains (Text.lower (Text.trim raw)) then .null
  else .text raw

/-- The variable of a setting. -/
def variableOf (name : String) : String := "DESKFLOW_" ++ Text.upper name

/-- Reads the settings that the environment holds. -/
def ofEnvironment (env : Environment) : Reading Settings :=
  read (names.filterMap fun name =>
    (env.get? (variableOf name)).map fun raw => (.text name, written name raw))

/-- Loads a file into the environment: the one that is named, if it is there, or else the usual
one, if that is there. -/
def loadFile (folder : Folder) (env : Environment) (named : Option String) : Environment :=
  let path := match named with
    | some p => if folder.has p then p else ".env"
    | none => ".env"
  match folder.text? path with
  | some text => EnvFile.load env text
  | none => env

/-- A preset by its name. -/
def preset? (name : String) : Option Settings :=
  match name with
  | "development" => some { debug := true, reload := true, logLevel := .debug, databaseEcho := true }
  | "production" => some { structuredLogging := true, corsOrigins := [] }
  | "testing" => some {
      debug := true, databaseUrl := "sqlite:///:memory:", logLevel := .warning, maxConcurrent := 2
      httpTimeout := 5.0, maxLoopIterations := some 1000, resumeDelays := false }
  | _ => none

/-- The database is a file, or in memory. -/
def isSqlite (s : Settings) : Bool := "sqlite".toList.isPrefixOf (Text.lower s.databaseUrl).toList

/-- The database is in memory and lasts no longer than the program. -/
def isInMemory (s : Settings) : Bool := Text.occursIn ":memory:".toList s.databaseUrl.toList

/-- The path of the database file. -/
def databasePath (s : Settings) : String :=
  match Text.cutAt? ":///".toList s.databaseUrl.toList with
  | some (_, path) => String.ofList path
  | none => s.databaseUrl

/-- What the server is started with. -/
def serverOptions (s : Settings) : List (String × Value) := [
  ("host", .text s.host), ("port", .int s.port), ("reload", .bool s.reload),
  ("log_level", .text (Text.lower s.logLevel.name)), ("access_log", .bool s.debug)]

/-- Makes sure that the directory of a file is there; answers what is wrong with it. -/
def ensureDirectory (folder : Folder) (path label : String) : Folder × List String :=
  let directory := parentPath path
  if directory = "" ∨ folder.has directory then (folder, [])
  else
    match folder.makeDirectories directory with
    | .ok folder => (folder, [])
    | .error reason =>
      (folder, ["Cannot create " ++ label ++ " directory " ++ directory ++ ": " ++ reason])

/-- Checks settings against each other and against the working directory; answers the problems. -/
def problems (s : Settings) (folder : Folder) : Folder × List String :=
  let (folder, database) :=
    if s.isSqlite && !s.isInMemory then ensureDirectory folder s.databasePath "database"
    else (folder, [])
  let (folder, log) := ensureDirectory folder (s.logFile.getD "") "log"
  (folder, database ++ log ++
    (if s.maxConcurrent > 100 then
      ["High concurrent execution limit may exhaust the database connection pool"] else []) ++
    (if s.maxLoopIterations.isNone then
      ["Loop safety limit is disabled; unbounded loop nodes will never stop"] else []))

/-- The error that tells all problems, if there are any. -/
def validate (s : Settings) (folder : Folder) : Option ProgramError × Folder :=
  let (folder, problems) := s.problems folder
  (if problems.isEmpty then none else some (.configuration problems), folder)

end Settings

end Runbook
