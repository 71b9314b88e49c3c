import Runbook.Command.Line
import Runbook.Engine.Waiting
import Runbook.Service.Basic

/-!
Commands at work. A desk is where commands are given: the environment, the working directory and
the databases, which stay from one command to the next. A command prints lines and ends with an
exit code; one that starts the server ends with what the server is started with.
-/
namespace Runbook

/-- Where commands are given. -/
structure Desk where
  environment : Environment := []
  folder : Folder := {}
  /-- The databases by the steps of their paths; one without tables holds nothing. -/
  databases : List (List String × Option Store) := []
  /-- The number of the next id. -/
  nextId : Nat := 1

/-- What a server is started with, by name. -/
abbrev ServerOptions := List (String × Value)

/-- What comes of a command. -/
structure Outcome where
  exit : Nat
  /-- The lines that were printed. -/
  printed : List String := []
  served : Option ServerOptions := none

/-- A desk with the lines that the command has printed so far. -/
structure Console where
  desk : Desk
  printed : Array String := #[]
  served : Option ServerOptions := none

/-- A command at work; it answers its exit code. -/
abbrev Work := EStateM Failure Console

namespace Work

def print (line : String) : Work Unit :=
  modify fun c => { c with printed := c.printed.push line }

def ofExcept {α : Type} : Except Failure α → Work α
  | .ok a => pure a
  | .error f => throw f

def desk : Work Desk := do return (← get).desk

def setFolder (folder : Folder) : Work Unit :=
  modify fun c => { c with desk := { c.desk with folder } }

end Work

namespace Settings

/-- The part of a database address that names a file. -/
def databaseFile (s : Settings) : String :=
  String.ofList (s.databasePath.toList.takeWhile (· != '?'))

/-- The driver that a database needs besides the usual ones. -/
def missingDriver? (s : Settings) : Option String :=
  let scheme := before "://" s.databaseUrl
  match Text.cutAt? ['+'] scheme.toList with
  | some (_, driver) => if s.isSqlite then none else some (String.ofList driver)
  | none =>
    match Text.lower scheme with
    | "postgresql" => some "psycopg2"
    | "mysql" => some "MySQLdb"
    | _ => none

/-- The database is not in a file. -/
def isTransient (s : Settings) : Bool := s.isInMemory || !(Text.occursIn ":///".toList
  s.databaseUrl.toList) || s.databaseFile == ""

end Settings

namespace Desk

/-- What the database refuses, in its own words. -/
def refused (kind words : String) : Failure := .plain .runtime ("(sqlite3." ++ kind ++ ") " ++ words)

/-- The tables of the database in a file, none when it has no tables yet. Opening it creates the
file. -/
def connect (s : Settings) (d : Desk) : Except Failure (Option Store × Desk) :=
  match s.missingDriver? with
  | some driver => .error (.plain .general ("No module named " ++ Text.quoted driver))
  | none =>
    if s.isTransient then .ok (none, d)
    else
      let path := pathSteps s.databaseFile
      match d.databases.lookup path with
      | some tables => .ok (tables, d)
      | none =>
        if d.folder.hasDirectory path then
          .error (refused "OperationalError" "unable to open database file")
        else if ((d.folder.text? s.databaseFile).getD "") ≠ "" then
          .error (refused "DatabaseError" "file is not a database")
        else .ok (none, { d with
          folder := d.folder.write s.databaseFile "", databases := d.databases ++ [(path, none)] })

/-- Puts the tables of a database in place. -/
def keep (s : Settings) (tables : Option Store) (d : Desk) : Desk :=
  let path := pathSteps s.databaseFile
  { d with databases := d.databases.map fun (p, t) => if p == path then (p, tables) else (p, t) }

/-- Runs an operation of the storage on a database, whose tables are created if need be. -/
def onDatabase {α : Type} (s : Settings) (x : StorageM α) (d : Desk) : Except Failure α × Desk :=
  match d.connect s with
  | .error f => (.error f, d)
  | .ok (tables, d) =>
    match x { tables := tables.getD {}, nextId := d.nextId } with
    | .ok a storage => (.ok a, { d.keep s (some storage.tables) with nextId := storage.nextId })
    | .error f storage =>
      (.error f, { d.keep s (some storage.tables) with nextId := storage.nextId })

/-- The settings that the environment alone holds for the database. -/
def databaseSettings (d : Desk) : Settings :=
  match d.environment.get? (Settings.variableOf "database_url") with
  | some url => { databaseUrl := url }
  | none => {}

end Desk

namespace Work

/-- Opens a database; answers its tables. -/
def connect (s : Settings) : Work (Option Store) := do
  let (tables, desk) ← ofExcept ((← desk).connect s)
  modify fun c => { c with desk }
  return tables

def keep (s : Settings) (tables : Option Store) : Work Unit :=
  modify fun c => { c with desk := c.desk.keep s tables }

/-- Loads the settings: a preset, or the environment together with a file; options win. -/
def loadSettings (line : CommandLine) : Work Settings := do
  let settings ← match line.preset.bind Settings.preset? with
    | some s => pure s
    | none => do
      let d ← desk
      let environment := Settings.loadFile d.folder d.environment line.file
      modify fun c => { c with desk := { c.desk with environment } }
      ofExcept (Settings.ofEnvironment environment).orFail
  if line.overrides.isEmpty then return settings
  match settings.record with
  | .dict d => ofExcept (Settings.read (Dict.merge d line.overrides)).orFail
  | _ => return settings

/-- Begins the log. -/
def startLog (s : Settings) : Work Unit := do
  let book ← ofExcept (Logbook.start { s.logSetup with
    maxSize := ({} : LogSetup).maxSize, backups := ({} : LogSetup).backups } (← desk).folder)
  setFolder book.folder

/-- Makes sure that nothing is wrong with the settings. -/
def validate (s : Settings) : Work Unit := do
  let (problem, folder) := s.validate (← desk).folder
  setFolder folder
  match problem with
  | some e => throw (.program e)
  | none => return

def incomplete (what : String) : Work Nat := do
  print (what ++ " command required. Use --help for options.")
  return 1

def showSettings (s : Settings) : Work Unit := do
  print "Current Configuration:"
  print ("  App Name: " ++ s.appName)
  print ("  Version: " ++ s.appVersion)
  print ("  Debug: " ++ (Value.bool s.debug).literal)
  print ("  Host: " ++ s.host)
  print ("  Port: " ++ toString s.port)
  print ("  Database URL: " ++ s.databaseUrl)
  print ("  Log Level: " ++ s.logLevel.name)
  print ("  Max Concurrent Executions: " ++ toString s.maxConcurrent)
  print ("  Max Loop Iterations: " ++ (match s.maxLoopIterations with
    | some n => toString n
    | none => Value.null.literal))
  print ("  HTTP Timeout: " ++ Decimal.text s.httpTimeout ++ "s")
  print ("  Resume Pending Delays: " ++ (Value.bool s.resumeDelays).literal)

/-- Checks the settings and tells how it went. -/
def checkSettings (s : Settings) : Work Nat :=
  tryCatch (do
    validate s
    print "Configuration validation: PASSED"
    return 0) fun f => do
    match f with
    | .program e =>
      if e.kind = .configuration then
        print "Configuration validation: FAILED"
        print ("Error: " ++ f.text)
        return 1
      else throw f
    | f => throw f

/-- Creates the tables of a database, or their indexes; resetting drops them before. -/
def database (s : Settings) (task : DatabaseTask) : Work Unit := do
  let tables ← connect s
  match task, tables with
  | .init, tables => keep s (some (tables.getD {}))
  | .reset, _ => keep s (some {})
  | .migrate, some _ => return
  | .migrate, none =>
    throw (Desk.refused "OperationalError" "no such table: main.workflow_executions")

/-- Runs an operation of a new engine on a database. -/
def onEngine {α : Type} (s : Settings) (now : Float) (x : Run α) : Work α := do
  let tables := (← connect s).getD {}
  let nextId := (← desk).nextId
  let put (e : Engine) : Work Unit := do
    keep s (some e.storage.tables)
    modify fun c => { c with desk := { c.desk with nextId := e.storage.nextId } }
  match x.run (s.engine { tables, nextId } {} now) with
  | .ok a e => do
    put e
    return a
  | .error f e => do
    put e
    throw f

def markerLine (m : Store.Marker) : String :=
  "  " ++ m.execution ++ "  node=" ++ m.node ++ "  resume_at=" ++ m.resumeAt.text

/-- Lists the pending delays, soonest first. -/
def listDelays (s : Settings) (now : Float) : Work Unit := do
  let markers ← onEngine s now (Storage.listMarkers none)
  markers.forM fun m => print (markerLine m)
  print (toString markers.length ++ " pending delay(s)")

/-- The lines about executions that are waited for, and the failure that ends the waiting. -/
def awaitAll (timeout : Option Float) : List String → Run (List String × Option Failure)
  | [] => return ([], none)
  | id :: rest => do
    match ← Engine.observe (Engine.waitFor id timeout) with
    | .error f => return ([], some f)
    | .ok status =>
      let (lines, f) ← awaitAll timeout rest
      return (("  " ++ id ++ ": " ++ status.name) :: lines, f)

/-- Resumes the pending delays and waits for their executions. -/
def resumeDelays (s : Settings) (now : Float) (timeout : Option Float) : Work Unit := do
  let (count, lines, failure) ← onEngine s now do
    let markers ← Storage.listMarkers none
    let count ← Engine.resume
    let ids := (Folder.sortedTexts (markers.map (·.execution))).eraseReps
    let (lines, failure) ← awaitAll timeout ids
    Engine.shutdown
    return (count, lines, failure)
  print ("Resumed " ++ toString count ++ " pending delay(s)")
  lines.forM print
  match failure with
  | some f => throw f
  | none => return

/-- Tells what runs, or the results of all checks. -/
def health (s : Settings) (now : Float) (detailed : Bool) : Work Nat := do
  if !detailed then
    print ("Service: " ++ s.appName)
    print ("Version: " ++ s.appVersion)
    return 0
  let checker ← onEngine s now do return Service.checker (← get) []
  let (results, _) := checker.runAll
  let moment ← ofExcept (Instant.ofSeconds now)
  print ("Overall Status: " ++ HealthChecker.overall results)
  print ("Timestamp: " ++ moment.text)
  results.forM fun (name, d) =>
    print ("  " ++ name ++ ": " ++ (Dict.getD d "status").display ++ " - " ++
      (Dict.getD d "message").display)
  return if HealthChecker.isHealthy results then 0 else 1

/-- Does what a command line asks for. -/
def perform (line : CommandLine) (now : Float) : Work Nat := do
  let s ← loadSettings line
  startLog s
  match line.command with
  | .settings none => incomplete "Configuration"
  | .settings (some .show) => do
    showSettings s
    return 0
  | .settings (some .validate) => checkSettings s
  | command =>
    validate s
    match command with
    | .database none => incomplete "Database"
    | .database (some task) => do
      database s task
      return 0
    | .delays none => incomplete "Delays"
    | .delays (some .list) => do
      listDelays s now
      return 0
    | .delays (some (.resume timeout)) => do
      resumeDelays s now timeout
      return 0
    | .health detailed => health s now detailed
    | _ => do
      modify fun c => { c with served := some (("title", .text s.appName) :: s.serverOptions) }
      return 0

/-- What is told about a failure. Of settings that cannot be read only the number of issues is. -/
def complaint : Failure → String
  | .invalid is =>
    toString is.length ++ " validation error" ++ (if is.length = 1 then "" else "s") ++
      " for AppConfig"
  | f => f.text

end Work

namespace Desk

/-- Runs a command with its arguments at a point in time. -/
def run (d : Desk) (now : Float) (args : List String) : Outcome × Desk :=
  match CommandLine.read args with
  | .error .help => ({ exit := 0 }, d)
  | .error .nonsense => ({ exit := 2 }, d)
  | .ok line =>
    match (Work.perform line now).run { desk := d } with
    | .ok code c => ({ exit := code, printed := c.printed.toList, served := c.served }, c.desk)
    | .error f c =>
      ({ exit := 1, printed := c.printed.toList ++ ["Error: " ++ Work.complaint f] }, c.desk)

end Desk

end Runbook
