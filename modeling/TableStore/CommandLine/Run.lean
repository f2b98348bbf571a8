import TableStore.CommandLine.Arguments
import TableStore.Config.Open
import TableStore.Engine.Sqlite

/-!
# Runs of the program

A run reads its arguments, loads the configuration if one is named, opens the
database and does what the command says.  It ends with a code, with what it has
reported, and with a complaint if it has failed.
-/

namespace TableStore
namespace CommandLine

open Database (Handle Host Disk notify)

/-- The program works on databases of SQLite. -/
instance dialect : Engine.Dialect := Engine.Sqlite.dialect

def programVersion : String := "ink-migrate 0.1.0"

structure Ending where
  /-- Zero for success, one for a failure, two for arguments that do not fit. -/
  code : Nat
  complaint? : Option String
deriving DecidableEq

abbrev Job := ExceptT String (StateM Host)

def ofWork {α : Type} (work : Migration.Work α) : Job α :=
  work.adapt Migration.Failure.message

def say (line : String) : StateM Host Unit :=
  notify (.plain line)

def inform (message : String) : StateM Host Unit :=
  Database.report .info message []

def needConfig : Option Config -> Job Config
  | some config => pure config
  | none => throw "This command needs --config"

def loadConfig (path : String) : Job Config :=
  (Config.ofFile path).adapt fun _ => "Failed to load " ++ path

def showTables (config : Config) : Job Unit :=
  config.tables.forM fun table =>
    say (Statement.createTable table.name table.columns ++ ";")

def showPlan (runner : Migration.Runner) (target : UInt32) : Job Unit := do
  inform "Dry run mode - SQL will be printed but not executed."
  let plan <- ofWork (runner.plan target)
  if plan.isEmpty then inform "No pending migrations."
  plan.forM fun batch => do
    say ("-- version " ++ Migration.versionText batch.version)
    batch.statements.forM fun statement => say statement

def migrate (runner : Migration.Runner) (target : UInt32) : Job Unit := do
  let report <- ofWork (runner.run target)
  if report.changed then
    inform ("Migrated from version " ++ Migration.versionText report.start ++
      " to " ++ Migration.versionText report.finish ++ " (" ++
      Decimal.natText report.applied.length ++ " batches)")
  else
    inform ("Nothing to migrate; version is " ++
      Migration.versionText report.start)

def runCommand (config? : Option Config) (database : Handle) :
    Command -> Job Unit
  | .migrate target? dryRun => do
      let config <- needConfig config?
      let target := target?.getD config.version
      if dryRun then showPlan (config.runner database) target
      else migrate (config.runner database) target
  | .version => do
      let runner : Migration.Runner := ⟨database, .empty⟩
      say (Migration.versionText (<- ofWork runner.currentVersion))
  | .createTables => do
      let config <- needConfig config?
      let tables <- ofWork (config.createTables database)
      tables.forM fun table => inform ("Table ready: " ++ table.name)
  | .sql => pure ()

/-- The name of the database: as given, or as configured. -/
def databaseName (given? : Option String) (config? : Option Config) :
    Job String :=
  match given?, config? with
  | some name, _ => pure name
  | none, some config => pure config.name
  | none, none => throw "No database given; pass --database or --config"

def runArguments (default? : Option String) (arguments : Arguments) :
    Job Unit := do
  let config? <- arguments.config?.mapM loadConfig
  match arguments.command with
  | .sql => showTables (<- needConfig config?)
  | command => do
      let name <- databaseName (arguments.database? <|> default?) config?
      let database <- (Database.openDatabase name).adapt fun _ =>
        "Failed to open " ++ name
      runCommand config? database command
      database.close

def run (default? : Option String) (arguments : List String) :
    StateM Host Ending := do
  match readArguments arguments with
  | .error .help => return ⟨0, none⟩
  | .error .version => do
      say programVersion
      return ⟨0, none⟩
  | .error .misuse => return ⟨2, none⟩
  | .ok arguments =>
      match <- (runArguments default? arguments).run with
      | .ok () => return ⟨0, none⟩
      | .error complaint => return ⟨1, some ("Error: " ++ complaint)⟩

def lines (text : String) : List String :=
  (Text.splitAt '\n' text.toList).map String.ofList

structure Result where
  disk : Disk
  code : Nat
  shown : List String
  complaint? : Option String

def runOn (disk : Disk) (default? : Option String) (arguments : List String) :
    Result :=
  let (ending, host) := (run default? arguments).run (.ofDisk disk)
  ⟨host.disk, ending.code,
    host.notices.reverse.flatMap fun notice => lines notice.text,
    ending.complaint?.bind fun complaint => (lines complaint).head?⟩

end CommandLine
end TableStore
