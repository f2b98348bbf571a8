import TableStore.Database.TableHandle
import TableStore.Json.Mismatch
import TableStore.Migration.Batch

/-!
# Running migrations

The version of a database is kept in its store.  A run to a target applies every
batch from the stored version up to the target, each statement in a transaction
of its own, and then stores the target.  A run that fails leaves the version as
it was, and whatever it has applied so far.
-/

namespace TableStore
namespace Migration

open Database (Handle Host Action report)

variable [Engine.Machine]

inductive Failure
  | statement (version : UInt32) (statement : String) (source : Database.Failure)
  | database (failure : Database.Failure)
  | version (text : String)
  | file (text : String)
  | config (refusal : Json.Refusal)

def Failure.message : Failure -> String
  | .statement number text source =>
      "Migration " ++ Decimal.natText number.toNat ++ " failed at '" ++
        text ++ "': " ++ source.message
  | .database failure => failure.message
  | .version reason => "Database error: " ++ reason
  | .file text => "IO error: " ++ text
  | .config (.mismatch mismatch) => "Invalid configuration: " ++ mismatch.message
  | .config (.fault _) => "Invalid configuration"

abbrev Work := ExceptT Failure (StateM Host)

def ofAction {α : Type} (task : Action α) : Work α :=
  task.adapt .database

structure Report where
  start : UInt32
  finish : UInt32
  /-- The versions of the applied batches, in order. -/
  applied : List UInt32
deriving DecidableEq

def Report.changed (report : Report) : Bool :=
  report.start != report.finish

def versionText (version : UInt32) : String :=
  Decimal.natText version.toNat

structure Runner where
  database : Handle
  migrations : Migrations

namespace Runner

def versionOfValue : Option Value -> Except Failure UInt32
  | some (.int n) =>
      match Decimal.uint32? n.toInt with
      | some version => .ok version
      | none =>
          .error (.version
            ("user_version out of range: " ++ Decimal.intText n.toInt))
  | some value =>
      .error (.version
        ("unexpected user_version: Some(" ++ value.shown ++ ")"))
  | none => .error (.version "unexpected user_version: None")

def currentVersion (runner : Runner) : Work UInt32 := do
  let value? <- ofAction (runner.database.atomically
    (runner.database.fetchValue? [] "PRAGMA user_version"))
  match versionOfValue value? with
  | .ok version => return version
  | .error failure => throw failure

def setVersion (runner : Runner) (version : UInt32) : Work Unit :=
  ofAction (runner.database.atomically do
    let _ <- runner.database.execute []
      ("PRAGMA user_version = " ++ versionText version))

def plan (runner : Runner) (target : UInt32) : Work (List Batch) := do
  return runner.migrations.pending (<- runner.currentVersion) target

def applyStatement (runner : Runner) (version : UInt32) (statement : String) :
    Work Unit :=
  let task : Action Unit := runner.database.atomically do
    try
      let _ <- runner.database.execute [] statement
    catch failure =>
      report .warn "Migration statement failed"
        [("version", versionText version), ("statement", statement)]
      throw failure
  task.adapt fun failure =>
    match failure with
    | .closed => .database .closed
    | _ => .statement version statement failure

def applyBatch (runner : Runner) (batch : Batch) : Work Unit := do
  report .info "Applying migration"
    [("version", versionText batch.version),
      ("statements", Decimal.natText batch.statements.length)]
  batch.statements.forM (runner.applyStatement batch.version)

/-- Takes the database to a target, unless it is there or past it. -/
def run (runner : Runner) (target : UInt32) : Work Report := do
  let current <- runner.currentVersion
  if target <= current then
    report .info "Database is up to date"
      [("current", versionText current), ("target", versionText target)]
    return ⟨current, current, []⟩
  else
    let batches := runner.migrations.pending current target
    batches.forM runner.applyBatch
    runner.setVersion target
    report .info "Migrated user_version"
      [("from", versionText current), ("to", versionText target)]
    return ⟨current, target, batches.map (·.version)⟩

end Runner
end Migration
end TableStore
