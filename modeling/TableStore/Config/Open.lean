import TableStore.Config.Document
import TableStore.Migration.Runner

/-!
# Opening configured databases

Opening a configured database migrates it and creates its declared tables, as
far as the configuration asks for it.
-/

namespace TableStore
namespace Config

open Database (Handle Host Action TableHandle report)
open Migration (Work)

variable [Engine.Machine]

def runner (config : Config) (database : Handle) : Migration.Runner :=
  ⟨database, config.migrations⟩

def migrate (config : Config) (database : Handle) : Work Migration.Report :=
  (config.runner database).run config.version

/-- Handles to the declared tables, in order. -/
def handles (config : Config) (database : Handle) : List TableHandle :=
  config.tables.map fun table =>
    ⟨database, table.name, table.columns, .parameterized⟩

def createTables (config : Config) (database : Handle) :
    Work (List TableHandle) := do
  let tables := config.handles database
  tables.forM fun table => Migration.ofAction table.create
  report .info "Declared tables ready"
    [("count", Decimal.natText tables.length)]
  return tables

def openDatabase (config : Config) : Work Handle := do
  let database <- Migration.ofAction (Database.openDatabase config.name)
  if config.autoMigrate then
    let _ <- config.migrate database
  if config.autoCreate then
    let _ <- config.createTables database
  return database

def ofFile (path : String) : Work Config := do
  let disk := (<- get).disk
  match disk.text? path with
  | some text =>
      match Config.ofText text with
      | .ok config => return config
      | .error refusal => throw (.config refusal)
  | none =>
      if disk.isDirectory path then
        throw (.file "Is a directory (os error 21)")
      else if (disk.find? path).isSome then
        throw (.file "stream did not contain valid UTF-8")
      else throw (.file "No such file or directory (os error 2)")

end Config
end TableStore
