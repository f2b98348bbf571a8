import TableStore.Column.Document
import TableStore.Migration.Document

/-!
# Configurations

Where a database lives, the version its schema should have, the batches that
lead there and the tables that it declares.
-/

namespace TableStore

structure TableDeclaration where
  name : String
  columns : Columns
deriving DecidableEq

structure Config where
  name : String
  version : UInt32
  migrations : Migrations
  autoMigrate : Bool
  autoCreate : Bool
  tables : List TableDeclaration

namespace Config

def plain (name : String) (version : UInt32) : Config :=
  ⟨name, version, .empty, false, false, []⟩

/-- Whether a configuration says no more than its name and version. -/
def isPlain (config : Config) : Bool :=
  config.migrations.isEmpty && !config.autoMigrate && !config.autoCreate &&
    config.tables.isEmpty

def table? (config : Config) (name : String) : Option TableDeclaration :=
  config.tables.find? fun table => table.name = name

end Config
end TableStore
