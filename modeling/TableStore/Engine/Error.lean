import TableStore.Decimal.Digits
import TableStore.Sql.Fault

/-!
# Errors of the engine

Why a statement was refused or did not run to its end, each with the number and
the words under which it is reported.
-/

namespace TableStore

inductive ConstraintKind
  | unique
  | notNull
  | check
  | foreignKey
deriving DecidableEq

def ConstraintKind.words : ConstraintKind -> String
  | .unique => "unique"
  | .notNull => "not-null"
  | .check => "check"
  | .foreignKey => "foreign key"

namespace Engine

inductive Violation
  | unique (table column : String) (primary : Bool)
  | notNull (table column : String)
  | check (condition : String)
  | foreignKey
deriving DecidableEq

namespace Violation

def kind : Violation -> ConstraintKind
  | .unique _ _ _ => .unique
  | .notNull _ _ => .notNull
  | .check _ => .check
  | .foreignKey => .foreignKey

def code : Violation -> Nat
  | .unique _ _ true => 1555
  | .unique _ _ false => 2067
  | .notNull _ _ => 1299
  | .check _ => 275
  | .foreignKey => 787

def message : Violation -> String
  | .unique table column _ =>
      "UNIQUE constraint failed: " ++ table ++ "." ++ column
  | .notNull table column =>
      "NOT NULL constraint failed: " ++ table ++ "." ++ column
  | .check condition => "CHECK constraint failed: " ++ condition
  | .foreignKey => "FOREIGN KEY constraint failed"

end Violation

inductive UnfitColumn
  | primaryKey
  | unique
  | notNull
  | references
  | check
deriving DecidableEq

def UnfitColumn.message : UnfitColumn -> String
  | .primaryKey => "Cannot add a PRIMARY KEY column"
  | .unique => "Cannot add a UNIQUE column"
  | .notNull => "Cannot add a NOT NULL column with default value NULL"
  | .references => "Cannot add a REFERENCES column with non-NULL default value"
  | .check => "CHECK constraint failed"

inductive Error
  | fault (fault : Sql.Fault)
  | noSuchTable (table : String)
  | noSuchColumn (column : String)
  | tableExists (table : String)
  | duplicateColumn (column : String)
  | secondPrimaryKey (table : String)
  | misplacedAutoincrement
  | unfitColumn (reason : UnfitColumn)
  /-- A row is given a value for a column that the table does not have. -/
  | unknownTarget (table column : String)
  | wrongRowSize (table : String) (columns values : Nat)
  | wrongValueCount (values columns : Nat)
  | referenceMismatch (child parent : String)
  | overflow
  | mismatch
  | full
  | violation (violation : Violation)
  | readOnly
  | cannotOpen
  | notADatabase
  | excess (message : String)
deriving DecidableEq

namespace Error

def code : Error -> Nat
  | .violation broken => broken.code
  | .readOnly => 8
  | .full => 13
  | .cannotOpen => 14
  | .mismatch => 20
  | .notADatabase => 26
  | _ => 1

def message : Error -> String
  | .fault reason => reason.message
  | .noSuchTable table => "no such table: " ++ table
  | .noSuchColumn column => "no such column: " ++ column
  | .tableExists table => "table " ++ table ++ " already exists"
  | .duplicateColumn column => "duplicate column name: " ++ column
  | .secondPrimaryKey table =>
      "table \"" ++ table ++ "\" has more than one primary key"
  | .misplacedAutoincrement =>
      "AUTOINCREMENT is only allowed on an INTEGER PRIMARY KEY"
  | .unfitColumn reason => reason.message
  | .unknownTarget table column =>
      "table " ++ table ++ " has no column named " ++ column
  | .wrongRowSize table columns values =>
      "table " ++ table ++ " has " ++ Decimal.natText columns ++
        " columns but " ++ Decimal.natText values ++ " values were supplied"
  | .wrongValueCount values columns =>
      Decimal.natText values ++ " values for " ++ Decimal.natText columns ++
        " columns"
  | .referenceMismatch child parent =>
      "foreign key mismatch - \"" ++ child ++ "\" referencing \"" ++ parent ++ "\""
  | .overflow => "integer overflow"
  | .mismatch => "datatype mismatch"
  | .full => "database or disk is full"
  | .violation broken => broken.message
  | .readOnly => "attempt to write a readonly database"
  | .cannotOpen => "unable to open database file"
  | .notADatabase => "file is not a database"
  | .excess text => text

/-- Whether a statement has begun to run when the error arises. -/
def isLate : Error -> Bool
  | .violation _ => true
  | .mismatch => true
  | .full => true
  | .overflow => true
  | _ => false

end Error

end Engine
end TableStore
