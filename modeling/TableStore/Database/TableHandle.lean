import TableStore.Database.Host
import TableStore.Statement.Build

/-!
# Work on tables

A handle to a table knows its name and its columns.  Every operation through it
is a transaction of its own.  A malformed predicate is refused before the
database is asked anything.
-/

namespace TableStore
namespace Database

variable [Engine.Machine]

structure TableHandle where
  database : Handle
  name : String
  columns : Columns
  mode : Rendering

def restoreBoolean : Value -> Value
  | .int n => .bool (n != 0)
  | value => value

/-- A row in which columns of truth values hold truth values. -/
def restoreBooleans (columns : Columns) (row : Row) : Row :=
  columns.toList.foldl
    (fun row column =>
      if column.type = .boolean then row.modify column.name restoreBoolean
      else row)
    row

namespace TableHandle

def wellFormed (result : Except ShapeError Fragment) : Action Fragment :=
  match result with
  | .ok fragment => pure fragment
  | .error error => throw (.predicate error)

def execute (table : TableHandle) (fragment : Fragment) : Action Nat :=
  table.database.atomically do
    try
      table.database.execute fragment.params fragment.text
    catch failure =>
      report .warn "Operation failed, rolling back"
        [("table", table.name), ("error", failure.message)]
      throw failure

def create (table : TableHandle) : Action Unit := do
  let _ <- table.execute (.ofText (Statement.createTable table.name table.columns))
  report .info "Created table" [("table", table.name)]

def drop (table : TableHandle) : Action Unit := do
  let _ <- table.execute (.ofText (Statement.dropTable table.name))
  report .info "Dropped table" [("table", table.name)]

def select (table : TableHandle) (options : Options) : Action (List Row) := do
  let fragment <- wellFormed (Statement.select table.mode table.name options)
  let rows <- table.database.atomically
    (table.database.fetch fragment.params fragment.text)
  return rows.map (restoreBooleans table.columns)

def insert (table : TableHandle) (row : Row) : Action Unit := do
  let _ <- table.execute (Statement.insert table.name row)

def update (table : TableHandle) (changes : Row) (options : Options) :
    Action Nat := do
  let fragment <-
    wellFormed (Statement.update table.mode table.name changes options)
  table.execute fragment

def delete (table : TableHandle) (options : Options) : Action Nat := do
  let fragment <-
    wellFormed (Statement.delete table.mode table.name options.filter?)
  table.execute fragment

def aggregate (table : TableHandle) (aggregate : Statement.Aggregate)
    (filter? : Option Predicate) : Action (Option Value) := do
  let fragment <- wellFormed
    (Statement.aggregate table.mode table.name aggregate filter?)
  table.database.atomically
    (table.database.fetchValue? fragment.params fragment.text)

/-- The sum of a column; the sum of no values is zero. -/
def sum (table : TableHandle) (column : String) (filter? : Option Predicate) :
    Action Value := do
  match <- table.aggregate (.sum column) filter? with
  | none => return .int 0
  | some .null => return .int 0
  | some value => return value

def count (table : TableHandle) (filter? : Option Predicate) : Action Int64 := do
  return ((<- table.aggregate .count filter?).bind Value.asInt?).getD 0

end TableHandle
end Database
end TableStore
