import TableStore.Column.Basic
import TableStore.Row
import TableStore.Statement.Options

/-!
# Statements

The statements that work on one table.  Values of rows are always placeholders;
the operands of a filter are written as the rendering says.
-/

namespace TableStore
namespace Statement

/-- The condition of a filter; a filter without entries has none. -/
def whereClause (mode : Rendering) :
    Option Predicate -> Except ShapeError Fragment
  | none => .ok (.ofText "")
  | some [] => .ok (.ofText "")
  | some (entry :: rest) =>
      (Predicate.compile mode (entry :: rest)).map fun clause =>
        clause.wrap " WHERE " ""

def orderClause : List OrderBy -> String
  | [] => ""
  | orders => " ORDER BY " ++ Text.join ", " (orders.map OrderBy.text)

def limitClause : Option UInt64 -> String
  | none => ""
  | some limit => " LIMIT " ++ Decimal.natText limit.toNat

def assemble (mode : Rendering) (base : Fragment) (options : Options) :
    Except ShapeError Fragment := do
  let condition <- whereClause mode options.filter?
  let tail := orderClause options.orderBy ++ limitClause options.limit?
  return base ++ condition ++ .ofText tail

def projection : Option (List String) -> String
  | none => "*"
  | some [] => "*"
  | some columns => Text.join ", " columns

def select (mode : Rendering) (table : String) (options : Options) :
    Except ShapeError Fragment :=
  assemble mode
    (.ofText ("SELECT " ++ projection options.columns? ++ " FROM " ++ table))
    options

def update (mode : Rendering) (table : String) (changes : Row)
    (options : Options) : Except ShapeError Fragment :=
  let assignments := changes.columns.map fun column => column ++ " = ?"
  assemble mode
    ⟨"UPDATE " ++ table ++ " SET " ++ Text.join ", " assignments, changes.values⟩
    options

def delete (mode : Rendering) (table : String) (filter? : Option Predicate) :
    Except ShapeError Fragment := do
  let condition <- whereClause mode filter?
  return .ofText ("DELETE FROM " ++ table) ++ condition

/-- Adds a row; a row without columns has only default values. -/
def insert (table : String) (row : Row) : Fragment :=
  if row.isEmpty then .ofText ("INSERT INTO " ++ table ++ " DEFAULT VALUES")
  else
    ⟨"INSERT INTO " ++ table ++ " (" ++ Text.join ", " row.columns ++
        ") VALUES (" ++ Text.join ", " (row.columns.map fun _ => "?") ++ ")",
      row.values⟩

inductive Aggregate
  | sum (column : String)
  | count
deriving DecidableEq

def Aggregate.text : Aggregate -> String
  | .sum column => "SUM(" ++ column ++ ")"
  | .count => "COUNT(*)"

def aggregate (mode : Rendering) (table : String) (aggregate : Aggregate)
    (filter? : Option Predicate) : Except ShapeError Fragment := do
  let condition <- whereClause mode filter?
  return .ofText ("SELECT " ++ aggregate.text ++ " FROM " ++ table) ++ condition

def createTable (table : String) (columns : Columns) : String :=
  "CREATE TABLE IF NOT EXISTS " ++ table ++ " (" ++ columns.definitions ++ ")"

def dropTable (table : String) : String :=
  "DROP TABLE IF EXISTS " ++ table

end Statement
end TableStore
