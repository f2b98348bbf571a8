import TableStore.Text.Join
import TableStore.Value.Literal

/-!
# Columns

The declarations of a table: each column with its type, its constraints and the
value it takes when a row leaves it out.
-/

namespace TableStore

inductive ColumnType
  | text
  | integer
  | real
  /-- Truth values, stored as one and zero. -/
  | boolean
deriving DecidableEq

namespace ColumnType

def all : List ColumnType :=
  [.text, .integer, .real, .boolean]

def name : ColumnType -> String
  | .text => "TEXT"
  | .integer => "INTEGER"
  | .real => "REAL"
  | .boolean => "BOOLEAN"

def ofName? (name : String) : Option ColumnType :=
  all.find? fun type => type.name = name

end ColumnType

inductive Constraint
  | notNull
  | unique
  | primaryKey
deriving DecidableEq

namespace Constraint

def words : Constraint -> String
  | .notNull => "NOT NULL"
  | .unique => "UNIQUE"
  | .primaryKey => "PRIMARY KEY"

def name : Constraint -> String
  | .notNull => "NOT_NULL"
  | .unique => "UNIQUE"
  | .primaryKey => "PRIMARY_KEY"

def ofName? (name : String) : Option Constraint :=
  [Constraint.notNull, .unique, .primaryKey].find? fun constraint =>
    constraint.name = name || constraint.words = name

end Constraint

structure Column where
  name : String
  type : ColumnType
  constraints : List Constraint
  default? : Option Value
deriving DecidableEq

namespace Column

def definition (column : Column) : String :=
  column.name ++ " " ++ column.type.name ++
    String.join (column.constraints.map fun constraint => " " ++ constraint.words) ++
    match column.default? with
    | some value => " DEFAULT " ++ value.literal
    | none => ""

end Column

structure Columns where
  toList : List Column
deriving DecidableEq

namespace Columns

def empty : Columns :=
  ⟨[]⟩

/-- Adds a column, or replaces the first one of the same name in its place. -/
def insertInto (column : Column) : List Column -> List Column
  | [] => [column]
  | first :: rest =>
      if first.name = column.name then column :: rest
      else first :: insertInto column rest

def insert (columns : Columns) (column : Column) : Columns :=
  ⟨insertInto column columns.toList⟩

def ofList (columns : List Column) : Columns :=
  columns.foldl insert empty

def get? (columns : Columns) (name : String) : Option Column :=
  columns.toList.find? fun column => column.name = name

def names (columns : Columns) : List String :=
  columns.toList.map (·.name)

def size (columns : Columns) : Nat :=
  columns.toList.length

def isEmpty (columns : Columns) : Bool :=
  columns.toList.isEmpty

def definitions (columns : Columns) : String :=
  Text.join ", " (columns.toList.map Column.definition)

end Columns
end TableStore
