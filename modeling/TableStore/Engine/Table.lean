import TableStore.Engine.Formula

/-!
# Tables

A table has columns with their rules, and records in the order of their
numbers.  A store is a list of tables together with the version of the schema.
-/

namespace TableStore
namespace Engine

structure Reference where
  table : String
  /-- Its column; the one that names its rows when absent. -/
  column? : Option String

structure Field where
  name : String
  affinity : Affinity
  notNull : Bool
  default : Cell
  reference? : Option Reference

structure UniqueRule where
  position : Nat
  primary : Bool
deriving DecidableEq

structure Table where
  name : String
  fields : List Field
  /-- The position of the column that holds the numbers of the records. -/
  keyField? : Option Nat
  neverReused : Bool
  uniques : List UniqueRule
  checks : List (Formula × String)
  /-- The greatest number that a record was added with, and at least zero. -/
  highest : Int64
  records : List Record

structure Store where
  tables : List Table
  version : Int

namespace Table

def scope (table : Table) (params : List Cell) : Scope :=
  ⟨table.name, table.fields.map fun field => ⟨field.name, field.affinity⟩, true,
    params⟩

def position? (table : Table) (name : String) : Option Nat :=
  table.fields.findIdx? fun field => Text.sameName field.name name

def fieldName (table : Table) (position : Nat) : String :=
  (table.fields[position]?.map (·.name)).getD ""

/-- Puts a record in its place among records of ascending numbers. -/
def placeRecord (record : Record) : List Record -> List Record
  | [] => [record]
  | first :: rest =>
      if record.id < first.id then record :: first :: rest
      else first :: placeRecord record rest

def addRecord (table : Table) (record : Record) : Table :=
  { table with records := placeRecord record table.records }

def dropRecord (table : Table) (id : Int64) : Table :=
  { table with records := table.records.filter fun record => record.id != id }

def lastId? (table : Table) : Option Int64 :=
  table.records.getLast?.map (·.id)

def nextId (table : Table) : Except Error Int64 :=
  let last : Int := (table.lastId?.map (·.toInt)).getD 0
  let last := if table.neverReused then max last table.highest.toInt else last
  match Decimal.int64? (last + 1) with
  | some id => .ok id
  | none => .error .full

def column (table : Table) (position : Nat) : List Cell :=
  table.records.map fun record => record.cells[position]?.getD .null

end Table

namespace Store

def empty : Store :=
  ⟨[], 0⟩

def withVersion (version : Int) (store : Store) : Store :=
  { store with version := version }

def find? (store : Store) (name : String) : Option Table :=
  store.tables.find? fun table => Text.sameName table.name name

def get (store : Store) (name : String) : Except Error Table :=
  match store.find? name with
  | some table => .ok table
  | none => .error (.noSuchTable name)

def put (store : Store) (table : Table) : Store :=
  { store with
    tables := store.tables.map fun old =>
      if Text.sameName old.name table.name then table else old }

def add (store : Store) (table : Table) : Store :=
  { store with tables := store.tables ++ [table] }

def remove (store : Store) (name : String) : Store :=
  { store with
    tables := store.tables.filter fun table => !Text.sameName table.name name }

end Store

end Engine
end TableStore
