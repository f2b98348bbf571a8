import TableStore.Engine.Reference
import TableStore.Sql.Command

/-!
# Definition of tables

Creating, extending and dropping tables.
-/

namespace TableStore
namespace Engine

variable [Conversions]

def closedCell (params : List Cell) (expr : Sql.Expr) : Except Error Cell := do
  let formula <- (Scope.closed params).resolve expr
  return formula.eval ⟨0, []⟩

namespace Field

def applyRule (field : Field) : Sql.ColumnRule -> Except Error Field
  | .notNull => .ok { field with notNull := true }
  | .default expr => do
      return { field with default := <- closedCell [] expr }
  | .references table column? =>
      .ok { field with reference? := some ⟨table, column?⟩ }
  | _ => .ok field

def ofSpec (spec : Sql.ColumnSpec) : Except Error Field :=
  spec.rules.foldlM applyRule
    ⟨spec.name, Affinity.ofType spec.type, false, .null, none⟩

end Field

namespace Table

/-- Adds a column with distinct values; a column is listed once. -/
def addUnique (rule : UniqueRule) : List UniqueRule -> List UniqueRule
  | [] => [rule]
  | first :: rest =>
      if first.position = rule.position then
        ⟨first.position, first.primary || rule.primary⟩ :: rest
      else first :: addUnique rule rest

/-- A table under construction. -/
structure Draft where
  table : Table
  hasPrimaryKey : Bool
  checks : List (Sql.Expr × String)

def applyRule (position : Nat) (type : String) (draft : Draft) :
    Sql.ColumnRule -> Except Error Draft
  | .unique =>
      .ok { draft with
        table.uniques := addUnique ⟨position, false⟩ draft.table.uniques }
  | .primaryKey neverReused =>
      if draft.hasPrimaryKey then
        .error (.secondPrimaryKey draft.table.name)
      else if Text.foldCase type = "integer" then
        .ok { draft with
          hasPrimaryKey := true
          table.keyField? := some position
          table.neverReused := neverReused }
      else if neverReused then .error .misplacedAutoincrement
      else
        .ok { draft with
          hasPrimaryKey := true
          table.uniques := addUnique ⟨position, true⟩ draft.table.uniques }
  | .check condition text =>
      .ok { draft with checks := draft.checks ++ [(condition, text)] }
  | _ => .ok draft

def addField (draft : Draft) (spec : Sql.ColumnSpec) : Except Error Draft := do
  if (draft.table.position? spec.name).isSome then
    throw (.duplicateColumn spec.name)
  let field <- Field.ofSpec spec
  let position := draft.table.fields.length
  let draft := { draft with table.fields := draft.table.fields ++ [field] }
  spec.rules.foldlM (applyRule position spec.type) draft

def ofDraft (draft : Draft) : Except Error Table := do
  let scope := draft.table.scope []
  let checks <- draft.checks.mapM fun (condition, text) => do
    return (<- scope.resolve condition, text)
  return { draft.table with checks := draft.table.checks ++ checks }

def ofSpecs (name : String) (specs : List Sql.ColumnSpec) :
    Except Error Table := do
  let start : Draft := ⟨⟨name, [], none, false, [], [], 0, []⟩, false, []⟩
  ofDraft (<- specs.foldlM addField start)

end Table

namespace Store

def createTable (store : Store) (name : String) (ifAbsent : Bool)
    (specs : List Sql.ColumnSpec) : Except Error Store :=
  match store.find? name with
  | some _ => if ifAbsent then .ok store else .error (.tableExists name)
  | none => do
      let table <- Table.ofSpecs name specs
      return store.add table

def dropTable (store : Store) (name : String) (ifPresent : Bool) :
    Except Error Store :=
  match store.find? name with
  | none => if ifPresent then .ok store else .error (.noSuchTable name)
  | some _ => store.keepReferences (store.remove name)

def unfit? (spec : Sql.ColumnSpec) (field : Field) (hasRecords : Bool) :
    Option UnfitColumn :=
  let has (test : Sql.ColumnRule -> Bool) : Bool := spec.rules.any test
  if has fun | .primaryKey _ => true | _ => false then some .primaryKey
  else if has fun | .unique => true | _ => false then some .unique
  else if !hasRecords then none
  else if field.reference?.isSome && !field.default.isNull then some .references
  else if field.notNull && field.default.isNull then some .notNull
  else none

/-- Adds a column to a table; the records that are there get its default. -/
def addColumn (store : Store) (name : String) (spec : Sql.ColumnSpec) :
    Except Error Store := do
  let table <- store.get name
  if (table.position? spec.name).isSome then
    throw (.duplicateColumn spec.name)
  let field <- Field.ofSpec spec
  match unfit? spec field !table.records.isEmpty with
  | some reason => throw (.unfitColumn reason)
  | none => pure ()
  let cell := field.default.stored field.affinity
  let records := table.records.map fun record =>
    { record with cells := record.cells ++ [cell] }
  let draft <- Table.addField ⟨table, true, []⟩ spec
  let table <- Table.ofDraft draft
  if records.any fun record =>
      table.checks.any fun (check, _) => check.fails record then
    throw (.unfitColumn .check)
  return store.put { table with records := records }

end Store

end Engine
end TableStore
