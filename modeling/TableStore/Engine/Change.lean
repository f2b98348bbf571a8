import TableStore.Engine.Define

/-!
# Changes of rows

Adding, changing and removing rows.  A statement that breaks a rule gives no
store at all, so none of its changes stays.
-/

namespace TableStore
namespace Engine

variable [Conversions]

def broken {α : Type} (violation : Violation) : Except Error α :=
  .error (.violation violation)

namespace Table

/-!
# Rules for one record
-/

def checkNotNull (table : Table) (concerned : Nat -> Bool) (record : Record) :
    Except Error Unit :=
  table.fields.zipIdx.forM fun (field, position) =>
    if field.notNull && concerned position && table.keyField? != some position &&
        (record.cells[position]?.getD .null).isNull then
      broken (.notNull table.name field.name)
    else .ok ()

def checkConditions (table : Table) (record : Record) : Except Error Unit :=
  table.checks.forM fun (condition, text) =>
    if condition.fails record then broken (.check text) else .ok ()

def checkId (table : Table) (record : Record) : Except Error Unit :=
  match table.keyField? with
  | some position =>
      if table.records.any fun other => other.id = record.id then
        broken (.unique table.name (table.fieldName position) true)
      else .ok ()
  | none => .ok ()

def checkUnique (table : Table) (concerned : Nat -> Bool) (record : Record) :
    Except Error Unit :=
  table.uniques.reverse.forM fun rule =>
    let cell := record.cells[rule.position]?.getD .null
    if concerned rule.position && !cell.isNull &&
        (table.column rule.position).any (Cell.same cell) then
      broken (.unique table.name (table.fieldName rule.position) rule.primary)
    else .ok ()

/-- Adds a record that passes all rules. -/
def accept (table : Table) (concerned : Nat -> Bool) (record : Record) :
    Except Error Table := do
  table.checkNotNull concerned record
  table.checkConditions record
  table.checkId record
  table.checkUnique concerned record
  return table.addRecord record

/-!
# New rows
-/

def idOfCell (cell : Cell) : Except Error Int64 :=
  match cell.numeric with
  | .int n => .ok n
  | _ => .error .mismatch

def newId (table : Table) (cells : List Cell) : Except Error Int64 :=
  match table.keyField? with
  | none => table.nextId
  | some position =>
      match cells[position]?.getD .null with
      | .null => table.nextId
      | cell => idOfCell cell

def withId (table : Table) (id : Int64) (cells : List Cell) : List Cell :=
  match table.keyField? with
  | some position => cells.set position (.int id)
  | none => cells

def insertCells (table : Table) (cells : List Cell) : Except Error Table := do
  let cells := (table.fields.zip cells).map fun (field, cell) =>
    cell.stored field.affinity
  let id <- table.newId cells
  let table <- table.accept (fun _ => true) ⟨id, table.withId id cells⟩
  return { table with
    highest := if table.highest < id then id else table.highest }

end Table

def insertPositions (table : Table) (name : String) :
    Option (List String) -> Except Error (List Nat)
  | none => .ok (List.range table.fields.length)
  | some columns => columns.mapM fun column =>
      match table.position? column with
      | some position => .ok position
      | none => .error (.unknownTarget name column)

/-- The cells of a new row; the first value for a column counts. -/
def arrangeCells (table : Table) (positions : List Nat) (cells : List Cell) :
    List Cell :=
  table.fields.zipIdx.map fun (field, position) =>
    match (positions.zip cells).find? fun (target, _) => target = position with
    | some (_, cell) => cell
    | none => field.default

def checkRowSize (table : Table) (name : String) (columns? : Option (List String))
    (values : Nat) : Except Error Unit :=
  match columns? with
  | none =>
      if values = table.fields.length then .ok ()
      else .error (.wrongRowSize name table.fields.length values)
  | some columns =>
      if values = columns.length then .ok ()
      else .error (.wrongValueCount values columns.length)

def newRows (table : Table) (name : String) (params : List Cell) :
    Sql.NewRows -> Except Error (List (List Cell))
  | .defaults => .ok [table.fields.map (·.default)]
  | .values columns? rows => do
      let positions <- insertPositions table name columns?
      let rows <- rows.mapM fun row => row.mapM (closedCell params)
      rows.forM fun row => checkRowSize table name columns? row.length
      return rows.map (arrangeCells table positions)

namespace Store

def insert (store : Store) (name : String) (params : List Cell)
    (rows : Sql.NewRows) : Except Error (Store × Nat) := do
  let table <- store.get name
  let rows <- newRows table name params rows
  store.checkTargets table table.fields
  let table <- rows.foldlM Table.insertCells table
  let after <- store.keepReferences (store.put table)
  return (after, rows.length)

end Store

/-!
# Conditions on rows
-/

def resolveCondition (scope : Scope) :
    Option Sql.Expr -> Except Error (Option Formula)
  | none => .ok none
  | some expr => do return some (<- scope.resolve expr)

def Record.passes (condition? : Option Formula) (record : Record) : Bool :=
  match condition? with
  | none => true
  | some condition => condition.passes record

/-!
# Changed rows
-/

def resolveAssignments (scope : Scope) (assignments : List (String × Sql.Expr)) :
    Except Error (List (Nat × Formula)) :=
  assignments.mapM fun (column, expr) => do
    let formula <- scope.resolve expr
    match scope.position? column with
    | some position => return (position, formula)
    | none => throw (.noSuchColumn column)

namespace Table

/-- The cells of a record after assignments, the last one for a column counting. -/
def assign (table : Table) (assignments : List (Nat × Formula))
    (record : Record) : List Cell :=
  assignments.foldl
    (fun cells (position, formula) =>
      let affinity := (table.fields[position]?.map (·.affinity)).getD .blob
      cells.set position ((formula.eval record).stored affinity))
    record.cells

def changedId (table : Table) (cells : List Cell) (record : Record) :
    Except Error Int64 :=
  match table.keyField? with
  | some position => idOfCell (cells[position]?.getD .null)
  | none => .ok record.id

def updateRecord (assignments : List (Nat × Formula)) (table : Table)
    (record : Record) : Except Error Table := do
  let cells := table.assign assignments record
  let id <- table.changedId cells record
  let concerned (position : Nat) : Bool :=
    assignments.any fun (target, _) => target = position
  (table.dropRecord record.id).accept concerned ⟨id, table.withId id cells⟩

end Table

namespace Store

def update (store : Store) (name : String) (params : List Cell)
    (assignments : List (String × Sql.Expr)) (condition? : Option Sql.Expr) :
    Except Error (Store × Nat) := do
  let table <- store.get name
  let scope := table.scope params
  let assignments <- resolveAssignments scope assignments
  let condition? <- resolveCondition scope condition?
  store.checkTargets table
    (assignments.filterMap fun (position, _) => table.fields[position]?)
  let chosen := table.records.filter (Record.passes condition?)
  let table <- chosen.foldlM (Table.updateRecord assignments) table
  let after <- store.keepReferences (store.put table)
  return (after, chosen.length)

def delete (store : Store) (name : String) (params : List Cell)
    (condition? : Option Sql.Expr) : Except Error (Store × Nat) := do
  let table <- store.get name
  let condition? <- resolveCondition (table.scope params) condition?
  store.checkTargets table table.fields
  let (gone, kept) := table.records.partition (Record.passes condition?)
  let after <- store.keepReferences (store.put { table with records := kept })
  return (after, gone.length)

end Store

end Engine
end TableStore
