import TableStore.Engine.Dialect
import TableStore.Engine.Machine
import TableStore.Engine.Sum

/-!
# Queries

The rows that a query returns: those that pass its condition, in the order of
its orderings, the first few of them if it has a limit.  Rows that no ordering
tells apart come in the order in which the engine visits them.
-/

namespace TableStore
namespace Engine

section

variable [Conversions]

def resolveOutput (table : Table) (scope : Scope) :
    Sql.Output -> Except Error (List (String × Formula))
  | .all =>
      .ok (table.fields.zipIdx.map fun (field, position) =>
        (field.name, .column position field.affinity))
  | .value expr text => do
      let formula <- scope.resolve expr
      let name :=
        match formula with
        | .column position _ => table.fieldName position
        | .number => (table.keyField?.map table.fieldName).getD "rowid"
        | _ => text
      return [(name, formula)]

abbrev SortKey := Formula × Direction

def compareRows : List SortKey -> Record -> Record -> Ordering
  | [], _, _ => .eq
  | (formula, direction) :: rest, a, b =>
      let order := Cell.compare (formula.eval a) (formula.eval b)
      let order :=
        match direction with
        | .ascending => order
        | .descending => order.swap
      match order with
      | .eq => compareRows rest a b
      | _ => order

def sortRecords (orderings : List SortKey) (records : List Record) :
    List Record :=
  records.mergeSort fun a b =>
    compareRows orderings a b != .gt

/-- The number of rows that a limit allows; a negative one allows all. -/
def limitOf (cell : Cell) : Except Error (Option Nat) :=
  match cell.numeric with
  | .int n => .ok (if n < 0 then none else some n.toInt.toNat)
  | _ => .error .mismatch

def takeRows {α : Type} (limit? : Option Nat) (rows : List α) : List α :=
  match limit? with
  | none => rows
  | some limit => rows.take limit

inductive Plan
  | rows (outputs : List (String × Formula))
  | count (name : String)
  | sum (name : String) (formula : Formula)

def resolveProjection (table : Table) (scope : Scope) :
    Sql.Projection -> Except Error Plan
  | .rows outputs => do
      let outputs <- outputs.mapM (resolveOutput table scope)
      return .rows outputs.flatten
  | .count text => .ok (.count text)
  | .sum expr text => do
      return .sum text (<- scope.resolve expr)

/-- The rows of a query from its records, in the order of their visit. -/
def Plan.run (orderings : List SortKey) (records : List Record) :
    Plan -> Except Error (List ResultRow)
  | .rows outputs =>
      .ok ((sortRecords orderings records).map fun record =>
        outputs.map fun (name, formula) => (name, formula.eval record))
  | .count name => .ok [[(name, .int (Int64.ofNat records.length))]]
  | .sum name formula => do
      let total <- Engine.sum (records.map formula.eval)
      return [[(name, total)]]

def Store.selectBy (visit : Table -> List Record -> List Record) (store : Store)
    (params : List Cell) (query : Sql.Query) :
    Except Error (List ResultRow) := do
  let table <- store.get query.table
  let scope := table.scope params
  let limit? <- query.limit?.mapM (closedCell params)
  let plan <- resolveProjection table scope query.projection
  let condition? <- resolveCondition scope query.condition?
  let orderings <- query.orderBy.mapM fun term => do
    return (<- scope.resolve term.expr, term.direction)
  let limit? <- limit?.mapM limitOf
  let chosen := table.records.filter (Record.passes condition?)
  let rows <- plan.run orderings (visit table chosen)
  return takeRows limit?.join rows

end

def Store.select [Dialect] (store : Store) (params : List Cell)
    (query : Sql.Query) : Except Error (List ResultRow) :=
  store.selectBy (fun table => Dialect.visit table params query) params query

end Engine
end TableStore
