import TableStore.Proofs.Engine.Arrangement
import TableStore.Proofs.Engine.Choice

/-!
# What queries for rows return

A query for rows fails in whatever order the rows are visited, or it returns the first
rows of an arrangement of the chosen ones.  The order of the visit decides between the
arrangements and nothing else.
-/

namespace TableStore

namespace Statement

def outputsOf : Option (List String) -> List Sql.Output
  | none => [.all]
  | some [] => [.all]
  | some (column :: columns) =>
      (column :: columns).map fun name => .value (.column none name) name

theorem projectionOf_eq (columns? : Option (List String)) :
    projectionOf columns? = .rows (outputsOf columns?) := by
  rcases columns? with _ | _ | ⟨column, columns⟩ <;> rfl

end Statement

namespace Engine

open Sql (Query)

theorem length_takeRows {α : Type} {rows others : List α}
    (h : rows.length = others.length) (limit? : Option Nat) :
    (takeRows limit? rows).length = (takeRows limit? others).length := by
  cases limit? with
  | none => exact h
  | some limit => rw [takeRows, takeRows, List.length_take, List.length_take, h]

theorem takeRows_map {α β : Type} (f : α -> β) (limit? : Option Nat) (rows : List α) :
    takeRows limit? (rows.map f) = (takeRows limit? rows).map f := by
  cases limit? with
  | none => rfl
  | some limit => exact List.map_take.symm

variable [Conversions]

def outputRow (outputs : List (String × Formula)) (record : Record) : ResultRow :=
  outputs.map fun (name, formula) => (name, formula.eval record)

/-- What a query for rows asks for, when all its names have been looked up. -/
structure Selection where
  table : Table
  passes : Record -> Bool
  outputs : List (String × Formula)
  orderings : List SortKey
  limit? : Option Nat

namespace Selection

def chosen (selection : Selection) : List Record :=
  selection.table.records.filter selection.passes

def rows (selection : Selection) (records : List Record) : List ResultRow :=
  takeRows selection.limit? (records.map (outputRow selection.outputs))

/-- A list of rows that the selection may return. -/
def Returns (selection : Selection) (rows : List ResultRow) : Prop :=
  exists arranged,
    Arranges selection.orderings selection.chosen arranged ∧
      rows = selection.rows arranged

theorem Returns.length_eq {selection : Selection} {rows others : List ResultRow}
    (h : selection.Returns rows) (hothers : selection.Returns others) :
    rows.length = others.length := by
  rcases h with ⟨first, hfirst, rfl⟩
  rcases hothers with ⟨second, hsecond, rfl⟩
  apply length_takeRows
  rw [List.length_map, List.length_map,
    (hfirst.perm.trans hsecond.perm.symm).length_eq]

theorem Returns.perm {selection : Selection} {rows : List ResultRow}
    (h : selection.Returns rows) (hlimit : selection.limit? = none) :
    rows.Perm (selection.chosen.map (outputRow selection.outputs)) := by
  rcases h with ⟨arranged, harranged, rfl⟩
  rw [Selection.rows, hlimit]
  exact harranged.perm.map _

end Selection

namespace Store

/-- The selection of a query for the rows of some outputs, if all its names are known. -/
def selection (store : Store) (params : List Cell) (query : Query)
    (outputs : List Sql.Output) : Except Error Selection := do
  let table <- store.get query.table
  let limit? <- query.limit?.mapM (closedCell params)
  let outputs <- outputs.mapM (resolveOutput table (table.scope params))
  let passes <- chosenBy (table.scope params) query.condition?
  let orderings <- query.orderBy.mapM fun term => do
    return (<- (table.scope params).resolve term.expr, term.direction)
  let limit? <- limit?.mapM limitOf
  return ⟨table, passes, outputs.flatten, orderings, limit?.join⟩

theorem selectBy_rows (visit : Table -> List Record -> List Record) (store : Store)
    (params : List Cell) {query : Query} {outputs : List Sql.Output}
    (hprojection : query.projection = .rows outputs) :
    store.selectBy visit params query =
      (fun selection => selection.rows
        (sortRecords selection.orderings (visit selection.table selection.chosen))) <$>
        store.selection params query outputs := by
  rw [selectBy_eq, selection, hprojection]
  simp only [resolveProjection, map_bind, bind_assoc, pure_bind]
  rfl

theorem Answers.cases {store : Store} {params : List Cell} {query : Query}
    {outputs : List Sql.Output} (hprojection : query.projection = .rows outputs)
    {result : Except Error (List ResultRow)}
    (h : store.Answers params query result) :
    (exists error, store.selection params query outputs = .error error ∧
      result = .error error) ∨
    exists selection rows,
      store.selection params query outputs = .ok selection ∧
      selection.Returns rows ∧ result = .ok rows := by
  rcases h with ⟨visit, hvisit, rfl⟩
  rw [selectBy_rows visit store params hprojection]
  cases store.selection params query outputs with
  | error error => exact .inl ⟨error, rfl, rfl⟩
  | ok selection =>
      exact .inr ⟨selection, _, rfl,
        ⟨_, arranges_sortRecords _ (hvisit _ _), rfl⟩, rfl⟩

end Store
end Engine
end TableStore
