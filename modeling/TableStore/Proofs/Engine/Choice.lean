import TableStore.Engine.Session
import TableStore.Proofs.Engine.Agreement
import TableStore.Proofs.Engine.Arrangement
import TableStore.Proofs.Statement.Binding

/-!
# Statements about the same rows

A query, an update and a removal use their condition for nothing but to choose
rows.  Two changes that choose the same rows of the table, and differ in nothing
else, have the same result.  Two such queries have the same answers: their results
may differ, but only in the order in which rows are visited.
-/

namespace TableStore
namespace Engine

open Sql (Expr Query)

theorem Store.ok_bind {α β : Type} (result : α) (next : α -> Except Error β) :
    (Except.ok result >>= next) = next result := rfl

theorem Store.get_bind_congr {α : Type} {store : Store} {name : String}
    {first second : Table -> Except Error α}
    (h : forall table, store.get name = .ok table ->
      first table = second table) :
    (store.get name >>= first) = (store.get name >>= second) := by
  cases hget : store.get name with
  | error error => rfl
  | ok table => exact h table hget

section
variable [Conversions]

/-- Which records pass a condition, if its names can be looked up. -/
def chosenBy (scope : Scope) (condition? : Option Expr) :
    Except Error (Record -> Bool) :=
  Record.passes <$> resolveCondition scope condition?

theorem chosenBy_of_agree {first second : Scope} {tree other : Expr}
    (h : Agree (first.resolve tree) (second.resolve other)) :
    chosenBy first (some tree) = chosenBy second (some other) := by
  rw [chosenBy, chosenBy, resolveCondition, resolveCondition]
  generalize first.resolve tree = result at h
  generalize second.resolve other = otherResult at h
  cases h with
  | failed error => rfl
  | found hrow =>
      apply congrArg Except.ok
      funext record
      rw [Record.passes, Record.passes, Formula.passes, Formula.passes,
        hrow record]

namespace Store

def SameChoice (store : Store) (name : String) (first second : List Cell)
    (condition? other? : Option Expr) : Prop :=
  forall table, store.get name = .ok table ->
    chosenBy (table.scope first) condition? =
      chosenBy (table.scope second) other?

/-!
# Changes
-/

theorem delete_eq (store : Store) (name : String) (params : List Cell)
    (condition? : Option Expr) :
    store.delete name params condition? =
      (store.get name >>= fun table =>
        chosenBy (table.scope params) condition? >>= fun passes => do
          store.checkTargets table table.fields
          let (gone, kept) := table.records.partition passes
          let after <- store.keepReferences
            (store.put { table with records := kept })
          return (after, gone.length)) := by
  simp only [chosenBy, bind_map_left]
  rfl

theorem update_eq (store : Store) (name : String) (params : List Cell)
    (assignments : List (String × Expr)) (condition? : Option Expr) :
    store.update name params assignments condition? =
      (store.get name >>= fun table =>
        resolveAssignments (table.scope params) assignments >>=
          fun assignments =>
            chosenBy (table.scope params) condition? >>= fun passes => do
              store.checkTargets table (assignments.filterMap
                fun (position, _) => table.fields[position]?)
              let chosen := table.records.filter passes
              let table <- chosen.foldlM (Table.updateRecord assignments) table
              let after <- store.keepReferences (store.put table)
              return (after, chosen.length)) := by
  simp only [chosenBy, bind_map_left]
  rfl

section SameChoice

variable {store : Store} {name : String} {first second : List Cell}
  {condition? other? : Option Expr}

theorem delete_congr
    (h : store.SameChoice name first second condition? other?) :
    store.delete name first condition? =
      store.delete name second other? := by
  rw [delete_eq, delete_eq]
  apply get_bind_congr
  intro table hget
  rw [h table hget]

theorem update_congr {assignments others : List (String × Expr)}
    (hassignments : forall table : Table,
      resolveAssignments (table.scope first) assignments =
        resolveAssignments (table.scope second) others)
    (h : store.SameChoice name first second condition? other?) :
    store.update name first assignments condition? =
      store.update name second others other? := by
  rw [update_eq, update_eq]
  apply get_bind_congr
  intro table hget
  rw [hassignments table, h table hget]

end SameChoice

/-!
# Queries
-/

theorem selectBy_eq (visit : Table -> List Record -> List Record)
    (store : Store) (params : List Cell) (query : Query) :
    store.selectBy visit params query =
      (store.get query.table >>= fun table =>
        query.limit?.mapM (closedCell params) >>= fun limit? =>
          resolveProjection table (table.scope params) query.projection >>=
            fun plan =>
              chosenBy (table.scope params) query.condition? >>=
                fun passes => do
                  let orderings <- query.orderBy.mapM fun term => do
                    return (<- (table.scope params).resolve term.expr,
                      term.direction)
                  let limit? <- limit?.mapM limitOf
                  let chosen := table.records.filter passes
                  let rows <- plan.run orderings (visit table chosen)
                  return takeRows limit?.join rows) := by
  simp only [chosenBy, bind_map_left]
  rfl

theorem closedCell_limitExpr (first second : List Cell) (n : Nat) :
    closedCell first (Sql.limitExpr n) = closedCell second (Sql.limitExpr n) := by
  rw [Sql.limitExpr, Expr.ofDigits]
  split <;> rfl

theorem mapM_closedCell_limit (first second : List Cell)
    (limit? : Option Nat) :
    (limit?.map Sql.limitExpr).mapM (closedCell first) =
      (limit?.map Sql.limitExpr).mapM (closedCell second) := by
  cases limit? with
  | none => rfl
  | some n =>
      rw [Option.map_some, Option.mapM_some, Option.mapM_some,
        closedCell_limitExpr first second n]

theorem resolve_column_scope (table : Table) (first second : List Cell)
    (column : String) :
    (table.scope first).resolve (.column none column) =
      (table.scope second).resolve (.column none column) :=
  resolve_column_congr ⟨rfl, rfl⟩ column

theorem resolveProjection_columns (table : Table) (first second : List Cell)
    (columns? : Option (List String)) :
    resolveProjection table (table.scope first)
        (Statement.projectionOf columns?) =
      resolveProjection table (table.scope second)
        (Statement.projectionOf columns?) := by
  have houtput (column : String) :
      resolveOutput table (table.scope first)
          (.value (.column none column) column) =
        resolveOutput table (table.scope second)
          (.value (.column none column) column) := by
    rw [resolveOutput, resolveOutput, resolve_column_scope]
  rcases columns? with _ | _ | ⟨column, columns⟩
  · rfl
  · rfl
  · rw [Statement.projectionOf, resolveProjection, resolveProjection,
      List.mapM_map, List.mapM_map]
    simp only [Function.comp_def, houtput]

theorem mapM_orderings (table : Table) (first second : List Cell)
    (orders : List OrderBy) :
    (orders.map Sql.orderTerm).mapM (fun term => do
        return (<- (table.scope first).resolve term.expr, term.direction)) =
      (orders.map Sql.orderTerm).mapM (fun term => do
        return (<- (table.scope second).resolve term.expr, term.direction)) := by
  rw [List.mapM_map, List.mapM_map]
  simp only [Function.comp_def, Sql.orderTerm,
    resolve_column_scope table first second]

theorem selectBy_congr (visit : Table -> List Record -> List Record)
    {store : Store} {name : String}
    {first second : List Cell} {condition? other? : Option Expr}
    (h : store.SameChoice name first second condition? other?)
    (columns? : Option (List String)) (orders : List OrderBy)
    (limit? : Option Nat) :
    store.selectBy visit first (Sql.sourceQuery (Statement.projectionOf columns?)
        name condition? orders limit?) =
      store.selectBy visit second (Sql.sourceQuery
        (Statement.projectionOf columns?) name other? orders limit?) := by
  rw [selectBy_eq, selectBy_eq]
  apply get_bind_congr
  intro table hget
  simp only [Sql.sourceQuery, h table hget, mapM_closedCell_limit first second,
    resolveProjection_columns table first second,
    mapM_orderings table first second]

def Permutes (visit : Table -> List Record -> List Record) : Prop :=
  forall table records, (visit table records).Perm records

/-- A result that a query has in some order of its rows. -/
def Answers (store : Store) (params : List Cell) (query : Query)
    (result : Except Error (List ResultRow)) : Prop :=
  exists visit, Permutes visit ∧ result = store.selectBy visit params query

/-!
# Aggregates

The result of an aggregate is one cell.  It stands under the text of the
aggregate, on which nothing else depends.
-/

def summand? (scope : Scope) :
    Statement.Aggregate -> Except Error (Option Formula)
  | .sum column => some <$> scope.resolve (.column none column)
  | .count => .ok none

/-- The sum of a formula over records, or the number of them. -/
def totalOf (records : List Record) : Option Formula -> Except Error Cell
  | some formula => Engine.sum (records.map formula.eval)
  | none => .ok (.int (Int64.ofNat records.length))

def aggregateCell (visit : Table -> List Record -> List Record) (store : Store)
    (name : String) (params : List Cell) (computed : Statement.Aggregate)
    (condition? : Option Expr) : Except Error Cell := do
  let table <- store.get name
  let summand? <- summand? (table.scope params) computed
  let passes <- chosenBy (table.scope params) condition?
  totalOf (visit table (table.records.filter passes)) summand?

/-- A result that an aggregate has in some order of the rows. -/
def Totals (store : Store) (name : String) (params : List Cell)
    (computed : Statement.Aggregate) (condition? : Option Expr)
    (result : Except Error Cell) : Prop :=
  exists visit, Permutes visit ∧
    result = store.aggregateCell visit name params computed condition?

def aggregatePlan (text : String) : Option Formula -> Plan
  | some formula => .sum text formula
  | none => .count text

theorem resolveProjection_aggregate (table : Table) (scope : Scope)
    (text : String) (computed : Statement.Aggregate) :
    resolveProjection table scope (Sql.aggregateProjection text computed) =
      aggregatePlan text <$> summand? scope computed := by
  cases computed with
  | count => rfl
  | sum column =>
      rw [Sql.aggregateProjection, resolveProjection, summand?]
      cases scope.resolve (.column none column) <;> rfl

theorem run_aggregatePlan (text : String) (orderings : List SortKey)
    (records : List Record) (summand? : Option Formula) :
    (aggregatePlan text summand?).run orderings records =
      (fun cell => [[(text, cell)]]) <$> totalOf records summand? := by
  cases summand? with
  | none => rfl
  | some formula =>
      rw [aggregatePlan, Plan.run, totalOf]
      cases Engine.sum (records.map formula.eval) <;> rfl

theorem selectBy_aggregate (visit : Table -> List Record -> List Record)
    (store : Store) (name text : String) (params : List Cell)
    (computed : Statement.Aggregate) (condition? : Option Expr) :
    store.selectBy visit params
        (Sql.sourceQuery (Sql.aggregateProjection text computed) name
          condition? [] none) =
      (fun cell => [[(text, cell)]]) <$>
        store.aggregateCell visit name params computed condition? := by
  rw [selectBy_eq, aggregateCell, Sql.sourceQuery]
  simp only [resolveProjection_aggregate, bind_map_left, run_aggregatePlan,
    map_bind, Option.map_none, Option.mapM_none,
    List.map_nil, List.mapM_nil, pure_bind]
  rfl

theorem aggregateCell_congr (visit : Table -> List Record -> List Record)
    {store : Store} {name : String}
    {first second : List Cell} {condition? other? : Option Expr}
    (h : store.SameChoice name first second condition? other?)
    (computed : Statement.Aggregate) :
    store.aggregateCell visit name first computed condition? =
      store.aggregateCell visit name second computed other? := by
  have hsummand (table : Table) :
      summand? (table.scope first) computed =
        summand? (table.scope second) computed := by
    cases computed with
    | count => rfl
    | sum column =>
        rw [summand?, summand?, resolve_column_scope table first second]
  apply get_bind_congr
  intro table hget
  rw [hsummand table, h table hget]

theorem Totals.count_eq {store : Store} {name : String} {params : List Cell}
    {condition? : Option Expr} {result other : Except Error Cell}
    (h : store.Totals name params .count condition? result)
    (hother : store.Totals name params .count condition? other) :
    result = other := by
  rcases h with ⟨visit, hvisit, rfl⟩
  rcases hother with ⟨other, hother, rfl⟩
  have htotal (table : Table) (records : List Record) :
      totalOf (visit table records) none = totalOf (other table records) none := by
    rw [totalOf, totalOf, (hvisit table records).length_eq,
      (hother table records).length_eq]
  apply get_bind_congr
  intro table _
  exact congrArg (chosenBy (table.scope params) condition? >>= ·)
    (funext fun passes => htotal table _)

/--
An aggregate has the one error in every order of the rows, or all its results are about
the chosen records of a table.
-/
theorem Totals.cases (store : Store) (name : String) (params : List Cell)
    (computed : Statement.Aggregate) (condition? : Option Expr) :
    (exists error, forall result,
      store.Totals name params computed condition? result ->
        result = .error error) ∨
    exists table passes formula?, store.get name = .ok table ∧
      chosenBy (table.scope params) condition? = .ok passes ∧
      summand? (table.scope params) computed = .ok formula? ∧
      forall result, store.Totals name params computed condition? result ->
        exists visited, visited.Perm (table.records.filter passes) ∧
          result = totalOf visited formula? := by
  have hcell (visit : Table -> List Record -> List Record) :
      store.aggregateCell visit name params computed condition? =
        (store.get name >>= fun table =>
          summand? (table.scope params) computed >>= fun formula? =>
            chosenBy (table.scope params) condition? >>= fun passes =>
              totalOf (visit table (table.records.filter passes)) formula?) := rfl
  cases hget : store.get name with
  | error error =>
      refine .inl ⟨error, ?_⟩
      rintro result ⟨visit, _, rfl⟩
      rw [hcell, hget]
      rfl
  | ok table =>
      cases hsummand : summand? (table.scope params) computed with
      | error error =>
          refine .inl ⟨error, ?_⟩
          rintro result ⟨visit, _, rfl⟩
          rw [hcell, hget]
          simp only [ok_bind, hsummand]
          rfl
      | ok formula? =>
          cases hchosen : chosenBy (table.scope params) condition? with
          | error error =>
              refine .inl ⟨error, ?_⟩
              rintro result ⟨visit, _, rfl⟩
              rw [hcell, hget]
              simp only [ok_bind, hsummand, hchosen]
              rfl
          | ok passes =>
              refine .inr ⟨table, passes, formula?, rfl, hchosen, hsummand, ?_⟩
              rintro result ⟨visit, hvisit, rfl⟩
              refine ⟨_, hvisit table (table.records.filter passes), ?_⟩
              rw [hcell, hget]
              simp only [ok_bind, hsummand, hchosen]

end Store

end

/-!
# What the engine answers
-/

namespace Store

theorem answers_select [Dialect] (store : Store) (params : List Cell)
    (query : Query) :
    store.Answers params query (store.select params query) :=
  ⟨_, fun table => Dialect.visit_perm table params query, rfl⟩

theorem select_aggregate [Dialect] (store : Store) (name text : String)
    (params : List Cell) (computed : Statement.Aggregate)
    (condition? : Option Expr) :
    exists total, store.Totals name params computed condition? total ∧
      store.select params
          (Sql.sourceQuery (Sql.aggregateProjection text computed) name
            condition? [] none) =
        (fun cell => [[(text, cell)]]) <$> total :=
  ⟨_, ⟨_, fun table => Dialect.visit_perm table params _, rfl⟩,
    selectBy_aggregate _ store name text params computed condition?⟩

end Store

end Engine
end TableStore
