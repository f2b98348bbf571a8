import TableStore.Decimal.Extended
import TableStore.Engine.Session

/-!
# SQLite

The dialect of SQLite: decimals are read by way of extended precision, and
statements may not be too large.  Rows are visited in the order of their numbers,
which is the order without an index.
-/

namespace TableStore
namespace Sql

/-- How deep an expression is nested. -/
def Expr.depth : Expr -> Nat
  | .column none _ => 1
  | .column (some _) _ => 2
  | .literal (.int n) => if n < 0 then 2 else 1
  | .literal _ => 1
  | .decimal minus _ => if minus then 2 else 1
  | .placeholder _ => 1
  | .negative inner => inner.depth + 1
  | .not inner => inner.depth + 1
  | .and left right => max left.depth right.depth + 1
  | .or left right => max left.depth right.depth + 1
  | .compare _ left right => max left.depth right.depth + 1

def Expr.neededValues : Expr -> Nat
  | .placeholder index => index + 1
  | .negative inner => inner.neededValues
  | .not inner => inner.neededValues
  | .and left right => max left.neededValues right.neededValues
  | .or left right => max left.neededValues right.neededValues
  | .compare _ left right => max left.neededValues right.neededValues
  | _ => 0

def ColumnRule.exprs : ColumnRule -> List Expr
  | .default value => [value]
  | .check condition _ => [condition]
  | _ => []

def ColumnSpec.exprs (spec : ColumnSpec) : List Expr :=
  spec.rules.flatMap ColumnRule.exprs

def Output.exprs : Output -> List Expr
  | .all => []
  | .value expr _ => [expr]

def Projection.exprs : Projection -> List Expr
  | .rows outputs => outputs.flatMap Output.exprs
  | .count _ => []
  -- The call of the sum nests its argument as an operator does.
  | .sum expr _ => [.negative expr]

def Command.exprs : Command -> List Expr
  | .createTable _ _ columns => columns.flatMap ColumnSpec.exprs
  | .addColumn _ column => column.exprs
  | .insert _ (.values _ rows) => rows.flatten
  | .select query =>
      query.projection.exprs ++ query.condition?.toList ++
        query.orderBy.map (·.expr) ++ query.limit?.toList
  | .update _ assignments condition? =>
      assignments.map (·.2) ++ condition?.toList
  | .delete _ condition? => condition?.toList
  | _ => []

end Sql

namespace Engine
namespace Sqlite

def depthLimit : Nat := 1000

def valueLimit : Nat := 32766

def columnLimit : Nat := 2000

def excessColumns? : Sql.Command -> Option String
  | .createTable table _ columns =>
      if columnLimit < columns.length then some ("too many columns on " ++ table)
      else none
  | .select ⟨.rows outputs, _, _, orderBy, _⟩ =>
      if columnLimit < outputs.length then some "too many columns in result set"
      else if columnLimit < orderBy.length then
        some "too many terms in ORDER BY clause"
      else none
  | .select ⟨_, _, _, orderBy, _⟩ =>
      if columnLimit < orderBy.length then
        some "too many terms in ORDER BY clause"
      else none
  | .update _ assignments _ =>
      if columnLimit < assignments.length then
        some "too many columns in set list"
      else none
  | _ => none

/-- Why a statement is too large, if it is. -/
def excess? (command : Sql.Command) : Option String :=
  if command.exprs.any fun expr => depthLimit < expr.depth then
    some ("Expression tree is too large (maximum depth " ++
      Decimal.natText depthLimit ++ ")")
  else if command.exprs.any fun expr => valueLimit < expr.neededValues then
    some "too many SQL variables"
  else excessColumns? command

scoped instance dialect : Dialect where
  read := Decimal.Scaled.readExtended
  spell := Decimal.Binary64.storedText
  visit _ _ _ records := records
  visit_perm _ _ _ records := .refl records
  excess? := excess?
  excess?_all _ := rfl
  excess?_version := rfl
  excess?_setVersion _ := rfl

end Sqlite
end Engine
end TableStore
