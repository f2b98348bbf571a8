import TableStore.Value.Basic

/-!
# Predicates

Conditions on the rows of a table.  A predicate is a list of entries, all of
which have to hold: a column with a value that it is equal to, a column with a
set of comparisons, or a list of branches one of which has to hold.  A set of
comparisons may negate another set on the same column, or a list of branches.
-/

namespace TableStore

inductive Comparison
  | eq
  | ne
  | lt
  | le
  | gt
  | ge
deriving DecidableEq

namespace Comparison

def all : List Comparison :=
  [.eq, .ne, .lt, .le, .gt, .ge]

def symbol : Comparison -> String
  | .eq => "="
  | .ne => "!="
  | .lt => "<"
  | .le => "<="
  | .gt => ">"
  | .ge => ">="

def key : Comparison -> String
  | .eq => "$eq"
  | .ne => "$neq"
  | .lt => "$lt"
  | .le => "$lte"
  | .gt => "$gt"
  | .ge => "$gte"

def ofKey? (key : String) : Option Comparison :=
  all.find? fun comparison => comparison.key = key

theorem ofKey?_key (comparison : Comparison) :
    ofKey? comparison.key = some comparison := by
  cases comparison <;> decide

end Comparison

mutual

inductive Entry
  | equal (column : String) (value : Value)
  | compare (column : String) (set : List Comparator)
  /-- One of the branches holds. -/
  | anyOf (branches : List (List Entry))

inductive Comparator
  | test (comparison : Comparison) (value : Value)
  /-- The column does not pass all comparisons of the inner set. -/
  | not (set : List Comparator)
  | notAnyOf (branches : List (List Entry))

end

/-- A predicate: entries that all have to hold. -/
abbrev Predicate := List Entry

def orKey : String := "$or"

def notKey : String := "$not"

end TableStore
