import TableStore.Json.Printer
import TableStore.Predicate.Basic
import TableStore.Text.Shown
import TableStore.Value.Literal

/-!
# Malformed predicates

What can be wrong with a predicate or with the document of one.
-/

namespace TableStore

inductive ShapeError
  | notAnObject (found : Json)
  /-- A key of an operator stands where a column has to. -/
  | operatorOutsideColumn (key : String)
  | branchesNotAList
  | noBranches
  | emptyBranch
  | branchNotAnObject (found : Json)
  | emptySet (column : String)
  | negationNotAnObject (column : String) (found : Json)
  | unknownOperator (key column : String)
  | notAnOperand (column : String) (found : Json)
  | secondOr
  | secondNot (column : String)
  | notALiteral (column : String) (value : Value)

namespace ShapeError

open Text (marked)

def detail : ShapeError -> String
  | .notAnObject found => "predicate must be an object, got " ++ found.text
  | .operatorOutsideColumn key =>
      "operator " ++ marked key ++ " must be nested under a column"
  | .branchesNotAList => marked orKey ++ " must hold an array of predicates"
  | .noBranches => marked orKey ++ " must not be empty"
  | .emptyBranch => marked orKey ++ " branch must not be empty"
  | .branchNotAnObject found =>
      marked orKey ++ " branch must be an object, got " ++ found.text
  | .emptySet column =>
      "column " ++ marked column ++ " has an empty operator set"
  | .negationNotAnObject column found =>
      marked notKey ++ " on column " ++ marked column ++
        " must hold an object, got " ++ found.text
  | .unknownOperator key column =>
      "unknown operator " ++ marked key ++ " on column " ++ marked column
  | .notAnOperand column found =>
      "column " ++ marked column ++
        " must hold a string, number, boolean or operator set, got " ++
        found.text
  | .secondOr => "a predicate may contain only one " ++ marked orKey ++ " entry"
  | .secondNot column =>
      "column " ++ marked column ++ " may contain only one " ++ marked notKey
  | .notALiteral column value =>
      "column " ++ marked column ++ " compares against " ++ value.shown ++
        "; only strings, finite numbers and booleans are allowed"

def message (error : ShapeError) : String :=
  "invalid predicate shape: " ++ error.detail

end ShapeError
end TableStore
