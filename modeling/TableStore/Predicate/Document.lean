import TableStore.Predicate.Shape
import TableStore.Value.Document

/-!
# Predicates as documents

A predicate is an object: each key is a column with an operand or with an
object of comparisons, or it is `$or` with a list of objects.
-/

namespace TableStore
namespace Predicate

def operandOfDocument (column : String) : Json -> Except ShapeError Value
  | .bool b => .ok (.bool b)
  | .str s => .ok (.text s)
  | .num n => .ok (Value.ofNumber n)
  | document => .error (.notAnOperand column document)

/-- Whether a key is spelled like the key of an operator. -/
def isOperatorKey (key : String) : Bool :=
  key.toList.head? = some '$'

mutual

def entriesOfMembers : List (String × Json) -> Except ShapeError (List Entry)
  | [] => .ok []
  | (key, value) :: rest => do
      let entry <-
        if key = orKey then (branchesOfDocument value).map .anyOf
        else if isOperatorKey key then
          throw (.operatorOutsideColumn key)
        else entryOfDocument key value
      let others <- entriesOfMembers rest
      return entry :: others

def entryOfDocument (column : String) : Json -> Except ShapeError Entry
  | .obj [] => .error (.emptySet column)
  | .obj (member :: rest) =>
      (setOfMembers column (member :: rest)).map (.compare column)
  | document => (operandOfDocument column document).map (.equal column)

def branchesOfDocument : Json -> Except ShapeError (List (List Entry))
  | .arr [] => .error .noBranches
  | .arr (item :: rest) => branchesOfItems (item :: rest)
  | _ => .error .branchesNotAList

def branchesOfItems : List Json -> Except ShapeError (List (List Entry))
  | [] => .ok []
  | item :: rest => do
      let branch <- branchOfDocument item
      let others <- branchesOfItems rest
      return branch :: others

def branchOfDocument : Json -> Except ShapeError (List Entry)
  | .obj [] => .error .emptyBranch
  | .obj (member :: rest) => entriesOfMembers (member :: rest)
  | document => .error (.branchNotAnObject document)

def setOfMembers (column : String) :
    List (String × Json) -> Except ShapeError (List Comparator)
  | [] => .ok []
  | (key, value) :: rest => do
      let comparator <-
        if key = notKey then negationOfDocument column value
        else
          match Comparison.ofKey? key with
          | some comparison =>
              (operandOfDocument column value).map (.test comparison)
          | none => throw (.unknownOperator key column)
      let others <- setOfMembers column rest
      return comparator :: others

def negationOfDocument (column : String) :
    Json -> Except ShapeError Comparator
  | .obj [] => .error (.emptySet column)
  | .obj [(key, value)] =>
      if key = orKey then (branchesOfDocument value).map .notAnyOf
      else (setOfMembers column [(key, value)]).map .not
  | .obj (first :: second :: rest) =>
      (setOfMembers column (first :: second :: rest)).map .not
  | document => .error (.negationNotAnObject column document)

end

def ofDocument : Json -> Except ShapeError Predicate
  | .obj members => entriesOfMembers members
  | document => .error (.notAnObject document)

end Predicate
end TableStore
