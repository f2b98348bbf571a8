import TableStore.Fragment
import TableStore.Predicate.Shape

/-!
# Clauses

The condition of a statement that a predicate stands for.  Entries are joined
by `AND`, branches by `OR`; every predicate, every list of branches and every
negated condition has its own parentheses.

An operand is either a placeholder, with its value among the parameters, or it
is written into the text.
-/

namespace TableStore

inductive Rendering
  | parameterized
  | inline
deriving DecidableEq

namespace Predicate

/-- An operand that is known to be a literal. -/
def renderOperand (mode : Rendering) (value : Value) : Fragment :=
  match mode with
  | .parameterized => ⟨"?", [value]⟩
  | .inline => .ofText value.operandText

def renderTest (mode : Rendering) (column symbol : String) (value : Value) :
    Except ShapeError Fragment :=
  if value.isLiteral then
    .ok ((renderOperand mode value).wrap (column ++ " " ++ symbol ++ " ") "")
  else .error (.notALiteral column value)

def conjunction (parts : List Fragment) : Fragment :=
  (Fragment.join " AND " parts).parenthesized

def disjunction (parts : List Fragment) : Fragment :=
  (Fragment.join " OR " parts).parenthesized

def negation (part : Fragment) : Fragment :=
  part.wrap "NOT (" ")"

def checkBranches (branches : List (List Entry)) : Except ShapeError Unit :=
  if branches.isEmpty then .error .noBranches
  else if branches.any List.isEmpty then .error .emptyBranch
  else .ok ()

mutual

/-- The conditions of entries; `seen` tells whether branches came before. -/
def entryClauses (mode : Rendering) (seen : Bool) :
    List Entry -> Except ShapeError (List Fragment)
  | [] => .ok []
  | .equal column value :: rest => do
      let part <- renderTest mode column "=" value
      let others <- entryClauses mode seen rest
      return part :: others
  | .compare column set :: rest => do
      if set.isEmpty then throw (.emptySet column)
      let parts <- comparatorClauses mode column false set
      let others <- entryClauses mode seen rest
      return Fragment.join " AND " parts :: others
  | .anyOf branches :: rest => do
      if seen then throw .secondOr
      checkBranches branches
      let parts <- branchClauses mode branches
      let others <- entryClauses mode true rest
      return disjunction parts :: others

def branchClauses (mode : Rendering) :
    List (List Entry) -> Except ShapeError (List Fragment)
  | [] => .ok []
  | branch :: rest => do
      let parts <- entryClauses mode false branch
      let others <- branchClauses mode rest
      return conjunction parts :: others

def comparatorClauses (mode : Rendering) (column : String) (seen : Bool) :
    List Comparator -> Except ShapeError (List Fragment)
  | [] => .ok []
  | .test comparison value :: rest => do
      let part <- renderTest mode column comparison.symbol value
      let others <- comparatorClauses mode column seen rest
      return part :: others
  | .not set :: rest => do
      if seen then throw (.secondNot column)
      if set.isEmpty then throw (.emptySet column)
      let parts <- comparatorClauses mode column false set
      let others <- comparatorClauses mode column true rest
      return negation (Fragment.join " AND " parts) :: others
  | .notAnyOf branches :: rest => do
      if seen then throw (.secondNot column)
      checkBranches branches
      let parts <- branchClauses mode branches
      let others <- comparatorClauses mode column true rest
      return negation (disjunction parts) :: others

end

/-- The clause of a predicate, between one pair of parentheses. -/
def compile (mode : Rendering) (predicate : Predicate) :
    Except ShapeError Fragment :=
  (entryClauses mode false predicate).map conjunction

end Predicate
end TableStore
