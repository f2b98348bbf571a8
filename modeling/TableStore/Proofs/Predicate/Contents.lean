import TableStore.Proofs.Predicate.Violations

/-!
# Operands and columns of a predicate

The values that a predicate compares with and the columns that it names, at any
depth, in the order in which they are written.  The parameters of a clause are
its operands in that order, or there are none.
-/

namespace TableStore
namespace Predicate

mutual

def entryOperands : List Entry -> List Value
  | [] => []
  | .equal _ value :: rest => value :: entryOperands rest
  | .compare _ set :: rest => comparatorOperands set ++ entryOperands rest
  | .anyOf branches :: rest => branchOperands branches ++ entryOperands rest
  termination_by entries => sizeOf entries

def branchOperands : List (List Entry) -> List Value
  | [] => []
  | branch :: rest => entryOperands branch ++ branchOperands rest
  termination_by branches => sizeOf branches

def comparatorOperands : List Comparator -> List Value
  | [] => []
  | .test _ value :: rest => value :: comparatorOperands rest
  | .not set :: rest => comparatorOperands set ++ comparatorOperands rest
  | .notAnyOf branches :: rest =>
      branchOperands branches ++ comparatorOperands rest
  termination_by set => sizeOf set

end

mutual

def entryColumns : List Entry -> List String
  | [] => []
  | .equal column _ :: rest => column :: entryColumns rest
  | .compare column set :: rest =>
      column :: (comparatorColumns set ++ entryColumns rest)
  | .anyOf branches :: rest => branchColumns branches ++ entryColumns rest
  termination_by entries => sizeOf entries

def branchColumns : List (List Entry) -> List String
  | [] => []
  | branch :: rest => entryColumns branch ++ branchColumns rest
  termination_by branches => sizeOf branches

def comparatorColumns : List Comparator -> List String
  | [] => []
  | .test _ _ :: rest => comparatorColumns rest
  | .not set :: rest => comparatorColumns set ++ comparatorColumns rest
  | .notAnyOf branches :: rest =>
      branchColumns branches ++ comparatorColumns rest
  termination_by set => sizeOf set

end

/-- The operands of a predicate. -/
def operands (predicate : Predicate) : List Value :=
  entryOperands predicate

def columns (predicate : Predicate) : List String :=
  entryColumns predicate

/-!
# Parameters
-/

/-- The parameters that stand for operands. -/
def operandParams (mode : Rendering) (values : List Value) : List Value :=
  values.flatMap fun value => (renderOperand mode value).params

theorem operandParams_append (mode : Rendering) (first second : List Value) :
    operandParams mode (first ++ second) =
      operandParams mode first ++ operandParams mode second := by
  simp [operandParams]

theorem operandParams_cons (mode : Rendering) (value : Value)
    (rest : List Value) :
    operandParams mode (value :: rest) =
      (renderOperand mode value).params ++ operandParams mode rest := by
  simp [operandParams]

@[simp] theorem operandParams_parameterized (values : List Value) :
    operandParams .parameterized values = values := by
  simp [operandParams, renderOperand]

@[simp] theorem operandParams_inline (values : List Value) :
    operandParams .inline values = [] := by
  simp [operandParams, renderOperand, Fragment.ofText]

@[simp] theorem params_testPart (mode : Rendering) (column symbol : String)
    (value : Value) :
    (testPart mode column symbol value).params =
      (renderOperand mode value).params := rfl

@[simp] theorem params_conjunction (parts : List Fragment) :
    (conjunction parts).params = parts.flatMap (·.params) := rfl

@[simp] theorem params_disjunction (parts : List Fragment) :
    (disjunction parts).params = parts.flatMap (·.params) := rfl

@[simp] theorem params_negation (part : Fragment) :
    (negation part).params = part.params := rfl

mutual

theorem params_entryParts (mode : Rendering) :
    forall entries : List Entry,
      (entryParts mode entries).flatMap (·.params) =
        operandParams mode (entryOperands entries)
  | [] => by
      rw [entryParts, entryOperands]
      rfl
  | .equal column value :: rest => by
      rw [entryParts, entryOperands, List.flatMap_cons, operandParams_cons,
        params_entryParts mode rest, params_testPart]
  | .compare column set :: rest => by
      rw [entryParts, entryOperands, List.flatMap_cons, operandParams_append,
        params_entryParts mode rest, Fragment.params_join,
        params_comparatorParts mode column set]
  | .anyOf branches :: rest => by
      rw [entryParts, entryOperands, List.flatMap_cons, operandParams_append,
        params_entryParts mode rest, params_disjunction,
        params_branchParts mode branches]
  termination_by entries => sizeOf entries

theorem params_branchParts (mode : Rendering) :
    forall branches : List (List Entry),
      (branchParts mode branches).flatMap (·.params) =
        operandParams mode (branchOperands branches)
  | [] => by
      rw [branchParts, branchOperands]
      rfl
  | branch :: rest => by
      rw [branchParts, branchOperands, List.flatMap_cons, operandParams_append,
        params_branchParts mode rest, params_conjunction,
        params_entryParts mode branch]
  termination_by branches => sizeOf branches

theorem params_comparatorParts (mode : Rendering) (column : String) :
    forall set : List Comparator,
      (comparatorParts mode column set).flatMap (·.params) =
        operandParams mode (comparatorOperands set)
  | [] => by
      rw [comparatorParts, comparatorOperands]
      rfl
  | .test comparison value :: rest => by
      rw [comparatorParts, comparatorOperands, List.flatMap_cons,
        operandParams_cons, params_comparatorParts mode column rest,
        params_testPart]
  | .not set :: rest => by
      rw [comparatorParts, comparatorOperands, List.flatMap_cons,
        operandParams_append, params_comparatorParts mode column rest,
        params_negation, Fragment.params_join,
        params_comparatorParts mode column set]
  | .notAnyOf branches :: rest => by
      rw [comparatorParts, comparatorOperands, List.flatMap_cons,
        operandParams_append, params_comparatorParts mode column rest,
        params_negation, params_disjunction, params_branchParts mode branches]
  termination_by set => sizeOf set

end

theorem params_rendered (mode : Rendering) (predicate : Predicate) :
    (rendered mode predicate).params =
      operandParams mode (operands predicate) :=
  params_entryParts mode predicate

end Predicate
end TableStore
