import TableStore.Engine.Formula
import TableStore.Proofs.Predicate.Contents

/-!
# What a predicate means

A test of a column against a value is true, false, or neither.  Given such an
answer for every test, a predicate has an answer, read off its own structure,
and so has an expression of a statement.  The expression of a predicate is
written down next to it, and both are shown to have the same answer.
-/

namespace TableStore
namespace Engine
namespace Truth

/-!
# Truth values
-/

theorem and_true (a : Truth) : a.and (some true) = a := by
  rcases a with _ | _ | _ <;> rfl

theorem true_and (a : Truth) : Truth.and (some true) a = a := by
  rcases a with _ | _ | _ <;> rfl

theorem and_assoc (a b c : Truth) : (a.and b).and c = a.and (b.and c) := by
  rcases a with _ | _ | _ <;> rcases b with _ | _ | _ <;>
    rcases c with _ | _ | _ <;> rfl

theorem or_false (a : Truth) : a.or (some false) = a := by
  rcases a with _ | _ | _ <;> rfl

theorem or_assoc (a b c : Truth) : (a.or b).or c = a.or (b.or c) := by
  rcases a with _ | _ | _ <;> rcases b with _ | _ | _ <;>
    rcases c with _ | _ | _ <;> rfl

def all (truths : List Truth) : Truth :=
  truths.foldr Truth.and (some true)

def any (truths : List Truth) : Truth :=
  truths.foldr Truth.or (some false)

theorem all_cons (a : Truth) (rest : List Truth) :
    all (a :: rest) = a.and (all rest) := rfl

theorem any_cons (a : Truth) (rest : List Truth) :
    any (a :: rest) = a.or (any rest) := rfl

theorem all_append (first second : List Truth) :
    all (first ++ second) = (all first).and (all second) := by
  induction first with
  | nil => exact (true_and _).symm
  | cons a first ih =>
      rw [List.cons_append, all_cons, ih, all_cons, and_assoc]

end Truth
end Engine

open Engine (Truth)

/-- An answer for every test of a column against a value. -/
abbrev Interpretation := String -> Comparison -> Value -> Truth

/-!
# The truth of predicates
-/

namespace Predicate

mutual

def entryTruth (test : Interpretation) : List Entry -> Truth
  | [] => some true
  | .equal column value :: rest =>
      (test column .eq value).and (entryTruth test rest)
  | .compare column set :: rest =>
      (comparatorTruth test column set).and (entryTruth test rest)
  | .anyOf branches :: rest =>
      (branchTruth test branches).and (entryTruth test rest)
  termination_by entries => sizeOf entries

def branchTruth (test : Interpretation) : List (List Entry) -> Truth
  | [] => some false
  | branch :: rest => (entryTruth test branch).or (branchTruth test rest)
  termination_by branches => sizeOf branches

def comparatorTruth (test : Interpretation) (column : String) :
    List Comparator -> Truth
  | [] => some true
  | .test comparison value :: rest =>
      (test column comparison value).and (comparatorTruth test column rest)
  | .not set :: rest =>
      (comparatorTruth test column set).not.and
        (comparatorTruth test column rest)
  | .notAnyOf branches :: rest =>
      (branchTruth test branches).not.and (comparatorTruth test column rest)
  termination_by set => sizeOf set

end

/-- Whether a predicate holds. -/
def truth (test : Interpretation) (predicate : Predicate) : Truth :=
  entryTruth test predicate

end Predicate

/-!
# The truth of expressions
-/

namespace Sql
namespace Expr

def operand? (params : List Value) : Expr -> Option Value
  | .placeholder index => params[index]?
  | .literal value => some value
  | _ => none

/-- Whether an expression holds; one that is no condition has no answer. -/
def truth (test : Interpretation) (params : List Value) : Expr -> Truth
  | .not inner => (inner.truth test params).not
  | .and left right => (left.truth test params).and (right.truth test params)
  | .or left right => (left.truth test params).or (right.truth test params)
  | .compare comparison (.column none name) right =>
      match right.operand? params with
      | some value => test name comparison value
      | none => none
  | _ => none

def chain (apply : Expr -> Expr -> Expr) : List Expr -> Expr
  | [] => .literal .null
  | first :: rest => rest.foldl apply first

theorem truth_foldl_and (test : Interpretation) (params : List Value)
    (first : Expr) (rest : List Expr) :
    (rest.foldl Expr.and first).truth test params =
      (first.truth test params).and
        (Truth.all (rest.map (truth test params))) := by
  induction rest generalizing first with
  | nil => exact (Truth.and_true _).symm
  | cons second rest ih =>
      rw [List.foldl_cons, ih]
      exact Truth.and_assoc _ _ _

theorem truth_foldl_or (test : Interpretation) (params : List Value)
    (first : Expr) (rest : List Expr) :
    (rest.foldl Expr.or first).truth test params =
      (first.truth test params).or
        (Truth.any (rest.map (truth test params))) := by
  induction rest generalizing first with
  | nil => exact (Truth.or_false _).symm
  | cons second rest ih =>
      rw [List.foldl_cons, ih]
      exact Truth.or_assoc _ _ _

theorem truth_chain_and (test : Interpretation) (params : List Value)
    {trees : List Expr} (h : trees ≠ []) :
    (chain Expr.and trees).truth test params =
      Truth.all (trees.map (truth test params)) := by
  cases trees with
  | nil => exact absurd rfl h
  | cons first rest => exact truth_foldl_and test params first rest

theorem truth_chain_or (test : Interpretation) (params : List Value)
    {trees : List Expr} (h : trees ≠ []) :
    (chain Expr.or trees).truth test params =
      Truth.any (trees.map (truth test params)) := by
  cases trees with
  | nil => exact absurd rfl h
  | cons first rest => exact truth_foldl_or test params first rest

end Expr
end Sql

/-!
# The expression of a predicate

Operands are numbered from the left; `leaf` gives the expression for the operand
with a number.  Conjunctions inside conjunctions are not grouped, as they are
not in a clause.
-/

namespace Predicate

open Sql (Expr)

def testTree (column : String) (comparison : Comparison) (operand : Expr) :
    Expr :=
  .compare comparison (.column none column) operand

mutual

def entryTrees (leaf : Nat -> Value -> Expr) (start : Nat) :
    List Entry -> List Expr
  | [] => []
  | .equal column value :: rest =>
      testTree column .eq (leaf start value) :: entryTrees leaf (start + 1) rest
  | .compare column set :: rest =>
      comparatorTrees leaf start column set ++
        entryTrees leaf (start + (comparatorOperands set).length) rest
  | .anyOf branches :: rest =>
      Expr.chain Expr.or (branchTrees leaf start branches) ::
        entryTrees leaf (start + (branchOperands branches).length) rest
  termination_by entries => sizeOf entries

def branchTrees (leaf : Nat -> Value -> Expr) (start : Nat) :
    List (List Entry) -> List Expr
  | [] => []
  | branch :: rest =>
      Expr.chain Expr.and (entryTrees leaf start branch) ::
        branchTrees leaf (start + (entryOperands branch).length) rest
  termination_by branches => sizeOf branches

def comparatorTrees (leaf : Nat -> Value -> Expr) (start : Nat)
    (column : String) : List Comparator -> List Expr
  | [] => []
  | .test comparison value :: rest =>
      testTree column comparison (leaf start value) ::
        comparatorTrees leaf (start + 1) column rest
  | .not set :: rest =>
      .not (Expr.chain Expr.and (comparatorTrees leaf start column set)) ::
        comparatorTrees leaf (start + (comparatorOperands set).length) column
          rest
  | .notAnyOf branches :: rest =>
      .not (Expr.chain Expr.or (branchTrees leaf start branches)) ::
        comparatorTrees leaf (start + (branchOperands branches).length) column
          rest
  termination_by set => sizeOf set

end

/-- The expression of a predicate. -/
def tree (leaf : Nat -> Value -> Expr) (predicate : Predicate) : Expr :=
  Expr.chain Expr.and (entryTrees leaf 0 predicate)

/-!
# Predicate and expression have the same truth

The operands have to be found where the expression looks for them.  The
expression of a well-formed predicate has no empty chain, so every chain has the
truth of its members together.
-/

/-- Looking up the operands with numbers from `start` gives `values`. -/
def Supplies (leaf : Nat -> Value -> Expr) (params : List Value) (start : Nat)
    (values : List Value) : Prop :=
  forall index value, values[index]? = some value ->
    (leaf (start + index) value).operand? params = some value

section Supplies

variable {leaf : Nat -> Value -> Expr} {params : List Value} {start : Nat}

theorem Supplies.head {value : Value} {rest : List Value}
    (h : Supplies leaf params start (value :: rest)) :
    (leaf start value).operand? params = some value :=
  h 0 value rfl

theorem Supplies.tail {value : Value} {rest : List Value}
    (h : Supplies leaf params start (value :: rest)) :
    Supplies leaf params (start + 1) rest := by
  intro index other hother
  have hshift := h (index + 1) other hother
  rw [Nat.add_assoc, Nat.add_comm 1 index]
  exact hshift

theorem Supplies.left {first second : List Value}
    (h : Supplies leaf params start (first ++ second)) :
    Supplies leaf params start first := by
  intro index value hvalue
  apply h
  rw [List.getElem?_append_left (List.getElem?_eq_some_iff.mp hvalue).1]
  exact hvalue

theorem Supplies.right {first second : List Value}
    (h : Supplies leaf params start (first ++ second)) :
    Supplies leaf params (start + first.length) second := by
  intro index value hvalue
  have hshift := h (first.length + index) value (by
    rw [List.getElem?_append_right (Nat.le_add_right _ _),
      Nat.add_sub_cancel_left]
    exact hvalue)
  rw [Nat.add_assoc]
  exact hshift

theorem supplies_placeholder (params : List Value) :
    Supplies (fun index _ => Expr.placeholder index) params 0 params := by
  intro index value hvalue
  rw [Nat.zero_add]
  exact hvalue

end Supplies

theorem truth_testTree (test : Interpretation) {params : List Value}
    (column : String) (comparison : Comparison) {operand : Expr}
    {value : Value} (h : operand.operand? params = some value) :
    (testTree column comparison operand).truth test params =
      test column comparison value := by
  rw [testTree, Expr.truth, h]

theorem ne_nil_of_isEmpty {α : Type} {list : List α}
    (h : list.isEmpty = false) : list ≠ [] := by
  intro hnil
  rw [hnil] at h
  cases h

theorem comparatorTrees_ne_nil (leaf : Nat -> Value -> Expr) (start : Nat)
    (column : String) {set : List Comparator} (h : set ≠ []) :
    comparatorTrees leaf start column set ≠ [] := by
  cases set with
  | nil => exact absurd rfl h
  | cons comparator rest =>
      cases comparator <;> simp [comparatorTrees]

theorem branchTrees_ne_nil (leaf : Nat -> Value -> Expr) (start : Nat)
    {branches : List (List Entry)} (h : branches ≠ []) :
    branchTrees leaf start branches ≠ [] := by
  cases branches with
  | nil => exact absurd rfl h
  | cons branch rest => simp [branchTrees]

theorem entryTrees_ne_nil (leaf : Nat -> Value -> Expr) (start : Nat)
    {seen : Bool} {entries : List Entry}
    (hfound : entryViolations seen entries = []) (h : entries ≠ []) :
    entryTrees leaf start entries ≠ [] := by
  cases entries with
  | nil => exact absurd rfl h
  | cons entry rest =>
      cases entry with
      | equal column value => simp [entryTrees]
      | compare column set =>
          rw [entryViolations_compare_eq_nil_iff] at hfound
          have hset := ne_nil_of_isEmpty hfound.left
          have htrees := comparatorTrees_ne_nil leaf start column hset
          simp [entryTrees, htrees]
      | anyOf branches => simp [entryTrees]

mutual

theorem all_truth_entryTrees {leaf : Nat -> Value -> Expr}
    {params : List Value} (test : Interpretation) (start : Nat) (seen : Bool) :
    forall entries : List Entry, entryViolations seen entries = [] ->
      Supplies leaf params start (entryOperands entries) ->
      Truth.all ((entryTrees leaf start entries).map
          (Expr.truth test params)) =
        entryTruth test entries
  | [], _, _ => by
      rw [entryTrees, entryTruth]
      rfl
  | .equal column value :: rest, hfound, hsupplies => by
      rw [entryViolations_equal_eq_nil_iff] at hfound
      rw [entryOperands] at hsupplies
      have hrest := all_truth_entryTrees test (start + 1) seen rest
        hfound.right hsupplies.tail
      rw [entryTrees, entryTruth, List.map_cons, Truth.all_cons, hrest,
        truth_testTree test column .eq hsupplies.head]
  | .compare column set :: rest, hfound, hsupplies => by
      rw [entryViolations_compare_eq_nil_iff] at hfound
      rcases hfound with ⟨_, hset, hfound⟩
      rw [entryOperands] at hsupplies
      have hset := all_truth_comparatorTrees test start column false set hset
        hsupplies.left
      have hrest := all_truth_entryTrees test _ seen rest hfound
        hsupplies.right
      rw [entryTrees, entryTruth, List.map_append, Truth.all_append, hset,
        hrest]
  | .anyOf branches :: rest, hfound, hsupplies => by
      rw [entryViolations_anyOf_eq_nil_iff] at hfound
      rcases hfound with ⟨_, hsome, hnonempty, hbranches, hfound⟩
      rw [entryOperands] at hsupplies
      have hchain := Expr.truth_chain_or test params
        (branchTrees_ne_nil leaf start (ne_nil_of_isEmpty hsome))
      have hbranches := any_truth_branchTrees test start branches hbranches
        hnonempty hsupplies.left
      have hrest := all_truth_entryTrees test _ true rest hfound
        hsupplies.right
      rw [entryTrees, entryTruth, List.map_cons, Truth.all_cons, hchain,
        hbranches, hrest]
  termination_by entries => sizeOf entries

theorem any_truth_branchTrees {leaf : Nat -> Value -> Expr}
    {params : List Value} (test : Interpretation) (start : Nat) :
    forall branches : List (List Entry), branchViolations branches = [] ->
      branches.any List.isEmpty = false ->
      Supplies leaf params start (branchOperands branches) ->
      Truth.any ((branchTrees leaf start branches).map
          (Expr.truth test params)) =
        branchTruth test branches
  | [], _, _, _ => by
      rw [branchTrees, branchTruth]
      rfl
  | branch :: rest, hfound, hnonempty, hsupplies => by
      rw [branchViolations_cons_eq_nil_iff] at hfound
      simp only [List.any_cons, Bool.or_eq_false_iff] at hnonempty
      rw [branchOperands] at hsupplies
      have hchain := Expr.truth_chain_and test params
        (entryTrees_ne_nil leaf start hfound.left
          (ne_nil_of_isEmpty hnonempty.left))
      have hbranch := all_truth_entryTrees test start false branch hfound.left
        hsupplies.left
      have hrest := any_truth_branchTrees test _ rest hfound.right
        hnonempty.right hsupplies.right
      rw [branchTrees, branchTruth, List.map_cons, Truth.any_cons, hchain,
        hbranch, hrest]
  termination_by branches => sizeOf branches

theorem all_truth_comparatorTrees {leaf : Nat -> Value -> Expr}
    {params : List Value} (test : Interpretation) (start : Nat)
    (column : String) (seen : Bool) :
    forall set : List Comparator,
      comparatorViolations column seen set = [] ->
      Supplies leaf params start (comparatorOperands set) ->
      Truth.all ((comparatorTrees leaf start column set).map
          (Expr.truth test params)) =
        comparatorTruth test column set
  | [], _, _ => by
      rw [comparatorTrees, comparatorTruth]
      rfl
  | .test comparison value :: rest, hfound, hsupplies => by
      rw [comparatorViolations_test_eq_nil_iff] at hfound
      rw [comparatorOperands] at hsupplies
      have hrest := all_truth_comparatorTrees test (start + 1) column seen rest
        hfound.right hsupplies.tail
      rw [comparatorTrees, comparatorTruth, List.map_cons, Truth.all_cons,
        hrest, truth_testTree test column comparison hsupplies.head]
  | .not set :: rest, hfound, hsupplies => by
      rw [comparatorViolations_not_eq_nil_iff] at hfound
      rcases hfound with ⟨_, hsome, hset, hfound⟩
      rw [comparatorOperands] at hsupplies
      have hchain := Expr.truth_chain_and test params
        (comparatorTrees_ne_nil leaf start column (ne_nil_of_isEmpty hsome))
      have hset := all_truth_comparatorTrees test start column false set hset
        hsupplies.left
      have hrest := all_truth_comparatorTrees test _ column true rest hfound
        hsupplies.right
      rw [comparatorTrees, comparatorTruth, List.map_cons, Truth.all_cons,
        Expr.truth, hchain, hset, hrest]
  | .notAnyOf branches :: rest, hfound, hsupplies => by
      rw [comparatorViolations_notAnyOf_eq_nil_iff] at hfound
      rcases hfound with ⟨_, hsome, hnonempty, hbranches, hfound⟩
      rw [comparatorOperands] at hsupplies
      have hchain := Expr.truth_chain_or test params
        (branchTrees_ne_nil leaf start (ne_nil_of_isEmpty hsome))
      have hbranches := any_truth_branchTrees test start branches hbranches
        hnonempty hsupplies.left
      have hrest := all_truth_comparatorTrees test _ column true rest hfound
        hsupplies.right
      rw [comparatorTrees, comparatorTruth, List.map_cons, Truth.all_cons,
        Expr.truth, hchain, hbranches, hrest]
  termination_by set => sizeOf set

end

theorem truth_tree {leaf : Nat -> Value -> Expr} {params : List Value}
    (test : Interpretation) {predicate : Predicate}
    (hfound : violations predicate = []) (hne : predicate ≠ [])
    (hsupplies : Supplies leaf params 0 predicate.operands) :
    (tree leaf predicate).truth test params = truth test predicate := by
  rw [tree, Expr.truth_chain_and test params
    (entryTrees_ne_nil leaf 0 hfound hne)]
  exact all_truth_entryTrees test 0 false predicate hfound hsupplies

end Predicate
end TableStore
