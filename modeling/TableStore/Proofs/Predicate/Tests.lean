import Mathlib.Data.List.Forall2
import TableStore.Proofs.Predicate.Meaning

/-!
# The tests of a predicate

A predicate consists of tests of columns against operands, in the order of the
operands.  Two expressions of one predicate that differ in the expressions of
their operands only are alike as soon as their tests are, in any sense of being
alike that conditions keep.
-/

namespace TableStore

namespace Sql

/-- A relation between expressions that conditions keep. -/
structure Expr.Congruence (alike : Expr -> Expr -> Prop) : Prop where
  null : alike (.literal .null) (.literal .null)
  not {inner other : Expr} : alike inner other ->
    alike (.not inner) (.not other)
  and {left right first second : Expr} : alike left first ->
    alike right second -> alike (.and left right) (.and first second)
  or {left right first second : Expr} : alike left first ->
    alike right second -> alike (.or left right) (.or first second)

theorem Expr.alike_foldl {alike : Expr -> Expr -> Prop}
    {apply : Expr -> Expr -> Expr}
    (happly : forall {left right first second : Expr}, alike left first ->
      alike right second -> alike (apply left right) (apply first second))
    {trees others : List Expr} (h : List.Forall₂ alike trees others)
    {first second : Expr} (hfirst : alike first second) :
    alike (trees.foldl apply first) (others.foldl apply second) := by
  induction h generalizing first second with
  | nil => exact hfirst
  | cons hhead _ ih => exact ih (happly hfirst hhead)

theorem Expr.alike_chain {alike : Expr -> Expr -> Prop}
    (hnull : alike (.literal .null) (.literal .null))
    {apply : Expr -> Expr -> Expr}
    (happly : forall {left right first second : Expr}, alike left first ->
      alike right second -> alike (apply left right) (apply first second))
    {trees others : List Expr} (h : List.Forall₂ alike trees others) :
    alike (chain apply trees) (chain apply others) := by
  cases h with
  | nil => exact hnull
  | cons hhead htail => exact alike_foldl happly htail hhead

end Sql

namespace Predicate

open Sql (Expr)

/-!
# Tests
-/

structure Test where
  column : String
  comparison : Comparison
  value : Value

mutual

def entryTests : List Entry -> List Test
  | [] => []
  | .equal column value :: rest => ⟨column, .eq, value⟩ :: entryTests rest
  | .compare column set :: rest =>
      comparatorTests column set ++ entryTests rest
  | .anyOf branches :: rest => branchTests branches ++ entryTests rest
  termination_by entries => sizeOf entries

def branchTests : List (List Entry) -> List Test
  | [] => []
  | branch :: rest => entryTests branch ++ branchTests rest
  termination_by branches => sizeOf branches

def comparatorTests (column : String) : List Comparator -> List Test
  | [] => []
  | .test comparison value :: rest =>
      ⟨column, comparison, value⟩ :: comparatorTests column rest
  | .not set :: rest => comparatorTests column set ++ comparatorTests column rest
  | .notAnyOf branches :: rest =>
      branchTests branches ++ comparatorTests column rest
  termination_by set => sizeOf set

end

def tests (predicate : Predicate) : List Test :=
  entryTests predicate

mutual

theorem map_value_entryTests : forall entries : List Entry,
    (entryTests entries).map Test.value = entryOperands entries
  | [] => by
      rw [entryTests, entryOperands]
      rfl
  | .equal column value :: rest => by
      rw [entryTests, entryOperands, List.map_cons, map_value_entryTests rest]
  | .compare column set :: rest => by
      rw [entryTests, entryOperands, List.map_append,
        map_value_entryTests rest, map_value_comparatorTests column set]
  | .anyOf branches :: rest => by
      rw [entryTests, entryOperands, List.map_append,
        map_value_entryTests rest, map_value_branchTests branches]
  termination_by entries => sizeOf entries

theorem map_value_branchTests : forall branches : List (List Entry),
    (branchTests branches).map Test.value = branchOperands branches
  | [] => by
      rw [branchTests, branchOperands]
      rfl
  | branch :: rest => by
      rw [branchTests, branchOperands, List.map_append,
        map_value_entryTests branch, map_value_branchTests rest]
  termination_by branches => sizeOf branches

theorem map_value_comparatorTests (column : String) :
    forall set : List Comparator,
      (comparatorTests column set).map Test.value = comparatorOperands set
  | [] => by
      rw [comparatorTests, comparatorOperands]
      rfl
  | .test comparison value :: rest => by
      rw [comparatorTests, comparatorOperands, List.map_cons,
        map_value_comparatorTests column rest]
  | .not set :: rest => by
      rw [comparatorTests, comparatorOperands, List.map_append,
        map_value_comparatorTests column set,
        map_value_comparatorTests column rest]
  | .notAnyOf branches :: rest => by
      rw [comparatorTests, comparatorOperands, List.map_append,
        map_value_branchTests branches, map_value_comparatorTests column rest]
  termination_by set => sizeOf set

end

theorem map_value_tests (predicate : Predicate) :
    predicate.tests.map Test.value = predicate.operands :=
  map_value_entryTests predicate

theorem operand_of_test {predicate : Predicate} {index : Nat} {test : Test}
    (htest : predicate.tests[index]? = some test) :
    predicate.operands[index]? = some test.value := by
  rw [<- map_value_tests, List.getElem?_map, htest]
  rfl

theorem test_value_of_append (before : List Value) {predicate : Predicate}
    {index : Nat} {test : Test} (htest : predicate.tests[index]? = some test) :
    (before ++ predicate.operands)[before.length + index]? =
      some test.value := by
  rw [List.getElem?_append_right (Nat.le_add_right _ _),
    Nat.add_sub_cancel_left, operand_of_test htest]

/-!
# Expressions whose tests are alike
-/

/-- The tests with numbers from `start` are alike for two ways to see operands. -/
def TestsAlike (alike : Expr -> Expr -> Prop)
    (first second : Nat -> Value -> Expr) (start : Nat) (tests : List Test) :
    Prop :=
  forall index test, tests[index]? = some test ->
    alike
      (testTree test.column test.comparison (first (start + index) test.value))
      (testTree test.column test.comparison (second (start + index) test.value))

section TestsAlike

variable {alike : Expr -> Expr -> Prop} {first second : Nat -> Value -> Expr}

theorem TestsAlike.head {start : Nat} {test : Test} {rest : List Test}
    (h : TestsAlike alike first second start (test :: rest)) :
    alike (testTree test.column test.comparison (first start test.value))
      (testTree test.column test.comparison (second start test.value)) :=
  h 0 test rfl

theorem TestsAlike.tail {start : Nat} {test : Test} {rest : List Test}
    (h : TestsAlike alike first second start (test :: rest)) :
    TestsAlike alike first second (start + 1) rest := by
  intro index other hother
  have hshift := h (index + 1) other hother
  rw [Nat.add_assoc, Nat.add_comm 1 index]
  exact hshift

theorem TestsAlike.left {start : Nat} {tests others : List Test}
    (h : TestsAlike alike first second start (tests ++ others)) :
    TestsAlike alike first second start tests := by
  intro index test htest
  apply h
  rw [List.getElem?_append_left (List.getElem?_eq_some_iff.mp htest).1]
  exact htest

theorem TestsAlike.right {start : Nat} {tests others : List Test}
    (h : TestsAlike alike first second start (tests ++ others))
    {operands : List Value} (hlength : tests.map Test.value = operands) :
    TestsAlike alike first second (start + operands.length) others := by
  intro index test htest
  have hshift := h (tests.length + index) test (by
    rw [List.getElem?_append_right (Nat.le_add_right _ _),
      Nat.add_sub_cancel_left]
    exact htest)
  rw [<- hlength, List.length_map, Nat.add_assoc]
  exact hshift

mutual

theorem alike_entryTrees (hcongruence : Expr.Congruence alike) (start : Nat) :
    forall entries : List Entry,
      TestsAlike alike first second start (entryTests entries) ->
      List.Forall₂ alike (entryTrees first start entries)
        (entryTrees second start entries)
  | [], _ => by
      rw [entryTrees, entryTrees]
      exact .nil
  | .equal column value :: rest, htests => by
      rw [entryTests] at htests
      rw [entryTrees, entryTrees]
      exact .cons htests.head
        (alike_entryTrees hcongruence (start + 1) rest htests.tail)
  | .compare column set :: rest, htests => by
      rw [entryTests] at htests
      rw [entryTrees, entryTrees]
      apply List.rel_append
      · exact alike_comparatorTrees hcongruence start column set htests.left
      · exact alike_entryTrees hcongruence _ rest
          (htests.right (map_value_comparatorTests column set))
  | .anyOf branches :: rest, htests => by
      rw [entryTests] at htests
      rw [entryTrees, entryTrees]
      have hbranches :=
        alike_branchTrees hcongruence start branches htests.left
      exact .cons
        (Expr.alike_chain hcongruence.null hcongruence.or hbranches)
        (alike_entryTrees hcongruence _ rest
          (htests.right (map_value_branchTests branches)))
  termination_by entries => sizeOf entries

theorem alike_branchTrees (hcongruence : Expr.Congruence alike) (start : Nat) :
    forall branches : List (List Entry),
      TestsAlike alike first second start (branchTests branches) ->
      List.Forall₂ alike (branchTrees first start branches)
        (branchTrees second start branches)
  | [], _ => by
      rw [branchTrees, branchTrees]
      exact .nil
  | branch :: rest, htests => by
      rw [branchTests] at htests
      rw [branchTrees, branchTrees]
      have hbranch := alike_entryTrees hcongruence start branch htests.left
      exact .cons
        (Expr.alike_chain hcongruence.null hcongruence.and hbranch)
        (alike_branchTrees hcongruence _ rest
          (htests.right (map_value_entryTests branch)))
  termination_by branches => sizeOf branches

theorem alike_comparatorTrees (hcongruence : Expr.Congruence alike)
    (start : Nat) (column : String) :
    forall set : List Comparator,
      TestsAlike alike first second start (comparatorTests column set) ->
      List.Forall₂ alike (comparatorTrees first start column set)
        (comparatorTrees second start column set)
  | [], _ => by
      rw [comparatorTrees, comparatorTrees]
      exact .nil
  | .test comparison value :: rest, htests => by
      rw [comparatorTests] at htests
      rw [comparatorTrees, comparatorTrees]
      exact .cons htests.head
        (alike_comparatorTrees hcongruence (start + 1) column rest htests.tail)
  | .not set :: rest, htests => by
      rw [comparatorTests] at htests
      rw [comparatorTrees, comparatorTrees]
      have hset :=
        alike_comparatorTrees hcongruence start column set htests.left
      exact .cons
        (hcongruence.not
          (Expr.alike_chain hcongruence.null hcongruence.and hset))
        (alike_comparatorTrees hcongruence _ column rest
          (htests.right (map_value_comparatorTests column set)))
  | .notAnyOf branches :: rest, htests => by
      rw [comparatorTests] at htests
      rw [comparatorTrees, comparatorTrees]
      have hbranches :=
        alike_branchTrees hcongruence start branches htests.left
      exact .cons
        (hcongruence.not
          (Expr.alike_chain hcongruence.null hcongruence.or hbranches))
        (alike_comparatorTrees hcongruence _ column rest
          (htests.right (map_value_branchTests branches)))
  termination_by set => sizeOf set

end

/-- Two expressions of a predicate are alike if all of their tests are. -/
theorem alike_tree (hcongruence : Expr.Congruence alike)
    {predicate : Predicate}
    (htests : TestsAlike alike first second 0 predicate.tests) :
    alike (predicate.tree first) (predicate.tree second) :=
  Expr.alike_chain hcongruence.null hcongruence.and
    (alike_entryTrees hcongruence 0 predicate htests)

end TestsAlike

end Predicate
end TableStore
