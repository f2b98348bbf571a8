import TableStore.Engine.Formula
import TableStore.Proofs.Decimal.Order

/-!
# Tests against equal numbers

A binary number that is a whole one stands in the same order to every cell as
that whole number.  A test gives the same answer for both, unless the column
holds texts: there a number counts as its text, and the texts differ.
-/

namespace TableStore
namespace Engine

open Decimal (Binary64)

namespace Cell

theorem compare_real_of_toInt? {x : Binary64} {n : Int64}
    (hwhole : x.toInt? = some n.toInt) (a : Cell) :
    Cell.compare a (.real x) = Cell.compare a (.int n) := by
  cases a with
  | null => rfl
  | int m => exact Binary64.compareInt_of_toInt? hwhole m.toInt
  | real y => exact (Binary64.compareInt_swap_of_toInt? hwhole y).symm
  | text s => rfl
  | blob bytes => rfl

theorem toInt?_of_compare_eq {x : Binary64} {n : Int64}
    (h : Cell.compare (.int n) (.real x) = .eq) :
    x.toInt? = some n.toInt :=
  Binary64.toInt?_of_compareInt_eq h

theorem compare_int_self (n : Int64) :
    Cell.compare (.int n) (.int n) = .eq :=
  compare_eq_iff_eq.mpr rfl

variable [Conversions]

theorem numeric_real_of_toInt? {x : Binary64} {n : Int64}
    (hwhole : x.toInt? = some n.toInt) :
    Cell.numeric (.real x) = .int n ∨ Cell.numeric (.real x) = .real x := by
  rw [numeric, ofReal, hwhole]
  dsimp only
  split
  · exact .inl (congrArg Cell.int (Int64.ofInt_toInt n))
  · exact .inr rfl

theorem compare_numeric_of_toInt? {x : Binary64} {n : Int64}
    (hwhole : x.toInt? = some n.toInt) (a : Cell) :
    Cell.compare a (Cell.numeric (.real x)) =
      Cell.compare a (Cell.numeric (.int n)) := by
  have hint : Cell.numeric (.int n) = .int n := rfl
  rw [hint]
  rcases numeric_real_of_toInt? hwhole with heq | heq
  · rw [heq]
  · rw [heq, compare_real_of_toInt? hwhole]

theorem toInt?_of_compare_numeric_eq {x : Binary64} {n : Int64}
    (h : Cell.compare (.int n) (Cell.numeric (.real x)) = .eq) :
    x.toInt? = some n.toInt := by
  cases hwhole : x.toInt? with
  | none =>
      rw [Cell.numeric, Cell.ofReal, hwhole] at h
      exact hwhole ▸ Cell.toInt?_of_compare_eq h
  | some m =>
      rw [Cell.numeric, Cell.ofReal, hwhole] at h
      dsimp only at h
      split at h
      · rename_i hbounds
        rw [Bool.and_eq_true, decide_eq_true_iff, decide_eq_true_iff]
          at hbounds
        have hword : (Int64.ofInt m).toInt = m := by
          unfold Decimal.int64Bound at hbounds
          apply Int64.toInt_ofInt_of_le <;> omega
        have heq : n.toInt = (Int64.ofInt m).toInt := compare_eq_iff_eq.mp h
        rw [heq, hword]
      · exact hwhole ▸ Cell.toInt?_of_compare_eq h

end Cell

variable [Conversions]

theorem test_real_of_toInt? {x : Binary64} {n : Int64}
    (hwhole : x.toInt? = some n.toInt) (comparison : Comparison)
    {affinity? : Option Affinity} (hcolumn : affinity? ≠ some .text)
    (a : Cell) :
    test comparison affinity? a (.real x) =
      test comparison affinity? a (.int n) := by
  have horder : Cell.compare (a.aligned affinity? (.real x)).1
      (a.aligned affinity? (.real x)).2 =
        Cell.compare (a.aligned affinity? (.int n)).1
          (a.aligned affinity? (.int n)).2 := by
    rcases affinity? with _ | _ | _ | _ | _
    · exact Cell.compare_real_of_toInt? hwhole a
    · exact Cell.compare_real_of_toInt? hwhole a
    · exact absurd rfl hcolumn
    · exact Cell.compare_numeric_of_toInt? hwhole a.numeric
    · exact Cell.compare_numeric_of_toInt? hwhole a.numeric
  unfold test
  cases a.isNull with
  | true => rfl
  | false =>
      have hreal : (Cell.real x).isNull = false := rfl
      have hint : (Cell.int n).isNull = false := rfl
      rw [hreal, hint]
      exact congrArg some (congrArg _ horder)

theorem test_eq_int_self (affinity? : Option Affinity) (n : Int64) :
    test .eq affinity? (.int n) (.int n) = some true := by
  have hsame : (Cell.int n).aligned affinity? (.int n) =
      (.int n, .int n) := by
    rcases affinity? with _ | _ | _ | _ | _ <;> rfl
  have htest : test .eq affinity? (.int n) (.int n) =
      some (Comparison.accepts .eq
        (Cell.compare ((Cell.int n).aligned affinity? (.int n)).1
          ((Cell.int n).aligned affinity? (.int n)).2)) := rfl
  rw [htest, hsame, Cell.compare_int_self]
  rfl

/--
A whole number passes a test for being a binary number exactly if it is that
number, whatever conversion the column makes, unless it is one of texts.
-/
theorem test_eq_int_real {x : Binary64} {n : Int64}
    {affinity? : Option Affinity} (hcolumn : affinity? ≠ some .text) :
    test .eq affinity? (.int n) (.real x) = some true <->
      x.toInt? = some n.toInt := by
  constructor
  · intro htest
    have hpassed : Cell.compare ((Cell.int n).aligned affinity? (.real x)).1
        ((Cell.int n).aligned affinity? (.real x)).2 = .eq :=
      beq_iff_eq.mp (Option.some.inj htest)
    rcases affinity? with _ | _ | _ | _ | _
    · exact Cell.toInt?_of_compare_eq hpassed
    · exact Cell.toInt?_of_compare_eq hpassed
    · exact absurd rfl hcolumn
    · exact Cell.toInt?_of_compare_numeric_eq hpassed
    · exact Cell.toInt?_of_compare_numeric_eq hpassed
  · intro hwhole
    rw [test_real_of_toInt? hwhole .eq hcolumn]
    exact test_eq_int_self affinity? n

end Engine
end TableStore
