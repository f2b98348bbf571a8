import Mathlib
import TableStore.Proofs.Decimal.Rounding

/-!
# Order by exact value

Every finite number is a whole multiple of the smallest positive one.  The
multiples grow with the magnitudes, so the order of patterns is the order of
values, and comparing with a whole number by way of the exact fraction is the
same as comparing with the number of the format that is equal to it.
-/

namespace TableStore
namespace Decimal
namespace Binary64

/-!
# Multiples of the smallest number
-/

/-- How many times the smallest positive number a number is, without its sign. -/
def units (x : Binary64) : Nat :=
  x.significand * twoTo (x.exponent + 1074).toNat

/-- How many times the smallest positive number a number is. -/
def signedUnits (x : Binary64) : Int :=
  if x.negative then -(x.units : Int) else x.units

/-- The numerator of a finite number with its sign, over `denominator`. -/
def signedNumerator (x : Binary64) : Int :=
  if x.negative then -(x.numerator : Int) else x.numerator

theorem twoTo_add (m n : Nat) : twoTo (m + n) = twoTo m * twoTo n :=
  Nat.pow_add 2 m n

theorem twoTo_le_twoTo {m n : Nat} (hle : m <= n) : twoTo m <= twoTo n :=
  Nat.pow_le_pow_right (by decide) hle

theorem numerator_mul_twoTo (x : Binary64) :
    x.numerator * twoTo 1074 = x.units * x.denominator := by
  have hplace := x.exponent_ge
  rw [numerator, units, denominator, Nat.mul_assoc, Nat.mul_assoc, ← twoTo_add,
    ← twoTo_add]
  congr 2
  omega

theorem signedNumerator_mul_twoTo (x : Binary64) :
    x.signedNumerator * twoTo 1074 = x.signedUnits * x.denominator := by
  have hnat : (x.numerator : Int) * twoTo 1074 = x.units * x.denominator := by
    exact_mod_cast x.numerator_mul_twoTo
  unfold signedNumerator signedUnits
  split
  · rw [Int.neg_mul, Int.neg_mul, hnat]
  · exact hnat

theorem units_eq_zero_iff (x : Binary64) : x.units = 0 <-> x.magnitude = 0 := by
  have hsplit := x.magnitude_eq
  have hpos := twoTo_pos 52
  rw [units, Nat.mul_eq_zero, or_iff_left (Nat.ne_of_gt (twoTo_pos _))]
  rcases x.exponent_eq_or_le_significand with hsmall | hlarge
  · rw [hsmall.left] at hsplit
    have hzero : (-1074 + 1074 : Int).toNat * twoTo 52 = 0 := Nat.zero_mul _
    omega
  · omega

theorem units_congr {x y : Binary64} (hsame : x.magnitude = y.magnitude) :
    x.units = y.units := by
  unfold units significand exponent
  rw [hsame]

theorem units_lt_units {x y : Binary64} (hless : x.magnitude < y.magnitude) :
    x.units < y.units := by
  have hx := x.magnitude_eq
  have hy := y.magnitude_eq
  have hlimit := x.significand_lt
  have hlimit' := y.significand_lt
  rw [twoTo_fiftyThree] at hlimit hlimit'
  have hnormal := x.exponent_eq_or_le_significand
  have hnormal' := y.exponent_eq_or_le_significand
  have hplace := x.exponent_ge
  have hplace' := y.exponent_ge
  rcases Nat.lt_trichotomy (x.exponent + 1074).toNat (y.exponent + 1074).toNat
    with hbelow | hequal | habove
  · -- A number in a higher place has its leading digit, so it exceeds the lower place.
    have hsignificand : twoTo 52 <= y.significand := by omega
    calc x.units < 2 * twoTo 52 * twoTo (x.exponent + 1074).toNat :=
          Nat.mul_lt_mul_of_pos_right hlimit (twoTo_pos _)
      _ = twoTo 52 * twoTo ((x.exponent + 1074).toNat + 1) := by
          rw [twoTo_succ (x.exponent + 1074).toNat]
          ring
      _ <= twoTo 52 * twoTo (y.exponent + 1074).toNat :=
          Nat.mul_le_mul_left _ (twoTo_le_twoTo hbelow)
      _ <= y.units := Nat.mul_le_mul_right _ hsignificand
  · rw [hequal] at hx
    have hsignificand : x.significand < y.significand := by omega
    rw [units, units, hequal]
    exact Nat.mul_lt_mul_of_pos_right hsignificand (twoTo_pos _)
  · -- A higher place would make the magnitude the larger one.
    have hsignificand : twoTo 52 <= x.significand := by omega
    have hstep : ((y.exponent + 1074).toNat + 1) * twoTo 52 <=
        (x.exponent + 1074).toNat * twoTo 52 :=
      Nat.mul_le_mul_right _ habove
    rw [Nat.add_mul, Nat.one_mul] at hstep
    omega

/-!
# The order of patterns is the order of values
-/

theorem compare_congr {a b c d : Int} (hless : a < b <-> c < d)
    (hmore : b < a <-> d < c) : Ord.compare a b = Ord.compare c d := by
  rcases lt_trichotomy a b with hab | hab | hab
  · rw [compare_lt_iff_lt.mpr hab, compare_lt_iff_lt.mpr (hless.mp hab)]
  · have hcd : c = d := by omega
    rw [compare_eq_iff_eq.mpr hab, compare_eq_iff_eq.mpr hcd]
  · rw [compare_gt_iff_gt.mpr hab, compare_gt_iff_gt.mpr (hmore.mp hab)]

theorem compare_mul_right (a b : Int) {k : Int} (hk : 0 < k) :
    Ord.compare (a * k) (b * k) = Ord.compare a b := by
  apply compare_congr
  · exact Int.mul_lt_mul_right hk
  · exact Int.mul_lt_mul_right hk

theorem compare_swap (a b : Int) :
    (Ord.compare a b).swap = Ord.compare b a :=
  (Std.OrientedOrd.eq_swap (a := b) (b := a)).symm

theorem orderKey_lt_iff (x y : Binary64) :
    x.orderKey < y.orderKey <-> x.signedUnits < y.signedUnits := by
  have hless := @units_lt_units x y
  have hmore := @units_lt_units y x
  have hsame := @units_congr x y
  have hx := x.units_eq_zero_iff
  have hy := y.units_eq_zero_iff
  unfold orderKey signedUnits
  split <;> split <;> omega

theorem compare_eq (x y : Binary64) :
    Binary64.compare x y = Ord.compare x.signedUnits y.signedUnits :=
  compare_congr (orderKey_lt_iff x y) (orderKey_lt_iff y x)

/-!
# Whole numbers
-/

theorem toInt?_eq_some {x : Binary64} {n : Int} (hwhole : x.toInt? = some n) :
    x.isFinite = true ∧ x.signedNumerator = n * x.denominator := by
  unfold toInt? at hwhole
  split at hwhole
  · rename_i hcondition
    rw [Bool.and_eq_true, beq_iff_eq] at hcondition
    rcases hcondition with ⟨hfinite, hdivides⟩
    have hexact : (x.numerator / x.denominator : Nat) * x.denominator =
        x.numerator :=
      Nat.div_mul_cancel (Nat.dvd_of_mod_eq_zero hdivides)
    constructor
    · exact hfinite
    · cases hwhole
      unfold signedNumerator
      split
      · rw [Int.neg_mul]
        exact_mod_cast congrArg (fun k : Nat => -(k : Int)) hexact.symm
      · exact_mod_cast hexact.symm
  · cases hwhole

theorem signedUnits_of_toInt? {x : Binary64} {n : Int}
    (hwhole : x.toInt? = some n) : x.signedUnits = n * twoTo 1074 := by
  have hnumerator := (toInt?_eq_some hwhole).right
  have hunits := x.signedNumerator_mul_twoTo
  have hpos : (x.denominator : Int) ≠ 0 :=
    Int.natCast_ne_zero.mpr (Nat.ne_of_gt x.denominator_pos)
  apply Int.eq_of_mul_eq_mul_right hpos
  rw [← hunits, hnumerator]
  ring

theorem compareInt_of_isFinite {x : Binary64} (hfinite : x.isFinite = true)
    (n : Int) :
    compareInt n x = Ord.compare (n * x.denominator) x.signedNumerator := by
  rw [compareInt, if_pos hfinite]
  rfl

/-- A whole number is compared as the number of the format that is equal to it. -/
theorem compareInt_of_toInt? {x : Binary64} {n : Int}
    (hwhole : x.toInt? = some n) (m : Int) :
    compareInt m x = Ord.compare m n := by
  rcases toInt?_eq_some hwhole with ⟨hfinite, hnumerator⟩
  rw [compareInt_of_isFinite hfinite, hnumerator]
  exact compare_mul_right m n (Int.natCast_pos.mpr x.denominator_pos)

theorem toInt?_of_signedNumerator {x : Binary64} {n : Int}
    (hfinite : x.isFinite = true)
    (hnumerator : x.signedNumerator = n * x.denominator) :
    x.toInt? = some n := by
  have hpos := x.denominator_pos
  have hnat : x.numerator = n.natAbs * x.denominator := by
    have habs := congrArg Int.natAbs hnumerator
    rw [Int.natAbs_mul, Int.natAbs_natCast] at habs
    rw [<- habs, signedNumerator]
    split <;> simp
  have hdivides : x.numerator % x.denominator = 0 := by
    rw [hnat, Nat.mul_mod_left]
  have hquotient : x.numerator / x.denominator = n.natAbs := by
    rw [hnat, Nat.mul_div_cancel _ hpos]
  have hden : (x.denominator : Int) ≠ 0 :=
    Int.natCast_ne_zero.mpr (Nat.ne_of_gt hpos)
  rw [toInt?, hfinite, hdivides, hquotient]
  dsimp only
  rw [signedNumerator, hnat, Nat.cast_mul] at hnumerator
  cases hsign : x.negative with
  | true =>
      rw [hsign, if_pos rfl, <- Int.neg_mul] at hnumerator
      exact congrArg some (Int.eq_of_mul_eq_mul_right hden hnumerator)
  | false =>
      rw [hsign, if_neg Bool.false_ne_true] at hnumerator
      exact congrArg some (Int.eq_of_mul_eq_mul_right hden hnumerator)

theorem toInt?_of_compareInt_eq {x : Binary64} {n : Int}
    (h : compareInt n x = .eq) : x.toInt? = some n := by
  cases hfinite : x.isFinite with
  | true =>
      rw [compareInt_of_isFinite hfinite, compare_eq_iff_eq] at h
      exact toInt?_of_signedNumerator hfinite h.symm
  | false =>
      rw [compareInt, hfinite, if_neg Bool.false_ne_true] at h
      split at h
      · cases h
      · cases h

/-- In units of the least binary number both sides are whole. -/
theorem compareInt_eq_of_isFinite {x : Binary64} (hfinite : x.isFinite = true)
    (n : Int) : compareInt n x = Ord.compare (n * twoTo 1074) x.signedUnits := by
  have htwo : (0 : Int) < twoTo 1074 := Int.natCast_pos.mpr (twoTo_pos _)
  have hden : (0 : Int) < x.denominator := Int.natCast_pos.mpr x.denominator_pos
  have hx := x.signedNumerator_mul_twoTo
  generalize (twoTo 1074 : Int) = scale at htwo hx ⊢
  rw [compareInt_of_isFinite hfinite, <- compare_mul_right _ _ htwo, hx,
    <- compare_mul_right _ x.signedUnits hden]
  congr 1
  ring

/-- What is not finite is beyond every whole number, on the side of its sign. -/
theorem le_units_of_not_isFinite {x : Binary64} (h : x.isFinite = false) :
    twoTo 64 * twoTo 1074 <= x.units := by
  have hleast : twoTo 64 * twoTo 1074 <=
      (ofMagnitude false infinityMagnitude).units := by decide +kernel
  have hinfinity : (ofMagnitude false infinityMagnitude).magnitude =
      infinityMagnitude := by decide +kernel
  have hmagnitude : infinityMagnitude <= x.magnitude :=
    Nat.le_of_not_lt (of_decide_eq_false h)
  rcases Nat.eq_or_lt_of_le hmagnitude with heq | hlt
  · exact hleast.trans_eq (units_congr (hinfinity.trans heq))
  · exact hleast.trans (units_lt_units (hinfinity ▸ hlt)).le

theorem compareInt_eq {n : Int} (hn : n.natAbs < twoTo 64) (x : Binary64) :
    compareInt n x = Ord.compare (n * twoTo 1074) x.signedUnits := by
  cases hfinite : x.isFinite with
  | true => exact compareInt_eq_of_isFinite hfinite n
  | false =>
      have hlarge : (twoTo 64 : Int) * twoTo 1074 <= x.units := by
        exact_mod_cast le_units_of_not_isFinite hfinite
      have hsmall : -(twoTo 64 * twoTo 1074 : Int) < n * twoTo 1074 ∧
          n * twoTo 1074 < (twoTo 64 * twoTo 1074 : Int) := by
        have htwo : (0 : Int) < twoTo 1074 := Int.natCast_pos.mpr (twoTo_pos _)
        rw [<- Int.neg_mul]
        exact ⟨Int.mul_lt_mul_of_pos_right (by omega) htwo,
          Int.mul_lt_mul_of_pos_right (by omega) htwo⟩
      rw [compareInt, hfinite, if_neg Bool.false_ne_true]
      cases hsign : x.negative with
      | true =>
          simp only [signedUnits, hsign, if_true]
          exact (compare_gt_iff_gt.mpr (by omega)).symm
      | false =>
          simp only [signedUnits, hsign, Bool.false_eq_true, if_false]
          exact (compare_lt_iff_lt.mpr (by omega)).symm

theorem compareInt_swap_of_toInt? {x : Binary64} {n : Int}
    (hwhole : x.toInt? = some n) (y : Binary64) :
    (compareInt n y).swap = Binary64.compare y x := by
  cases hfinite : y.isFinite with
  | true =>
      rw [compareInt_eq_of_isFinite hfinite, compare_swap, compare_eq,
        signedUnits_of_toInt? hwhole]
  | false =>
      have hx : x.magnitude < infinityMagnitude :=
        of_decide_eq_true (toInt?_eq_some hwhole).left
      have hy : ¬ y.magnitude < infinityMagnitude := of_decide_eq_false hfinite
      rw [compareInt, hfinite, if_neg Bool.false_ne_true, Binary64.compare]
      cases hsign : y.negative with
      | true =>
          have hless : y.orderKey < x.orderKey := by
            simp only [orderKey, hsign, if_true]
            split <;> omega
          exact (compare_lt_iff_lt.mpr hless).symm
      | false =>
          have hmore : x.orderKey < y.orderKey := by
            simp only [orderKey, hsign, Bool.false_eq_true, if_false]
            split <;> omega
          exact (compare_gt_iff_gt.mpr hmore).symm

end Binary64
end Decimal
end TableStore
