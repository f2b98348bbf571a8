import TableStore.Proofs.Decimal.Order
import TableStore.Proofs.Decimal.Shortest

/-!
# Whole numbers in the binary format

A number of the format that is whole is the one nearest to the whole number, except for
the negative zero, and digits without a point stand for the same number as the whole
number that they spell.  A large whole number stays above the powers of two that are
below it.
-/

namespace TableStore
namespace Decimal
namespace Binary64

theorem numerator_of_toInt? {x : Binary64} {n : Int} (hwhole : x.toInt? = some n) :
    x.numerator = n.natAbs * x.denominator := by
  have habs := congrArg Int.natAbs (toInt?_eq_some hwhole).right
  rw [Int.natAbs_mul, Int.natAbs_natCast] at habs
  rw [<- habs, signedNumerator]
  split <;> simp

theorem nearestMagnitude_of_toInt? {x : Binary64} {n : Int}
    (hwhole : x.toInt? = some n) :
    nearestMagnitude n.natAbs 1 = x.magnitude := by
  have hpos := x.denominator_pos
  rw [<- nearestMagnitude_exact x (toInt?_eq_some hwhole).left,
    numerator_of_toInt? hwhole]
  apply nearestMagnitude_congr Nat.one_pos hpos
  have hne : (x.denominator : ℚ) ≠ 0 := by exact_mod_cast Nat.ne_of_gt hpos
  push_cast
  field_simp

theorem eq_of_magnitude_zero {x : Binary64} (hmagnitude : x.magnitude = 0)
    (hzero : x ≠ zero.neg) : x.negative = false := by
  cases hsign : x.negative with
  | false => rfl
  | true =>
      have hx := eq_ofMagnitude x
      rw [hsign, hmagnitude] at hx
      exact absurd (hx.trans (neg_ofMagnitude false (twoTo_pos 63)).symm) hzero

theorem negative_of_toInt? {x : Binary64} {n : Int} (hwhole : x.toInt? = some n)
    (hzero : x ≠ zero.neg) : x.negative = decide (n < 0) := by
  have hpos : (0 : Int) < x.denominator := Int.natCast_pos.mpr x.denominator_pos
  have hnumerator := (toInt?_eq_some hwhole).right
  rw [signedNumerator] at hnumerator
  cases hsign : x.negative with
  | false =>
      rw [hsign, if_neg Bool.false_ne_true] at hnumerator
      have hnonneg : 0 <= n * x.denominator := by
        rw [<- hnumerator]
        exact Int.natCast_nonneg _
      have hle := nonneg_of_mul_nonneg_left hnonneg hpos
      exact (decide_eq_false (Int.not_lt.mpr hle)).symm
  | true =>
      rw [hsign, if_pos rfl] at hnumerator
      have hnonpos : n * x.denominator <= 0 := by
        rw [<- hnumerator]
        exact Int.neg_nonpos_of_nonneg (Int.natCast_nonneg _)
      have hle := nonpos_of_mul_nonpos_left hnonpos hpos
      have hne : n ≠ 0 := by
        rintro rfl
        have hpositive := eq_of_magnitude_zero
          (nearestMagnitude_of_toInt? hwhole).symm hzero
        rw [hsign] at hpositive
        cases hpositive
      exact (decide_eq_true (lt_of_le_of_ne hle hne)).symm

/-- A whole number of the format is found again as the nearest one. -/
theorem ofInt_of_toInt? {x : Binary64} {n : Int} (hwhole : x.toInt? = some n)
    (hzero : x ≠ zero.neg) : ofInt n = x := by
  rw [ofInt, nearest, nearestMagnitude_of_toInt? hwhole,
    <- negative_of_toInt? hwhole hzero, <- eq_ofMagnitude]

theorem ofDecimal_natAbs {n : Int} (hlow : -(2 ^ 64) < n) (hhigh : n < 2 ^ 64) :
    ofDecimal (n < 0) n.natAbs 0 = ofInt n := by
  have hplace : 0 <= firstPlace n.natAbs 0 ∧ firstPlace n.natAbs 0 <= 400 := by
    have hlog : n.natAbs.log2 < 64 := by
      rcases Nat.eq_zero_or_pos n.natAbs with hzero | hpos
      · rw [hzero]
        decide
      · exact (Nat.log2_lt (Nat.ne_of_gt hpos)).mpr (by omega)
    rw [firstPlace]
    omega
  rw [ofDecimal_eq, ofInt, nearest, readMagnitude]
  split
  · rename_i hzero
    rw [hzero]
    rfl
  · rw [if_neg (by omega), if_neg (by omega)]
    simp

/-!
# Large whole numbers
-/

theorem log_le_binaryScale {n : Nat} {bits : Nat} (hn : 2 ^ bits <= n) :
    (bits : Int) <= binaryScale n 1 := by
  have hpos : 0 < n := Nat.lt_of_lt_of_le (Nat.two_pow_pos bits) hn
  rw [binaryScale_eq hpos Nat.one_pos, Nat.cast_one, div_one, Int.log_natCast]
  exact_mod_cast (Nat.le_log_iff_pow_le (by decide) (Nat.ne_of_gt hpos)).mpr hn

theorem le_numerator_of_le_magnitude {x : Binary64} {places : Nat}
    (hle : (places + 1075) * twoTo 52 <= x.magnitude) :
    twoTo (52 + places) <= x.numerator ∧ x.denominator = 1 := by
  have hsplit := x.magnitude_eq
  have hlimit := x.significand_lt
  have hplace := x.exponent_ge
  have hpos := twoTo_pos 52
  rw [twoTo_fiftyThree] at hlimit
  have hexponent : (places : Int) <= x.exponent := by
    by_contra hless
    have hcount : (x.exponent + 1074).toNat + 1 <= places + 1074 := by omega
    have hmul := Nat.mul_le_mul_right (twoTo 52) hcount
    rw [Nat.succ_mul] at hmul
    rw [Nat.succ_mul] at hle
    omega
  have hsignificand : twoTo 52 <= x.significand := by
    rcases x.exponent_eq_or_le_significand with ⟨hsmall, _⟩ | hlarge
    · omega
    · exact hlarge
  constructor
  · rw [twoTo_add]
    exact Nat.mul_le_mul hsignificand (twoTo_le_twoTo (by omega))
  · have hzero : (-x.exponent).toNat = 0 := by omega
    rw [denominator, hzero]
    rfl

/-- Rounding does not take a whole number below a power of two. -/
theorem two_pow_le_of_toInt? {n bits : Nat} (hbits : 52 <= bits)
    (hlow : 2 ^ bits <= n) (hhigh : n < 2 ^ 64) {m : Int}
    (hwhole : (ofInt n).toInt? = some m) : 2 ^ bits <= m.natAbs := by
  have hpos : 0 < n := Nat.lt_of_lt_of_le (Nat.two_pow_pos bits) hlow
  have hscale := log_le_binaryScale hlow
  have hplace : lastPlace n 1 = binaryScale n 1 - 52 := by
    rw [lastPlace, max_eq_left (by omega)]
  have hplaces := le_roundedPlaces hpos Nat.one_pos hplace
  have hfinite : (ofInt n).magnitude < infinityMagnitude :=
    of_decide_eq_true (isFinite_ofInt (by omega) (by omega))
  have hmagnitude : (ofInt n).magnitude = nearestMagnitude n 1 := by
    rw [ofInt, nearest, Int.natAbs_natCast]
    exact magnitude_ofMagnitude _
      (Nat.lt_of_le_of_lt (nearestMagnitude_le n 1) infinityMagnitude_lt)
  rw [hmagnitude, nearestMagnitude_eq hpos] at hfinite
  have hle : ((binaryScale n 1 - 52).toNat + 1075) * twoTo 52 <=
      (ofInt n).magnitude := by
    have hcount : (lastPlace n 1 + 1074).toNat = (binaryScale n 1 - 52).toNat + 1074 := by
      omega
    rw [hmagnitude, nearestMagnitude_eq hpos, hcount, Nat.succ_mul]
    rw [hcount] at hfinite
    omega
  rcases le_numerator_of_le_magnitude hle with ⟨hnumerator, hone⟩
  rw [numerator_of_toInt? hwhole, hone, Nat.mul_one] at hnumerator
  exact Nat.le_trans (twoTo_le_twoTo (by omega)) hnumerator

end Binary64
end Decimal
end TableStore
