import Mathlib
import TableStore.Decimal.Binary64

/-!
# Rounding of quotients

The number of the binary format nearest to a quotient depends on the quotient
alone, not on the numerator and the denominator that it is given by.  Its
magnitude is bounded by the quotient, and the exact value of a number is rounded
to that number.

Every scaling in the definitions multiplies the numerator by one power and the
denominator by another, of which at least one is the power zero; on quotients
this is one multiplication by a power with a signed exponent.
-/

namespace TableStore
namespace Decimal

/-!
# Scaled quotients
-/

@[simp] theorem cast_twoTo (n : Nat) : (twoTo n : ℚ) = 2 ^ n := by
  simp [twoTo]

@[simp] theorem cast_tenTo (n : Nat) : (tenTo n : ℚ) = 10 ^ n := by
  simp [tenTo]

theorem zpow_eq_pow_div_pow (base : ℚ) (e : Int) :
    base ^ e = base ^ e.toNat / base ^ (-e).toNat := by
  rcases Int.le_total 0 e with he | he
  · have hneg : (-e).toNat = 0 := by omega
    rw [hneg, pow_zero, div_one, ← zpow_natCast, Int.toNat_of_nonneg he]
  · have hpos : e.toNat = 0 := by omega
    rw [hpos, pow_zero, one_div, ← zpow_natCast,
      Int.toNat_of_nonneg (by omega : 0 <= -e), zpow_neg, inv_inv]

theorem quotient_twoTo (num den : Nat) (e : Int) :
    ((num * twoTo (-e).toNat : Nat) : ℚ) / (den * twoTo e.toNat : Nat) =
      num / den * 2 ^ (-e) := by
  rw [zpow_eq_pow_div_pow 2 (-e), neg_neg]
  push_cast [cast_twoTo]
  rw [div_mul_div_comm]

theorem quotient_tenTo (num den : Nat) (e : Int) :
    ((num * tenTo (-e).toNat : Nat) : ℚ) / (den * tenTo e.toNat : Nat) =
      num / den * 10 ^ (-e) := by
  rw [zpow_eq_pow_div_pow 10 (-e), neg_neg]
  push_cast [cast_tenTo]
  rw [div_mul_div_comm]

theorem lt_twoTo_iff {num den : Nat} (hden : 0 < den) (e : Int) :
    num * twoTo (-e).toNat < den * twoTo e.toNat <->
      (num : ℚ) / den < 2 ^ e := by
  have hscaled : 0 < den * twoTo e.toNat :=
    Nat.mul_pos hden (twoTo_pos _)
  have hpower : (0 : ℚ) < 2 ^ e := by positivity
  rw [← Nat.cast_lt (α := ℚ), ← div_lt_one (by exact_mod_cast hscaled),
    quotient_twoTo, zpow_neg, ← div_eq_mul_inv, div_lt_one hpower]

namespace Binary64

/-!
# The parts of rounding
-/

theorem two_zpow_log2_le {n : Nat} (hn : 0 < n) : (2 : ℚ) ^ (n.log2 : Int) <= n := by
  rw [zpow_natCast]
  exact_mod_cast Nat.log2_self_le (Nat.ne_of_gt hn)

theorem lt_two_zpow_log2 (n : Nat) : (n : ℚ) < 2 ^ ((n.log2 : Int) + 1) := by
  have hlt : n < 2 ^ (n.log2 + 1) := Nat.lt_log2_self
  rw [← Nat.cast_succ, zpow_natCast]
  exact_mod_cast hlt

theorem log_eq_of_bounds {q : ℚ} {e : Int} (hlow : 2 ^ e <= q)
    (hhigh : q < 2 ^ (e + 1)) : Int.log 2 q = e := by
  have hq : 0 < q := lt_of_lt_of_le (by positivity) hlow
  have hle : e <= Int.log 2 q :=
    (Int.zpow_le_iff_le_log (by norm_num) hq).mp (by exact_mod_cast hlow)
  have hlt : Int.log 2 q < e + 1 :=
    (Int.lt_zpow_iff_log_lt (by norm_num) hq).mp (by exact_mod_cast hhigh)
  omega

theorem binaryScale_eq {num den : Nat} (hnum : 0 < num) (hden : 0 < den) :
    binaryScale num den = Int.log 2 ((num : ℚ) / den) := by
  have hpos : (0 : ℚ) < den := by exact_mod_cast hden
  have hlow : (2 : ℚ) ^ ((num.log2 : Int) - den.log2 - 1) <= num / den := by
    rw [le_div_iff₀ hpos]
    have hhigh := (lt_two_zpow_log2 den).le
    calc (2 : ℚ) ^ ((num.log2 : Int) - den.log2 - 1) * den
        <= 2 ^ ((num.log2 : Int) - den.log2 - 1) * 2 ^ ((den.log2 : Int) + 1) :=
          mul_le_mul_of_nonneg_left hhigh (by positivity)
      _ = 2 ^ (num.log2 : Int) := by
          rw [← zpow_add₀ (by norm_num)]
          congr 1
          omega
      _ <= num := two_zpow_log2_le hnum
  have hhigh : (num : ℚ) / den < 2 ^ ((num.log2 : Int) - den.log2 + 1) := by
    rw [div_lt_iff₀ hpos]
    have hlow := two_zpow_log2_le hden
    calc (num : ℚ) < 2 ^ ((num.log2 : Int) + 1) := lt_two_zpow_log2 num
      _ = 2 ^ ((num.log2 : Int) - den.log2 + 1) * 2 ^ (den.log2 : Int) := by
          rw [← zpow_add₀ (by norm_num)]
          congr 1
          omega
      _ <= 2 ^ ((num.log2 : Int) - den.log2 + 1) * den :=
          mul_le_mul_of_nonneg_left hlow (by positivity)
  -- The lengths of both numbers leave two scales, between which they are compared.
  unfold binaryScale
  dsimp only
  split
  · rename_i hless
    have hless := (lt_twoTo_iff hden _).mp hless
    symm
    apply log_eq_of_bounds hlow
    rwa [sub_add_cancel]
  · rename_i hless
    rw [lt_twoTo_iff hden, not_lt] at hless
    exact (log_eq_of_bounds hless hhigh).symm

section HalfEven

variable {num den k : Nat}

theorem roundHalfEven_mul_right (num den : Nat) {k : Nat} (hk : 0 < k) :
    roundHalfEven (num * k) (den * k) = roundHalfEven num den := by
  unfold roundHalfEven
  dsimp only
  rw [Nat.mul_div_mul_right _ _ hk, Nat.mul_mod_mul_right, ← Nat.mul_assoc]
  simp only [Nat.mul_lt_mul_right hk]

theorem roundHalfEven_le (hden : 0 < den) (hle : num <= k * den) :
    roundHalfEven num den <= k := by
  have hdiv : num / den <= k := Nat.div_le_of_le_mul (by rwa [Nat.mul_comm])
  have hsplit := Nat.div_add_mod num den
  have hrest := Nat.mod_lt num hden
  unfold roundHalfEven
  dsimp only
  rcases Nat.lt_or_eq_of_le hdiv with hlt | heq
  · split
    · omega
    · split <;> omega
  · have hzero : num % den = 0 := by
      rw [heq, Nat.mul_comm den k] at hsplit
      omega
    rw [hzero, if_pos (by omega)]
    exact hdiv

theorem le_roundHalfEven (hden : 0 < den) (hle : k * den <= num) :
    k <= roundHalfEven num den := by
  have hdiv : k <= num / den := (Nat.le_div_iff_mul_le hden).mpr hle
  unfold roundHalfEven
  dsimp only
  split
  · exact hdiv
  · split <;> omega

theorem roundHalfEven_eq_zero (hless : 2 * num < den) :
    roundHalfEven num den = 0 := by
  have hlt : num < den := by omega
  unfold roundHalfEven
  dsimp only
  rw [Nat.mod_eq_of_lt hlt, Nat.div_eq_of_lt hlt, if_pos hless]

theorem roundHalfEven_congr {num' den' : Nat} (hden : 0 < den)
    (hden' : 0 < den') (heq : (num : ℚ) / den = num' / den') :
    roundHalfEven num den = roundHalfEven num' den' := by
  have hne : (den : ℚ) ≠ 0 := by exact_mod_cast Nat.ne_of_gt hden
  have hne' : (den' : ℚ) ≠ 0 := by exact_mod_cast Nat.ne_of_gt hden'
  rw [div_eq_div_iff hne hne'] at heq
  have hcross : num * den' = num' * den := by exact_mod_cast heq
  rw [← roundHalfEven_mul_right num den hden', hcross, Nat.mul_comm den den',
    roundHalfEven_mul_right num' den' hden]

end HalfEven

/-!
# Rounding depends on the quotient alone
-/

/-- The power of two of the last binary place of the number nearest to a quotient. -/
def lastPlace (num den : Nat) : Int :=
  max (binaryScale num den - 52) (-1074)

/-- The number of last places that a quotient is rounded to. -/
def roundedPlaces (num den : Nat) : Nat :=
  let place := lastPlace num den
  roundHalfEven (num * twoTo (-place).toNat) (den * twoTo place.toNat)

theorem nearestMagnitude_eq {num : Nat} (hnum : 0 < num) (den : Nat) :
    nearestMagnitude num den =
      min ((lastPlace num den + 1074).toNat * twoTo 52 + roundedPlaces num den)
        infinityMagnitude := by
  rw [nearestMagnitude, if_neg (Nat.ne_of_gt hnum)]
  rfl

theorem nearestMagnitude_congr {num den num' den' : Nat} (hden : 0 < den)
    (hden' : 0 < den') (heq : (num : ℚ) / den = num' / den') :
    nearestMagnitude num den = nearestMagnitude num' den' := by
  have hpos : (0 : ℚ) < den := by exact_mod_cast hden
  have hpos' : (0 : ℚ) < den' := by exact_mod_cast hden'
  rcases Nat.eq_zero_or_pos num with hzero | hnum
  · rw [hzero, Nat.cast_zero, zero_div, eq_comm, div_eq_zero_iff] at heq
    have hzero' : num' = 0 := by
      rcases heq with heq | heq
      · exact_mod_cast heq
      · exact absurd heq (ne_of_gt hpos')
    rw [hzero, hzero', nearestMagnitude, nearestMagnitude, if_pos rfl,
      if_pos rfl]
  · have hquotient : (0 : ℚ) < num / den := by positivity
    have hnum' : 0 < num' := by
      apply Nat.pos_of_ne_zero
      intro hzero
      rw [heq, hzero, Nat.cast_zero, zero_div] at hquotient
      exact lt_irrefl 0 hquotient
    have hplace : lastPlace num den = lastPlace num' den' := by
      rw [lastPlace, lastPlace, binaryScale_eq hnum hden,
        binaryScale_eq hnum' hden', heq]
    have hrounded : roundedPlaces num den = roundedPlaces num' den' := by
      rw [roundedPlaces, roundedPlaces, hplace]
      apply roundHalfEven_congr (Nat.mul_pos hden (twoTo_pos _))
        (Nat.mul_pos hden' (twoTo_pos _))
      rw [quotient_twoTo, quotient_twoTo, heq]
    rw [nearestMagnitude_eq hnum, nearestMagnitude_eq hnum', hplace, hrounded]

/-!
# How far the rounded number can be
-/

section Bounds

variable {num den : Nat}

theorem roundHalfEven_le_of_quotient_le {k : Nat} (hden : 0 < den)
    (hle : (num : ℚ) / den <= k) : roundHalfEven num den <= k := by
  apply roundHalfEven_le hden
  rw [div_le_iff₀ (by exact_mod_cast hden)] at hle
  exact_mod_cast hle

theorem le_roundHalfEven_of_le_quotient {k : Nat} (hden : 0 < den)
    (hle : (k : ℚ) <= num / den) : k <= roundHalfEven num den := by
  apply le_roundHalfEven hden
  rw [le_div_iff₀ (by exact_mod_cast hden)] at hle
  exact_mod_cast hle

theorem scaled_den_pos (hden : 0 < den) (n : Nat) : 0 < den * twoTo n :=
  Nat.mul_pos hden (twoTo_pos n)

theorem roundedPlaces_le_of_quotient_le {k : Nat} (hden : 0 < den)
    (hle : (num : ℚ) / den * 2 ^ (-lastPlace num den) <= k) :
    roundedPlaces num den <= k := by
  apply roundHalfEven_le_of_quotient_le (scaled_den_pos hden _)
  rwa [quotient_twoTo]

theorem le_roundedPlaces_of_le_quotient {k : Nat} (hden : 0 < den)
    (hle : (k : ℚ) <= num / den * 2 ^ (-lastPlace num den)) :
    k <= roundedPlaces num den := by
  apply le_roundHalfEven_of_le_quotient (scaled_den_pos hden _)
  rwa [quotient_twoTo]

theorem scaled_quotient_lt (hnum : 0 < num) (hden : 0 < den) :
    (num : ℚ) / den * 2 ^ (-lastPlace num den) < 2 ^ (53 : Int) := by
  have hplace : binaryScale num den - 52 <= lastPlace num den := le_max_left _ _
  rw [binaryScale_eq hnum hden] at hplace
  have hless : (num : ℚ) / den < 2 ^ (Int.log 2 ((num : ℚ) / den) + 1) := by
    exact_mod_cast Int.lt_zpow_succ_log_self (b := 2) (by norm_num)
      ((num : ℚ) / den)
  calc (num : ℚ) / den * 2 ^ (-lastPlace num den)
      < 2 ^ (Int.log 2 ((num : ℚ) / den) + 1) * 2 ^ (-lastPlace num den) :=
        mul_lt_mul_of_pos_right hless (by positivity)
    _ = 2 ^ (Int.log 2 ((num : ℚ) / den) + 1 - lastPlace num den) := by
        rw [← zpow_add₀ (by norm_num), sub_eq_add_neg]
    _ <= 2 ^ (53 : Int) := zpow_le_zpow_right₀ (by norm_num) (by omega)

theorem roundedPlaces_le (hnum : 0 < num) (hden : 0 < den) :
    roundedPlaces num den <= twoTo 53 := by
  apply roundedPlaces_le_of_quotient_le hden
  rw [cast_twoTo]
  exact_mod_cast (scaled_quotient_lt hnum hden).le

theorem le_roundedPlaces (hnum : 0 < num) (hden : 0 < den)
    (hplace : lastPlace num den = binaryScale num den - 52) :
    twoTo 52 <= roundedPlaces num den := by
  have hquotient : (0 : ℚ) < num / den := by positivity
  have hle : (2 : ℚ) ^ Int.log 2 ((num : ℚ) / den) <= num / den := by
    exact_mod_cast Int.zpow_log_le_self (b := 2) (by norm_num) hquotient
  apply le_roundedPlaces_of_le_quotient hden
  rw [hplace, binaryScale_eq hnum hden, cast_twoTo]
  calc (2 : ℚ) ^ 52
      = 2 ^ Int.log 2 ((num : ℚ) / den) *
          2 ^ (-(Int.log 2 ((num : ℚ) / den) - 52)) := by
        rw [← zpow_add₀ (by norm_num), ← zpow_natCast]
        congr 1
        omega
    _ <= num / den * 2 ^ (-(Int.log 2 ((num : ℚ) / den) - 52)) :=
        mul_le_mul_of_nonneg_right hle (by positivity)

theorem infinityMagnitude_eq : infinityMagnitude = 2047 * twoTo 52 := rfl

theorem twoTo_fiftyThree : twoTo 53 = 2 * twoTo 52 := by
  rw [twoTo_succ, Nat.mul_comm]

theorem nearestMagnitude_lt_infinityMagnitude (hden : 0 < den)
    (hless : (num : ℚ) / den < 2 ^ (1023 : Int)) :
    nearestMagnitude num den < infinityMagnitude := by
  have hone := twoTo_pos 52
  rcases Nat.eq_zero_or_pos num with hzero | hnum
  · rw [nearestMagnitude, if_pos hzero, infinityMagnitude_eq]
    omega
  · have hquotient : (0 : ℚ) < num / den := by positivity
    have hscale : Int.log 2 ((num : ℚ) / den) < 1023 :=
      (Int.lt_zpow_iff_log_lt (by norm_num) hquotient).mp
        (by exact_mod_cast hless)
    have hplace : (lastPlace num den + 1074).toNat <= 2044 := by
      rw [lastPlace, binaryScale_eq hnum hden]
      omega
    have hwhole := Nat.mul_le_mul_right (twoTo 52) hplace
    have hrounded := roundedPlaces_le hnum hden
    rw [twoTo_fiftyThree] at hrounded
    rw [nearestMagnitude_eq hnum, infinityMagnitude_eq]
    omega

theorem quotient_lt_of_nearestMagnitude_lt (hden : 0 < den)
    (hless : nearestMagnitude num den < infinityMagnitude) :
    (num : ℚ) / den < 2 ^ (1024 : Int) := by
  rcases Nat.eq_zero_or_pos num with hzero | hnum
  · rw [hzero, Nat.cast_zero, zero_div]
    positivity
  · have hquotient : (0 : ℚ) < num / den := by positivity
    by_contra hlarge
    rw [not_lt] at hlarge
    have hscale : 1024 <= Int.log 2 ((num : ℚ) / den) :=
      (Int.zpow_le_iff_le_log (by norm_num) hquotient).mp
        (by exact_mod_cast hlarge)
    have hplace : lastPlace num den = binaryScale num den - 52 := by
      rw [lastPlace, binaryScale_eq hnum hden]
      omega
    have hcount : 2046 <= (lastPlace num den + 1074).toNat := by
      rw [hplace, binaryScale_eq hnum hden]
      omega
    have hwhole := Nat.mul_le_mul_right (twoTo 52) hcount
    have hrounded := le_roundedPlaces hnum hden hplace
    rw [nearestMagnitude_eq hnum, infinityMagnitude_eq] at hless
    omega

theorem le_quotient_of_nearestMagnitude_ne_zero (hden : 0 < den)
    (hne : nearestMagnitude num den ≠ 0) :
    2 ^ (-1075 : Int) <= (num : ℚ) / den := by
  by_contra hsmall
  rw [not_le] at hsmall
  rcases Nat.eq_zero_or_pos num with hzero | hnum
  · rw [nearestMagnitude, if_pos hzero] at hne
    exact hne rfl
  · have hquotient : (0 : ℚ) < num / den := by positivity
    have hscale : Int.log 2 ((num : ℚ) / den) < -1075 :=
      (Int.lt_zpow_iff_log_lt (by norm_num) hquotient).mp
        (by exact_mod_cast hsmall)
    have hplace : lastPlace num den = -1074 := by
      rw [lastPlace, binaryScale_eq hnum hden]
      omega
    have hrounded : roundedPlaces num den = 0 := by
      rw [roundedPlaces, hplace]
      apply roundHalfEven_eq_zero
      have htwice : ((2 * num : Nat) : ℚ) / den < 2 ^ (-1074 : Int) := by
        have hstep : (2 : ℚ) ^ (-1074 : Int) = 2 * 2 ^ (-1075 : Int) := by
          rw [← zpow_one_add₀ (by norm_num)]
          norm_num
        rw [hstep, Nat.cast_mul, mul_div_assoc, Nat.cast_two]
        exact mul_lt_mul_of_pos_left hsmall (by norm_num)
      have hscaled := (lt_twoTo_iff hden (-1074)).mpr htwice
      rwa [Nat.mul_assoc] at hscaled
    apply hne
    rw [nearestMagnitude_eq hnum, hrounded, hplace]
    rfl

end Bounds

/-!
# Exact values are kept
-/

theorem denominator_pos (x : Binary64) : 0 < x.denominator :=
  twoTo_pos _

theorem magnitude_eq (x : Binary64) :
    x.magnitude = (x.exponent + 1074).toNat * twoTo 52 + x.significand := by
  have hsplit := Nat.div_add_mod x.magnitude (twoTo 52)
  unfold exponent significand
  dsimp only
  generalize x.magnitude / twoTo 52 = field at hsplit ⊢
  rcases field with _ | field
  · have hcount : ((-1074 : Int) + 1074).toNat = 0 := rfl
    rw [if_pos rfl, if_pos rfl, hcount]
    omega
  · have hcount : ((((field + 1 : Nat) : Int) - 1075) + 1074).toNat = field := by
      omega
    rw [if_neg (Nat.succ_ne_zero _), if_neg (Nat.succ_ne_zero _), hcount]
    rw [Nat.mul_succ, Nat.mul_comm (twoTo 52) field] at hsplit
    omega

theorem significand_lt (x : Binary64) : x.significand < twoTo 53 := by
  have hrest := Nat.mod_lt x.magnitude (twoTo_pos 52)
  rw [twoTo_fiftyThree]
  unfold significand
  dsimp only
  split <;> omega

theorem exponent_ge (x : Binary64) : -1074 <= x.exponent := by
  unfold exponent
  dsimp only
  generalize x.magnitude / twoTo 52 = field
  split <;> omega

theorem exponent_eq_or_le_significand (x : Binary64) :
    x.exponent = -1074 ∧ x.significand < twoTo 52 ∨
      twoTo 52 <= x.significand := by
  have hrest := Nat.mod_lt x.magnitude (twoTo_pos 52)
  unfold exponent significand
  dsimp only
  split
  · exact .inl ⟨rfl, hrest⟩
  · exact .inr (Nat.le_add_right _ _)

theorem numerator_div_denominator (x : Binary64) :
    (x.numerator : ℚ) / x.denominator = x.significand * 2 ^ x.exponent := by
  rw [numerator, denominator, zpow_eq_pow_div_pow 2 x.exponent]
  push_cast [cast_twoTo]
  rw [mul_div_assoc]

theorem log_value_lt (x : Binary64) (hpos : 0 < x.significand)
    (hexponent : x.exponent = -1074) (hsmall : x.significand < twoTo 52) :
    Int.log 2 ((x.significand : ℚ) * 2 ^ x.exponent) < -1022 := by
  have hbelow : (x.significand : ℚ) < 2 ^ (52 : Int) := by
    exact_mod_cast hsmall
  have hless : (x.significand : ℚ) * 2 ^ x.exponent < 2 ^ (-1022 : Int) := by
    calc (x.significand : ℚ) * 2 ^ x.exponent
        < 2 ^ (52 : Int) * 2 ^ x.exponent :=
          mul_lt_mul_of_pos_right hbelow (by positivity)
      _ = 2 ^ (-1022 : Int) := by
          rw [hexponent, ← zpow_add₀ (by norm_num)]
          norm_num
  exact (Int.lt_zpow_iff_log_lt (by norm_num) (by positivity)).mp
    (by exact_mod_cast hless)

theorem log_value_eq (x : Binary64) (hlarge : twoTo 52 <= x.significand) :
    Int.log 2 ((x.significand : ℚ) * 2 ^ x.exponent) = 52 + x.exponent := by
  have hlow : (2 : ℚ) ^ (52 : Int) <= x.significand := by
    exact_mod_cast hlarge
  have hhigh : (x.significand : ℚ) < 2 ^ (53 : Int) := by
    exact_mod_cast x.significand_lt
  apply log_eq_of_bounds
  · rw [zpow_add₀ (by norm_num)]
    exact mul_le_mul_of_nonneg_right hlow (by positivity)
  · have hsum : 52 + x.exponent + 1 = 53 + x.exponent := by omega
    rw [hsum, zpow_add₀ (by norm_num)]
    exact mul_lt_mul_of_pos_right hhigh (by positivity)

theorem lastPlace_exact (x : Binary64) (hpos : 0 < x.significand) :
    lastPlace x.numerator x.denominator = x.exponent := by
  have hnum : 0 < x.numerator := Nat.mul_pos hpos (twoTo_pos _)
  have hlow := x.exponent_ge
  rw [lastPlace, binaryScale_eq hnum x.denominator_pos,
    x.numerator_div_denominator]
  rcases x.exponent_eq_or_le_significand with ⟨hexponent, hsmall⟩ | hlarge
  · have hlog := x.log_value_lt hpos hexponent hsmall
    omega
  · have hlog := x.log_value_eq hlarge
    omega

theorem roundedPlaces_exact (x : Binary64) (hpos : 0 < x.significand) :
    roundedPlaces x.numerator x.denominator = x.significand := by
  have hscaled : (x.numerator : ℚ) / x.denominator *
      2 ^ (-lastPlace x.numerator x.denominator) = x.significand := by
    rw [x.lastPlace_exact hpos, x.numerator_div_denominator, mul_assoc,
      ← zpow_add₀ (by norm_num), add_neg_cancel, zpow_zero, mul_one]
  exact Nat.le_antisymm
    (roundedPlaces_le_of_quotient_le x.denominator_pos hscaled.le)
    (le_roundedPlaces_of_le_quotient x.denominator_pos hscaled.ge)

theorem nearestMagnitude_exact (x : Binary64) (hfinite : x.isFinite = true) :
    nearestMagnitude x.numerator x.denominator = x.magnitude := by
  have hfinite : x.magnitude < infinityMagnitude := of_decide_eq_true hfinite
  rcases Nat.eq_zero_or_pos x.significand with hzero | hpos
  · have hexponent : x.exponent = -1074 := by
      rcases x.exponent_eq_or_le_significand with hsmall | hlarge
      · exact hsmall.left
      · have hone := twoTo_pos 52
        omega
    rw [magnitude_eq x, numerator, hzero, hexponent, Nat.zero_mul,
      nearestMagnitude, if_pos rfl]
    simp
  · have hnum : 0 < x.numerator := Nat.mul_pos hpos (twoTo_pos _)
    rw [nearestMagnitude_eq hnum, x.lastPlace_exact hpos,
      x.roundedPlaces_exact hpos, ← magnitude_eq]
    exact Nat.min_eq_left (Nat.le_of_lt hfinite)

/-!
# Bit patterns
-/

theorem infinityMagnitude_lt : infinityMagnitude < twoTo 63 := by
  decide +kernel

theorem toNat_bits_ofMagnitude (negative : Bool) {magnitude : Nat}
    (hmagnitude : magnitude < twoTo 63) :
    (ofMagnitude negative magnitude).bits.toNat =
      magnitude + if negative then twoTo 63 else 0 := by
  have hbound : twoTo 63 + twoTo 63 = 2 ^ 64 := rfl
  rw [ofMagnitude, UInt64.toNat_ofNat']
  apply Nat.mod_eq_of_lt
  split <;> omega

theorem magnitude_ofMagnitude (negative : Bool) {magnitude : Nat}
    (hmagnitude : magnitude < twoTo 63) :
    (ofMagnitude negative magnitude).magnitude = magnitude := by
  rw [Binary64.magnitude, toNat_bits_ofMagnitude negative hmagnitude]
  split
  · rw [Nat.add_mod_right, Nat.mod_eq_of_lt hmagnitude]
  · exact Nat.mod_eq_of_lt hmagnitude

theorem negative_ofMagnitude (negative : Bool) {magnitude : Nat}
    (hmagnitude : magnitude < twoTo 63) :
    (ofMagnitude negative magnitude).negative = negative := by
  rw [Binary64.negative, toNat_bits_ofMagnitude negative hmagnitude]
  cases negative <;> simp [hmagnitude]

theorem neg_ofMagnitude (negative : Bool) {magnitude : Nat}
    (hmagnitude : magnitude < twoTo 63) :
    (ofMagnitude negative magnitude).neg = ofMagnitude (!negative) magnitude := by
  rw [neg, negative_ofMagnitude _ hmagnitude, magnitude_ofMagnitude _ hmagnitude]

theorem toNat_bits (x : Binary64) :
    x.bits.toNat = x.magnitude + if x.negative then twoTo 63 else 0 := by
  have hbits := x.bits.toNat_lt
  have hsign : twoTo 63 = 9223372036854775808 := rfl
  rw [magnitude, negative, hsign]
  by_cases hlarge : 9223372036854775808 <= x.bits.toNat
  · rw [decide_eq_true hlarge, if_pos rfl]
    omega
  · rw [decide_eq_false hlarge, if_neg Bool.false_ne_true]
    omega

theorem eq_ofMagnitude (x : Binary64) :
    x = ofMagnitude x.negative x.magnitude := by
  rw [ofMagnitude, ← toNat_bits, UInt64.ofNat_toNat]

theorem not_isNaN_of_isFinite {x : Binary64} (hfinite : x.isFinite = true) :
    ¬ x.isNaN = true := by
  rw [isFinite, decide_eq_true_iff] at hfinite
  rw [isNaN, decide_eq_true_iff]
  exact Nat.not_lt.mpr (Nat.le_of_lt hfinite)

theorem isFinite_ofInt {n : Int} (hlow : -(2 ^ 64) < n) (hhigh : n < 2 ^ 64) :
    (ofInt n).isFinite = true := by
  have hquotient : ((n.natAbs : Nat) : ℚ) / (1 : Nat) < 2 ^ (1023 : Int) := by
    have hless : n.natAbs < 2 ^ 64 := by omega
    calc ((n.natAbs : Nat) : ℚ) / (1 : Nat) = n.natAbs := by
          rw [Nat.cast_one, div_one]
      _ < 2 ^ (64 : Int) := by exact_mod_cast hless
      _ <= 2 ^ (1023 : Int) := zpow_le_zpow_right₀ (by norm_num) (by omega)
  have hmagnitude :=
    nearestMagnitude_lt_infinityMagnitude Nat.one_pos hquotient
  rw [ofInt, nearest, isFinite,
    magnitude_ofMagnitude _ (Nat.lt_trans hmagnitude infinityMagnitude_lt)]
  exact decide_eq_true hmagnitude

end Binary64
end Decimal
end TableStore
