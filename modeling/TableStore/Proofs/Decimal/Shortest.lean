import Mathlib
import TableStore.Decimal.Shortest
import TableStore.Proofs.Decimal.Rounding

/-!
# Shortest decimals are read back

The shortest decimal of a finite number is read as the number.  Every candidate
of the search is kept only if it is; what is left to show is that the exact
expansion is, and that no trailing zero that is cut off matters.  Both are
statements about the value of a decimal: the reader, as long as the value is
neither too large nor too small for a finite number, depends on nothing else.
-/

namespace TableStore
namespace Decimal

/-!
# The value of a decimal
-/

/-- The exact value of a decimal. -/
def Scaled.value (d : Scaled) : ℚ :=
  d.coefficient * 10 ^ d.place

/-- Where the reader of decimals assumes the first digit, counted from the point. -/
def firstPlace (digits : Nat) (place : Int) : Int :=
  (digits.log2 * 30103 / 100000 : Nat) + place

theorem cast_fiveTo (n : Nat) : ((fiveTo n : Nat) : ℚ) = 5 ^ n := by
  exact_mod_cast rfl

theorem ten_pow_three_mul_le (k : Nat) : (10 : ℚ) ^ (3 * k) <= 2 ^ (10 * k) := by
  rw [pow_mul, pow_mul]
  exact pow_le_pow_left₀ (by norm_num) (by norm_num) k

theorem two_pow_thirtyThree_mul_le (k : Nat) :
    (2 : ℚ) ^ (33 * k) <= 10 ^ (10 * k) := by
  rw [pow_mul, pow_mul]
  exact pow_le_pow_left₀ (by norm_num) (by norm_num) k

theorem ten_zpow_le_two_zpow {n : Nat} {e : Int} (hle : (4 * n : Nat) <= e) :
    (10 : ℚ) ^ n <= 2 ^ e := by
  calc (10 : ℚ) ^ n <= 16 ^ n := pow_le_pow_left₀ (by norm_num) (by norm_num) n
    _ = 2 ^ ((4 * n : Nat) : Int) := by
        rw [zpow_natCast, pow_mul]
        norm_num
    _ <= 2 ^ e := zpow_le_zpow_right₀ (by norm_num) hle

/-!
A value between the least and the greatest finite numbers has its first digit
where the reader computes it.  The reader estimates the number of digits from
the number of bits; with at most eleven hundred places the estimate is off by
less than the distance between those numbers and the places it gives up at.
-/

section FirstPlace

variable {digits : Nat} {place : Int}

theorem two_zpow_le_ten_pow {n : Int} {m : Nat} (h : n <= 33 * m) :
    (2 : ℚ) ^ n <= 10 ^ (10 * m) := by
  calc (2 : ℚ) ^ n <= 2 ^ ((33 * m : Nat) : Int) :=
        zpow_le_zpow_right₀ (by norm_num) (by omega)
    _ = 2 ^ (33 * m) := zpow_natCast _ _
    _ <= 10 ^ (10 * m) := two_pow_thirtyThree_mul_le m

theorem two_pow_le_of_many_bits {bits : Nat} (hmany : 10000 < bits)
    (hplace : -1100 <= place) :
    (2 : ℚ) ^ (1024 : Int) <= 2 ^ (bits : Int) * 10 ^ place := by
  calc (2 : ℚ) ^ (1024 : Int)
      = 2 ^ (5424 : Int) * (2 ^ (4400 : Int))⁻¹ := by
        rw [← zpow_neg, ← zpow_add₀ (by norm_num)]
        norm_num
    _ <= 2 ^ (bits : Int) * (10 ^ (1100 : Nat))⁻¹ := by
        apply mul_le_mul
        · exact zpow_le_zpow_right₀ (by norm_num) (by omega)
        · exact inv_anti₀ (by positivity) (ten_zpow_le_two_zpow (by norm_num))
        · positivity
        · positivity
    _ = 2 ^ (bits : Int) * 10 ^ (-1100 : Int) := by
        rw [zpow_neg]
        norm_cast
    _ <= 2 ^ (bits : Int) * 10 ^ place := by
        apply mul_le_mul_of_nonneg_left _ (by positivity)
        exact zpow_le_zpow_right₀ (by norm_num) hplace

theorem two_pow_le_of_few_bits {bits : Nat} (hfew : bits <= 10000)
    (hlarge : 400 < (bits * 30103 / 100000 : Nat) + place) :
    (2 : ℚ) ^ (1024 : Int) <= 2 ^ (bits : Int) * 10 ^ place := by
  calc (2 : ℚ) ^ (1024 : Int) <= 10 ^ (10 * 32) :=
        two_zpow_le_ten_pow (by norm_num)
    _ = 10 ^ (320 : Int) := (zpow_natCast _ _).symm
    _ <= 10 ^ ((3 * (bits / 10) : Nat) + place) :=
        zpow_le_zpow_right₀ (by norm_num) (by omega)
    _ = 10 ^ (3 * (bits / 10)) * 10 ^ place := by
        rw [zpow_add₀ (by norm_num), zpow_natCast]
    _ <= 2 ^ (10 * (bits / 10)) * 10 ^ place :=
        mul_le_mul_of_nonneg_right (ten_pow_three_mul_le _) (by positivity)
    _ <= 2 ^ (bits : Int) * 10 ^ place := by
        apply mul_le_mul_of_nonneg_right _ (by positivity)
        rw [← zpow_natCast]
        exact zpow_le_zpow_right₀ (by norm_num) (by omega)

theorem firstPlace_le (hdigits : 0 < digits) (hplace : -1100 <= place)
    (hless : (digits : ℚ) * 10 ^ place < 2 ^ (1024 : Int)) :
    firstPlace digits place <= 400 := by
  by_contra hlarge
  rw [not_le, firstPlace] at hlarge
  have hbits : (2 : ℚ) ^ (digits.log2 : Int) * 10 ^ place < 2 ^ (1024 : Int) :=
    lt_of_le_of_lt
      (mul_le_mul_of_nonneg_right (Binary64.two_zpow_log2_le hdigits)
        (by positivity)) hless
  rcases Nat.lt_or_ge 10000 digits.log2 with hmany | hfew
  · exact absurd hbits (not_lt.mpr (two_pow_le_of_many_bits hmany hplace))
  · exact absurd hbits (not_lt.mpr (two_pow_le_of_few_bits hfew hlarge))

theorem le_firstPlace (hplace : -1100 <= place)
    (hle : 2 ^ (-1075 : Int) <= (digits : ℚ) * 10 ^ place) :
    -400 <= firstPlace digits place := by
  by_contra hsmall
  rw [not_le, firstPlace] at hsmall
  have hbits :
      2 ^ (-1075 : Int) < (2 : ℚ) ^ ((digits.log2 : Int) + 1) * 10 ^ place :=
    lt_of_le_of_lt hle
      (mul_lt_mul_of_pos_right (Binary64.lt_two_zpow_log2 digits)
        (by positivity))
  generalize digits.log2 = bits at hsmall hbits
  -- Thirty-three binary digits are less than ten decimal ones.
  have hpower :
      (2 : ℚ) ^ ((bits : Int) + 1) * 10 ^ place <= 2 ^ (-1075 : Int) := by
    calc (2 : ℚ) ^ ((bits : Int) + 1) * 10 ^ place
        <= 10 ^ (10 * (bits / 33 + 1)) * 10 ^ place :=
          mul_le_mul_of_nonneg_right (two_zpow_le_ten_pow (by omega))
            (by positivity)
      _ = 10 ^ ((10 * (bits / 33 + 1) : Nat) + place) := by
          rw [zpow_add₀ (by norm_num), zpow_natCast]
      _ <= 10 ^ (-330 : Int) := zpow_le_zpow_right₀ (by norm_num) (by omega)
      _ <= 2 ^ (-1075 : Int) := by
          rw [zpow_neg, zpow_neg]
          apply inv_anti₀ (by positivity)
          calc (2 : ℚ) ^ (1075 : Int) <= 10 ^ (10 * 33) :=
                two_zpow_le_ten_pow (by norm_num)
            _ = 10 ^ (330 : Int) := (zpow_natCast _ _).symm
  exact absurd hbits (not_lt.mpr hpower)

end FirstPlace

/-!
# Reading depends on the value
-/

namespace Binary64

/-- The magnitude that the reader of decimals finds. -/
def readMagnitude (digits : Nat) (place : Int) : Nat :=
  if digits = 0 then 0
  else if 400 < firstPlace digits place then infinityMagnitude
  else if firstPlace digits place < -400 then 0
  else nearestMagnitude (digits * tenTo place.toNat) (tenTo (-place).toNat)

theorem ofDecimal_eq (negative : Bool) (digits : Nat) (place : Int) :
    ofDecimal negative digits place =
      ofMagnitude negative (readMagnitude digits place) := by
  unfold ofDecimal readMagnitude firstPlace nearest
  dsimp only
  split
  · rfl
  · split
    · rfl
    · split <;> rfl

theorem nearestMagnitude_le (num den : Nat) :
    nearestMagnitude num den <= infinityMagnitude := by
  unfold nearestMagnitude
  dsimp only
  split
  · exact Nat.zero_le _
  · exact Nat.min_le_right _ _

theorem readMagnitude_le (digits : Nat) (place : Int) :
    readMagnitude digits place <= infinityMagnitude := by
  unfold readMagnitude
  split
  · exact Nat.zero_le _
  · split
    · exact Nat.le_refl _
    · split
      · exact Nat.zero_le _
      · exact nearestMagnitude_le _ _

theorem readMagnitude_lt (digits : Nat) (place : Int) :
    readMagnitude digits place < twoTo 63 :=
  Nat.lt_of_le_of_lt (readMagnitude_le digits place) infinityMagnitude_lt

theorem magnitude_ofDecimal (negative : Bool) (digits : Nat) (place : Int) :
    (ofDecimal negative digits place).magnitude = readMagnitude digits place := by
  rw [ofDecimal_eq, magnitude_ofMagnitude _ (readMagnitude_lt digits place)]

theorem quotient_place (digits : Nat) (place : Int) :
    ((digits * tenTo place.toNat : Nat) : ℚ) / (tenTo (-place).toNat : Nat) =
      digits * 10 ^ place := by
  have hquotient := quotient_tenTo digits 1 (-place)
  rwa [neg_neg, Nat.one_mul, Nat.cast_one, div_one] at hquotient

section Value

variable {digits : Nat} {place : Int}

theorem readMagnitude_eq_nearest (hdigits : 0 < digits)
    (hplace : -1100 <= place)
    (hlow : 2 ^ (-1075 : Int) <= (digits : ℚ) * 10 ^ place)
    (hhigh : (digits : ℚ) * 10 ^ place < 2 ^ (1024 : Int)) :
    readMagnitude digits place =
      nearestMagnitude (digits * tenTo place.toNat)
        (tenTo (-place).toNat) := by
  have htop := firstPlace_le hdigits hplace hhigh
  have hbottom := le_firstPlace hplace hlow
  rw [readMagnitude, if_neg (Nat.ne_of_gt hdigits), if_neg (by omega),
    if_neg (by omega)]

/-- A decimal that is read as a finite number but zero has a value of its size. -/
theorem bounds_of_readMagnitude (hne : readMagnitude digits place ≠ 0)
    (hless : readMagnitude digits place < infinityMagnitude) :
    0 < digits ∧ 2 ^ (-1075 : Int) <= (digits : ℚ) * 10 ^ place ∧
      (digits : ℚ) * 10 ^ place < 2 ^ (1024 : Int) := by
  unfold readMagnitude at hne hless
  split at hne
  · exact absurd rfl hne
  · rename_i hdigits
    rw [if_neg hdigits] at hless
    split at hne
    · rename_i hlarge
      rw [if_pos hlarge] at hless
      exact absurd hless (Nat.lt_irrefl _)
    · rename_i hlarge
      rw [if_neg hlarge] at hless
      split at hne
      · exact absurd rfl hne
      · rename_i hsmall
        rw [if_neg hsmall] at hless
        have hlow := le_quotient_of_nearestMagnitude_ne_zero (tenTo_pos _) hne
        have hhigh := quotient_lt_of_nearestMagnitude_lt (tenTo_pos _) hless
        rw [quotient_place] at hlow hhigh
        exact ⟨Nat.pos_of_ne_zero hdigits, hlow, hhigh⟩

theorem readMagnitude_of_value {magnitude num den : Nat} (hden : 0 < den)
    (hexact : nearestMagnitude num den = magnitude) (hne : magnitude ≠ 0)
    (hless : magnitude < infinityMagnitude) (hplace : -1100 <= place)
    (hvalue : (digits : ℚ) * 10 ^ place = num / den) :
    readMagnitude digits place = magnitude := by
  rw [← hexact] at hne hless
  have hlow := le_quotient_of_nearestMagnitude_ne_zero hden hne
  have hhigh := quotient_lt_of_nearestMagnitude_lt hden hless
  rw [← hvalue] at hlow hhigh
  have hdigits : 0 < digits := by
    rcases Nat.eq_zero_or_pos digits with hzero | hpos
    · rw [hzero, Nat.cast_zero, zero_mul] at hlow
      exact absurd hlow (not_le.mpr (by positivity))
    · exact hpos
  rw [readMagnitude_eq_nearest hdigits hplace hlow hhigh, ← hexact]
  apply nearestMagnitude_congr (tenTo_pos _) hden
  rw [quotient_place, hvalue]

end Value

theorem readMagnitude_congr {d e : Scaled} (hvalue : d.value = e.value)
    (hd : -1100 <= d.place) (he : -1100 <= e.place)
    (hne : readMagnitude e.coefficient e.place ≠ 0)
    (hless : readMagnitude e.coefficient e.place < infinityMagnitude) :
    readMagnitude d.coefficient d.place =
      readMagnitude e.coefficient e.place := by
  rcases bounds_of_readMagnitude hne hless with ⟨hdigits, hlow, hhigh⟩
  apply readMagnitude_of_value (tenTo_pos (-e.place).toNat) _ hne hless hd
  · rw [quotient_place]
    exact hvalue
  · exact (readMagnitude_eq_nearest hdigits he hlow hhigh).symm

end Binary64

/-!
# Trailing zeros
-/

namespace Scaled

theorem value_trim (fuel : Nat) (d : Scaled) : (d.trim fuel).value = d.value := by
  induction fuel generalizing d with
  | zero => rfl
  | succ fuel ih =>
      rw [trim]
      split
      · rename_i hzero
        have hten : (d.coefficient : ℚ) = (d.coefficient / 10 : Nat) * 10 := by
          exact_mod_cast (Nat.div_mul_cancel (Nat.dvd_of_mod_eq_zero hzero)).symm
        rw [ih, value, value, zpow_add_one₀ (by norm_num), hten]
        ring
      · rfl

theorem place_le_trim (fuel : Nat) (d : Scaled) :
    d.place <= (d.trim fuel).place := by
  induction fuel generalizing d with
  | zero => exact Int.le_refl _
  | succ fuel ih =>
      rw [trim]
      split
      · have hnext := ih ⟨d.coefficient / 10, d.place + 1⟩
        dsimp only at hnext
        omega
      · exact Int.le_refl _

/-- A decimal of few places that is read as a magnitude. -/
structure Spells (d : Scaled) (magnitude : Nat) : Prop where
  /-- The first place that it may have. -/
  place_ge : -1100 <= d.place
  /-- What is read. -/
  read_eq : Binary64.readMagnitude d.coefficient d.place = magnitude

theorem Spells.trim {d : Scaled} {magnitude : Nat} (h : d.Spells magnitude)
    (hne : magnitude ≠ 0) (hless : magnitude < Binary64.infinityMagnitude)
    (fuel : Nat) : (d.trim fuel).Spells magnitude := by
  rcases h with ⟨hplace, hread⟩
  have htrim : -1100 <= (d.trim fuel).place :=
    Int.le_trans hplace (place_le_trim fuel d)
  subst hread
  exact ⟨htrim, Binary64.readMagnitude_congr (value_trim fuel d) htrim hplace
    hne hless⟩

end Scaled

/-!
# The search
-/

namespace Binary64

variable {x : Binary64}

theorem magnitude_ne_zero (hne : x.significand ≠ 0) : x.magnitude ≠ 0 := by
  rw [magnitude_eq]
  omega

theorem magnitude_of_significand (hzero : x.significand = 0) :
    x.magnitude = 0 := by
  have hexponent : x.exponent = -1074 := by
    rcases x.exponent_eq_or_le_significand with hsmall | hlarge
    · exact hsmall.left
    · have hpos := twoTo_pos 52
      omega
  rw [magnitude_eq, hzero, hexponent]
  exact Nat.zero_mul _

theorem value_expansion (x : Binary64) :
    x.expansion.value = x.numerator / x.denominator := by
  rw [numerator_div_denominator, expansion]
  split
  · rename_i hneg
    have hplaces : ((-x.exponent).toNat : Int) = -x.exponent :=
      Int.toNat_of_nonneg (by omega)
    have hten : (10 : ℚ) ^ x.exponent = 2 ^ x.exponent * 5 ^ x.exponent := by
      rw [← mul_zpow]
      norm_num
    rw [Scaled.value, Nat.cast_mul, cast_fiveTo, ← zpow_natCast, hplaces, hten,
      zpow_neg]
    field_simp
  · rename_i hpos
    have hplaces : (x.exponent.toNat : Int) = x.exponent :=
      Int.toNat_of_nonneg (by omega)
    rw [Scaled.value, Nat.cast_mul, cast_twoTo, ← zpow_natCast, hplaces,
      zpow_zero, mul_one]

theorem expansion_place (x : Binary64) : -1100 <= x.expansion.place := by
  have hplace := x.exponent_ge
  rw [expansion]
  split <;> dsimp only <;> omega

theorem spells_expansion (hfinite : x.isFinite = true)
    (hne : x.significand ≠ 0) : x.expansion.Spells x.magnitude := by
  constructor
  · exact x.expansion_place
  · exact readMagnitude_of_value x.denominator_pos
      (nearestMagnitude_exact x hfinite) (magnitude_ne_zero hne)
      (of_decide_eq_true hfinite) x.expansion_place x.value_expansion

theorem le_binaryScale (hne : x.significand ≠ 0) :
    -1074 <= binaryScale x.numerator x.denominator := by
  have hnum : 0 < x.numerator :=
    Nat.mul_pos (Nat.pos_of_ne_zero hne) (twoTo_pos _)
  have hone : (1 : ℚ) <= x.significand := by
    exact_mod_cast Nat.one_le_iff_ne_zero.mpr hne
  have hquotient : (0 : ℚ) < x.numerator / x.denominator :=
    div_pos (by exact_mod_cast hnum) (by exact_mod_cast x.denominator_pos)
  rw [binaryScale_eq hnum x.denominator_pos]
  apply (Int.zpow_le_iff_le_log (by norm_num) hquotient).mp
  rw [numerator_div_denominator]
  rw [Nat.cast_ofNat]
  calc (2 : ℚ) ^ (-1074 : Int) <= 2 ^ x.exponent :=
        zpow_le_zpow_right₀ (by norm_num) x.exponent_ge
    _ <= x.significand * 2 ^ x.exponent :=
        le_mul_of_one_le_left (by positivity) hone

theorem le_decimalScale (hne : x.significand ≠ 0) :
    -400 <= decimalScale x.numerator x.denominator := by
  have hscale := le_binaryScale hne
  unfold decimalScale
  dsimp only
  generalize binaryScale x.numerator x.denominator = scale at hscale ⊢
  split
  · omega
  · split <;> omega

theorem mem_either_order {α : Type} {swapped : Bool} {a b c : α}
    (hmem : c ∈ if swapped = true then [a, b] else [b, a]) : c = a ∨ c = b := by
  cases swapped with
  | true => simpa using hmem
  | false => simpa [or_comm] using hmem

theorem spells_neighbour? {tie : Tie} {count : Nat} {d : Scaled}
    (hne : x.significand ≠ 0) (hcount : count <= 17)
    (hfound : x.neighbour? tie count = some d) : d.Spells x.magnitude := by
  have hscale := le_decimalScale hne
  unfold neighbour? at hfound
  dsimp only at hfound
  have hread := List.find?_some hfound
  have hmem := List.mem_of_find?_eq_some hfound
  constructor
  · have hplace :
        d.place = decimalScale x.numerator x.denominator - count + 1 := by
      rcases mem_either_order hmem with heq | heq <;> rw [heq]
    omega
  · rw [Scaled.readsAs, beq_iff_eq, magnitude_ofDecimal] at hread
    exact hread

/-- The shortest decimal of a finite number is read as its magnitude. -/
theorem spells_shortest (hfinite : x.isFinite = true) (tie : Tie) :
    (x.shortest tie).Spells x.magnitude := by
  rw [shortest]
  split
  · rename_i hzero
    rw [magnitude_of_significand hzero]
    exact ⟨by decide, rfl⟩
  · rename_i hne
    apply Scaled.Spells.trim _ (magnitude_ne_zero hne)
      (of_decide_eq_true hfinite)
    cases hfound :
        (List.range 17).findSome? fun k => x.neighbour? tie (k + 1) with
    | none => exact spells_expansion hfinite hne
    | some d =>
        rcases List.exists_of_findSome?_eq_some hfound with
          ⟨k, hk, hneighbour⟩
        rw [List.mem_range] at hk
        exact spells_neighbour? hne (by omega) hneighbour

/-!
# Reading gives the number back
-/

theorem ofDecimal_of_spells {d : Scaled} (h : d.Spells x.magnitude) :
    ofDecimal x.negative d.coefficient d.place = x := by
  rw [ofDecimal_eq, h.read_eq, ← eq_ofMagnitude]

theorem ofDecimal_shortest (hfinite : x.isFinite = true) (tie : Tie) :
    ofDecimal x.negative (x.shortest tie).coefficient (x.shortest tie).place =
      x :=
  ofDecimal_of_spells (spells_shortest hfinite tie)

/-- A decimal without places behind the point is read from its digits alone. -/
theorem ofDecimal_shortest_whole (hfinite : x.isFinite = true) {tie : Tie}
    (hwhole : 0 <= (x.shortest tie).place) :
    ofDecimal x.negative
        ((x.shortest tie).coefficient * tenTo (x.shortest tie).place.toNat) 0 =
      x := by
  by_cases hzero : x.significand = 0
  · have hshortest : x.shortest tie = ⟨0, 0⟩ := if_pos hzero
    rw [hshortest, Nat.zero_mul]
    have hx := x.eq_ofMagnitude
    rw [magnitude_of_significand hzero] at hx
    exact hx.symm
  · have hspells := spells_shortest hfinite tie
    have hne := magnitude_ne_zero hzero
    have hless : x.magnitude < infinityMagnitude := of_decide_eq_true hfinite
    generalize x.shortest tie = d at hwhole hspells
    rw [← hspells.read_eq] at hne hless
    have hvalue :
        (Scaled.mk (d.coefficient * tenTo d.place.toNat) 0).value = d.value := by
      rw [Scaled.value, Scaled.value, Nat.cast_mul, cast_tenTo, ← zpow_natCast,
        Int.toNat_of_nonneg hwhole, zpow_zero, mul_one]
    have hread :=
      readMagnitude_congr hvalue (by norm_num) hspells.place_ge hne hless
    exact ofDecimal_of_spells (d := ⟨_, 0⟩)
      ⟨by norm_num, hread.trans hspells.read_eq⟩

end Binary64

end Decimal
end TableStore
