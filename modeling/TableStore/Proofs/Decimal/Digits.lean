import Mathlib.Data.List.Basic
import Mathlib.Data.List.Induction
import TableStore.Decimal.Notation

/-!
# Runs of digits

A number written in base ten is a run of digits; runs behind one another are
read as one number, and zeros behind a run are powers of ten.
-/

namespace TableStore
namespace Decimal

/-- The ten digits. -/
def digitChars : List Char :=
  ['0', '1', '2', '3', '4', '5', '6', '7', '8', '9']

theorem mem_digitChars {c : Char} (hc : isDigit c = true) : c ∈ digitChars := by
  have hall : forall d : Fin 10, Char.ofNat (48 + d.val) ∈ digitChars := by
    decide
  rw [isDigit, Bool.and_eq_true, decide_eq_true_iff, decide_eq_true_iff] at hc
  have hmem := hall ⟨c.toNat - 48, by omega⟩
  rwa [Nat.add_sub_cancel' hc.left, Char.ofNat_toNat] at hmem

/-- What holds of the ten digits holds of every digit. -/
theorem digit_all {c : Char} (hc : isDigit c = true) {p : Char -> Bool}
    (hall : digitChars.all p = true) : p c = true :=
  List.all_eq_true.mp hall c (mem_digitChars hc)

theorem ne_of_isDigit {c other : Char} (hc : isDigit c = true)
    (hother : isDigit other = false) : c ≠ other := by
  intro heq
  rw [heq, hother] at hc
  cases hc

theorem isDigit_digitChar (n : Nat) : isDigit (digitChar n) = true := by
  have hall : forall d : Fin 10, isDigit (Char.ofNat (48 + d.val)) = true := by
    decide
  exact hall ⟨n % 10, Nat.mod_lt n (by decide)⟩

theorem all_isDigit_digits (n : Nat) : (digits n).all isDigit = true := by
  induction n using Nat.strongRecOn with
  | _ n ih =>
      rw [digits]
      split
      · simp [isDigit_digitChar]
      · rw [List.all_append, ih (n / 10) (by omega)]
        simp [isDigit_digitChar]

theorem digits_ne_nil (n : Nat) : digits n ≠ [] := by
  rw [digits]
  split <;> simp

theorem all_isDigit_zeros (count : Nat) : (zeros count).all isDigit = true := by
  rw [List.all_eq_true]
  intro c hc
  rw [List.eq_of_mem_replicate hc]
  decide

theorem ofDigits_append (front back : List Char) :
    ofDigits (front ++ back) =
      ofDigits front * tenTo back.length + ofDigits back := by
  induction back using List.reverseRecOn with
  | nil => simp [ofDigits]
  | append_singleton back c ih =>
      have hshift : ofDigits front * (tenTo back.length * 10) =
          10 * (ofDigits front * tenTo back.length) := by
        rw [← Nat.mul_assoc, Nat.mul_comm]
      rw [← List.append_assoc, ofDigits_append_singleton,
        ofDigits_append_singleton, ih, List.length_append,
        List.length_singleton, tenTo_succ, hshift]
      omega

theorem ofDigits_zeros (count : Nat) : ofDigits (zeros count) = 0 := by
  induction count with
  | zero => rfl
  | succ count ih =>
      rw [zeros, List.replicate_succ', ofDigits_append_singleton]
      rw [zeros] at ih
      rw [ih]
      rfl

theorem all_isDigit_digits_zeros (n count : Nat) :
    (digits n ++ zeros count).all isDigit = true := by
  rw [List.all_append, all_isDigit_digits, all_isDigit_zeros]
  rfl

theorem ofDigits_digits_zeros (n count : Nat) :
    ofDigits (digits n ++ zeros count) = n * tenTo count := by
  rw [ofDigits_append, ofDigits_zeros, ofDigits_digits, zeros,
    List.length_replicate, Nat.add_zero]

/-!
# Leading digits
-/

theorem head?_digits_ne_zero {n : Nat} (h : n ≠ 0) :
    (digits n).head? ≠ some '0' := by
  induction n using Nat.strongRecOn with
  | _ n ih =>
      rw [digits]
      split
      · rename_i hsmall
        have hall : forall d : Fin 10, d.val ≠ 0 ->
            digitChar d.val ≠ '0' := by
          decide
        intro heq
        exact hall ⟨n, hsmall⟩ h (Option.some.inj heq)
      · rename_i hlarge
        rw [List.head?_append_of_ne_nil _ (digits_ne_nil _)]
        exact ih (n / 10) (by omega) (by omega)

/-- A number of at least two digits does not start with a zero. -/
theorem length_digits_of_head?_zero {n : Nat}
    (h : (digits n).head? = some '0') : (digits n).length = 1 := by
  by_cases hzero : n = 0
  · rw [hzero, digits, dif_pos (by decide), List.length_singleton]
  · exact absurd h (head?_digits_ne_zero hzero)

theorem exists_isDigit_cons {s : List Char} (hne : s ≠ [])
    (hall : s.all isDigit = true) :
    exists c tail, s = c :: tail ∧ isDigit c = true := by
  cases s with
  | nil => exact absurd rfl hne
  | cons c tail =>
      rw [List.all_cons, Bool.and_eq_true] at hall
      exact ⟨c, tail, rfl, hall.left⟩

/-!
# Decimals written in full
-/

namespace Scaled

/-- The digits of a decimal before and behind its point. -/
structure Parted (d : Scaled) (whole fraction : List Char) : Prop where
  whole_ne_nil : whole ≠ []
  all_whole : whole.all isDigit = true
  all_fraction : fraction.all isDigit = true
  ofDigits_eq : ofDigits (whole ++ fraction) = d.coefficient
  length_eq : -(fraction.length : Int) = d.place
  length_whole : d.coefficient ≠ 0 -> whole.head? = some '0' -> whole.length = 1

variable {d : Scaled}

theorem positional_of_nonneg (hplace : 0 <= d.place) :
    d.positional = digits d.coefficient ++ zeros d.place.toNat :=
  if_pos hplace

theorem parted_of_pointPlace_pos (hplace : d.place < 0) (hpoint : 0 < d.pointPlace) :
    d.Parted ((digits d.coefficient).take d.pointPlace.toNat)
      ((digits d.coefficient).drop d.pointPlace.toNat) := by
  have hlength : d.pointPlace = (digits d.coefficient).length + d.place := rfl
  have hdigits := all_isDigit_digits d.coefficient
  rw [<- List.take_append_drop d.pointPlace.toNat (digits d.coefficient),
    List.all_append, Bool.and_eq_true] at hdigits
  refine ⟨?_, hdigits.left, hdigits.right, ?_, ?_, ?_⟩
  · rw [<- List.length_pos_iff, List.length_take]
    omega
  · rw [List.take_append_drop, ofDigits_digits]
  · rw [List.length_drop]
    omega
  · intro hne hzero
    rw [List.head?_take, if_neg (by omega)] at hzero
    exact absurd hzero (head?_digits_ne_zero hne)

/-- A small decimal has a zero before its point, and zeros before its own digits. -/
theorem parted_of_pointPlace_nonpos (hpoint : d.pointPlace <= 0) :
    d.Parted ['0'] (zeros (-d.pointPlace).toNat ++ digits d.coefficient) := by
  have hlength : d.pointPlace = (digits d.coefficient).length + d.place := rfl
  have hzeros : (['0'] ++ (zeros (-d.pointPlace).toNat ++ digits d.coefficient) :
      List Char) = zeros ((-d.pointPlace).toNat + 1) ++ digits d.coefficient := rfl
  refine ⟨List.cons_ne_nil _ _, rfl, ?_, ?_, ?_, fun _ _ => rfl⟩
  · rw [List.all_append, all_isDigit_zeros, all_isDigit_digits]
    rfl
  · rw [hzeros, ofDigits_append, ofDigits_zeros, Nat.zero_mul, Nat.zero_add,
      ofDigits_digits]
  · rw [List.length_append, zeros, List.length_replicate]
    omega

theorem exists_parted (hplace : d.place < 0) :
    exists whole fraction, d.positional = whole ++ '.' :: fraction ∧
      d.Parted whole fraction := by
  rw [positional, if_neg (Int.not_le.mpr hplace)]
  by_cases hpoint : 0 < d.pointPlace
  · rw [if_pos hpoint]
    exact ⟨_, _, rfl, parted_of_pointPlace_pos hplace hpoint⟩
  · rw [if_neg hpoint]
    exact ⟨_, _, rfl, parted_of_pointPlace_nonpos (Int.not_lt.mp hpoint)⟩

end Scaled

end Decimal
end TableStore
