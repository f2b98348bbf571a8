import TableStore.Json.Printer
import TableStore.Json.Scan
import TableStore.Proofs.Decimal.Shortest
import TableStore.Proofs.Json.Contents
import TableStore.Proofs.Sql.Literals

/-!
# Numbers in documents

A numeral has whole digits, perhaps digits behind a point and perhaps a power of ten.
Whatever follows it, it is read with the value that it has, and the numerals of whole and
of finite binary numbers have their values.
-/

namespace TableStore

namespace Json

open Decimal (isDigit digits ofDigits)

/-!
# Numerals
-/

/-- A number as it is written, without its sign. -/
structure Numeral where
  whole : List Char
  fraction : List Char
  exponent? : Option Int
  whole_ne_nil : whole ≠ []
  all_whole : whole.all isDigit = true
  all_fraction : fraction.all isDigit = true
  length_whole : whole.head? = some '0' -> whole.length = 1

namespace Numeral

def fractionChars (n : Numeral) : List Char :=
  if n.fraction = [] then [] else '.' :: n.fraction

def exponentChars : Option Int -> List Char
  | none => []
  | some exponent =>
      'e' :: (if exponent < 0 then '-' else '+') :: digits exponent.natAbs

def chars (n : Numeral) : List Char :=
  n.whole ++ n.fractionChars ++ exponentChars n.exponent?

def number (n : Numeral) (negative : Bool) : Number :=
  if n.fraction.isEmpty && n.exponent?.isNone then
    wholeNumber negative (ofDigits n.whole)
  else
    .float (Decimal.Binary64.ofDecimal negative
      (ofDigits (n.whole ++ n.fraction))
      (n.exponent?.getD 0 - n.fraction.length))

end Numeral

def signChars (negative : Bool) : List Char :=
  if negative then ['-'] else []

/-- What follows does not prolong a number. -/
def EndsNumber (rest : List Char) : Prop :=
  forall c, rest.head? = some c ->
    isDigit c = false ∧ c ≠ '.' ∧ c ≠ 'e' ∧ c ≠ 'E'

theorem endsNumber_nil : EndsNumber [] := nofun

theorem endsNumber_cons {c : Char} (rest : List Char)
    (h : isDigit c = false ∧ c ≠ '.' ∧ c ≠ 'e' ∧ c ≠ 'E') :
    EndsNumber (c :: rest) := by
  intro other hother
  cases hother
  exact h

theorem scanDigits_append {front rest : List Char} (hne : front ≠ [])
    (hall : front.all isDigit = true)
    (hstop : forall c, rest.head? = some c -> isDigit c = false) :
    scanDigits (front ++ rest) = .ok (front, rest) := by
  have htake := Sql.takeWhile_append_of_stop hall hstop
  have hdrop := Sql.dropWhile_append_of_stop hall hstop
  cases front with
  | nil => exact absurd rfl hne
  | cons c front =>
      rw [List.all_cons, Bool.and_eq_true] at hall
      rw [List.cons_append] at htake hdrop ⊢
      rw [scanDigits, if_pos hall.left, htake, hdrop]

theorem scanExponent_none {rest : List Char} (h : EndsNumber rest) :
    scanExponent rest = .ok (none, rest) := by
  cases rest with
  | nil => rfl
  | cons c rest =>
      rcases h c rfl with ⟨_, _, hsmall, hlarge⟩
      simp [scanExponent, hsmall, hlarge]

theorem scanExponent_some (exponent : Int) {rest : List Char}
    (h : EndsNumber rest) :
    scanExponent (Numeral.exponentChars (some exponent) ++ rest) =
      .ok (some exponent, rest) := by
  have hdigits := scanDigits_append (Decimal.digits_ne_nil exponent.natAbs)
    (Decimal.all_isDigit_digits _) fun c hc => (h c hc).left
  have hvalue := Decimal.ofDigits_digits exponent.natAbs
  rw [Numeral.exponentChars]
  by_cases hnegative : exponent < 0
  · have hexponent : -((ofDigits (digits exponent.natAbs) : Nat) : Int) =
        exponent := by omega
    rw [if_pos hnegative, List.cons_append, List.cons_append, scanExponent,
      if_pos (by decide), hdigits]
    exact congrArg (fun e => Except.ok (some e, rest)) hexponent
  · have hexponent : ((ofDigits (digits exponent.natAbs) : Nat) : Int) =
        exponent := by omega
    rw [if_neg hnegative, List.cons_append, List.cons_append, scanExponent,
      if_pos (by decide), hdigits]
    exact congrArg (fun e => Except.ok (some e, rest)) hexponent

theorem scanFraction_numeral (n : Numeral) {rest : List Char}
    (hstop : forall c, rest.head? = some c -> isDigit c = false ∧ c ≠ '.') :
    scanFraction (n.fractionChars ++ rest) = .ok (n.fraction, rest) := by
  rw [Numeral.fractionChars]
  by_cases hnone : n.fraction = []
  · rw [if_pos hnone, hnone, List.nil_append]
    unfold scanFraction
    split
    · exact absurd rfl (hstop _ rfl).right
    · rfl
  · rw [if_neg hnone, List.cons_append, scanFraction,
      scanDigits_append hnone n.all_fraction fun c hc => (hstop c hc).left]

theorem exponentChars_stop (exponent? : Option Int) {rest : List Char}
    (h : EndsNumber rest) :
    forall c, (Numeral.exponentChars exponent? ++ rest).head? = some c ->
      isDigit c = false ∧ c ≠ '.' := by
  intro c hc
  cases exponent? with
  | none => exact ⟨(h c hc).left, (h c hc).right.left⟩
  | some exponent =>
      cases hc
      decide

theorem head?_chars (n : Numeral) (rest : List Char) :
    exists c, (n.chars ++ rest).head? = some c ∧ isDigit c = true := by
  rcases n with ⟨whole, fraction, exponent?, hne, hall, _, _⟩
  cases whole with
  | nil => exact absurd rfl hne
  | cons c whole =>
      rw [List.all_cons, Bool.and_eq_true] at hall
      exact ⟨c, rfl, hall.left⟩

theorem head?_signed (n : Numeral) (negative : Bool) (rest : List Char) :
    decide ((signChars negative ++ (n.chars ++ rest)).head? = some '-') =
        negative ∧
      (if (signChars negative ++ (n.chars ++ rest)).head? = some '-' then
        (signChars negative ++ (n.chars ++ rest)).drop 1
      else signChars negative ++ (n.chars ++ rest)) = n.chars ++ rest := by
  cases negative with
  | true => exact ⟨rfl, rfl⟩
  | false =>
      rcases head?_chars n rest with ⟨c, hhead, hdigit⟩
      have hne : ¬ (n.chars ++ rest).head? = some '-' := by
        rw [hhead]
        intro heq
        rw [Option.some.inj heq] at hdigit
        cases hdigit
      rw [signChars, if_neg Bool.false_ne_true, List.nil_append,
        decide_eq_false hne, if_neg hne]
      exact ⟨rfl, rfl⟩

theorem scanNumber_numeral (n : Numeral) (negative : Bool) {rest : List Char}
    (h : EndsNumber rest) :
    scanNumber (signChars negative ++ (n.chars ++ rest)) =
      .ok (finiteNumber (n.number negative), rest) := by
  rcases head?_signed n negative rest with ⟨hnegative, hunsigned⟩
  have hexponent : scanExponent (Numeral.exponentChars n.exponent? ++ rest) =
      .ok (n.exponent?, rest) := by
    cases n.exponent? with
    | none => exact scanExponent_none h
    | some exponent => exact scanExponent_some exponent h
  have hstop := exponentChars_stop n.exponent? h
  have hfraction := scanFraction_numeral n hstop
  have hwhole : scanDigits (n.chars ++ rest) =
      .ok (n.whole, n.fractionChars ++
        (Numeral.exponentChars n.exponent? ++ rest)) := by
    rw [Numeral.chars, List.append_assoc, List.append_assoc]
    apply scanDigits_append n.whole_ne_nil n.all_whole
    intro c hc
    rw [Numeral.fractionChars] at hc
    split at hc
    · exact (hstop c hc).left
    · cases hc
      decide
  -- A zero in front of other digits would be refused.
  have hleading : ¬ (decide (n.whole.head? = some '0') &&
      n.whole.length != 1) = true := by
    rw [Bool.and_eq_true, decide_eq_true_iff, bne_iff_ne, not_and, not_not]
    exact n.length_whole
  unfold scanNumber
  dsimp only
  rw [hunsigned, hwhole]
  dsimp only [bind, Except.bind]
  rw [if_neg hleading]
  dsimp only [pure, Except.pure]
  rw [hfraction]
  dsimp only
  rw [hexponent, hnegative]
  rfl

/-!
# Whole numbers
-/

def Numeral.ofNat (n : Nat) : Numeral where
  whole := digits n
  fraction := []
  exponent? := none
  whole_ne_nil := Decimal.digits_ne_nil n
  all_whole := Decimal.all_isDigit_digits n
  all_fraction := rfl
  length_whole := Decimal.length_digits_of_head?_zero

theorem chars_ofNat (n : Nat) : (Numeral.ofNat n).chars = digits n := by
  rw [Numeral.chars]
  simp [Numeral.ofNat, Numeral.fractionChars, Numeral.exponentChars]

theorem intDigits_eq (n : Int) :
    Decimal.intDigits n = signChars (n < 0) ++ (Numeral.ofNat n.natAbs).chars := by
  rw [Decimal.intDigits, signChars, chars_ofNat]
  by_cases hnegative : n < 0
  · simp [hnegative]
  · simp [hnegative]

theorem number_ofNat {n : Int} (h : FiniteNumber (.int n)) :
    (Numeral.ofNat n.natAbs).number (n < 0) = .int n := by
  have hvalue : (Numeral.ofNat n.natAbs).number (n < 0) =
      wholeNumber (n < 0) n.natAbs := by
    simp [Numeral.number, Numeral.ofNat, Decimal.ofDigits_digits]
  rcases h with ⟨hlow, hhigh⟩
  rw [hvalue, wholeNumber]
  by_cases hnegative : n < 0
  · have hself : -(n.natAbs : Int) = n := by omega
    have hne : n.natAbs ≠ 0 := by omega
    have hfits : (n.natAbs != 0 &&
        decide (-Decimal.int64Bound <= -(n.natAbs : Int))) = true := by
      rw [hself, bne_iff_ne.mpr hne, decide_eq_true hlow]
      rfl
    rw [decide_eq_true hnegative, if_pos rfl, if_pos hfits, hself]
  · have hself : (n.natAbs : Int) = n := by omega
    rw [decide_eq_false hnegative, if_neg Bool.false_ne_true, hself,
      if_pos hhigh]

theorem scanNumber_intDigits {n : Int} (h : FiniteNumber (.int n)) {rest : List Char}
    (hrest : EndsNumber rest) :
    scanNumber (Decimal.intDigits n ++ rest) = .ok (.ok (.int n), rest) := by
  rw [intDigits_eq, List.append_assoc, scanNumber_numeral _ _ hrest,
    number_ofNat h]
  rfl

theorem finiteNumber_natCast {n : Nat} (h : n < 4294967296) :
    FiniteNumber (.int n) := by
  unfold FiniteNumber Decimal.int64Bound Decimal.uint64Bound
  omega

/-!
# Binary numbers
-/

open Decimal (Binary64 Scaled zeros tenTo)

def Numeral.scaled (n : Numeral) : Scaled :=
  ⟨ofDigits (n.whole ++ n.fraction), n.exponent?.getD 0 - n.fraction.length⟩

structure Numeral.Marked (n : Numeral) (d : Scaled) : Prop where
  marked : (n.fraction.isEmpty && n.exponent?.isNone) = false
  scaled_eq : n.scaled = d

theorem Numeral.Marked.number_eq {n : Numeral} {d : Scaled} (h : n.Marked d)
    {x : Binary64} (hspells : d.Spells x.magnitude) :
    n.number x.negative = .float x := by
  rw [number, if_neg (by rw [h.marked]; exact Bool.false_ne_true)]
  rw [<- h.scaled_eq] at hspells
  exact congrArg Number.float (Binary64.ofDecimal_of_spells hspells)

theorem exists_numeral_scientific (d : Scaled) :
    exists n : Numeral, n.chars = d.scientific ∧ n.Marked d := by
  have hdigits := Decimal.all_isDigit_digits d.coefficient
  rw [<- List.take_append_drop 1 (digits d.coefficient), List.all_append,
    Bool.and_eq_true] at hdigits
  have hlength := List.length_pos_iff.mpr (Decimal.digits_ne_nil d.coefficient)
  refine ⟨⟨(digits d.coefficient).take 1, (digits d.coefficient).drop 1,
    some (d.pointPlace - 1), ?_, hdigits.left, hdigits.right, ?_⟩, ?_, ?_, ?_⟩
  · rw [<- List.length_pos_iff, List.length_take]
    omega
  · intro _
    rw [List.length_take]
    omega
  · rw [Numeral.chars, Numeral.fractionChars, Scaled.scientific]
    dsimp only [Numeral.exponentChars]
    have hnone : (digits d.coefficient).drop 1 = [] <->
        (digits d.coefficient).length <= 1 := List.drop_eq_nil_iff
    simp only [hnone]
  · exact Bool.and_false _
  · rw [Numeral.scaled, List.take_append_drop, Decimal.ofDigits_digits,
      List.length_drop]
    dsimp only [Option.getD_some, Scaled.pointPlace]
    have hplace : ((digits d.coefficient).length : Int) + d.place - 1 -
        ((digits d.coefficient).length - 1 : Nat) = d.place := by omega
    rw [hplace]

theorem exists_numeral_positional {d : Scaled} (hplace : d.place < 0)
    (hne : d.coefficient ≠ 0) :
    exists n : Numeral, n.chars = d.positional ∧ n.Marked d := by
  rcases Scaled.exists_parted hplace with ⟨whole, fraction, hpositional, hparted⟩
  have hlength := hparted.length_eq
  have hfraction : fraction ≠ [] := by
    rw [<- List.length_pos_iff]
    omega
  refine ⟨⟨whole, fraction, none, hparted.whole_ne_nil, hparted.all_whole,
    hparted.all_fraction, hparted.length_whole hne⟩, ?_, ?_, ?_⟩
  · rw [Numeral.chars, Numeral.fractionChars, if_neg hfraction, hpositional]
    exact List.append_nil _
  · rw [List.isEmpty_eq_false_iff.mpr hfraction]
    rfl
  · rw [Numeral.scaled, hparted.ofDigits_eq]
    have hzero : (0 : Int) - fraction.length = d.place := by omega
    exact congrArg (Scaled.mk d.coefficient) hzero

theorem exists_numeral_whole {d : Scaled} (hplace : 0 <= d.place)
    (hne : d.coefficient ≠ 0) :
    exists n : Numeral, n.chars = d.positional ++ ['.', '0'] ∧
      n.Marked ⟨d.coefficient * tenTo (d.place.toNat + 1), -1⟩ := by
  have hdigits := Decimal.digits_ne_nil d.coefficient
  rw [Scaled.positional, if_pos hplace]
  refine ⟨⟨digits d.coefficient ++ zeros d.place.toNat, ['0'], none,
    List.append_ne_nil_of_left_ne_nil hdigits _, ?_, rfl, ?_⟩, ?_, rfl, ?_⟩
  · rw [List.all_append, Decimal.all_isDigit_digits, Decimal.all_isDigit_zeros]
    rfl
  · intro hzero
    rw [List.head?_append_of_ne_nil _ hdigits] at hzero
    exact absurd hzero (Decimal.head?_digits_ne_zero hne)
  · rw [Numeral.chars, Numeral.fractionChars, if_neg (List.cons_ne_nil _ _)]
    exact List.append_nil _
  · have hzeros : (zeros d.place.toNat ++ ['0'] : List Char) =
        zeros (d.place.toNat + 1) := List.replicate_succ'.symm
    have hlength : (zeros (d.place.toNat + 1)).length = d.place.toNat + 1 :=
      List.length_replicate
    rw [Numeral.scaled, List.append_assoc, hzeros, Decimal.ofDigits_append,
      Decimal.ofDigits_zeros, Decimal.ofDigits_digits, hlength]
    rfl

theorem value_shifted {d : Scaled} (hplace : 0 <= d.place) :
    (Scaled.mk (d.coefficient * tenTo (d.place.toNat + 1)) (-1)).value =
      d.value := by
  have hpower : ((d.place.toNat : Nat) : Int) = d.place :=
    Int.toNat_of_nonneg hplace
  rw [Scaled.value, Scaled.value, Nat.cast_mul, Decimal.cast_tenTo, pow_succ,
    <- zpow_natCast, hpower, mul_assoc, mul_assoc, zpow_neg_one,
    mul_inv_cancel₀ (by norm_num), mul_one]

section Shortest

variable {x : Binary64}

theorem coefficient_shortest_ne_zero (hfinite : x.isFinite = true)
    (hne : x.significand ≠ 0) : (x.shortest .even).coefficient ≠ 0 := by
  have hspells := Binary64.spells_shortest hfinite .even
  intro hzero
  have hread := hspells.read_eq
  rw [hzero] at hread
  exact Binary64.magnitude_ne_zero hne hread.symm

/-- The document form of a finite number is the sign and a numeral of it. -/
theorem exists_numeral_documentText (hfinite : x.isFinite = true) :
    exists n : Numeral,
      x.documentText.toList = signChars x.negative ++ n.chars ∧
      n.number x.negative = .float x := by
  have hspells := Binary64.spells_shortest hfinite .even
  unfold Binary64.documentText
  dsimp only
  rw [String.toList_ofList]
  by_cases hzero : x.significand = 0
  · rw [if_pos hzero]
    refine ⟨⟨['0'], ['0'], none, List.cons_ne_nil _ _, rfl, rfl, fun _ => rfl⟩,
      rfl, Numeral.Marked.number_eq (d := ⟨0, -1⟩) ⟨rfl, rfl⟩ ?_⟩
    rw [Binary64.magnitude_of_significand hzero]
    exact ⟨by norm_num, rfl⟩
  · have hcoefficient := coefficient_shortest_ne_zero hfinite hzero
    have hnonzero := Binary64.magnitude_ne_zero hzero
    have hless : x.magnitude < Binary64.infinityMagnitude :=
      of_decide_eq_true hfinite
    rw [if_neg hzero]
    generalize x.shortest .even = d at hspells hcoefficient ⊢
    -- Very large and very small numbers have a power of ten; of the others, whole ones
    -- have a zero behind the point.
    split
    · rcases exists_numeral_scientific d with ⟨n, hchars, hmarked⟩
      exact ⟨n, by rw [hchars]; rfl, hmarked.number_eq hspells⟩
    · split
      · rename_i hplace
        rcases exists_numeral_whole hplace hcoefficient with
          ⟨n, hchars, hmarked⟩
        refine ⟨n, by rw [hchars]; rfl, hmarked.number_eq ?_⟩
        rw [<- hspells.read_eq] at hnonzero hless ⊢
        exact ⟨by norm_num, Binary64.readMagnitude_congr (value_shifted hplace)
          (by norm_num) hspells.place_ge hnonzero hless⟩
      · rename_i hplace
        rcases exists_numeral_positional (by omega) hcoefficient with
          ⟨n, hchars, hmarked⟩
        exact ⟨n, by rw [hchars]; rfl, hmarked.number_eq hspells⟩

end Shortest

theorem scanNumber_documentText {x : Binary64} (hfinite : x.isFinite = true)
    {rest : List Char} (hrest : EndsNumber rest) :
    scanNumber (x.documentText.toList ++ rest) =
      .ok (.ok (.float x), rest) := by
  rcases exists_numeral_documentText hfinite with ⟨n, hchars, hnumber⟩
  rw [hchars, List.append_assoc, scanNumber_numeral _ _ hrest, hnumber,
    finiteNumber, if_pos hfinite]

/-- A number is read back, whatever follows that does not prolong it. -/
theorem scanNumber_numberChars {n : Number} (h : FiniteNumber n) {rest : List Char}
    (hrest : EndsNumber rest) :
    scanNumber (numberChars n ++ rest) = .ok (.ok n, rest) := by
  cases n with
  | int n => exact scanNumber_intDigits h hrest
  | float x =>
      have hfinite : x.isFinite = true := h
      rw [numberChars, if_pos hfinite]
      exact scanNumber_documentText hfinite hrest

theorem head?_numberChars {n : Number} (h : FiniteNumber n) :
    exists c, (numberChars n).head? = some c ∧
      (decide (c = '-') || isDigit c) = true := by
  have hsigned (numeral : Numeral) (negative : Bool) :
      exists c, (signChars negative ++ numeral.chars).head? = some c ∧
        (decide (c = '-') || isDigit c) = true := by
    cases negative with
    | true => exact ⟨'-', rfl, rfl⟩
    | false =>
        rcases head?_chars numeral [] with ⟨c, hhead, hdigit⟩
        rw [List.append_nil] at hhead
        exact ⟨c, hhead, by rw [hdigit, Bool.or_true]⟩
  cases n with
  | int n =>
      rw [numberChars, intDigits_eq]
      exact hsigned _ _
  | float x =>
      have hfinite : x.isFinite = true := h
      rcases exists_numeral_documentText hfinite with ⟨numeral, hchars, _⟩
      rw [numberChars, if_pos hfinite, hchars]
      exact hsigned numeral _

end Json
end TableStore
