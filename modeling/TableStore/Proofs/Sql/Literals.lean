import TableStore.Proofs.Decimal.Digits
import TableStore.Proofs.Sql.Scanning

/-!
# Scanning literals

Runs of digits, numbers with a point, minus signs, quoted texts and bytes, each
in front of whatever follows.
-/

namespace TableStore
namespace Sql

open Decimal (isDigit)

/-!
# Numbers
-/

/-- What follows does not prolong a number. -/
def EndsNumber (rest : List Char) : Prop :=
  forall c, rest.head? = some c -> continuesName c = false ∧ c ≠ '.'

theorem EndsNumber.not_continues {rest : List Char} (h : EndsNumber rest) :
    (rest.takeWhile continuesName).isEmpty = true := by
  cases rest with
  | nil => rfl
  | cons c rest =>
      rw [List.takeWhile_cons_of_neg]
      · rfl
      · rw [(h c rfl).left]
        exact Bool.false_ne_true

theorem EndsNumber.not_digit {rest : List Char} (h : EndsNumber rest) :
    forall c, rest.head? = some c -> isDigit c = false := by
  intro c hc
  have hcontinues := (h c hc).left
  rw [continuesName, Bool.or_eq_false_iff, Bool.or_eq_false_iff] at hcontinues
  exact hcontinues.left.right

theorem EndsNumber.no_exponent {rest : List Char} (h : EndsNumber rest) :
    scanExponent rest = none := by
  cases rest with
  | nil => rfl
  | cons c rest =>
      have hcontinues := (h c rfl).left
      have hletter : ¬ (decide (c = 'e') || decide (c = 'E')) = true := by
        intro hletter
        rw [Bool.or_eq_true, decide_eq_true_iff, decide_eq_true_iff] at hletter
        rcases hletter with heq | heq
        · rw [heq] at hcontinues
          exact absurd hcontinues (by decide)
        · rw [heq] at hcontinues
          exact absurd hcontinues (by decide)
      simp only [scanExponent, if_neg hletter]

theorem scanNumber_integer {digits rest : List Char}
    (hdigits : digits.all isDigit = true) (hrest : EndsNumber rest) :
    scanNumber (digits ++ rest) =
      (.integer (Decimal.ofDigits digits), rest) := by
  have hpoint : (rest.head? = some '.') = False := by
    rw [eq_iff_iff, iff_false]
    intro hhead
    exact (hrest '.' hhead).right rfl
  unfold scanNumber
  simp only [takeWhile_append_of_stop hdigits hrest.not_digit,
    dropWhile_append_of_stop hdigits hrest.not_digit, hpoint,
    decide_false, if_false, hrest.no_exponent, Option.map_none,
    Option.getD_none, Option.isNone_none, Bool.not_false, Bool.and_self,
    if_true, hrest.not_continues]

theorem scanNumber_decimal {whole fraction rest : List Char}
    (hwhole : whole.all isDigit = true)
    (hfraction : fraction.all isDigit = true) (hrest : EndsNumber rest) :
    scanNumber (whole ++ '.' :: (fraction ++ rest)) =
      (.decimal ⟨Decimal.ofDigits (whole ++ fraction), -(fraction.length : Int)⟩,
        rest) := by
  have hpoint : forall c, ('.' :: (fraction ++ rest)).head? = some c ->
      isDigit c = false := by
    intro c hc
    cases hc
    decide
  unfold scanNumber
  simp only [takeWhile_append_of_stop hwhole hpoint,
    dropWhile_append_of_stop hwhole hpoint, List.head?_cons, decide_true,
    if_true, List.drop_succ_cons, List.drop_zero,
    takeWhile_append_of_stop hfraction hrest.not_digit,
    dropWhile_append_of_stop hfraction hrest.not_digit, hrest.no_exponent,
    Option.map_none, Option.getD_none, Option.isNone_none, Bool.not_true,
    Bool.false_and, Bool.false_eq_true, if_false, hrest.not_continues,
    Int.zero_sub]

theorem scanToken_digit {c : Char} (hc : isDigit c = true) (rest : List Char)
    (placeholders : Nat) :
    scanToken placeholders (c :: rest) = scanNumber (c :: rest) := by
  have hname : startsName c = false := by
    have hall : Decimal.digitChars.all (fun d => !startsName d) = true := by
      decide
    have hc := Decimal.digit_all hc hall
    rwa [Bool.not_eq_true'] at hc
  have hquote : c ≠ '\'' := Decimal.ne_of_isDigit hc (by decide)
  have hmark : c ≠ '?' := Decimal.ne_of_isDigit hc (by decide)
  have hdouble : c ≠ '"' := Decimal.ne_of_isDigit hc (by decide)
  have hgrave : c ≠ '\x60' := Decimal.ne_of_isDigit hc (by decide)
  have hbracket : c ≠ '[' := Decimal.ne_of_isDigit hc (by decide)
  have hsmall : c ≠ 'x' := Decimal.ne_of_isDigit hc (by decide)
  have hlarge : c ≠ 'X' := Decimal.ne_of_isDigit hc (by decide)
  simp [scanToken, hname, hquote, hmark, hdouble, hgrave, hbracket, hsmall,
    hlarge, hc]

theorem skipGap_digit {c : Char} (hc : isDigit c = true) (rest : List Char) :
    skipGap (c :: rest) = c :: rest := by
  have hblank : isBlank c = false := by
    have hall : Decimal.digitChars.all (fun d => !isBlank d) = true := by
      decide
    have hc := Decimal.digit_all hc hall
    rwa [Bool.not_eq_true'] at hc
  exact skipGap_cons (Decimal.ne_of_isDigit hc (by decide))
    (Decimal.ne_of_isDigit hc (by decide)) hblank rest

theorem Scans.number {front rest : List Char} {token : Token}
    (hne : front ≠ [])
    (hfirst : forall c, front.head? = some c -> isDigit c = true)
    (hscan : scanNumber (front ++ rest) = (token, rest))
    (htoken : forall placeholders, token ≠ .placeholder placeholders)
    {placeholders : Nat} {tokens : List Token}
    (h : Scans placeholders rest tokens) :
    Scans placeholders (front ++ rest) (token :: tokens) := by
  cases front with
  | nil => exact absurd rfl hne
  | cons c front =>
      have hc := hfirst c rfl
      apply Scans.token
      · exact skipGap_digit hc _
      · rw [List.cons_append, scanToken_digit hc, ← List.cons_append, hscan]
      · simp only [List.cons_append, List.length_cons, List.length_append]
        omega
      · rw [nextPlaceholder, if_neg (htoken placeholders)]
        exact h

theorem head?_of_all {front : List Char} {p : Char -> Bool}
    (hall : front.all p = true) {c : Char} (hc : front.head? = some c) :
    p c = true :=
  List.all_eq_true.mp hall c (List.mem_of_mem_head? hc)

theorem Scans.integer {digits rest : List Char} (hne : digits ≠ [])
    (hdigits : digits.all isDigit = true) (hrest : EndsNumber rest)
    {placeholders : Nat} {tokens : List Token}
    (h : Scans placeholders rest tokens) :
    Scans placeholders (digits ++ rest)
      (.integer (Decimal.ofDigits digits) :: tokens) :=
  Scans.number hne (fun _ => head?_of_all hdigits)
    (scanNumber_integer hdigits hrest) (fun _ => nofun) h

theorem Scans.decimal {whole fraction rest : List Char} (hne : whole ≠ [])
    (hwhole : whole.all isDigit = true)
    (hfraction : fraction.all isDigit = true) (hrest : EndsNumber rest)
    {placeholders : Nat} {tokens : List Token}
    (h : Scans placeholders rest tokens) :
    Scans placeholders (whole ++ '.' :: (fraction ++ rest))
      (.decimal ⟨Decimal.ofDigits (whole ++ fraction),
        -(fraction.length : Int)⟩ :: tokens) := by
  have hscan := scanNumber_decimal hwhole hfraction hrest
  rw [← List.cons_append, ← List.append_assoc] at hscan ⊢
  refine Scans.number (by simp) ?_ hscan (fun _ => nofun) h
  intro c hc
  cases whole with
  | nil => exact absurd rfl hne
  | cons first whole => exact head?_of_all hwhole hc

theorem Scans.minus {rest : List Char} (hrest : rest.head? ≠ some '-')
    {placeholders : Nat} {tokens : List Token}
    (h : Scans placeholders rest tokens) :
    Scans placeholders ('-' :: rest) (.sign "-" :: tokens) := by
  have hlong : String.ofList (('-' :: rest).take 2) ∉ longSigns := by
    intro hmem
    have hhead : forall sign, sign ∈ longSigns ->
        sign.toList.head? ≠ some '-' := by
      decide
    apply hhead _ hmem
    rw [String.toList_ofList, List.take_succ_cons, List.head?_cons]
  refine Scans.token ?_ ?_ (Nat.lt_succ_self rest.length) h
  · unfold skipGap
    split
    · rename_i heq
      cases heq
    · rename_i heq
      cases heq
      exact absurd rfl hrest
    · rename_i heq
      cases heq
    · rename_i heq
      cases heq
      rfl
  · have hsign : scanSign ('-' :: rest) = (.sign "-", rest) := by
      rw [scanSign, if_neg hlong]
      rfl
    exact hsign

/-!
# Texts
-/

theorem doubleQuotes_of_not_mem {s : List Char} (hquote : '\'' ∉ s) :
    Text.doubleQuotes s = s := by
  induction s with
  | nil => rfl
  | cons c rest ih =>
      rw [List.mem_cons, not_or] at hquote
      rw [Text.doubleQuotes, if_neg (Ne.symm hquote.left), ih hquote.right]

/-- A text with its quotes doubled is one token, whatever stands in it. -/
theorem Scans.doubled (s : List Char) {rest : List Char}
    (hrest : rest.head? ≠ some '\'') {placeholders : Nat}
    {tokens : List Token} (h : Scans placeholders rest tokens) :
    Scans placeholders ('\'' :: (Text.doubleQuotes s ++ '\'' :: rest))
      (.text (String.ofList s) :: tokens) := by
  have hread := Text.readQuoted_doubleQuotes s rest hrest
  refine Scans.token ?_ ?_ ?_ h
  · exact skipGap_cons (by decide) (by decide) (by decide) _
  · rw [scanToken, if_pos rfl, hread]
  · simp only [List.length_cons, List.length_append]
    omega

theorem Scans.quoted {s rest : List Char} (hquote : '\'' ∉ s)
    (hrest : rest.head? ≠ some '\'') {placeholders : Nat}
    {tokens : List Token} (h : Scans placeholders rest tokens) :
    Scans placeholders ('\'' :: (s ++ '\'' :: rest))
      (.text (String.ofList s) :: tokens) := by
  have hscans := Scans.doubled s hrest h
  rwa [doubleQuotes_of_not_mem hquote] at hscans

/-!
# Bytes
-/

theorem Scans.bytes (bytes : List UInt8) {rest : List Char}
    {placeholders : Nat} {tokens : List Token}
    (h : Scans placeholders rest tokens) :
    Scans placeholders
      ('X' :: '\'' ::
        (Text.hexOfBytes Text.upperHexDigit bytes ++ '\'' :: rest))
      (.blob bytes :: tokens) := by
  have hdigits : (Text.hexOfBytes Text.upperHexDigit bytes).all (· != '\'') =
      true := by
    rw [List.all_eq_true]
    intro c hc
    rw [bne_iff_ne]
    intro heq
    exact Text.quote_not_mem_hexOfBytes bytes (heq ▸ hc)
  have hclosing : forall c, ('\'' :: rest).head? = some c ->
      (c != '\'') = false := by
    intro c hc
    cases hc
    rfl
  have hblob : scanBlob
      (Text.hexOfBytes Text.upperHexDigit bytes ++ '\'' :: rest) =
        (.blob bytes, rest) := by
    simp only [scanBlob, takeWhile_append_of_stop hdigits hclosing,
      dropWhile_append_of_stop hdigits hclosing, Text.bytesOfHex?_hexOfBytes,
      List.drop_succ_cons, List.drop_zero]
  refine Scans.token ?_ ?_ ?_ h
  · exact skipGap_cons (by decide) (by decide) (by decide) _
  · have hscan : scanToken placeholders
        ('X' :: '\'' ::
          (Text.hexOfBytes Text.upperHexDigit bytes ++ '\'' :: rest)) =
          scanBlob
            (Text.hexOfBytes Text.upperHexDigit bytes ++ '\'' :: rest) := rfl
    rw [hscan, hblob]
  · simp only [List.length_cons, List.length_append]
    omega

end Sql
end TableStore
