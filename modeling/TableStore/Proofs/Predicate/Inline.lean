import TableStore.Proofs.Decimal.Shortest
import TableStore.Proofs.Predicate.Reading
import TableStore.Proofs.Sql.Literals

/-!
# Operands inside a clause

An operand that is written into the text of a clause is read as one expression.
Texts and whole numbers are read as themselves, and truth values as the words
for them.  A binary number is written without an exponent; if its shortest
digits end before the point, no point is written either, and the text is read as
a whole number whenever one of sixty-four bits has these digits.
-/

namespace TableStore
namespace Predicate

open Decimal (Binary64)
open Fragment (Reads EndsExpression)
open Sql (Expr Phrase Scans Token)

/-!
# The expression of an operand
-/

/-- The expression that a binary number is read as, once it has been written. -/
def respelled (x : Binary64) : Expr :=
  let d := x.shortest .up
  if 0 <= d.place then
    Expr.ofDigits x.negative (d.coefficient * Decimal.tenTo d.place.toNat)
  else .decimal x.negative d

/-- The expression that an operand is read as. -/
def inlineLeaf : Value -> Expr
  | .bool true => .column none "true"
  | .bool false => .column none "false"
  | .real x => respelled x
  | value => .literal value

/-- A value that no quote of its own ends early. -/
def Unquoted : Value -> Prop
  | .text s => '\'' ∉ s.toList
  | _ => True

/-!
# Numbers
-/

theorem endsNumber_of_endsExpression {rest : List Char}
    (h : EndsExpression rest) : Sql.EndsNumber rest := by
  intro c hc
  rcases h c hc with heq | heq
  · rw [heq]
    decide
  · rw [heq]
    decide

theorem endsWord_of_endsExpression {rest : List Char}
    (h : EndsExpression rest) : Sql.EndsWord rest := by
  intro c hc
  rcases h c hc with heq | heq
  · rw [heq]
    decide
  · rw [heq]
    decide

/-- A number with its sign. -/
def signedTokens (negative : Bool) (token : Token) : List Token :=
  if negative then [.sign "-", token] else [token]

theorem phrase_whole (negative : Bool) (n : Nat) :
    Phrase Sql.operandStrength (signedTokens negative (.integer n))
      (Expr.ofDigits negative n) := by
  cases negative with
  | true => exact Phrase.negativeInteger n
  | false => exact Phrase.value (Sql.ValueToken.integer n)

theorem phrase_decimal (negative : Bool) (d : Decimal.Scaled) :
    Phrase Sql.operandStrength (signedTokens negative (.decimal d))
      (.decimal negative d) := by
  cases negative with
  | true => exact Phrase.negativeDecimal d
  | false => exact Phrase.value (Sql.ValueToken.decimal d)

theorem ofDigits_natAbs (n : Int64) :
    Expr.ofDigits (n.toInt < 0) n.toInt.natAbs = .literal (.int n) := by
  rw [Expr.ofDigits, Decimal.signed_natAbs, Decimal.int64?_toInt]

theorem scans_signed (negative : Bool) {front rest : List Char}
    (hfront : exists c tail, front = c :: tail ∧ Decimal.isDigit c = true)
    {token : Token} {placeholders : Nat} {tokens : List Token}
    (h : Scans placeholders (front ++ rest) (token :: tokens)) :
    Scans placeholders
      ((if negative then '-' :: front else front) ++ rest)
      (signedTokens negative token ++ tokens) := by
  cases negative with
  | false => exact h
  | true =>
      rcases hfront with ⟨c, tail, heq, hc⟩
      subst heq
      apply Scans.minus _ h
      intro hminus
      cases hminus
      exact absurd hc (by decide)

/-- The token of a decimal without a sign. -/
def decimalToken (d : Decimal.Scaled) : Token :=
  if 0 <= d.place then
    .integer (d.coefficient * Decimal.tenTo d.place.toNat)
  else .decimal d

theorem scans_parted {d : Decimal.Scaled} {whole fraction rest : List Char}
    (hparted : d.Parted whole fraction) (hrest : Sql.EndsNumber rest)
    {placeholders : Nat} {tokens : List Token} (h : Scans placeholders rest tokens) :
    Scans placeholders (whole ++ '.' :: fraction ++ rest)
      (.decimal d :: tokens) := by
  have hscans := Scans.decimal hparted.whole_ne_nil hparted.all_whole
    hparted.all_fraction hrest h
  rw [hparted.ofDigits_eq, hparted.length_eq] at hscans
  rw [List.append_assoc, List.cons_append]
  exact hscans

theorem scans_positional (d : Decimal.Scaled) {rest : List Char}
    (hrest : Sql.EndsNumber rest) {placeholders : Nat} {tokens : List Token}
    (h : Scans placeholders rest tokens) :
    Scans placeholders (d.positional ++ rest) (decimalToken d :: tokens) := by
  rw [decimalToken]
  by_cases hwhole : 0 <= d.place
  · have hne : Decimal.digits d.coefficient ++ Decimal.zeros d.place.toNat ≠ [] :=
      List.append_ne_nil_of_left_ne_nil (Decimal.digits_ne_nil _) _
    rw [if_pos hwhole, Decimal.Scaled.positional_of_nonneg hwhole,
      <- Decimal.ofDigits_digits_zeros]
    exact Scans.integer hne (Decimal.all_isDigit_digits_zeros _ _) hrest h
  · rcases Decimal.Scaled.exists_parted (Int.not_le.mp hwhole) with
      ⟨whole, fraction, hpositional, hparted⟩
    rw [if_neg hwhole, hpositional]
    exact scans_parted hparted hrest h

theorem digits_eq_cons (n : Nat) :
    exists c tail, Decimal.digits n = c :: tail ∧ Decimal.isDigit c = true :=
  Decimal.exists_isDigit_cons (Decimal.digits_ne_nil n) (Decimal.all_isDigit_digits n)

theorem positional_eq_cons (d : Decimal.Scaled) :
    exists c tail, d.positional = c :: tail ∧ Decimal.isDigit c = true := by
  by_cases hwhole : 0 <= d.place
  · rcases digits_eq_cons d.coefficient with ⟨c, tail, hdigits, hc⟩
    rw [Decimal.Scaled.positional_of_nonneg hwhole, hdigits]
    exact ⟨c, _, rfl, hc⟩
  · rcases Decimal.Scaled.exists_parted (Int.not_le.mp hwhole) with
      ⟨whole, fraction, hpositional, hparted⟩
    rcases Decimal.exists_isDigit_cons hparted.whole_ne_nil hparted.all_whole with
      ⟨c, tail, rfl, hc⟩
    exact ⟨c, _, hpositional, hc⟩

theorem scans_intText (n : Int) {rest : List Char}
    (hrest : Sql.EndsNumber rest) {placeholders : Nat} {tokens : List Token}
    (h : Scans placeholders rest tokens) :
    Scans placeholders ((Decimal.intText n).toList ++ rest)
      (signedTokens (n < 0) (.integer n.natAbs) ++ tokens) := by
  have hscans := Scans.integer (Decimal.digits_ne_nil n.natAbs)
    (Decimal.all_isDigit_digits n.natAbs) hrest h
  rw [Decimal.ofDigits_digits] at hscans
  have hsigned := scans_signed (n < 0) (digits_eq_cons _) hscans
  simpa [Decimal.intText, Decimal.intDigits] using hsigned

theorem scans_positionalText {x : Binary64} (hfinite : x.isFinite = true)
    {rest : List Char} (hrest : Sql.EndsNumber rest) {placeholders : Nat}
    {tokens : List Token} (h : Scans placeholders rest tokens) :
    Scans placeholders (x.positionalText.toList ++ rest)
      (signedTokens x.negative (decimalToken (x.shortest .up)) ++ tokens) := by
  have hnumber := Binary64.not_isNaN_of_isFinite hfinite
  have hscans := scans_positional (x.shortest .up) hrest h
  have hsigned := scans_signed x.negative (positional_eq_cons _) hscans
  rw [Binary64.positionalText, if_neg hnumber, if_pos hfinite,
    String.toList_ofList, Binary64.signText]
  cases hsign : x.negative with
  | true => simpa [hsign] using hsigned
  | false => simpa [hsign] using hsigned

theorem phrase_decimalToken (x : Binary64) :
    Phrase Sql.operandStrength
      (signedTokens x.negative (decimalToken (x.shortest .up)))
      (respelled x) := by
  rw [decimalToken, respelled]
  split
  · exact phrase_whole _ _
  · exact phrase_decimal _ _

/-!
# Operands
-/

theorem reads_word (start : Nat) {name : String}
    (hname : Sql.isPlainName name = true) :
    Reads Sql.operandStrength start (.ofText name) (.column none name) := by
  rw [Sql.isPlainName, Bool.and_eq_true, Bool.not_eq_true'] at hname
  exists [.word name]
  constructor
  · exact Phrase.column (Sql.NameToken.word hname.right)
  · intro rest others hrest hothers
    exact Scans.word hname.left (endsWord_of_endsExpression hrest) hothers

theorem reads_int (start : Nat) (n : Int64) :
    Reads Sql.operandStrength start (.ofText (Decimal.intText n.toInt))
      (.literal (.int n)) := by
  exists signedTokens (n.toInt < 0) (.integer n.toInt.natAbs)
  constructor
  · have hphrase := phrase_whole (n.toInt < 0) n.toInt.natAbs
    rwa [ofDigits_natAbs] at hphrase
  · intro rest others hrest hothers
    exact scans_intText n.toInt (endsNumber_of_endsExpression hrest) hothers

theorem reads_real (start : Nat) {x : Binary64} (hfinite : x.isFinite = true) :
    Reads Sql.operandStrength start (.ofText x.positionalText)
      (respelled x) := by
  exists signedTokens x.negative (decimalToken (x.shortest .up))
  constructor
  · exact phrase_decimalToken x
  · intro rest others hrest hothers
    exact scans_positionalText hfinite (endsNumber_of_endsExpression hrest)
      hothers

theorem reads_text (start : Nat) {s : String} (hquote : '\'' ∉ s.toList) :
    Reads Sql.operandStrength start (.ofText ("'" ++ s ++ "'"))
      (.literal (.text s)) := by
  exists [.text s]
  constructor
  · exact Phrase.value (Sql.ValueToken.text s)
  · intro rest others hrest hothers
    have hnext : rest.head? ≠ some '\'' := by
      intro hhead
      exact absurd (hrest '\'' hhead) (by decide)
    have hscans := Scans.quoted hquote hnext hothers
    simpa [Fragment.ofText] using hscans

theorem reads_operandText (start : Nat) {value : Value}
    (hliteral : value.isLiteral = true) (hquote : Unquoted value) :
    Reads Sql.operandStrength start (renderOperand .inline value)
      (inlineLeaf value) := by
  cases value with
  | null => cases hliteral
  | blob bytes => cases hliteral
  | bool b =>
      cases b with
      | true => exact reads_word start (by decide)
      | false => exact reads_word start (by decide)
  | int n => exact reads_int start n
  | real x => exact reads_real start hliteral
  | text s => exact reads_text start hquote

/-- Literals written into a clause are read in any place of a statement. -/
theorem leavesRead_inline (before : Nat) {values : List Value}
    (hliterals : forall value, value ∈ values -> value.isLiteral = true)
    (hquotes : forall value, value ∈ values -> Unquoted value) :
    LeavesRead before .inline (fun _ => inlineLeaf) values := by
  intro value hmem index
  exact reads_operandText _ (hliterals value hmem) (hquotes value hmem)

end Predicate
end TableStore
