import TableStore.Proofs.Sql.Scanning

/-!
# What the scanner keeps

Two facts about all tokens of a text.  A bare word stands for its own
characters, and placeholders are numbered without gaps in the order in which
they stand in the text.
-/

namespace TableStore
namespace Sql

def Token.placeholder? : Token -> Option Nat
  | .placeholder index => some index
  | _ => none

def placeholders (tokens : List Token) : List Nat :=
  tokens.filterMap Token.placeholder?

theorem placeholders_append (first second : List Token) :
    placeholders (first ++ second) =
      placeholders first ++ placeholders second :=
  List.filterMap_append

theorem placeholders_cons (token : Token) (rest : List Token) :
    placeholders (token :: rest) =
      token.placeholder?.toList ++ placeholders rest := by
  cases token <;> rfl

/-!
# The kinds of tokens
-/

def Token.isOther : Token -> Bool
  | .word _ => false
  | .placeholder _ => false
  | _ => true

theorem isOther_scanSign (s : List Char) : (scanSign s).1.isOther = true := by
  unfold scanSign
  dsimp only
  split
  · rfl
  · split
    · rfl
    · split <;> rfl

theorem isOther_scanNumber (s : List Char) :
    (scanNumber s).1.isOther = true := by
  have hkind (whole : Bool) (n : Nat) (d : Decimal.Scaled) :
      (if whole = true then Token.integer n else .decimal d).isOther = true := by
    cases whole <;> rfl
  have hchoice (complete : Bool) {token : Token}
      (htoken : token.isOther = true) (rest others : List Char) :
      (if complete = true then (token, rest)
        else (Token.illegal, others)).1.isOther = true := by
    cases complete with
    | true => exact htoken
    | false => rfl
  unfold scanNumber
  exact hchoice _ (hkind _ _ _) _ _

theorem isOther_scanName (close : Char) (s : List Char) :
    (scanName close s).1.isOther = true := by
  unfold scanName
  split <;> rfl

theorem isOther_scanBlob (s : List Char) : (scanBlob s).1.isOther = true := by
  unfold scanBlob
  dsimp only
  split <;> rfl

/-- What the scanner finds at the start of a text. -/
theorem scanToken_cases (placeholders : Nat) (s : List Char) :
    (scanToken placeholders s).1.isOther = true ∨
      (scanToken placeholders s).1 = .placeholder placeholders ∨
      exists word rest, s = word ++ rest ∧
        scanToken placeholders s = (.word (String.ofList word), rest) := by
  cases s with
  | nil => exact .inl rfl
  | cons c rest =>
      rw [scanToken]
      by_cases hquote : c = '\''
      · rw [if_pos hquote]
        cases Text.readQuoted rest with
        | some found => exact .inl rfl
        | none => exact .inl rfl
      rw [if_neg hquote]
      by_cases hmark : c = '?'
      · rw [if_pos hmark]
        exact .inr (.inl rfl)
      rw [if_neg hmark]
      split
      · exact .inl (isOther_scanName _ _)
      split
      · exact .inl (isOther_scanName _ _)
      split
      · exact .inl (isOther_scanBlob _)
      split
      · refine .inr (.inr ⟨c :: rest.takeWhile continuesName,
          rest.dropWhile continuesName, ?_, rfl⟩)
        rw [List.cons_append, List.takeWhile_append_dropWhile]
      split
      · exact .inl (isOther_scanNumber _)
      · exact .inl (isOther_scanSign _)

/-!
# Bare words
-/

def Lexeme.Faithful (lexeme : Lexeme) : Prop :=
  forall name, lexeme.token = .word name -> lexeme.text = name.toList

theorem faithful_scanToken {placeholders : Nat} {start rest : List Char}
    {token : Token} (hscan : scanToken placeholders start = (token, rest))
    (gap : List Char) :
    Lexeme.Faithful
      ⟨gap, start.take (start.length - rest.length), token⟩ := by
  intro name hname
  dsimp only at hname ⊢
  have hcases := scanToken_cases placeholders start
  rw [hscan, hname] at hcases
  rcases hcases with hother | hmark | ⟨word, others, hstart, hword⟩
  · cases hother
  · cases hmark
  · cases hword
    rw [hstart, List.length_append, Nat.add_sub_cancel, List.take_left,
      String.toList_ofList]

theorem faithful_of_mem_scanFrom {lexeme : Lexeme} :
    forall {fuel placeholders : Nat} {s : List Char},
      lexeme ∈ scanFrom fuel placeholders s -> lexeme.Faithful
  | 0, _, _, hmem => by
      cases hmem
  | fuel + 1, placeholders, s, hmem => by
      rw [scanFrom] at hmem
      cases hscan : scanToken placeholders (skipGap s) with
      | mk token rest =>
          rw [hscan] at hmem
          split at hmem
          · cases hmem
          · cases List.mem_cons.mp hmem with
            | inl heq =>
                rw [heq]
                exact faithful_scanToken hscan _
            | inr hrest => exact faithful_of_mem_scanFrom hrest

theorem faithful_of_mem_scan {lexeme : Lexeme} {text : String}
    (hmem : lexeme ∈ scan text) : lexeme.Faithful :=
  faithful_of_mem_scanFrom hmem

/-!
# Placeholders
-/

theorem Scans.placeholders_eq {start : Nat} {s : List Char}
    {tokens : List Token} (h : Scans start s tokens) :
    placeholders tokens =
      List.range' start (placeholders tokens).length := by
  induction h with
  | done start => rfl
  | blank _ ih => exact ih
  | @token start before after token tokens _ hscan _ _ ih =>
      have hcases := scanToken_cases start before
      rw [hscan] at hcases
      rw [placeholders_cons]
      rcases hcases with hother | hmark | ⟨word, _, _, hword⟩
      · have hnone : token.placeholder? = none := by
          cases token <;> first | rfl | cases hother
        have hnext : nextPlaceholder start token = start := by
          rw [nextPlaceholder, if_neg]
          intro heq
          rw [heq] at hother
          cases hother
        rw [hnext] at ih
        rw [hnone]
        exact ih
      · dsimp only at hmark
        subst hmark
        rw [nextPlaceholder, if_pos rfl] at ih
        rw [Token.placeholder?, Option.toList_some, List.singleton_append,
          List.length_cons, List.range'_succ, ← ih]
      · cases hword
        exact ih

/--
The placeholders of a text are found from the number that one behind the text
gets.
-/
theorem Scans.placeholders_of_next {start finish : Nat} {s : List Char}
    {tokens : List Token}
    (h : Scans start s (tokens ++ [.placeholder finish])) :
    placeholders tokens = List.range' start (finish - start) := by
  have hall := h.placeholders_eq
  have hlast : placeholders [.placeholder finish] = [finish] := rfl
  rw [placeholders_append, hlast, List.length_append, List.length_singleton,
    List.range'_concat, Nat.one_mul] at hall
  rcases List.append_inj' hall (by simp) with ⟨hinit, hfinish⟩
  rw [List.singleton_inj] at hfinish
  rwa [hfinish, Nat.add_sub_cancel_left]

end Sql
end TableStore
