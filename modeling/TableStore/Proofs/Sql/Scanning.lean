import TableStore.Predicate.Basic
import TableStore.Sql.Token

/-!
# Scanning piece by piece

The tokens of a text, said as a relation between characters and tokens that goes
forward by one token or one blank.  A piece of text is described by what it puts
in front of the tokens of whatever follows, so the tokens of a long text are
found without running the scanner on it.
-/

namespace TableStore
namespace Sql

def nextPlaceholder (placeholders : Nat) (token : Token) : Nat :=
  if token = .placeholder placeholders then placeholders + 1 else placeholders

/-- Characters that consist of tokens and single blanks. -/
inductive Scans : Nat -> List Char -> List Token -> Prop where
  | done (placeholders : Nat) : Scans placeholders [] []
  | blank {placeholders : Nat} {s : List Char} {tokens : List Token} :
      Scans placeholders s tokens -> Scans placeholders (' ' :: s) tokens
  | token {placeholders : Nat} {start rest : List Char} {token : Token}
      {tokens : List Token} :
      skipGap start = start ->
      scanToken placeholders start = (token, rest) ->
      rest.length < start.length ->
      Scans (nextPlaceholder placeholders token) rest tokens ->
      Scans placeholders start (token :: tokens)

theorem map_token_scanFrom_succ (fuel placeholders : Nat) (s : List Char) :
    (scanFrom (fuel + 1) placeholders s).map Lexeme.token =
      if (skipGap s).isEmpty then []
      else
        let (token, rest) := scanToken placeholders (skipGap s)
        token ::
          (scanFrom fuel (nextPlaceholder placeholders token) rest).map
            Lexeme.token := by
  rw [scanFrom]
  by_cases hempty : (skipGap s).isEmpty = true
  · rw [if_pos hempty, if_pos hempty]
    rfl
  · rw [if_neg hempty, if_neg hempty]
    rfl

theorem skipGap_blank (s : List Char) : skipGap (' ' :: s) = skipGap s := by
  rw [skipGap.eq_def]
  simp [isBlank]

theorem map_token_scanFrom {placeholders : Nat} {s : List Char}
    {tokens : List Token} (h : Scans placeholders s tokens) :
    forall fuel, s.length <= fuel ->
      (scanFrom fuel placeholders s).map Lexeme.token = tokens := by
  induction h with
  | done placeholders =>
      intro fuel hfuel
      cases fuel with
      | zero => rfl
      | succ fuel => rfl
  | blank hrest ih =>
      intro fuel hfuel
      cases fuel with
      | zero => cases hfuel
      | succ fuel =>
          rw [map_token_scanFrom_succ, skipGap_blank, ← map_token_scanFrom_succ]
          exact ih (fuel + 1) (Nat.le_of_succ_le hfuel)
  | token hgap hscan hlength hrest ih =>
      rename_i placeholders start rest token tokens
      intro fuel hfuel
      have hstart : start.isEmpty = false := by
        cases start with
        | nil => cases hlength
        | cons c start => rfl
      cases fuel with
      | zero => omega
      | succ fuel =>
          rw [map_token_scanFrom_succ, hgap, hscan, hstart,
            if_neg Bool.false_ne_true]
          simp only [ih fuel (by omega)]

theorem map_token_scan {text : String} {tokens : List Token}
    (h : Scans 0 text.toList tokens) :
    (scan text).map Lexeme.token = tokens :=
  map_token_scanFrom h _ (Nat.le_refl _)

/-!
# Words
-/

def spellsWord : List Char -> Bool
  | [] => false
  | c :: rest => startsName c && rest.all continuesName

/-- Whether a name is a bare word that means nothing else. -/
def isPlainName (name : String) : Bool :=
  spellsWord name.toList && !isReserved name

/-- Words that are read as more than a name where a value is expected. -/
def valueWords : List String :=
  ["cast", "current_date", "current_time", "current_timestamp", "raise", "with"]

def isColumnName (name : String) : Bool :=
  isPlainName name && !valueWords.contains (Text.foldCase name)

def isSystemTable (name : String) : Bool :=
  ["sqlite_", "pragma_"].any (fun start =>
      start.toList.isPrefixOf (Text.foldCase name).toList) ||
    ["dbstat", "fts3tokenize", "json_each", "json_tree"].contains (Text.foldCase name)

def isTableName (name : String) : Bool :=
  isPlainName name && Text.foldCase name != "if" && !isSystemTable name

theorem isPlainName_of_isColumnName {name : String} (h : isColumnName name = true) :
    isPlainName name = true := by
  rw [isColumnName, Bool.and_eq_true] at h
  exact h.left

theorem isPlainName_of_isTableName {name : String} (h : isTableName name = true) :
    isPlainName name = true := by
  rw [isTableName, Bool.and_eq_true, Bool.and_eq_true] at h
  exact h.left.left

/-- What follows does not prolong a word, and does not make bytes of it. -/
def EndsWord (rest : List Char) : Prop :=
  forall c, rest.head? = some c -> continuesName c = false ∧ c ≠ '\''

theorem endsWord_cons {c : Char} (h : continuesName c = false ∧ c ≠ '\'')
    (rest : List Char) : EndsWord (c :: rest) := by
  intro first hfirst
  cases hfirst
  exact h

theorem ne_of_startsName {c : Char} (hc : startsName c = true)
    (other : Char) (hother : startsName other = false) : c ≠ other := by
  intro h
  rw [h, hother] at hc
  cases hc

theorem skipGap_cons {c : Char} (hminus : c ≠ '-') (hslash : c ≠ '/')
    (hblank : isBlank c = false) (rest : List Char) :
    skipGap (c :: rest) = c :: rest := by
  unfold skipGap
  split
  · rename_i heq
    cases heq
  · rename_i heq
    cases heq
    exact absurd rfl hminus
  · rename_i heq
    cases heq
    exact absurd rfl hslash
  · rename_i heq
    cases heq
    rw [hblank, if_neg Bool.false_ne_true]

theorem isBlank_of_startsName {c : Char} (hc : startsName c = true) :
    isBlank c = false := by
  have htab := ne_of_startsName hc '\t' (by decide)
  have hline := ne_of_startsName hc '\n' (by decide)
  have hfeed := ne_of_startsName hc '\x0c' (by decide)
  have hreturn := ne_of_startsName hc '\r' (by decide)
  have hspace := ne_of_startsName hc ' ' (by decide)
  simp [isBlank, htab, hline, hfeed, hreturn, hspace]

theorem takeWhile_append_of_stop {front rest : List Char} {p : Char -> Bool}
    (hfront : front.all p = true)
    (hrest : forall c, rest.head? = some c -> p c = false) :
    (front ++ rest).takeWhile p = front := by
  rw [List.takeWhile_append_of_pos (List.all_eq_true.mp hfront)]
  cases rest with
  | nil => simp
  | cons c rest =>
      rw [List.takeWhile_cons_of_neg, List.append_nil]
      rw [hrest c rfl]
      exact Bool.false_ne_true

theorem dropWhile_append_of_stop {front rest : List Char} {p : Char -> Bool}
    (hfront : front.all p = true)
    (hrest : forall c, rest.head? = some c -> p c = false) :
    (front ++ rest).dropWhile p = rest := by
  rw [List.dropWhile_append_of_pos (List.all_eq_true.mp hfront)]
  cases rest with
  | nil => rfl
  | cons c rest =>
      rw [List.dropWhile_cons_of_neg]
      rw [hrest c rfl]
      exact Bool.false_ne_true

theorem scanToken_word {c : Char} {tail rest : List Char}
    (hc : startsName c = true) (htail : tail.all continuesName = true)
    (hrest : EndsWord rest) (placeholders : Nat) :
    scanToken placeholders (c :: (tail ++ rest)) =
      (.word (String.ofList (c :: tail)), rest) := by
  have hquote := ne_of_startsName hc '\'' (by decide)
  have hmark := ne_of_startsName hc '?' (by decide)
  have hdouble := ne_of_startsName hc '"' (by decide)
  have hgrave := ne_of_startsName hc '\x60' (by decide)
  have hbracket := ne_of_startsName hc '[' (by decide)
  have hhead : (tail ++ rest).head? ≠ some '\'' := by
    cases tail with
    | nil =>
        intro h
        exact (hrest '\'' h).right rfl
    | cons first tail =>
        intro h
        cases h
        rw [List.all_cons] at htail
        exact absurd (Bool.and_eq_true_iff.mp htail).left (by decide)
  have hstop : forall d, rest.head? = some d -> continuesName d = false :=
    fun d hd => (hrest d hd).left
  have hname : ¬ (decide (c = '"') || decide (c = '\x60')) = true := by
    simp [hdouble, hgrave]
  have hbytes : ¬ ((decide (c = 'x') || decide (c = 'X')) &&
      decide ((tail ++ rest).head? = some '\'')) = true := by
    rw [decide_eq_false hhead, Bool.and_false]
    exact Bool.false_ne_true
  rw [scanToken, if_neg hquote, if_neg hmark, if_neg hname, if_neg hbracket,
    if_neg hbytes, if_pos hc, takeWhile_append_of_stop htail hstop,
    dropWhile_append_of_stop htail hstop]

theorem Scans.word {name : String} (hname : spellsWord name.toList = true)
    {rest : List Char} (hrest : EndsWord rest) {placeholders : Nat}
    {tokens : List Token} (h : Scans placeholders rest tokens) :
    Scans placeholders (name.toList ++ rest) (.word name :: tokens) := by
  cases hchars : name.toList with
  | nil =>
      rw [hchars] at hname
      cases hname
  | cons c tail =>
      rw [hchars, spellsWord, Bool.and_eq_true] at hname
      rcases hname with ⟨hc, htail⟩
      have hspelled : String.ofList (c :: tail) = name := by
        rw [← hchars, String.ofList_toList]
      apply Scans.token
      · exact skipGap_cons (ne_of_startsName hc _ (by decide))
          (ne_of_startsName hc _ (by decide)) (isBlank_of_startsName hc) _
      · rw [List.cons_append, scanToken_word hc htail hrest, hspelled]
      · simp only [List.cons_append, List.length_cons, List.length_append]
        omega
      · exact h

/-!
# Signs
-/

theorem Scans.placeholder {rest : List Char} {placeholders : Nat}
    {tokens : List Token} (h : Scans (placeholders + 1) rest tokens) :
    Scans placeholders ('?' :: rest) (.placeholder placeholders :: tokens) := by
  apply Scans.token
  · exact skipGap_cons (by decide) (by decide) (by decide) rest
  · rfl
  · exact Nat.lt_succ_self _
  · simpa [nextPlaceholder] using h

def loneSigns : List Char :=
  ['(', ')', ',', ';', '*']

theorem take_two_not_mem_longSigns {c : Char} (hc : c ∈ loneSigns)
    (rest : List Char) :
    String.ofList ((c :: rest).take 2) ∉ longSigns := by
  intro hmem
  have hlong : forall sign, sign ∈ longSigns ->
      sign.toList.head?.any loneSigns.contains = false := by
    decide
  have hhead := hlong _ hmem
  rw [String.toList_ofList, List.take_succ_cons, List.head?_cons] at hhead
  simp [hc] at hhead

theorem Scans.loneSign {c : Char} (hc : c ∈ loneSigns) {rest : List Char}
    {placeholders : Nat} {tokens : List Token}
    (h : Scans placeholders rest tokens) :
    Scans placeholders (c :: rest) (.sign (String.ofList [c]) :: tokens) := by
  have hlong := take_two_not_mem_longSigns hc rest
  refine Scans.token ?_ ?_ ?_ h
  · simp only [loneSigns, List.mem_cons, List.not_mem_nil, or_false] at hc
    rcases hc with rfl | rfl | rfl | rfl | rfl <;>
      exact skipGap_cons (by decide) (by decide) (by decide) rest
  · have hsign : scanSign (c :: rest) = (.sign (String.ofList [c]), rest) := by
      have hshort : c ∈ shortSigns := by
        simp only [loneSigns, List.mem_cons, List.not_mem_nil, or_false] at hc
        rcases hc with rfl | rfl | rfl | rfl | rfl <;> decide
      rw [scanSign, if_neg hlong, if_pos hshort]
    simp only [loneSigns, List.mem_cons, List.not_mem_nil, or_false] at hc
    rcases hc with rfl | rfl | rfl | rfl | rfl <;> exact hsign
  · exact Nat.lt_succ_self _

theorem Scans.comparison (comparison : Comparison) {rest : List Char}
    {placeholders : Nat} {tokens : List Token}
    (h : Scans placeholders rest tokens) :
    Scans placeholders (comparison.symbol.toList ++ ' ' :: rest)
      (.sign comparison.symbol :: tokens) := by
  refine Scans.token ?_ ?_ ?_ (Scans.blank h)
  · cases comparison <;>
      exact skipGap_cons (by decide) (by decide) (by decide) _
  · cases comparison <;> rfl
  · cases comparison <;> simp [Comparison.symbol]

end Sql
end TableStore
