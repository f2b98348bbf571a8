/-!
# Quoted text

Text between single quotes, in which a quote that belongs to the text is
written twice.

## Main statements

Reading a written text gives the text back and stops right behind its closing
quote, whatever follows, as long as what follows is not a quote.
-/

namespace TableStore
namespace Text

def doubleQuotes : List Char -> List Char
  | [] => []
  | c :: rest =>
      if c = '\'' then '\'' :: '\'' :: doubleQuotes rest
      else c :: doubleQuotes rest

def quote (s : String) : String :=
  "'" ++ String.ofList (doubleQuotes s.toList) ++ "'"

/--
Reads the rest of a quoted text behind its opening quote.  The result holds the
text and what follows the closing quote; it is absent when no quote closes the
text.
-/
def readQuoted : List Char -> Option (List Char × List Char)
  | [] => none
  | '\'' :: '\'' :: rest =>
      (readQuoted rest).map fun (text, after) => ('\'' :: text, after)
  | c :: rest =>
      if c = '\'' then some ([], rest)
      else (readQuoted rest).map fun (text, after) => (c :: text, after)

theorem readQuoted_doubleQuotes (s after : List Char)
    (h : after.head? ≠ some '\'') :
    readQuoted (doubleQuotes s ++ '\'' :: after) = some (s, after) := by
  induction s with
  | nil =>
      cases after with
      | nil => rfl
      | cons c rest =>
          have hc : c ≠ '\'' := by simpa using h
          show readQuoted ('\'' :: c :: rest) = some ([], c :: rest)
          rw [readQuoted.eq_def]
          split
          · contradiction
          · rename_i heq
            simp only [List.cons.injEq] at heq
            exact absurd heq.2.1 hc
          · rename_i heq
            simp only [List.cons.injEq] at heq
            obtain ⟨rfl, rfl⟩ := heq
            simp
  | cons c rest ih =>
      by_cases hc : c = '\''
      · subst hc
        simp [doubleQuotes, readQuoted, ih]
      · simp only [doubleQuotes, if_neg hc, List.cons_append]
        rw [readQuoted.eq_def]
        split
        · contradiction
        · rename_i heq
          simp only [List.cons.injEq] at heq
          exact absurd heq.1 hc
        · rename_i heq
          simp only [List.cons.injEq] at heq
          obtain ⟨rfl, rfl⟩ := heq
          simp [hc, ih]

end Text
end TableStore
