import TableStore.Sql.Fault

/-!
# Runs of readers

What the elementary readers do with the tokens in front of them.  A longer
reader is run step by step: the run of its first part is replaced by its result.
-/

namespace TableStore
namespace Sql

namespace Lexeme

theorem isWord_eq_true_iff {lexeme : Lexeme} {word : String} :
    lexeme.isWord word = true <->
      exists name, lexeme.token = .word name ∧ Text.foldCase name = word := by
  unfold isWord
  cases lexeme.token <;> simp

theorem isSign_eq_true_iff {lexeme : Lexeme} {sign : String} :
    lexeme.isSign sign = true <-> lexeme.token = .sign sign := by
  simp [isSign]

end Lexeme

namespace Reader

variable {α β : Type}

theorem run_bind {first : Reader α} {next : α -> Reader β}
    {before after : List Lexeme} {result : α}
    (h : first.run before = .ok (result, after)) :
    (first >>= next).run before = (next result).run after := by
  rw [StateT.run_bind, h]
  rfl

theorem run_pure (result : α) (lexemes : List Lexeme) :
    (pure result : Reader α).run lexemes = .ok (result, lexemes) := rfl

theorem run_peek? (lexemes : List Lexeme) :
    peek?.run lexemes = .ok (lexemes.head?, lexemes) := rfl

theorem run_skip_cons (lexeme : Lexeme) (rest : List Lexeme) :
    skip.run (lexeme :: rest) = .ok ((), rest) := rfl

/-!
# Words and signs
-/

theorem run_atWord_cons (word : String) (lexeme : Lexeme)
    (rest : List Lexeme) :
    (atWord word).run (lexeme :: rest) =
      .ok (lexeme.isWord word, lexeme :: rest) := rfl

theorem run_atSign_cons (sign : String) (lexeme : Lexeme)
    (rest : List Lexeme) :
    (atSign sign).run (lexeme :: rest) =
      .ok (lexeme.isSign sign, lexeme :: rest) := rfl

theorem run_tryWord_of_isWord {word : String} {lexeme : Lexeme}
    (h : lexeme.isWord word = true) (rest : List Lexeme) :
    (tryWord word).run (lexeme :: rest) = .ok (true, rest) := by
  unfold tryWord
  rw [run_bind (run_atWord_cons word lexeme rest), if_pos h,
    run_bind (run_skip_cons lexeme rest), run_pure]

theorem run_tryWord_of_not_isWord {word : String} {lexeme : Lexeme}
    (h : ¬ lexeme.isWord word = true) (rest : List Lexeme) :
    (tryWord word).run (lexeme :: rest) = .ok (false, lexeme :: rest) := by
  unfold tryWord
  rw [run_bind (run_atWord_cons word lexeme rest), if_neg h, run_pure]

theorem run_trySign_of_isSign {sign : String} {lexeme : Lexeme}
    (h : lexeme.isSign sign = true) (rest : List Lexeme) :
    (trySign sign).run (lexeme :: rest) = .ok (true, rest) := by
  unfold trySign
  rw [run_bind (run_atSign_cons sign lexeme rest), if_pos h,
    run_bind (run_skip_cons lexeme rest), run_pure]

theorem run_trySign_of_not_isSign {sign : String} {lexeme : Lexeme}
    (h : ¬ lexeme.isSign sign = true) (rest : List Lexeme) :
    (trySign sign).run (lexeme :: rest) = .ok (false, lexeme :: rest) := by
  unfold trySign
  rw [run_bind (run_atSign_cons sign lexeme rest), if_neg h, run_pure]

theorem run_trySign_nil (sign : String) :
    (trySign sign).run [] = .ok (false, []) := rfl

theorem run_sign {sign : String} {lexeme : Lexeme}
    (h : lexeme.isSign sign = true) (rest : List Lexeme) :
    (Reader.sign sign).run (lexeme :: rest) = .ok ((), rest) := by
  unfold Reader.sign
  rw [run_bind (run_trySign_of_isSign h rest)]
  rfl

/-!
# Names
-/

theorem run_tryName_of_name {name : String} {lexeme : Lexeme}
    (h : lexeme.name? = some name) (rest : List Lexeme) :
    tryName.run (lexeme :: rest) = .ok (some name, rest) := by
  unfold tryName
  rw [run_bind (run_peek? _), List.head?_cons, Option.bind_some, h]
  exact run_bind (run_skip_cons lexeme rest)

theorem run_tryName_of_no_name {lexemes : List Lexeme}
    (h : lexemes.head?.bind Lexeme.name? = none) :
    tryName.run lexemes = .ok (none, lexemes) := by
  unfold tryName
  rw [run_bind (run_peek? _), h]
  rfl

theorem run_name {name : String} {lexeme : Lexeme}
    (h : lexeme.name? = some name) (rest : List Lexeme) :
    Reader.name.run (lexeme :: rest) = .ok (name, rest) := by
  unfold Reader.name
  rw [run_bind (run_tryName_of_name h rest)]
  rfl

end Reader
end Sql
end TableStore
