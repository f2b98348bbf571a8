import TableStore.Proofs.Engine.Version
import TableStore.Proofs.Sql.Refusals

/-!
# Texts of one statement

A text that is one statement does what its command does.  If a statement is read
from the start of a text and something else than its end comes next, the text is
refused there and nothing is done.
-/

namespace TableStore
namespace Engine

open Sql (Command Lexeme Reader)

/-- No statement of a text is beyond the limits of the engine. -/
def Admits [Dialect] (text : String) : Prop :=
  forall command, command ∈ Command.all text -> Dialect.excess? command = none

namespace Session

/-!
# Where a statement starts and ends
-/

theorem run_readStatement_refuses {lexemes : List Lexeme}
    (h : forall word,
      (Reader.tryWord word).run lexemes = .ok (false, lexemes)) :
    Command.readStatement.run lexemes = .error (Sql.faultAt lexemes) := by
  unfold Command.readStatement
  simp only [Reader.run_bind (h _), Bool.false_eq_true, if_false]
  rfl

/-- A text that starts with a statement starts with no empty ones. -/
theorem dropEmptyStatements_of_readStatement {lexemes rest : List Lexeme}
    {command : Command}
    (h : Command.readStatement.run lexemes = .ok (command, rest)) :
    exists first others, lexemes = first :: others ∧
      Command.dropEmptyStatements lexemes = first :: others := by
  cases lexemes with
  | nil =>
      rw [run_readStatement_refuses fun _ => rfl] at h
      cases h
  | cons first others =>
      have hsign : ¬ first.isSign ";" = true := by
        intro hsign
        have hword (word : String) : ¬ first.isWord word = true := by
          rw [Lexeme.isWord, Sql.Lexeme.isSign_eq_true_iff.mp hsign]
          exact Bool.false_ne_true
        rw [run_readStatement_refuses fun word =>
          Reader.run_tryWord_of_not_isWord (hword word) others] at h
        cases h
      exact ⟨first, others, rfl, List.dropWhile_cons_of_neg hsign⟩

theorem run_readStatement_of_read {lexemes rest : List Lexeme}
    {command : Command} (h : Command.read.run lexemes = .ok (command, rest)) :
    exists behind,
      Command.readStatement.run lexemes = .ok (command, behind) := by
  unfold Command.read at h
  cases hrun : Command.readStatement.run lexemes with
  | error fault =>
      rw [StateT.run_bind, hrun] at h
      cases h
  | ok result =>
      rcases result with ⟨first, behind⟩
      rw [Reader.run_bind hrun, StateT.run_bind] at h
      cases hend : Command.readEnd.run behind with
      | error fault =>
          rw [hend] at h
          cases h
      | ok result =>
          rw [hend] at h
          cases h
          exact ⟨behind, rfl⟩

theorem all_of_read {text : String} {command : Command}
    (h : Command.read.run (Sql.scan text) = .ok (command, [])) :
    Command.all text = [command] := by
  rcases run_readStatement_of_read h with ⟨behind, hstatement⟩
  rcases dropEmptyStatements_of_readStatement hstatement with
    ⟨first, others, htokens, hdrop⟩
  rw [Command.all, Command.allFrom, hdrop]
  dsimp only
  rw [<- htokens, h]
  have hempty (fuel : Nat) : Command.allFrom fuel [] = [] := by
    cases fuel <;> rfl
  dsimp only
  rw [hempty]

/-!
# Texts
-/

variable [Dialect]

theorem admits_iff_of_read {text : String} {command : Command}
    (h : Command.read.run (Sql.scan text) = .ok (command, [])) :
    Admits text ↔ Dialect.excess? command = none := by
  rw [Admits, all_of_read h, List.forall_mem_singleton]

def reported (performed : Session Store × Except Error (List ResultRow)) :
    Session Store × Except Error Result :=
  (performed.1,
    performed.2.map fun rows => ⟨rows, performed.1.changes⟩)

theorem runText_of_read {text : String} {command : Command}
    (h : Command.read.run (Sql.scan text) = .ok (command, []))
    (session : Session Store) (params : List Cell) :
    session.runText params text =
      reported (session.perform params command) := by
  rcases run_readStatement_of_read h with ⟨behind, hstatement⟩
  rcases dropEmptyStatements_of_readStatement hstatement with
    ⟨first, others, htokens, hdrop⟩
  rw [runText, runTokens, hdrop]
  dsimp only
  rw [<- htokens, h]
  dsimp only
  rcases session.perform params command with ⟨after, error | rows⟩
  · rfl
  · have hempty (fuel : Nat) :
        runTokens params fuel after [] = (after, .ok ⟨[], 0⟩) := by
      cases fuel <;> rfl
    dsimp only
    rw [hempty]
    simp [reported, Except.map, Result.push]

/-- A text that starts with a word and is no command is refused as a whole. -/
theorem runText_of_fault {text word : String} {tokens : List Sql.Token}
    {fault : Sql.Fault}
    (hspells : Sql.Spells (Sql.scan text) (.word word :: tokens))
    (h : Command.read.run (Sql.scan text) = .error fault)
    (session : Session Store) (params : List Cell) :
    session.runText params text = (session, .error (.fault fault)) := by
  rcases hspells.eq_cons with ⟨first, others, htokens, hfirst, _, _⟩
  have hdrop : Command.dropEmptyStatements (Sql.scan text) =
      first :: others := by
    have hsign : ¬ first.isSign ";" = true := by
      rw [Sql.Lexeme.isSign_eq_true_iff, hfirst]
      exact fun heq => nomatch heq
    rw [htokens]
    exact List.dropWhile_cons_of_neg hsign
  rw [runText, runTokens, hdrop]
  dsimp only
  rw [<- htokens, h]

/-!
# Commands
-/

theorem perform_select (session : Session Store) (params : List Cell)
    {query : Sql.Query} (hwithin : Dialect.excess? (.select query) = none) :
    session.perform params (.select query) =
      (session, session.store.select params query) := by
  rw [perform, attempt, Store.runWithin, hwithin]
  dsimp only
  rw [Store.run, Store.writes]
  cases session.store.select params query with
  | error error => simp [bind, Except.bind, Store.changesRows]
  | ok rows => simp [bind, Except.bind, pure, Except.pure]

theorem perform_of_excess (session : Session Store) (params : List Cell)
    {command : Command} {message : String}
    (h : Dialect.excess? command = some message) :
    session.perform params command = (session, .error (.excess message)) := by
  have hearly : (Error.excess message).isLate = false := rfl
  rw [perform, attempt, Store.runWithin, h]
  simp [hearly]

/-- A command that writes is done, or it fails and leaves the store as it was. -/
theorem perform_cases {session : Session Store} {command : Command}
    (hwrites : session.store.writes command = true) (params : List Cell) :
    (exists after outcome,
      session.store.runWithin params command = .ok (after, outcome) ∧
      session.readOnly = false ∧
      session.perform params command =
        ({ session with
            store := after
            changes := outcome.changed?.getD session.changes },
          .ok outcome.rows)) ∨
    exists error changes,
      (session.store.runWithin params command = .error error ∨
        session.readOnly = true ∧ error = .readOnly) ∧
      session.perform params command =
        ({ session with changes := changes }, .error error) := by
  have hfails (error : Error)
      (hattempt : session.attempt params command = .error error) :
      exists changes, session.perform params command =
        ({ session with changes := changes }, .error error) := by
    rw [perform, hattempt]
    dsimp only
    split
    · exact ⟨0, rfl⟩
    · exact ⟨session.changes, rfl⟩
  cases hrun : session.store.runWithin params command with
  | error error =>
      refine .inr ?_
      by_cases hlate : (session.readOnly && error.isLate &&
          session.store.writes command) = true
      · rcases hfails .readOnly (by rw [attempt, hrun]; exact if_pos hlate) with
          ⟨changes, hperform⟩
        rw [Bool.and_eq_true, Bool.and_eq_true] at hlate
        exact ⟨_, changes, .inr ⟨hlate.left.left, rfl⟩, hperform⟩
      · rcases hfails error (by rw [attempt, hrun]; exact if_neg hlate) with
          ⟨changes, hperform⟩
        exact ⟨error, changes, .inl rfl, hperform⟩
  | ok done =>
      rcases done with ⟨after, outcome⟩
      cases hreadOnly : session.readOnly with
      | false =>
          refine .inl ⟨after, outcome, rfl, rfl, ?_⟩
          rw [perform, attempt, hrun, hreadOnly]
          rfl
      | true =>
          have hattempt : session.attempt params command = .error .readOnly := by
            rw [attempt, hrun, hreadOnly, hwrites]
            rfl
          rcases hfails .readOnly hattempt with ⟨changes, hperform⟩
          exact .inr ⟨_, changes, .inr ⟨rfl, rfl⟩, hreadOnly ▸ hperform⟩

theorem reported_change {session : Session Store} {command : Command}
    (hwrites : session.store.writes command = true) {params : List Cell}
    {result : Except Error Store} {count : Nat}
    (hrun : session.store.runWithin params command =
      (fun after => (after, ⟨[], some count⟩)) <$> result) :
    (exists after, result = .ok after ∧ session.readOnly = false ∧
      reported (session.perform params command) =
        ({ session with store := after, changes := count },
          .ok ⟨[], count⟩)) ∨
    exists error changes,
      (result = .error error ∨ session.readOnly = true ∧ error = .readOnly) ∧
      reported (session.perform params command) =
        ({ session with changes := changes }, .error error) := by
  rcases perform_cases hwrites params with
    ⟨after, outcome, hdone, hwritable, hperform⟩ |
    ⟨error, changes, hreason, hperform⟩
  · rw [hrun] at hdone
    cases result with
    | error error => cases hdone
    | ok made =>
        cases hdone
        exact .inl ⟨_, rfl, hwritable, by rw [hperform]; rfl⟩
  · refine .inr ⟨error, changes, ?_, by rw [hperform]; rfl⟩
    rw [hrun] at hreason
    cases result with
    | error found => exact hreason.imp_left fun heq => by cases heq; rfl
    | ok made => exact hreason.imp_left fun heq => nomatch heq

theorem reported_of_error {session : Session Store} {command : Command}
    (hwrites : session.store.writes command = true) {params : List Cell}
    (hrun : exists error, session.store.runWithin params command = .error error) :
    exists error changes, reported (session.perform params command) =
      ({ session with changes := changes }, .error error) := by
  rcases hrun with ⟨found, hfound⟩
  rcases perform_cases hwrites params with
    ⟨after, outcome, hdone, _⟩ | ⟨error, changes, _, hperform⟩
  · rw [hfound] at hdone
    cases hdone
  · exact ⟨error, changes, by rw [hperform]; rfl⟩

theorem perform_congr {session : Session Store} {first second : List Cell}
    {command other : Command} (hwithin : Dialect.excess? command = none)
    (hother : Dialect.excess? other = none)
    (hrun : session.store.run first command = session.store.run second other)
    (hwrites : session.store.writes command = session.store.writes other)
    (hchanges : Store.changesRows command = Store.changesRows other) :
    session.perform first command = session.perform second other := by
  rw [perform, perform, attempt, attempt, Store.runWithin_of_none hwithin,
    Store.runWithin_of_none hother, hrun, hwrites, hchanges]

end Session
end Engine
end TableStore
