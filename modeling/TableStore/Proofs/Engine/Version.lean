import TableStore.Engine.Session
import TableStore.Proofs.Engine.Machine

/-!
# The version of a store

A text is a list of commands, whatever store it is run on.  Commands that are not
about the version of the schema work on the tables alone: on a store with another
version they do the same, and no version changes.
-/

namespace TableStore
namespace Sql
namespace Command

def concernsVersion : Command -> Bool
  | .version => true
  | .setVersion _ => true
  | _ => false

def allFrom : Nat -> List Lexeme -> List Command
  | 0, _ => []
  | fuel + 1, tokens =>
      match dropEmptyStatements tokens with
      | [] => []
      | first :: rest =>
          match read.run (first :: rest) with
          | .error _ => []
          | .ok (command, others) => command :: allFrom fuel others

/-- The commands that a text consists of. -/
def all (text : String) : List Command :=
  allFrom ((scan text).length + 1) (scan text)

end Command
end Sql

namespace Engine

open Sql (Command Lexeme)

namespace Store

@[simp] theorem withVersion_withVersion (version other : Int)
    (store : Store) :
    (store.withVersion other).withVersion version =
      store.withVersion version := rfl

@[simp] theorem tables_withVersion (version : Int) (store : Store) :
    (store.withVersion version).tables = store.tables := rfl

@[simp] theorem version_withVersion (version : Int) (store : Store) :
    (store.withVersion version).version = version := rfl

/-!
# Commands
-/

section Commands

variable (version : Int) (store : Store)

theorem get_withVersion (name : String) :
    (store.withVersion version).get name = store.get name := rfl

theorem checkTargets_withVersion (table : Table) (fields : List Field) :
    (store.withVersion version).checkTargets table fields =
      store.checkTargets table fields := rfl

variable [Dialect]

theorem keepReferences_withVersion (after : Store) :
    (store.withVersion version).keepReferences (after.withVersion version) =
      withVersion version <$> store.keepReferences after := by
  have hdangling (other : Store) :
      (other.withVersion version).dangling = other.dangling := rfl
  rw [keepReferences, keepReferences, hdangling, hdangling]
  split <;> rfl

theorem keepReferences_put_withVersion (table : Table) :
    (store.withVersion version).keepReferences
        ((store.withVersion version).put table) =
      withVersion version <$> store.keepReferences (store.put table) :=
  keepReferences_withVersion version store (store.put table)

theorem createTable_withVersion (name : String) (ifAbsent : Bool)
    (specs : List Sql.ColumnSpec) :
    (store.withVersion version).createTable name ifAbsent specs =
      withVersion version <$> store.createTable name ifAbsent specs := by
  have hfind : (store.withVersion version).find? name = store.find? name := rfl
  rw [createTable, createTable, hfind]
  cases store.find? name with
  | some table => cases ifAbsent <;> rfl
  | none => cases Table.ofSpecs name specs <;> rfl

theorem dropTable_withVersion (name : String) (ifPresent : Bool) :
    (store.withVersion version).dropTable name ifPresent =
      withVersion version <$> store.dropTable name ifPresent := by
  have hfind : (store.withVersion version).find? name = store.find? name := rfl
  rw [dropTable, dropTable, hfind]
  cases store.find? name with
  | some table =>
      exact keepReferences_withVersion version store (store.remove name)
  | none => cases ifPresent <;> rfl

theorem addColumn_withVersion (name : String) (spec : Sql.ColumnSpec) :
    (store.withVersion version).addColumn name spec =
      withVersion version <$> store.addColumn name spec := by
  rw [addColumn, addColumn, get_withVersion]
  rcases store.get name with error | table
  · rfl
  · dsimp only [bind, Except.bind]
    cases (table.position? spec.name).isSome with
    | true => rfl
    | false =>
        simp only [Bool.false_eq_true, if_false]
        rcases Field.ofSpec spec with error | field
        · rfl
        · dsimp only [bind, Except.bind]
          cases unfit? spec field !table.records.isEmpty with
          | some reason => rfl
          | none =>
              rcases Table.addField ⟨table, true, []⟩ spec with error | draft
              · rfl
              · dsimp only [bind, Except.bind]
                rcases Table.ofDraft draft with error | extended
                · rfl
                · dsimp only [bind, Except.bind]
                  split <;> rfl

theorem insert_withVersion (name : String) (params : List Cell)
    (rows : Sql.NewRows) :
    (store.withVersion version).insert name params rows =
      Prod.map (withVersion version) id <$> store.insert name params rows := by
  simp [insert, get_withVersion, checkTargets_withVersion,
    keepReferences_put_withVersion]

theorem update_withVersion (name : String) (params : List Cell)
    (assignments : List (String × Sql.Expr)) (condition? : Option Sql.Expr) :
    (store.withVersion version).update name params assignments condition? =
      Prod.map (withVersion version) id <$>
        store.update name params assignments condition? := by
  simp [update, get_withVersion, checkTargets_withVersion,
    keepReferences_put_withVersion]

theorem delete_withVersion (name : String) (params : List Cell)
    (condition? : Option Sql.Expr) :
    (store.withVersion version).delete name params condition? =
      Prod.map (withVersion version) id <$>
        store.delete name params condition? := by
  simp [delete, get_withVersion, checkTargets_withVersion,
    keepReferences_put_withVersion]

theorem run_withVersion (params : List Cell) {command : Command}
    (h : command.concernsVersion = false) :
    (store.withVersion version).run params command =
      Prod.map (withVersion version) id <$> store.run params command := by
  cases command with
  | createTable table ifAbsent columns =>
      simp [run, createTable_withVersion]
  | dropTable table ifPresent => simp [run, dropTable_withVersion]
  | addColumn table column => simp [run, addColumn_withVersion]
  | insert table rows => simp [run, insert_withVersion]
  | select query =>
      have hselect : (store.withVersion version).select params query =
          store.select params query := rfl
      simp [run, hselect]
  | update table assignments condition? => simp [run, update_withVersion]
  | delete table condition? => simp [run, delete_withVersion]
  | version => cases h
  | setVersion other => cases h

end Commands

variable [Dialect]

theorem runWithin_of_none {command : Command} (h : Dialect.excess? command = none)
    (store : Store) (params : List Cell) :
    store.runWithin params command = store.run params command := by
  rw [runWithin, h]

theorem runWithin_of_error {store : Store} {params : List Cell} {command : Command}
    (h : exists error, store.run params command = .error error) :
    exists error, store.runWithin params command = .error error := by
  rcases h with ⟨error, herror⟩
  rw [runWithin]
  cases Dialect.excess? command with
  | none => exact ⟨error, herror⟩
  | some message => exact ⟨.excess message, rfl⟩

theorem run_of_runWithin {store : Store} {params : List Cell} {command : Command}
    {done : Store × Outcome} (h : store.runWithin params command = .ok done) :
    store.run params command = .ok done := by
  rw [runWithin] at h
  cases hexcess : Dialect.excess? command with
  | none =>
      rw [hexcess] at h
      exact h
  | some message =>
      rw [hexcess] at h
      cases h

/-- A command does the same on the stores that a map leads to. -/
structure Respects (map : Store -> Store) (command : Command) : Prop where
  run_eq : forall (store : Store) (params : List Cell),
    (map store).runWithin params command =
      Prod.map map id <$> store.runWithin params command
  writes_eq : forall store : Store,
    (map store).writes command = store.writes command

theorem respects_id (command : Command) : Respects id command where
  run_eq store params := by
    rw [Prod.map_id, id_map]
    rfl
  writes_eq _ := rfl

theorem respects_withVersion (version : Int) {command : Command}
    (h : command.concernsVersion = false) :
    Respects (withVersion version) command where
  run_eq store params := by
    rw [runWithin, runWithin, store.run_withVersion version params h]
    cases Dialect.excess? command <;> rfl
  writes_eq _ := by cases command <;> rfl

end Store

/-!
# Texts
-/

namespace Session

open Store (Respects)

variable [Dialect]

structure Mirrors (map : Store -> Store) (session other : Session Store) : Prop where
  store_eq : other.store = map session.store
  readOnly_eq : other.readOnly = session.readOnly

theorem Mirrors.attempt {map : Store -> Store} {session other : Session Store}
    (h : Mirrors map session other) {command : Command}
    (hcommand : Respects map command) (params : List Cell) :
    other.attempt params command =
      Prod.map map id <$> session.attempt params command := by
  rw [Session.attempt, Session.attempt, h.store_eq, h.readOnly_eq,
    hcommand.run_eq, hcommand.writes_eq]
  rcases session.store.runWithin params command with error | done
  · dsimp only [Functor.map, Except.map]
    split <;> rfl
  · dsimp only [Functor.map, Except.map]
    split <;> rfl

theorem Mirrors.perform {map : Store -> Store} {session other : Session Store}
    (h : Mirrors map session other) {command : Command}
    (hcommand : Respects map command) (params : List Cell) :
    Mirrors map (session.perform params command).1
        (other.perform params command).1 ∧
      (other.perform params command).2 =
        (session.perform params command).2 := by
  rw [Session.perform, Session.perform, h.attempt hcommand]
  rcases session.attempt params command with error | ⟨store, outcome⟩
  · dsimp only [Functor.map, Except.map]
    split
    · exact ⟨⟨h.store_eq, h.readOnly_eq⟩, rfl⟩
    · exact ⟨h, rfl⟩
  · exact ⟨⟨rfl, h.readOnly_eq⟩, rfl⟩

omit [Dialect] in
theorem map_push (rows : List ResultRow) (changes : Nat)
    (result : Except Error Result) :
    (result.map (Result.push rows changes)).map Result.rows =
      (result.map Result.rows).map (rows ++ ·) := by
  cases result <;> rfl

/-- What is common to two runs of the same commands on mapped stores. -/
theorem Mirrors.runTokens {map : Store -> Store} {session other : Session Store}
    (h : Mirrors map session other) (params : List Cell) (fuel : Nat)
    (tokens : List Lexeme)
    (hcommands : forall command, command ∈ Command.allFrom fuel tokens ->
      Respects map command) :
    Mirrors map (runTokens params fuel session tokens).1
        (runTokens params fuel other tokens).1 ∧
      (runTokens params fuel other tokens).2.map Result.rows =
        (runTokens params fuel session tokens).2.map Result.rows := by
  -- Both sessions read the same statements, so the fuel lasts equally long.
  induction fuel generalizing session other tokens with
  | zero => exact ⟨h, rfl⟩
  | succ fuel ih =>
      rw [Command.allFrom] at hcommands
      rw [Session.runTokens, Session.runTokens]
      cases hdrop : Command.dropEmptyStatements tokens with
      | nil => exact ⟨h, rfl⟩
      | cons first rest =>
          rw [hdrop] at hcommands
          dsimp only at hcommands ⊢
          rcases hread : Command.read.run (first :: rest) with
            fault | ⟨command, others⟩
          · exact ⟨h, rfl⟩
          · rw [hread] at hcommands
            dsimp only at hcommands ⊢
            rw [List.forall_mem_cons] at hcommands
            have hdone := h.perform hcommands.left params
            generalize session.perform params command = done at hdone ⊢
            generalize other.perform params command = otherDone at hdone ⊢
            rcases done with ⟨session, result⟩
            rcases otherDone with ⟨other, otherResult⟩
            rcases hdone with ⟨hperformed, hsame⟩
            cases hsame
            cases result with
            | error error => exact ⟨hperformed, rfl⟩
            | ok rows =>
                rcases ih hperformed others hcommands.right with
                  ⟨hsessions, hrows⟩
                refine ⟨hsessions, ?_⟩
                rw [map_push, map_push, hrows]

theorem run_of_attempt {session : Session Store} {params : List Cell}
    {command : Command} {done : Store × Outcome}
    (h : session.attempt params command = .ok done) :
    session.store.run params command = .ok done := by
  rw [attempt] at h
  apply Store.run_of_runWithin
  cases hrun : session.store.runWithin params command with
  | error error =>
      rw [hrun] at h
      dsimp only at h
      split at h <;> cases h
  | ok result =>
      rw [hrun] at h
      dsimp only at h
      split at h
      · cases h
      · exact h

theorem perform_done_or_failed (session : Session Store) (params : List Cell)
    (command : Command) :
    (exists after outcome,
      session.store.run params command = .ok (after, outcome) ∧
      session.perform params command =
        ({ session with
            store := after
            changes := outcome.changed?.getD session.changes },
          .ok outcome.rows)) ∨
    exists error changes, session.perform params command =
      ({ session with changes := changes }, .error error) := by
  rw [perform]
  cases hdone : session.attempt params command with
  | error error =>
      dsimp only
      split
      · exact .inr ⟨error, 0, rfl⟩
      · exact .inr ⟨error, session.changes, rfl⟩
  | ok done => exact .inl ⟨done.1, done.2, run_of_attempt hdone, rfl⟩

theorem perform_readOnly (session : Session Store) (params : List Cell)
    (command : Command) :
    (session.perform params command).1.readOnly = session.readOnly := by
  rcases session.perform_done_or_failed params command with
    ⟨after, outcome, _, hdone⟩ | ⟨error, changes, hfailed⟩
  · rw [hdone]
  · rw [hfailed]

/-- What every command of a text preserves is preserved by the text. -/
theorem runTokens_preserves (keeps : Session Store -> Prop) (params : List Cell)
    (fuel : Nat) (session : Session Store) (tokens : List Lexeme)
    (hcommands : forall command, command ∈ Command.allFrom fuel tokens ->
      forall before : Session Store, keeps before ->
        keeps (before.perform params command).1)
    (hstart : keeps session) :
    keeps (runTokens params fuel session tokens).1 := by
  induction fuel generalizing session tokens with
  | zero => exact hstart
  | succ fuel ih =>
      rw [Command.allFrom] at hcommands
      rw [runTokens]
      cases hdrop : Command.dropEmptyStatements tokens with
      | nil => exact hstart
      | cons first rest =>
          rw [hdrop] at hcommands
          dsimp only at hcommands ⊢
          rcases hread : Command.read.run (first :: rest) with
            fault | ⟨command, others⟩
          · exact hstart
          · rw [hread] at hcommands
            dsimp only at hcommands ⊢
            rw [List.forall_mem_cons] at hcommands
            have hkept := hcommands.left session hstart
            rcases hdone : session.perform params command with
              ⟨after, error | rows⟩
            · rw [hdone] at hkept
              exact hkept
            · rw [hdone] at hkept
              exact ih after others hcommands.right hkept

theorem runText_readOnly (session : Session Store) (params : List Cell)
    (text : String) :
    (session.runText params text).1.readOnly = session.readOnly := by
  apply runTokens_preserves fun other => other.readOnly = session.readOnly
  · intro command _ before hbefore
    rw [perform_readOnly, hbefore]
  · rfl

/-!
# The engine
-/

theorem runText_ignores_changes (session : Session Store) (changes : Nat)
    (params : List Cell) (text : String) :
    (runText { session with changes := changes } params text).1.store =
        (session.runText params text).1.store ∧
      (runText { session with changes := changes } params text).2.map Result.rows =
        (session.runText params text).2.map Result.rows := by
  have hmirrors : Mirrors id session { session with changes := changes } :=
    ⟨rfl, rfl⟩
  rcases hmirrors.runTokens params ((Sql.scan text).length + 1) (Sql.scan text)
    (fun command _ => Store.respects_id command) with ⟨hsession, hrows⟩
  exact ⟨hsession.store_eq, hrows⟩

end Session

variable [Dialect]

instance : Machine.Lawful where
  version_withVersion _ _ := rfl
  withVersion_version _ := rfl
  withVersion_withVersion _ _ _ := rfl
  run_readOnly := Session.runText_readOnly
  run_changes := Session.runText_ignores_changes

theorem sameContents_iff {store other : Store} :
    Machine.SameContents (store : Machine.Store) other <-> other.tables = store.tables := by
  constructor
  · intro h
    have hzero : store.withVersion 0 = other.withVersion 0 := (h 0).symm
    exact (congrArg Store.tables hzero).symm
  · intro h version
    exact congrArg (Store.mk · version) h

theorem ignoresVersion_of_commands {statement : Fragment}
    (h : forall command, command ∈ Command.all statement.text ->
      command.concernsVersion = false) : statement.IgnoresVersion := by
  intro version (session : Session Store)
  have hmirrors : Session.Mirrors (Store.withVersion version) session
      { session with store := session.store.withVersion version } := ⟨rfl, rfl⟩
  rcases hmirrors.runTokens (statement.params.map Cell.ofValue)
    ((Sql.scan statement.text).length + 1) (Sql.scan statement.text)
    (fun command hmem => Store.respects_withVersion version (h command hmem)) with
    ⟨hsession, hrows⟩
  exact ⟨hsession.store_eq, hrows⟩

end Engine
end TableStore
