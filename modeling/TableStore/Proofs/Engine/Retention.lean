import TableStore.Proofs.Engine.Session
import TableStore.Proofs.Engine.Stores

/-!
# Tables that stay

A table that is there stays there until it is dropped, and a version until another one is
stored.  A text that creates tables unless they are there does nothing on a store that
has all of them.
-/

namespace TableStore
namespace Sql
namespace Command

def spares : Command -> Bool
  | .dropTable _ _ => false
  | .setVersion _ => false
  | _ => true

/-- The table that a command creates unless it is there. -/
def ensured? : Command -> Option String
  | .createTable table true _ => some table
  | _ => none

theorem spares_of_ensured? {command : Command} {table : String}
    (h : command.ensured? = some table) : command.spares = true := by
  cases command with
  | createTable table ifAbsent columns => rfl
  | _ => cases h

end Command
end Sql

namespace Engine

open Sql (Command Lexeme)

/-!
# Stores
-/

namespace Store

structure SurvivesIn (store other : Store) : Prop where
  version_eq : other.version = store.version
  tables : forall name, (store.find? name).isSome = true ->
    (other.find? name).isSome = true

section SurvivesIn

variable {store after : Store}

theorem SurvivesIn.refl (store : Store) : store.SurvivesIn store :=
  ⟨rfl, fun _ h => h⟩

theorem SurvivesIn.trans {first second third : Store} (h : first.SurvivesIn second)
    (hnext : second.SurvivesIn third) : first.SurvivesIn third :=
  ⟨hnext.version_eq.trans h.version_eq,
    fun name hname => hnext.tables name (h.tables name hname)⟩

theorem isSome_find?_iff {name : String} :
    (store.find? name).isSome = true ↔
      exists table, table ∈ store.tables ∧
        Text.sameName table.name name = true := by
  rw [find?, List.find?_isSome]

theorem survivesIn_put (store : Store) (table : Table) :
    store.SurvivesIn (store.put table) := by
  refine ⟨rfl, fun name hname => ?_⟩
  rw [isSome_find?_iff] at hname ⊢
  rcases hname with ⟨old, hmem, hsame⟩
  refine ⟨_, List.mem_map_of_mem hmem, ?_⟩
  split
  · rename_i hold
    rw [Text.sameName, beq_iff_eq] at hold hsame ⊢
    rw [<- hold, hsame]
  · exact hsame

theorem survivesIn_add (store : Store) (table : Table) :
    store.SurvivesIn (store.add table) := by
  refine ⟨rfl, fun name hname => ?_⟩
  rw [isSome_find?_iff] at hname ⊢
  rcases hname with ⟨old, hmem, hsame⟩
  exact ⟨old, List.mem_append_left _ hmem, hsame⟩

theorem isSome_find?_of_createTable [Conversions] {name : String}
    {specs : List Sql.ColumnSpec}
    (h : store.createTable name true specs = .ok after) :
    (after.find? name).isSome = true := by
  rw [createTable] at h
  split at h
  · rename_i found hfound
    cases h
    exact Option.isSome_of_eq_some hfound
  · rcases bind_eq_ok.mp h with ⟨added, hadded, hafter⟩
    cases hafter
    have hname := (Table.declared_of_ofSpecs hadded).name_eq
    rw [isSome_find?_iff]
    refine ⟨added, List.mem_append_right _ (.head _), ?_⟩
    rw [hname, Text.sameName_refl]

/-- Only commands that drop a table or set the version lose something of a store. -/
theorem Becomes.survivesIn [Conversions] {command : Command} (h : store.Becomes command after)
    (hspares : command.spares = true) : store.SurvivesIn after := by
  cases h with
  | stays => exact .refl store
  | adds => exact store.survivesIn_add _
  | removes => cases hspares
  | puts => exact store.survivesIn_put _
  | numbers => cases hspares

end SurvivesIn

end Store

/-!
# Sessions
-/

namespace Session

variable [Dialect]

/-- What is there stays there, also if a command fails on the way. -/
theorem survivesIn_runText (session : Session Store) (params : List Cell) {text : String}
    (h : forall command, command ∈ Command.all text -> command.spares = true) :
    session.store.SurvivesIn (session.runText params text).1.store := by
  apply runTokens_preserves fun other => session.store.SurvivesIn other.store
  · intro command hmem before hbefore
    exact hbefore.trans
      ((before.becomes_perform params command).survivesIn (h command hmem))
  · exact .refl _

section Ensured

variable {session after : Session Store} {params : List Cell} {command : Command}
  {table : String}

theorem isSome_find?_of_ensured (h : command.ensured? = some table)
    {rows : List ResultRow}
    (hperform : session.perform params command = (after, .ok rows)) :
    (after.store.find? table).isSome = true := by
  rcases session.perform_done_or_failed params command with
    ⟨store, outcome, hrun, hdone⟩ | ⟨error, changes, hfailed⟩
  · rw [hdone] at hperform
    cases hperform
    cases command with
    | createTable name ifAbsent specs =>
        rcases bind_eq_ok.mp hrun with ⟨made, hmade, hafter⟩
        cases ifAbsent with
        | false => cases h
        | true =>
            cases h
            cases hafter
            exact Store.isSome_find?_of_createTable hmade
    | _ => cases h
  · rw [hfailed] at hperform
    cases hperform

theorem excess?_of_perform {rows : List ResultRow}
    (hperform : session.perform params command = (after, .ok rows)) :
    Dialect.excess? command = none := by
  cases hexcess : Dialect.excess? command with
  | none => rfl
  | some message =>
      rw [perform_of_excess session params hexcess] at hperform
      cases hperform

theorem perform_of_ensured (h : command.ensured? = some table)
    (hwithin : Dialect.excess? command = none)
    (hthere : (session.store.find? table).isSome = true) (params : List Cell) :
    session.perform params command = (session, .ok []) := by
  cases command with
  | createTable name ifAbsent specs =>
      cases ifAbsent with
      | false => cases h
      | true =>
          cases h
          rcases Option.isSome_iff_exists.mp hthere with ⟨found, hfound⟩
          have hrun : session.store.run params (.createTable table true specs) =
              .ok (session.store, ⟨[], none⟩) := by
            rw [Store.run, Store.createTable, hfound]
            rfl
          have hwrites : session.store.writes (.createTable table true specs) =
              false := by
            rw [Store.writes, hfound]
            rfl
          have hdone : session.attempt params (.createTable table true specs) =
              .ok (session.store, ⟨[], none⟩) := by
            rw [attempt, Store.runWithin, hwithin]
            dsimp only
            rw [hrun, hwrites, Bool.and_false]
            rfl
          rw [perform, hdone]
          rfl
  | _ => cases h

end Ensured

/-!
# Texts that come to their end
-/

section Completion

variable {session : Session Store} {params : List Cell} {fuel : Nat}
  {tokens others : List Lexeme} {result : Result}

structure Proceeds (session : Session Store) (params : List Cell)
    (tokens : List Lexeme) (command : Command) (others : List Lexeme)
    (after : Session Store) (rows : List ResultRow) : Prop where
  read_eq : exists first rest,
    Command.dropEmptyStatements tokens = first :: rest ∧
      Command.read.run (first :: rest) = .ok (command, others)
  perform_eq : session.perform params command = (after, .ok rows)

theorem Proceeds.allFrom_eq {command : Command} {after : Session Store}
    {rows : List ResultRow}
    (h : Proceeds session params tokens command others after rows)
    (fuel : Nat) :
    Command.allFrom (fuel + 1) tokens =
      command :: Command.allFrom fuel others := by
  rcases h.read_eq with ⟨first, rest, hdrop, hread⟩
  rw [Command.allFrom, hdrop]
  dsimp only
  rw [hread]

theorem Proceeds.runTokens_eq {command : Command} {after : Session Store}
    {rows : List ResultRow}
    (h : Proceeds session params tokens command others after rows)
    (fuel : Nat) :
    runTokens params (fuel + 1) session tokens =
      ((runTokens params fuel after others).1,
        (runTokens params fuel after others).2.map
          (Result.push rows after.changes)) := by
  rcases h.read_eq with ⟨first, rest, hdrop, hread⟩
  rw [runTokens, hdrop]
  dsimp only
  rw [hread]
  dsimp only
  rw [h.perform_eq]

theorem runTokens_eq_ok
    (h : (runTokens params (fuel + 1) session tokens).2 = .ok result) :
    Command.dropEmptyStatements tokens = [] ∨
      exists command others after rows found,
        Proceeds session params tokens command others after rows ∧
        (runTokens params fuel after others).2 = .ok found := by
  cases hdrop : Command.dropEmptyStatements tokens with
  | nil => exact .inl rfl
  | cons first rest =>
      refine .inr ?_
      rw [runTokens, hdrop] at h
      dsimp only at h
      rcases hread : Command.read.run (first :: rest) with
        fault | ⟨command, others⟩
      · rw [hread] at h
        cases h
      · rw [hread] at h
        dsimp only at h
        rcases hdone : session.perform params command with ⟨after, error | rows⟩
        · rw [hdone] at h
          cases h
        · have hnext : Proceeds session params tokens command others after rows :=
            ⟨⟨first, rest, hdrop, hread⟩, hdone⟩
          rw [hdone] at h
          dsimp only at h
          cases hrest : (runTokens params fuel after others).2 with
          | error error =>
              rw [hrest] at h
              cases h
          | ok found => exact ⟨command, others, after, rows, found, hnext, hrest⟩

theorem isSome_find?_of_runTokens
    (hresult : (runTokens params fuel session tokens).2 = .ok result)
    (hensures : forall command, command ∈ Command.allFrom fuel tokens ->
      (Command.ensured? command).isSome = true) :
    forall command table, command ∈ Command.allFrom fuel tokens ->
      command.ensured? = some table ->
        ((runTokens params fuel session tokens).1.store.find? table).isSome =
          true := by
  induction fuel generalizing session tokens result with
  | zero => exact fun _ _ hmem => nomatch hmem
  | succ fuel ih =>
      intro command table hmem htable
      rcases runTokens_eq_ok hresult with
        hend | ⟨next, others, after, rows, found, hnext, hrest⟩
      · rw [Command.allFrom, hend] at hmem
        cases hmem
      · rw [hnext.allFrom_eq] at hmem hensures
        rw [List.forall_mem_cons] at hensures
        rw [hnext.runTokens_eq]
        rcases List.mem_cons.mp hmem with rfl | hlater
        · -- The statements behind it do not drop it.
          have hsurvives := runTokens_preserves
            (fun other => after.store.SurvivesIn other.store) params fuel after
            others (fun later hlater before hbefore => by
              rcases Option.isSome_iff_exists.mp
                (hensures.right later hlater) with ⟨_, hensured⟩
              exact hbefore.trans
                ((before.becomes_perform params later).survivesIn
                  (Command.spares_of_ensured? hensured)))
            (.refl _)
          exact hsurvives.tables table
            (isSome_find?_of_ensured htable hnext.perform_eq)
        · exact ih hrest hensures.right command table hlater htable

theorem runTokens_of_ensured {other : Session Store}
    (hresult : (runTokens params fuel session tokens).2 = .ok result)
    (hthere : forall command, command ∈ Command.allFrom fuel tokens ->
      exists table, command.ensured? = some table ∧
        (other.store.find? table).isSome = true) :
    exists found, runTokens params fuel other tokens = (other, .ok found) := by
  induction fuel generalizing session tokens result with
  | zero => exact ⟨_, rfl⟩
  | succ fuel ih =>
      rcases runTokens_eq_ok hresult with
        hend | ⟨command, others, after, rows, found, hnext, hrest⟩
      · rw [runTokens, hend]
        exact ⟨_, rfl⟩
      · rw [hnext.allFrom_eq, List.forall_mem_cons] at hthere
        rcases hthere.left with ⟨table, htable, hfound⟩
        have hagain : Proceeds other params tokens command others other [] :=
          ⟨hnext.read_eq, perform_of_ensured htable
            (excess?_of_perform hnext.perform_eq) hfound params⟩
        rcases ih hrest hthere.right with ⟨last, hrun⟩
        rw [hagain.runTokens_eq, hrun]
        exact ⟨_, rfl⟩

end Completion

end Session

/-!
# Texts that create tables
-/

/-- All that a text does is to create tables, unless they are there. -/
def Ensures (text : String) : Prop :=
  forall command, command ∈ Command.all text ->
    (Command.ensured? command).isSome = true

theorem Ensures.spares {text : String} (h : Ensures text) :
    forall command, command ∈ Command.all text -> command.spares = true := by
  intro command hmem
  rcases Option.isSome_iff_exists.mp (h command hmem) with ⟨_, htable⟩
  exact Command.spares_of_ensured? htable

namespace Store

variable [Dialect]

structure Made (store : Store) (text : String) : Prop where
  completes : exists session result,
    (Session.runText session [] text).2 = .ok result
  tables : forall command, command ∈ Command.all text ->
    exists table, command.ensured? = some table ∧
      (store.find? table).isSome = true

theorem Made.of_survivesIn {store other : Store} {text : String}
    (h : store.Made text) (hsurvives : store.SurvivesIn other) : other.Made text := by
  refine ⟨h.completes, fun command hmem => ?_⟩
  rcases h.tables command hmem with ⟨table, htable, hthere⟩
  exact ⟨table, htable, hsurvives.tables table hthere⟩

theorem made_of_runText {session after : Session Store} {text : String}
    {result : Session.Result} (hensures : Ensures text)
    (h : session.runText [] text = (after, .ok result)) :
    after.store.Made text := by
  refine ⟨⟨session, result, congrArg Prod.snd h⟩, fun command hmem => ?_⟩
  rcases Option.isSome_iff_exists.mp (hensures command hmem) with ⟨table, htable⟩
  have hfound := Session.isSome_find?_of_runTokens (congrArg Prod.snd h) hensures
    command table hmem htable
  have hafter : (session.runText [] text).1 = after := congrArg Prod.fst h
  rw [<- hafter]
  exact ⟨table, htable, hfound⟩

/-- Creating what is there succeeds, also in a session that may not write. -/
theorem Made.runText {session : Session Store} {text : String}
    (h : session.store.Made text) :
    exists result, session.runText [] text = (session, .ok result) := by
  rcases h.completes with ⟨other, result, hresult⟩
  exact Session.runTokens_of_ensured hresult h.tables

theorem made_iff {store : Store} {text : String} (hensures : Ensures text) :
    Machine.Made (store : Machine.Store) text ↔ store.Made text := by
  constructor
  · intro h
    rcases h (Session.start store false) rfl with ⟨⟨result, hresult⟩, hstore⟩
    have hmade := made_of_runText hensures (Prod.ext rfl hresult)
    exact hstore ▸ hmade
  · rintro h session rfl
    rcases h.runText with ⟨result, hrun⟩
    exact ⟨⟨result, congrArg Prod.snd hrun⟩,
      congrArg (fun done => done.1.store) hrun⟩

end Store

variable [Dialect]

theorem settles_of_ensures {text : String} (h : Ensures text) : Machine.Settles text :=
  fun _ _ hresult => (Store.made_iff h).mpr
    (Store.made_of_runText h (Prod.ext rfl hresult))

theorem survivesIn_runOf {statement : Fragment}
    (h : forall command, command ∈ Command.all statement.text -> command.spares = true)
    (session : Session Store) :
    session.store.SurvivesIn (Statement.runOf session statement).1.store :=
  session.survivesIn_runText _ h

end Engine
end TableStore
