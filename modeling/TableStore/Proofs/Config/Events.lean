import TableStore.Engine.Sqlite
import TableStore.Proofs.Config.Reopening
import TableStore.Proofs.Engine.Retention
import TableStore.Proofs.Engine.Pragma
import TableStore.Proofs.Statement.Creation
import TableStore.Proofs.Statement.Runs

/-!
# Between two openings

Once a configured database has been opened, work that keeps its version and its declared
tables leaves nothing to do for another opening.  On an engine that reads statements as
they are modelled here, all changes of rows are work of this kind.
-/

namespace TableStore
namespace Config

open Database (Handle Host TableHandle)
open Database.Action (runOn)
open Engine (Machine)
open Engine.Machine (Store)
open Migration (Attempted Work)

inductive Event
  | reopen
  | close (handle : Handle)
  | work (step : Database.Step)

section Machines

variable [Machine]

namespace Event

def perform (config : Config) (host : Host) : Event -> Host
  | .reopen => (Work.runOn config.openDatabase host).2
  | .close handle => (runOn (handle.close : Database.Action Unit) host).2
  | .work step => (runOn step.perform host).2

def afterAll (config : Config) (events : List Event) (host : Host) : Host :=
  events.foldl (perform config) host

/-- The statements of an event keep the version and the declared tables. -/
def Spares (config : Config) : Event -> Prop
  | .work step => forall statement, statement ∈ step.statements ->
      Database.Relates config.Keeps statement
  | _ => True

end Event

variable {config : Config} {path : String} {host : Host}

theorem develops_close (handle : Handle) (hfiled : host.Filed) :
    host.Develops config.Keeps
      (runOn (handle.close : Database.Action Unit) host).2 := by
  have hdisk : (runOn (handle.close : Database.Action Unit) host).2.disk =
      host.disk := rfl
  apply Host.Develops.of_places hfiled hdisk
  intro index
  have hconnections : (runOn (handle.close : Database.Action Unit)
      host).2.connections = host.connections.modify handle.index
        fun connection => { connection with closed := true } := rfl
  rw [hconnections, List.getElem?_modify]
  cases host.connections[index]? with
  | none => rfl
  | some connection =>
      dsimp only [Option.map_some]
      split <;> rfl

theorem runOn_of_toOption {α : Type} {work : Work α} {host : Host} {result : α}
    (h : (Work.runOn work host).1.toOption = some result) :
    Work.runOn work host = (.ok result, (Work.runOn work host).2) := by
  rcases hrun : Work.runOn work host with ⟨failure | found, after⟩
  · rw [hrun] at h
    cases h
  · rw [hrun] at h
    cases h
    rfl

variable [Machine.Lawful] [Machine.Versioned]

theorem Ready.perform (hbelow : config.version.toNat < 2147483648)
    (hensures : config.Ensures) (hlives : config.LivesIn path)
    (h : config.Ready path host) {event : Event} (hspares : event.Spares config) :
    config.Ready path (event.perform config host) := by
  cases event with
  | reopen =>
      rcases h.idleOpening hlives with ⟨database, opened, after, hidle⟩
      rw [Event.perform, hidle.run_eq]
      exact ready_of_openDatabase hbelow hensures hlives h.filed hidle.run_eq
  | close handle => exact h.of_develops (develops_close handle h.filed)
  | work step =>
      apply h.of_develops
      exact Database.Step.leads_perform hspares host h.filed

theorem Ready.afterAll (hbelow : config.version.toNat < 2147483648)
    (hensures : config.Ensures) (hlives : config.LivesIn path)
    (h : config.Ready path host) {events : List Event}
    (hspares : forall event, event ∈ events -> event.Spares config) :
    config.Ready path (Event.afterAll config events host) := by
  induction events generalizing host with
  | nil => exact h
  | cons event events ih =>
      rw [List.forall_mem_cons] at hspares
      exact ih (h.perform hbelow hensures hlives hspares.left) hspares.right

end Machines

/-!
# Changes of rows
-/

section Rows

open Engine (Dialect)

def PlainTables (config : Config) : Prop :=
  forall table, table ∈ config.tables ->
    Sql.isPlainName table.name = true ∧ table.columns.toList ≠ [] ∧
    forall column, column ∈ table.columns.toList ->
      Sql.isPlainName column.name = true

namespace Event

inductive ChangesRows : Event -> Prop where
  | reopen : ChangesRows .reopen
  | close {handle : Handle} : ChangesRows (.close handle)
  | insert {table : TableHandle} {row : Row} :
      Sql.isPlainName table.name = true ->
      (forall column, column ∈ row.columns -> Sql.isPlainName column = true) ->
      ChangesRows (.work (.operation table (.insert row)))
  | update {table : TableHandle} {changes : Row} {options : Options} :
      Statement.Legible table.mode table.name options.filter? ->
      (forall column, column ∈ changes.columns -> Sql.isPlainName column = true) ->
      (forall order, order ∈ options.orderBy -> Sql.isPlainName order.column = true) ->
      ChangesRows (.work (.operation table (.update changes options)))
  | delete {table : TableHandle} {options : Options} :
      Statement.Legible table.mode table.name options.filter? ->
      ChangesRows (.work (.operation table (.delete options)))
  | texts {handle : Handle} {requests : List Database.Request}
      {ending : Database.Ending} :
      (forall request, request ∈ requests ->
        forall command, command ∈ Sql.Command.all request.statement.text ->
          command.spares = true) ->
      ChangesRows (.work (.transaction handle requests ending))

end Event

variable {config : Config}

theorem PlainTables.ensures_text (h : config.PlainTables) :
    forall table, table ∈ config.tables ->
      Engine.Ensures (Statement.createTable table.name table.columns) := by
  intro table hmem command hcommand
  rcases h table hmem with ⟨hname, hne, hcolumns⟩
  rw [Engine.Session.all_of_read (Statement.read_createTable hname hne hcolumns),
    List.mem_singleton] at hcommand
  rw [hcommand]
  rfl

variable [Dialect]

/-- What survives of a store is kept of it. -/
theorem PlainTables.keeps (h : config.PlainTables) {store other : Engine.Store}
    (hsurvives : store.SurvivesIn other) : config.Keeps store other where
  version_eq := hsurvives.version_eq
  made table hmem hmade := by
    have hensures := h.ensures_text table hmem
    rw [Engine.Store.made_iff hensures] at hmade ⊢
    exact hmade.of_survivesIn hsurvives

theorem PlainTables.relates (h : config.PlainTables) {statement : Fragment}
    (hspares : forall command, command ∈ Sql.Command.all statement.text ->
      command.spares = true) : Database.Relates config.Keeps statement :=
  fun session => h.keeps (Engine.survivesIn_runOf hspares session)

theorem PlainTables.ensures (h : config.PlainTables) : config.Ensures where
  settles table hmem := Engine.settles_of_ensures (h.ensures_text table hmem)
  keeps table hmem := h.relates (h.ensures_text table hmem).spares

theorem PlainTables.relates_of_read (h : config.PlainTables) {statement : Fragment}
    {command : Sql.Command}
    (hread : Sql.Command.read.run (Sql.scan statement.text) = .ok (command, []))
    (hspares : command.spares = true) : Database.Relates config.Keeps statement := by
  apply h.relates
  intro other hother
  rw [Engine.Session.all_of_read hread, List.mem_singleton] at hother
  rw [hother, hspares]

theorem PlainTables.relates_update (h : config.PlainTables) {mode : Rendering}
    {table : String} {changes : Row} {options : Options}
    (hlegible : Statement.Legible mode table options.filter?)
    (hcolumns : forall column, column ∈ changes.columns ->
      Sql.isPlainName column = true)
    (horders : forall order, order ∈ options.orderBy ->
      Sql.isPlainName order.column = true) :
    Database.Relates config.Keeps
      (Statement.updateBase table changes ++
        Statement.condition mode options.filter? ++
        .ofText (Statement.tail options)) := by
  by_cases hempty : changes.columns = []
  · intro session
    rw [hlegible.runOf_update_of_no_columns hempty horders]
    exact refl_of config.Keeps _
  · by_cases htail : Statement.tailTokens options = []
    · exact h.relates_of_read
        (hlegible.read_update_of_no_tail hempty hcolumns horders htail) rfl
    · intro session
      rw [hlegible.runOf_update_of_tail hempty hcolumns rfl horders htail]
      exact refl_of config.Keeps _

theorem Event.ChangesRows.spares (hplain : config.PlainTables) {event : Event}
    (h : event.ChangesRows) : event.Spares config := by
  cases h with
  | reopen => trivial
  | close => trivial
  | insert htable hcolumns =>
      intro statement hmem
      rw [List.mem_singleton.mp hmem]
      exact hplain.relates_of_read
        (Statement.read_insert_sourceOf htable hcolumns) rfl
  | @update table changes options hlegible hcolumns horders =>
      have hstatement := Statement.update_eq table.mode table.name changes options
      rw [hlegible.violations_eq, Predicate.verdict_nil] at hstatement
      intro statement hmem
      rw [Database.Step.statements, Database.Operation.statement?, hstatement] at hmem
      rw [List.mem_singleton.mp hmem]
      exact hplain.relates_update hlegible hcolumns horders
  | @delete table options hlegible =>
      have hstatement := Statement.delete_eq table.mode table.name options.filter?
      rw [hlegible.violations_eq, Predicate.verdict_nil] at hstatement
      intro statement hmem
      rw [Database.Step.statements, Database.Operation.statement?, hstatement] at hmem
      rw [List.mem_singleton.mp hmem]
      exact hplain.relates_of_read hlegible.read_removal rfl
  | texts htexts =>
      intro statement hmem
      rcases List.mem_map.mp hmem with ⟨request, hrequest, rfl⟩
      exact hplain.relates (htexts request hrequest)

/-- Behind an opening that succeeds, changes of rows leave nothing to do. -/
theorem idleOpening_of_changesRows (hplain : config.PlainTables)
    (hbelow : config.version.toNat < 2147483648) {path : String}
    (hlives : config.LivesIn path) {host after : Host} (hfiled : host.Filed)
    {database : Handle}
    (h : Work.runOn config.openDatabase host = (.ok database, after))
    {events : List Event} (hevents : forall event, event ∈ events -> event.ChangesRows) :
    exists again opened last,
      config.IdleOpening (Event.afterAll config events after) again opened last := by
  have hready := ready_of_openDatabase hbelow hplain.ensures hlives hfiled h
  exact (hready.afterAll hbelow hplain.ensures hlives fun event hmem =>
    (hevents event hmem).spares hplain).idleOpening hlives

end Rows

/-!
# Opening again
-/

/--
The opening of a configured database fails if the database cannot be opened, and if it is
to be migrated and has no version to be found.  Otherwise it commits the texts of its
script one after another, up to the first one that fails.  Once it has succeeded for a
database in a file, it succeeds again whenever the work in between has kept the version
and the declared tables: no batch is applied, nothing but the creations of the declared
tables is executed, and no file holds anything else than before.
-/
theorem opening_again_changes_nothing [Machine] [Machine.Lawful] [Machine.Versioned]
    (config : Config) (host : Host) :
    (forall failure opened,
      runOn (Database.openDatabase config.name) host =
        (.error failure, opened) ->
      Work.runOn config.openDatabase host =
        (.error (.database failure), host)) ∧
    (forall database opened current,
      runOn (Database.openDatabase config.name) host =
        (.ok database, opened) ->
      (config.autoMigrate = true -> database.Finds opened current) ->
      Attempted database opened (config.script current)
        (Work.runOn config.openDatabase host)) ∧
    (forall database opened,
      runOn (Database.openDatabase config.name) host =
        (.ok database, opened) ->
      config.autoMigrate = true ->
      (forall current, ¬ database.Finds opened current) ->
      exists failure after,
        Work.runOn config.openDatabase host = (.error failure, after) ∧
        opened.SameStores after) ∧
    (forall path database after,
      config.version.toNat < 2147483648 -> config.Ensures ->
      config.LivesIn path -> host.Filed ->
      Work.runOn config.openDatabase host = (.ok database, after) ->
      forall events : List Event,
        (forall event, event ∈ events -> event.Spares config) ->
        exists again opened last,
          config.IdleOpening (Event.afterAll config events after) again opened
            last) := by
  refine ⟨fun failure opened => runOn_openDatabase_of_error,
    fun database opened current => attempted_openDatabase,
    fun database opened => runOn_openDatabase_of_no_version, ?_⟩
  intro path database after hbelow hensures hlives hfiled h events hspares
  have hready := ready_of_openDatabase hbelow hensures hlives hfiled h
  exact (hready.afterAll hbelow hensures hlives hspares).idleOpening hlives

section Witness

open Engine.Sqlite

def twoTables : Config :=
  ⟨"app.db", 2,
    ⟨[⟨0, ["CREATE TABLE a (x INTEGER)"]⟩, ⟨1, ["INSERT INTO a VALUES (1)"]⟩],
      by unfold Migration.Ascending; decide⟩,
    true, true, [⟨"b", ⟨[⟨"y", .integer, [], none⟩]⟩⟩]⟩

def tableB : TableHandle :=
  ⟨⟨0⟩, "b", ⟨[⟨"y", .integer, [], none⟩]⟩, .parameterized⟩

def ones : Predicate :=
  [.equal "y" (.int 1)]

/-- Rows are added, changed and removed, before and behind another opening. -/
def rowChanges : List Event :=
  [.work (.operation tableB (.insert (.ofList [("y", .int 1)]))),
    .work (.operation tableB (.update (.ofList [("y", .int 2)]) (.ofFilter (some ones)))),
    .work (.operation tableB
      (.update (.ofList [("y", .int 3)]) ⟨none, some ones, [⟨"y", .ascending⟩], some 1⟩)),
    .close ⟨0⟩, .reopen,
    .work (.operation tableB (.delete (.ofFilter (some ones)))),
    .work (.transaction ⟨1⟩ [.execute ⟨"UPDATE a SET x = 2", []⟩,
      .execute ⟨"DELETE FROM b", []⟩] .commit)]

theorem legible_ones : Statement.Legible tableB.mode tableB.name (some ones) :=
  ⟨by decide, by decide +kernel, by decide +kernel, nofun⟩

theorem changesRows_rowChanges :
    forall event, event ∈ rowChanges -> event.ChangesRows := by
  intro event hmem
  simp only [rowChanges, List.mem_cons, List.not_mem_nil, or_false] at hmem
  rcases hmem with rfl | rfl | rfl | rfl | rfl | rfl | rfl
  · exact .insert (by decide) (by decide)
  · exact .update legible_ones (by decide) (by decide)
  · exact .update legible_ones (by decide) (by decide)
  · exact .close
  · exact .reopen
  · exact .delete legible_ones
  · apply Event.ChangesRows.texts
    decide +kernel

theorem plainTables_twoTables : twoTables.PlainTables := by
  unfold PlainTables
  decide

theorem livesIn_twoTables : twoTables.LivesIn "app.db" :=
  ⟨⟨.file "app.db", true, false⟩, by decide +kernel, rfl⟩

/-- Another program has stored a version below all versions. -/
def negativeHost : Host :=
  (runOn (do
    let database <- Database.openDatabase "app.db"
    database.atomically do
      let _ <- database.execute [] "PRAGMA user_version = -1") (.ofDisk .empty)).2

theorem opening_again_changes_nothing_of_twoTables :
    (exists failure,
      Work.runOn (plain "sqlite:app.db" 2).openDatabase (.ofDisk .empty) =
        (.error (.database failure), .ofDisk .empty)) ∧
    (exists opened,
      Attempted ⟨0⟩ opened (twoTables.script 0)
        (Work.runOn twoTables.openDatabase (.ofDisk .empty))) ∧
    (exists failure opened after,
      runOn (Database.openDatabase "app.db") negativeHost = (.ok ⟨1⟩, opened) ∧
      Work.runOn twoTables.openDatabase negativeHost = (.error failure, after) ∧
      opened.SameStores after) ∧
    exists after again opened last,
      Work.runOn twoTables.openDatabase (.ofDisk .empty) = (.ok ⟨0⟩, after) ∧
      twoTables.IdleOpening (Event.afterAll twoTables rowChanges after) again
        opened last := by
  rcases opening_again_changes_nothing twoTables (.ofDisk .empty) with
    ⟨_, htries, _, hidle⟩
  refine ⟨?_, ?_, ?_, ?_⟩
  · have hfails : (runOn (Database.openDatabase "sqlite:app.db")
        (.ofDisk .empty)).1.toOption = none := by
      decide +kernel
    rcases hopened : runOn (Database.openDatabase "sqlite:app.db")
        (.ofDisk .empty) with ⟨failure | _, opened⟩
    · exact ⟨failure, (opening_again_changes_nothing (plain "sqlite:app.db" 2)
        (.ofDisk .empty)).left failure opened hopened⟩
    · rw [hopened] at hfails
      cases hfails
  · have hopened : runOn (Database.openDatabase twoTables.name)
        (.ofDisk .empty) = (.ok ⟨0⟩, _) := rfl
    refine ⟨_, htries ⟨0⟩ _ 0 hopened fun _ => ?_⟩
    refine ⟨.start Machine.empty false, ⟨_, rfl, rfl, rfl, rfl⟩, ?_⟩
    decide +kernel
  · have hopened : runOn (Database.openDatabase twoTables.name) negativeHost =
        (.ok ⟨1⟩, (runOn (Database.openDatabase "app.db") negativeHost).2) :=
      rfl
    have hunread : (Work.runOn (twoTables.runner ⟨1⟩).currentVersion
        (runOn (Database.openDatabase "app.db")
          negativeHost).2).1.toOption = none := by
      decide +kernel
    rcases (opening_again_changes_nothing twoTables negativeHost).right.right.left
      ⟨1⟩ _ hopened rfl (fun current hfinds => by
        rcases (twoTables.runner ⟨1⟩).rests_currentVersion hfinds with
          ⟨read, hread, _⟩
        rw [hread] at hunread
        cases hunread) with ⟨failure, after, hrun, hsame⟩
    exact ⟨failure, _, after, hopened, hrun, hsame⟩
  · have hrun : Work.runOn twoTables.openDatabase (.ofDisk .empty) =
        (.ok ⟨0⟩, _) := runOn_of_toOption (by decide +kernel)
    rcases hidle "app.db" ⟨0⟩ _ (by decide) plainTables_twoTables.ensures
      livesIn_twoTables (Host.filed_ofDisk .empty) hrun rowChanges
      (fun event hmem => (changesRows_rowChanges event hmem).spares
        plainTables_twoTables) with
      ⟨again, opened, last, hagain⟩
    exact ⟨_, again, opened, last, hrun, hagain⟩

def talkativeName : Config :=
  ⟨"app.db", 0, .empty, false, true,
    [⟨"a (x INTEGER); INSERT INTO a VALUES (1); CREATE TABLE IF NOT EXISTS b",
      ⟨[⟨"x", .integer, [], none⟩]⟩⟩]⟩

def recordCount? (host : Host) (path name : String) : Option Nat :=
  ((host.disk.store? path).bind fun store => store.find? name).map
    fun table => table.records.length

/-- Nothing but a further opening comes behind an opening, and yet a row is added. -/
theorem creation_adds_row :
    talkativeName.LivesIn "app.db" ∧ talkativeName.migrations.KeepVersion ∧
    exists first second,
      Work.runOn talkativeName.openDatabase (.ofDisk .empty) =
        (.ok ⟨0⟩, first) ∧
      recordCount? first "app.db" "a" = some 1 ∧
      Work.runOn talkativeName.openDatabase first = (.ok ⟨1⟩, second) ∧
      recordCount? second "app.db" "a" = some 2 := by
  refine ⟨⟨⟨.file "app.db", true, false⟩, by decide +kernel, rfl⟩, nofun, ?_⟩
  have hfirst : Work.runOn talkativeName.openDatabase (.ofDisk .empty) =
      (.ok ⟨0⟩, _) := runOn_of_toOption (by decide +kernel)
  have hsecond : Work.runOn talkativeName.openDatabase
      (Work.runOn talkativeName.openDatabase (.ofDisk .empty)).2 =
        (.ok ⟨1⟩, _) := runOn_of_toOption (by decide +kernel)
  exact ⟨_, _, hfirst, by decide +kernel, hsecond, by decide +kernel⟩

end Witness

end Config
end TableStore
