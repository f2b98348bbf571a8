import TableStore.Config.Open
import TableStore.Proofs.Database.Creation
import TableStore.Proofs.Migration.Attempts

/-!
# Openings, text by text

The opening of a configured database tries texts, each of them in a transaction of its
own: the statements of the pending batches, the one that stores the version, and the
creations of the declared tables.  It stops at the first one that fails.
-/

namespace TableStore

open Database (Address Handle Host)
open Database.Action (runOn)
open Engine (Machine)

variable [Machine]

namespace Config

open Migration (Attempted Attempts Work stepsBetween versionText)

/-!
# The texts of an opening
-/

def upgrade (config : Config) (current : UInt32) : List String :=
  if config.autoMigrate && current < config.version then
    (stepsBetween config.migrations current config.version).map Prod.snd ++
      ["PRAGMA user_version = " ++ versionText config.version]
  else []

def creations (config : Config) : List String :=
  if config.autoCreate then
    config.tables.map fun table =>
      Statement.createTable table.name table.columns
  else []

/-- The texts of an opening that finds a version. -/
def script (config : Config) (current : UInt32) : List String :=
  config.upgrade current ++ config.creations

def LivesIn (config : Config) (path : String) : Prop :=
  exists address, Address.ofName config.name = .ok address ∧
    address.place = .file path

section Opening

variable {config : Config} {database : Handle} {path : String}
  {host opened after : Host}

theorem attempts_create [Machine.Lawful] (table : Database.TableHandle) :
    Attempts table.database (Migration.ofAction table.create)
      [table.creation] := by
  have hexecute : Attempts table.database
      (Migration.ofAction (table.execute (.ofText table.creation)))
      [table.creation] :=
    Migration.attempts_adapt (table.sends_execute (.ofText table.creation))
      fun _ => rfl
  exact hexecute.concludes fun _ =>
    Database.Action.concludes_report _ _ _

theorem attempts_createTables [Machine.Lawful] (config : Config)
    (database : Handle) :
    Attempts database (config.createTables database)
      (config.tables.map fun table =>
        Statement.createTable table.name table.columns) := by
  have hcreate : Attempts database
      ((config.handles database).forM fun table =>
        Migration.ofAction table.create)
      ((config.handles database).flatMap fun table => [table.creation]) := by
    apply Migration.attempts_forM
    intro table hmem
    rcases List.mem_map.mp hmem with ⟨declaration, _, rfl⟩
    exact attempts_create
      ⟨database, declaration.name, declaration.columns, .parameterized⟩
  rw [handles, List.flatMap_map, <- List.map_eq_flatMap] at hcreate
  have hready := (Migration.attempts_report database .info
    "Declared tables ready"
    [("count", Decimal.natText (config.handles database).length)]).bind
      fun _ => Migration.attempts_pure (config.handles database)
  have hall := hcreate.bind fun _ => hready
  rw [List.append_nil, List.append_nil] at hall
  exact hall

def migrating (config : Config) (database : Handle) : Work Unit := do
  if config.autoMigrate then
    let _ <- config.migrate database

def creating (config : Config) (database : Handle) : Work Unit := do
  if config.autoCreate then
    let _ <- config.createTables database

theorem openDatabase_eq (config : Config) :
    config.openDatabase = (do
      let database <- Migration.ofAction (Database.openDatabase config.name)
      config.migrating database
      config.creating database
      return database) := by
  unfold openDatabase migrating creating
  cases config.autoMigrate <;> cases config.autoCreate <;>
  simp

theorem attempts_creating [Machine.Lawful] (config : Config) (database : Handle) :
    Attempts database (config.creating database) config.creations := by
  rw [creating, creations]
  cases config.autoCreate with
  | false => exact Migration.attempts_pure ()
  | true =>
      have hall := (config.attempts_createTables database).bind
        fun _ => Migration.attempts_pure ()
      rw [List.append_nil] at hall
      exact hall

/-- A run that finds the version reached applies nothing and changes nothing. -/
theorem rests_migrate [Machine.Lawful] [Machine.Versioned] {reached : UInt32}
    (hfinds : database.Finds host reached)
    (hle : config.version <= reached) :
    exists last,
      Work.runOn (config.migrate database) host =
        (.ok ⟨reached, reached, []⟩, last) ∧
      database.Rests host last := by
  rcases (config.runner database).rests_currentVersion hfinds with
    ⟨read, hread, hrests⟩
  exact ⟨_, Migration.runOn_run_idle hread hle,
    hrests.trans (database.rests_notices read _)⟩

theorem attempted_migrating [Machine.Lawful] [Machine.Versioned] {current : UInt32}
    (hfinds : config.autoMigrate = true -> database.Finds host current) :
    Attempted database host (config.upgrade current)
      (Work.runOn (config.migrating database) host) := by
  rw [migrating, upgrade]
  cases hmigrate : config.autoMigrate with
  | false => exact Migration.attempts_pure () host
  | true =>
      have hfound := hfinds hmigrate
      by_cases hlt : current < config.version
      · have hrun := Migration.attempted_run (config.runner database) hfound hlt
        have hall := hrun.bind fun _ after _ =>
          Migration.attempts_pure () after
        rw [if_pos (by rw [Bool.true_and, decide_eq_true hlt])]
        rw [List.append_nil] at hall
        exact hall
      · rcases rests_migrate hfound (UInt32.not_lt.mp hlt) with
          ⟨last, hidle, hrests⟩
        rw [if_neg (by rw [Bool.true_and, decide_eq_true_iff]; exact hlt)]
        rw [if_pos rfl, Work.runOn_bind, hidle]
        exact .completed (.done hrests.sameStores)

/--
The opening of a database that opens tries the texts of its script, one after another.
-/
theorem attempted_openDatabase [Machine.Lawful] [Machine.Versioned] {current : UInt32}
    (hopened : runOn (Database.openDatabase config.name) host =
      (.ok database, opened))
    (hfinds : config.autoMigrate = true -> database.Finds opened current) :
    Attempted database opened (config.script current)
      (Work.runOn config.openDatabase host) := by
  have hfirst : Work.runOn (Migration.ofAction
      (Database.openDatabase config.name)) host = (.ok database, opened) := by
    rw [Migration.ofAction, Work.runOn_adapt, hopened]
    rfl
  rw [openDatabase_eq, Work.runOn_bind, hfirst]
  have hcreating := (config.attempts_creating database).bind
    fun _ => Migration.attempts_pure database
  rw [List.append_nil] at hcreating
  exact (attempted_migrating hfinds).bind fun _ after _ => hcreating after

/-!
# Opening and what follows
-/

theorem runOn_openDatabase_of_error {failure : Database.Failure}
    (hopened : runOn (Database.openDatabase config.name) host =
      (.error failure, opened)) :
    Work.runOn config.openDatabase host =
      (.error (.database failure), host) := by
  have hsame := Database.runOn_openDatabase_eq_error hopened
  rw [openDatabase_eq, Work.runOn_bind, Migration.ofAction, Work.runOn_adapt,
    hopened, hsame]
  rfl

/-- An opening that finds no version fails where it would migrate. -/
theorem runOn_openDatabase_of_no_version [Machine.Lawful] [Machine.Versioned]
    (hopened : runOn (Database.openDatabase config.name) host =
      (.ok database, opened))
    (hmigrate : config.autoMigrate = true)
    (hnone : forall current, ¬ database.Finds opened current) :
    exists failure after,
      Work.runOn config.openDatabase host = (.error failure, after) ∧
      opened.SameStores after := by
  have hsame := (config.runner database).sameStores_currentVersion opened
  rcases hread : Work.runOn (config.runner database).currentVersion opened with
    ⟨failure | current, read⟩
  · rw [hread] at hsame
    refine ⟨failure, read, ?_, hsame⟩
    rw [openDatabase_eq, Work.runOn_bind, Migration.ofAction, Work.runOn_adapt,
      hopened]
    dsimp only [Except.mapError]
    rw [Work.runOn_bind, migrating, if_pos hmigrate, Work.runOn_bind, migrate,
      Migration.Runner.run, Work.runOn_bind, hread]
  · exact absurd (Migration.finds_of_currentVersion hread) (hnone current)

theorem runOn_openDatabase_eq_ok
    (h : Work.runOn config.openDatabase host = (.ok database, after)) :
    exists opened migrated,
      runOn (Database.openDatabase config.name) host = (.ok database, opened) ∧
      Work.runOn (config.migrating database) opened = (.ok (), migrated) ∧
      Work.runOn (config.creating database) migrated = (.ok (), after) := by
  rw [openDatabase_eq] at h
  rcases Work.runOn_bind_eq_ok h with ⟨found, opened, hopened, hrest⟩
  rcases Work.runOn_bind_eq_ok hrest with ⟨_, migrated, hmigrated, hlast⟩
  rcases Work.runOn_bind_eq_ok hlast with ⟨_, created, hcreated, hdone⟩
  cases hdone
  exact ⟨opened, migrated, Migration.Runner.runOn_of_adapt_ok hopened,
    hmigrated, hcreated⟩

theorem runOn_openDatabase_of_ok {migrated : Host}
    (hopened : runOn (Database.openDatabase config.name) host =
      (.ok database, opened))
    (hmigrating : Work.runOn (config.migrating database) opened =
      (.ok (), migrated))
    (hcreating : Work.runOn (config.creating database) migrated =
      (.ok (), after)) :
    Work.runOn config.openDatabase host = (.ok database, after) := by
  rw [openDatabase_eq, Work.runOn_bind, Migration.ofAction, Work.runOn_adapt,
    hopened]
  dsimp only [Except.mapError]
  rw [Work.runOn_bind, hmigrating]
  dsimp only
  rw [Work.runOn_bind, hcreating]
  rfl

structure Opened (database : Handle) (path : String) (opened : Host) : Prop where
  lives : database.LivesIn opened path
  directory : opened.disk.isDirectory path = false
  found : (opened.disk.find? path).isSome = true

theorem opened_of_runOn (hlives : config.LivesIn path)
    (h : runOn (Database.openDatabase config.name) host =
      (.ok database, opened)) : Opened database path opened := by
  rcases hlives with ⟨address, haddress, hplace⟩
  have hopened := Database.databaseOpened config.name host
  rw [h] at hopened
  cases hopened with
  | memory hname hmemory =>
      rw [haddress] at hname
      cases hname
      cases hplace.symm.trans hmemory
  | file hname hother hfile =>
      rw [haddress] at hname
      cases hname
      cases hplace.symm.trans hother
      exact ⟨⟨address.connection, Host.getElem?_connected _ _, hplace⟩,
        hfile.directory, hfile.found⟩

end Opening

end Config
end TableStore
