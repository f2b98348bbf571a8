import TableStore.Proofs.Config.Opening

/-!
# Openings that change nothing

Behind an opening that has succeeded the version is reached and the declared tables are
there.  Work that neither drops a table nor stores a version leaves it so, and another
opening then finds nothing to do.
-/

namespace TableStore
namespace Config

open Database (Handle Host TableHandle)
open Database.Action (runOn)
open Engine (Machine)
open Engine.Machine (Store)
open Migration (Work)

variable [Machine]

/-!
# Nothing to do
-/

structure Keeps (config : Config) (store after : Store) : Prop where
  version_eq : Machine.version after = Machine.version store
  made : forall table, table ∈ config.tables ->
    Machine.Made store (Statement.createTable table.name table.columns) ->
      Machine.Made after (Statement.createTable table.name table.columns)

instance (config : Config) : IsPreorder Store config.Keeps where
  refl _ := ⟨rfl, fun _ _ h => h⟩
  trans _ _ _ h hnext := ⟨hnext.version_eq.trans h.version_eq,
    fun table hmem hmade => hnext.made table hmem (h.made table hmem hmade)⟩

/-- The declared tables are created by texts that do nothing else. -/
structure Ensures (config : Config) : Prop where
  settles : forall table, table ∈ config.tables ->
    Machine.Settles (Statement.createTable table.name table.columns)
  keeps : forall table, table ∈ config.tables ->
    Database.Relates config.Keeps
      (.ofText (Statement.createTable table.name table.columns))

structure Ready (config : Config) (path : String) (host : Host) : Prop where
  filed : host.Filed
  found : (host.disk.find? path).isSome = true
  directory : host.disk.isDirectory path = false
  version : config.autoMigrate = true -> exists store reached,
    host.disk.store? path = some store ∧
    (Int64.ofInt (Machine.version store)).toInt = UInt32.toNat reached ∧
    config.version <= reached
  tables : config.autoCreate = true -> forall table, table ∈ config.tables ->
    exists store, host.disk.store? path = some store ∧
      Machine.Made store (Statement.createTable table.name table.columns)

section Ready

variable {config : Config} {path : String} {host after : Host}

theorem exists_of_rel {relation : Store -> Store -> Prop}
    {first second : Option Store} (h : Option.Rel relation first second)
    {store : Store} (hfirst : first = some store) :
    exists other, second = some other ∧ relation store other := by
  cases h with
  | none => cases hfirst
  | some hrelated =>
      cases hfirst
      exact ⟨_, rfl, hrelated⟩

/-- Work that drops no table and stores no version leaves nothing to do. -/
theorem Ready.of_develops (h : config.Ready path host)
    (hdevelops : host.Develops config.Keeps after) : config.Ready path after where
  filed := hdevelops.filed
  found := (hdevelops.files path).trans h.found
  directory := (hdevelops.directories path).trans h.directory
  version hmigrate := by
    rcases h.version hmigrate with ⟨store, reached, hstore, hversion, hle⟩
    rcases exists_of_rel (hdevelops.stores path) hstore with
      ⟨other, hother, hkept⟩
    rw [<- hkept.version_eq] at hversion
    exact ⟨other, reached, hother, hversion, hle⟩
  tables hcreate table hmem := by
    rcases h.tables hcreate table hmem with ⟨store, hstore, hmade⟩
    rcases exists_of_rel (hdevelops.stores path) hstore with
      ⟨other, hother, hkept⟩
    exact ⟨other, hother, hkept.made table hmem hmade⟩

end Ready

section Opening

variable {config : Config} {database : Handle} {path : String}
  {host after : Host}

/-!
# What an opening leaves
-/

omit [Machine] in
theorem forall_mem_handles (holds : TableHandle -> Prop)
    (h : forall table, table ∈ config.tables ->
      holds ⟨database, table.name, table.columns, .parameterized⟩) :
    forall table, table ∈ config.handles database -> holds table := by
  intro table hmem
  rcases List.mem_map.mp hmem with ⟨declaration, hdeclaration, rfl⟩
  exact h declaration hdeclaration

omit [Machine] in
theorem database_of_mem_handles :
    forall table, table ∈ config.handles database ->
      table.database = database :=
  forall_mem_handles (·.database = database) fun _ _ => rfl

/-- A table is created by a text that does nothing else, and stays. -/
structure Ensured (config : Config) (table : TableHandle) : Prop where
  settles : Machine.Settles table.creation
  relates : Database.Relates config.Keeps (.ofText table.creation)
  stays : forall store after, config.Keeps store after ->
    Machine.Made store table.creation -> Machine.Made after table.creation

theorem ensured_of_mem_handles (hensures : config.Ensures) :
    forall table, table ∈ config.handles database -> config.Ensured table :=
  forall_mem_handles config.Ensured fun table hmem =>
    ⟨hensures.settles table hmem, hensures.keeps table hmem,
      fun _ _ hkeeps => hkeeps.made table hmem⟩

section Lawful

variable [Machine.Lawful]

theorem leads_migrating (config : Config) (database : Handle) :
    Work.Leads Database.Alters (config.migrating database) := by
  rw [migrating]
  cases config.autoMigrate with
  | false => exact Work.leads_pure ()
  | true =>
      exact ((config.runner database).leads_run config.version).bind
        fun _ => Work.leads_pure ()

theorem leads_creating (hensures : config.Ensures) (database : Handle) :
    Work.Leads config.Keeps (config.creating database) := by
  rw [creating]
  cases config.autoCreate with
  | false => exact Work.leads_pure ()
  | true =>
      have htables : Work.Leads config.Keeps ((config.handles database).forM
          fun table => Migration.ofAction table.create) :=
        Work.leads_forM fun table hmem => Work.leads_adapt
          (table.leads_create
            (ensured_of_mem_handles hensures table hmem).relates) _
      have hcreate : Work.Leads config.Keeps (config.createTables database) :=
        htables.bind fun _ => (Work.leads_report _ _ _).bind
          fun _ => Work.leads_pure _
      exact hcreate.bind fun _ => Work.leads_pure ()

theorem made_of_creates {tables : List TableHandle}
    (hdatabase : forall table, table ∈ tables -> table.database = database)
    (hensures : forall table, table ∈ tables -> config.Ensured table)
    (hlives : database.LivesIn host path) (hfiled : host.Filed)
    (h : Work.runOn (tables.forM fun table =>
      Migration.ofAction table.create) host = (.ok (), after)) :
    forall table, table ∈ tables -> exists store,
      after.disk.store? path = some store ∧
        Machine.Made store table.creation := by
  induction tables generalizing host with
  | nil => exact fun _ hmem => nomatch hmem
  | cons first tables ih =>
      rw [List.forall_mem_cons] at hdatabase hensures
      -- The tables behind the first one are created without dropping it.
      rcases Work.runOn_bind_eq_ok h with ⟨_, middle, hfirst, hrest⟩
      have hcreate := Migration.Runner.runOn_of_adapt_ok hfirst
      have hdevelops := first.leads_create hensures.left.relates host hfiled
      rw [hcreate] at hdevelops
      have hbehind := Work.leads_forM (fun (table : TableHandle) hmem =>
        Work.leads_adapt (table.leads_create (hensures.right table hmem).relates)
          .database) middle hdevelops.filed
      have hsurvives : middle.Develops config.Keeps after := by
        have hlast : Work.runOn (tables.forM fun table =>
            (table.create.adapt .database : Work Unit)) middle =
              (.ok (), after) := hrest
        rw [hlast] at hbehind
        exact hbehind
      rw [List.forall_mem_cons]
      constructor
      · rw [<- hdatabase.left] at hlives
        rcases first.made_of_create hensures.left.relates hensures.left.settles
          hlives hfiled hcreate with ⟨store, hstore, hmade⟩
        rcases exists_of_rel (hsurvives.stores path) hstore with
          ⟨other, hother, hkept⟩
        exact ⟨other, hother, hensures.left.stays store other hkept hmade⟩
      · exact ih hdatabase.right hensures.right
          (hlives.of_develops hdevelops) hdevelops.filed hrest

def Reached (config : Config) (database : Handle) (host : Host) : Prop :=
  config.autoMigrate = true -> exists reached,
    config.version <= reached ∧ database.Finds host reached

theorem reached_of_migrating [Machine.Versioned]
    (hbelow : config.version.toNat < 2147483648)
    (h : Work.runOn (config.migrating database) host = (.ok (), after)) :
    config.Reached database after := by
  intro hmigrate
  rw [migrating, if_pos hmigrate] at h
  rcases Work.runOn_bind_eq_ok h with ⟨report, last, hrun, hlast⟩
  cases hlast
  exact Migration.finds_of_run hbelow hrun

theorem made_of_creating (hensures : config.Ensures)
    (hlives : database.LivesIn host path) (hfiled : host.Filed)
    (h : Work.runOn (config.creating database) host = (.ok (), after)) :
    config.autoCreate = true -> forall table, table ∈ config.tables ->
      exists store, after.disk.store? path = some store ∧
        Machine.Made store (Statement.createTable table.name table.columns) := by
  intro hcreate table hmem
  rw [creating, if_pos hcreate] at h
  rcases Work.runOn_bind_eq_ok h with ⟨tables, last, hrun, hlast⟩
  cases hlast
  rcases Work.runOn_bind_eq_ok hrun with ⟨_, made, hmade, hreport⟩
  cases hreport
  exact made_of_creates database_of_mem_handles (ensured_of_mem_handles hensures)
    hlives hfiled hmade
    ⟨database, table.name, table.columns, .parameterized⟩
    (List.mem_map_of_mem hmem)

/-- An opening that succeeds leaves nothing to do for another one. -/
theorem ready_of_openDatabase [Machine.Versioned]
    (hbelow : config.version.toNat < 2147483648)
    (hensures : config.Ensures) (hlives : config.LivesIn path)
    (hfiled : host.Filed)
    (h : Work.runOn config.openDatabase host = (.ok database, after)) :
    config.Ready path after := by
  rcases runOn_openDatabase_eq_ok h with
    ⟨opened, migrated, hopened, hmigrated, hcreated⟩
  have hstart := opened_of_runOn hlives hopened
  have hopenedFiled := hfiled.openDatabase config.name
  rw [hopened] at hopenedFiled
  have hfirst := config.leads_migrating database opened hopenedFiled
  rw [hmigrated] at hfirst
  have hsecond := leads_creating hensures database migrated hfirst.filed
  rw [hcreated] at hsecond
  have hplaced := hstart.lives.of_develops hfirst
  refine ⟨hsecond.filed, ?_, ?_, ?_,
    made_of_creating hensures hplaced hfirst.filed hcreated⟩
  · exact (hsecond.files path).trans ((hfirst.files path).trans hstart.found)
  · exact (hsecond.directories path).trans
      ((hfirst.directories path).trans hstart.directory)
  · intro hmigrate
    rcases reached_of_migrating hbelow hmigrated hmigrate with
      ⟨reached, hle, session, hserves, hversion⟩
    -- The creations behind the migration keep the version that it has reached.
    have hstore := hserves.store?_of_livesIn hplaced
    rcases exists_of_rel (hsecond.stores path) hstore with
      ⟨other, hother, hkept⟩
    rw [<- hkept.version_eq] at hversion
    exact ⟨other, reached, hother, hversion, hle⟩

/-!
# Openings that find nothing to do
-/

theorem rests_creates (host : Host) {tables : List TableHandle}
    (hdatabase : forall table, table ∈ tables -> table.database = database)
    (h : forall table, table ∈ tables -> exists session,
      database.Serves host session ∧ Machine.Made session.store table.creation) :
    exists last, Work.runOn (tables.forM fun table =>
        Migration.ofAction table.create) host = (.ok (), last) ∧
      database.Rests host last := by
  induction tables generalizing host with
  | nil => exact ⟨host, rfl, database.rests_notices host host.notices⟩
  | cons first tables ih =>
      rw [List.forall_mem_cons] at hdatabase h
      rcases h.left with ⟨session, hserves, hmade⟩
      rw [<- hdatabase.left] at hserves
      rcases first.rests_create hserves hmade with
        ⟨middle, hcreate, hrests⟩
      rw [hdatabase.left] at hrests
      rcases ih middle hdatabase.right (fun table hmem => by
        rcases h.right table hmem with ⟨other, hother, hthere⟩
        rcases hrests.serves other hother with ⟨next, hsame, hnext⟩
        exact ⟨next, hnext, hsame.store_eq ▸ hthere⟩) with
        ⟨last, hrun, hstays⟩
      have hfirst : Work.runOn (Migration.ofAction first.create) host =
          (.ok (), middle) := by
        rw [Migration.ofAction, Work.runOn_adapt, hcreate]
        rfl
      have hbind := Work.runOn_bind (Migration.ofAction first.create)
        (fun _ => tables.forM fun table => Migration.ofAction table.create) host
      rw [hfirst] at hbind
      exact ⟨last, hbind.trans hrun, hrests.trans hstays⟩

theorem rests_creating (config : Config) {database : Handle} {host : Host}
    (h : config.autoCreate = true -> forall table, table ∈ config.tables ->
      exists session, database.Serves host session ∧
        Machine.Made session.store
          (Statement.createTable table.name table.columns)) :
    exists last, Work.runOn (config.creating database) host = (.ok (), last) ∧
      database.Rests host last := by
  rw [creating]
  cases hcreate : config.autoCreate with
  | false => exact ⟨host, rfl, database.rests_notices host host.notices⟩
  | true =>
      rcases rests_creates host config.database_of_mem_handles
        (forall_mem_handles (fun table => exists session,
          database.Serves host session ∧ Machine.Made session.store table.creation)
          (h hcreate)) with ⟨made, hmade, hrests⟩
      refine ⟨_, ?_, hrests.trans (database.rests_notices made (.log .info
        "Declared tables ready"
        [("count", Decimal.natText (config.handles database).length)] ::
          made.notices))⟩
      rw [if_pos rfl, Work.runOn_bind, createTables, Work.runOn_bind, hmade]
      rfl

end Lawful

/-- An opening that finds nothing to do but to look at the version and the tables. -/
structure IdleOpening (config : Config) (host : Host) (database : Handle)
    (opened after : Host) : Prop where
  opened_eq : runOn (Database.openDatabase config.name) host =
    (.ok database, opened)
  run_eq : Work.runOn config.openDatabase host = (.ok database, after)
  migrate_eq : config.autoMigrate = true -> exists reached read,
    config.version <= reached ∧
      Work.runOn (config.migrate database) opened =
        (.ok ⟨reached, reached, []⟩, read)
  commits : database.Commits opened config.creations after
  sameStores : opened.SameStores after
  files : forall path, after.disk.store? path = host.disk.store? path

omit [Machine] in
theorem upgrade_eq_nil {current : UInt32}
    (h : config.autoMigrate = true -> config.version <= current) :
    config.upgrade current = [] := by
  rw [upgrade]
  cases hmigrate : config.autoMigrate with
  | false => rfl
  | true =>
      apply if_neg
      rw [Bool.true_and, decide_eq_true_iff]
      exact UInt32.not_lt.mpr (h hmigrate)

theorem rests_migrating [Machine.Lawful] [Machine.Versioned]
    (h : config.Reached database host) :
    exists last, Work.runOn (config.migrating database) host = (.ok (), last) ∧
      database.Rests host last := by
  rw [migrating]
  cases hmigrate : config.autoMigrate with
  | false => exact ⟨host, rfl, database.rests_notices host host.notices⟩
  | true =>
      rcases h hmigrate with ⟨reached, hle, hfinds⟩
      rcases rests_migrate hfinds hle with ⟨last, hrun, hrests⟩
      refine ⟨last, ?_, hrests⟩
      rw [if_pos rfl, Work.runOn_bind, hrun]
      rfl

theorem commits_creations [Machine.Lawful] [Machine.Versioned] {opened : Host}
    (hopened : runOn (Database.openDatabase config.name) host =
      (.ok database, opened))
    (h : config.Reached database opened)
    (hrun : Work.runOn config.openDatabase host = (.ok database, after)) :
    database.Commits opened config.creations after := by
  have hcurrent : exists current, config.autoMigrate = true ->
      config.version <= current ∧ database.Finds opened current := by
    by_cases hmigrate : config.autoMigrate = true
    · rcases h hmigrate with ⟨reached, hreached⟩
      exact ⟨reached, fun _ => hreached⟩
    · exact ⟨0, fun htrue => absurd htrue hmigrate⟩
  rcases hcurrent with ⟨current, hcurrent⟩
  have htried := attempted_openDatabase hopened
    fun hmigrate => (hcurrent hmigrate).right
  rw [hrun, script, upgrade_eq_nil fun hmigrate =>
    (hcurrent hmigrate).left] at htried
  cases htried with
  | completed hcommits => exact hcommits

structure Reopened (database : Handle) (path : String) (host opened : Host) :
    Prop where
  filed : opened.Filed
  serves : forall store, host.disk.store? path = some store ->
    exists session, database.Serves opened session ∧ session.store = store
  stores : forall other, opened.disk.store? other = host.disk.store? other

theorem Ready.reopened (h : config.Ready path host)
    (hlives : config.LivesIn path) :
    exists database opened,
      runOn (Database.openDatabase config.name) host = (.ok database, opened) ∧
      Reopened database path host opened := by
  rcases hlives with ⟨address, haddress, hplace⟩
  have hfile := Database.runOn_openFile_of_found address h.directory h.found
  have hopened := Database.runOn_openDatabase haddress hplace host
  rw [hfile] at hopened
  refine ⟨_, _, hopened, ?_, ?_, fun _ => rfl⟩
  · apply h.filed.connected
    intro other hother
    cases hplace.symm.trans hother
    exact h.found
  · intro store hstore
    exact ⟨Handle.starting address.connection store,
      ⟨address.connection, Host.getElem?_connected _ _, rfl,
        Database.Disk.current_of_store? hplace hstore, rfl⟩, rfl⟩

theorem Ready.reached (h : config.Ready path host) {opened : Host}
    (hopened : Reopened database path host opened) :
    config.Reached database opened := by
  intro hmigrate
  rcases h.version hmigrate with ⟨store, reached, hstore, hversion, hle⟩
  rcases hopened.serves store hstore with ⟨session, hserves, rfl⟩
  exact ⟨reached, hle, session, hserves, hversion⟩

theorem Ready.idleOpening [Machine.Lawful] [Machine.Versioned]
    (h : config.Ready path host)
    (hlives : config.LivesIn path) :
    exists database opened after,
      config.IdleOpening host database opened after := by
  rcases h.reopened hlives with ⟨database, opened, hopened, hreopened⟩
  have hreached := h.reached hreopened
  rcases rests_migrating hreached with ⟨migrated, hmigrating, hmigrated⟩
  -- Reading the version leaves the tables as they were found.
  rcases config.rests_creating fun hcreate table hmem => by
    rcases h.tables hcreate table hmem with ⟨store, hstore, hmade⟩
    rcases hreopened.serves store hstore with ⟨session, hserves, rfl⟩
    rcases hmigrated.serves session hserves with ⟨next, hsame, hnext⟩
    exact ⟨next, hnext, hsame.store_eq ▸ hmade⟩ with
    ⟨after, hcreating, hcreated⟩
  have hrests := hmigrated.trans hcreated
  have hrun := runOn_openDatabase_of_ok hopened hmigrating hcreating
  have hcommits := commits_creations hopened hreached hrun
  have hdevelops := hrests.develops hreopened.filed
  refine ⟨database, opened, after, hopened, hrun, ?_, hcommits,
    hrests.sameStores, fun other => ?_⟩
  · intro hmigrate
    rcases hreached hmigrate with ⟨reached, hle, hfinds⟩
    rcases rests_migrate hfinds hle with ⟨read, hread, _⟩
    exact ⟨reached, read, hle, hread⟩
  · exact (Database.eq_of_rel_eq (hdevelops.stores other)).trans
      (hreopened.stores other)

end Opening

end Config
end TableStore
