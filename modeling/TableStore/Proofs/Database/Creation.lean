import TableStore.Proofs.Database.Development

/-!
# Texts that have nothing left to do

A text is made in a store if running it there succeeds and changes nothing, as the
creation of a table does that is there.  Work keeps what is made as far as its statements
do, and running a text that is made leaves everything as it was, also in a database that
may only be read.
-/

namespace TableStore

open Engine (Machine Session)
open Engine.Machine (Store)

variable [Machine]

namespace Database

open Database.Action (runOn)

def Handle.LivesIn (handle : Handle) (host : Host) (path : String) : Prop :=
  exists connection, host.connections[handle.index]? = some connection ∧
    connection.place = .file path

namespace Handle

variable {handle : Handle} {host after : Host} {path : String}

theorem LivesIn.of_develops (h : handle.LivesIn host path)
    {relation : Store -> Store -> Prop} (hdevelops : host.Develops relation after) :
    handle.LivesIn after path := by
  rcases h with ⟨connection, hconnection, hplace⟩
  rcases hdevelops.places _ connection hconnection with ⟨other, hother, hsame⟩
  exact ⟨other, hother, hsame.trans hplace⟩

/-- What the next transaction starts with is what the file holds. -/
theorem Serves.store?_of_livesIn {session : Session Store}
    (h : handle.Serves host session) (hlives : handle.LivesIn host path) :
    host.disk.store? path = some session.store := by
  rcases h with ⟨connection, hconnection, _, hcurrent, _⟩
  rcases hlives with ⟨other, hother, hplace⟩
  rw [hconnection] at hother
  cases hother
  exact Disk.store?_of_current hplace hcurrent

end Handle

/-!
# Creations of tables
-/

namespace TableHandle

variable {host after : Host} {path : String}

def creation (table : TableHandle) : String :=
  Statement.createTable table.name table.columns

variable [Machine.Lawful]

theorem leads_create (table : TableHandle) {relation : Store -> Store -> Prop}
    [IsPreorder Store relation]
    (hrelates : Relates relation (.ofText table.creation)) :
    Database.Action.Leads relation table.create :=
  ((table.sends_execute (.ofText table.creation)).leads hrelates).bind
    fun _ => Database.Action.leads_of_concludes
      (Database.Action.concludes_report _ _ _)

theorem made_of_create (table : TableHandle) {relation : Store -> Store -> Prop}
    [IsPreorder Store relation]
    (hrelates : Relates relation (.ofText table.creation))
    (hsettles : Machine.Settles table.creation)
    (hlives : table.database.LivesIn host path) (hfiled : host.Filed)
    (h : runOn table.create host = (.ok (), after)) :
    exists store, after.disk.store? path = some store ∧
      Machine.Made store table.creation := by
  have hdevelops := table.leads_create hrelates host hfiled
  rw [h] at hdevelops
  have hlast : table.database.LivesIn after path :=
    hlives.of_develops hdevelops
  rw [create] at h
  rcases Action.runOn_bind_eq_ok.mp h with ⟨count, middle, hexecute, hreport⟩
  cases hreport
  rcases (table.sends_execute _).exists_of_runOn hexecute with
    ⟨session, next, found, _, hdone, _, hnext⟩
  have hmade := hsettles session found (congrArg Prod.snd hdone)
  have hstore : (Machine.run session [] table.creation).1 = next :=
    congrArg Prod.fst hdone
  rw [hstore] at hmade
  exact ⟨next.store, hnext.store?_of_livesIn hlast, hmade⟩

/-- A table that is there is created without a change. -/
theorem rests_create (table : TableHandle) {session : Session Store}
    (hserves : table.database.Serves host session)
    (hmade : Machine.Made session.store table.creation) :
    exists after, runOn table.create host = (.ok (), after) ∧
      table.database.Rests host after := by
  rcases hmade session rfl with ⟨⟨result, hresult⟩, hidle⟩
  rcases (table.sends_execute (.ofText table.creation)).rests hserves hresult hidle
    with ⟨middle, hdone, hrests⟩
  have hexecute : runOn (table.execute (.ofText table.creation)) host =
      (.ok result.affected, middle) := hdone
  refine ⟨_, ?_, hrests.trans (table.database.rests_notices middle
    (.log .info "Created table" [("table", table.name)] :: middle.notices))⟩
  rw [create, Action.runOn_bind]
  rw [creation] at hexecute
  rw [hexecute]
  rfl

end TableHandle

end Database

end TableStore
