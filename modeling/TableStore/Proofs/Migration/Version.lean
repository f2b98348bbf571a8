import TableStore.Migration.Runner
import TableStore.Proofs.Database.Transactions

/-!
# The stored version

The transactions that read and store the version of a database.
-/

namespace TableStore
namespace Migration

open Database (Action Handle Host)
open Engine (Machine)

variable [Machine]

/-!
# Work on a host
-/

namespace Work

variable {α β : Type}

/-- The result of work on a host, and the host behind it. -/
def runOn (work : Work α) (host : Host) : Except Failure α × Host :=
  work.run.run host

theorem runOn_bind (work : Work α) (next : α -> Work β) (host : Host) :
    runOn (work >>= next) host =
      match runOn work host with
      | (.ok result, after) => runOn (next result) after
      | (.error failure, after) => (.error failure, after) := by
  have hbind : runOn (work >>= next) host =
      (ExceptT.bindCont next (runOn work host).1).run
        (runOn work host).2 := rfl
  rw [hbind]
  rcases runOn work host with ⟨failure | result, after⟩ <;> rfl

theorem runOn_adapt (task : Action α) (rename : Database.Failure -> Failure)
    (host : Host) :
    runOn (task.adapt rename : Work α) host =
      ((Action.runOn task host).1.mapError rename,
        (Action.runOn task host).2) := by
  rfl

end Work

namespace Runner

variable {runner : Runner} {host : Host} {store : Machine.Store}

/-!
# Reading and storing the version
-/

/-- The transaction that reads the version. -/
def readVersion (runner : Runner) : Action (Option Value) :=
  runner.database.atomically
    (runner.database.fetchValue? [] "PRAGMA user_version")

theorem runOn_currentVersion_eq (runner : Runner) (host : Host) :
    Work.runOn runner.currentVersion host =
      (((Action.runOn runner.readVersion host).1.mapError .database).bind
          versionOfValue,
        (Action.runOn runner.readVersion host).2) := by
  rw [currentVersion, ofAction, <- readVersion, Work.runOn_bind, Work.runOn_adapt]
  rcases Action.runOn runner.readVersion host with ⟨failure | value?, read⟩
  · rfl
  · dsimp only [Except.mapError, Except.bind]
    cases versionOfValue value? <;> rfl

omit [Machine] in
theorem versionOfValue_stored (version : UInt32) :
    versionOfValue (some (.int (Int64.ofInt version.toNat))) =
      .ok version := by
  have hlt := version.toNat_lt
  have hint : (Int64.ofInt version.toNat).toInt = version.toNat :=
    Int64.toInt_ofInt_of_le (by omega) (by omega)
  rw [versionOfValue, hint, Decimal.uint32?_toNat]

section Versioned

variable [Machine.Lawful] [Machine.Versioned]

theorem runOn_currentVersion (h : runner.database.Holds host store)
    {current : UInt32} (hversion : Machine.version store = current.toNat) :
    exists after,
      Work.runOn runner.currentVersion host = (.ok current, after) ∧
      runner.database.Holds after store ∧ host.SameStores after := by
  rcases h.transaction_ok (Machine.execute_version store) with
    ⟨session, result, after, hsession, hresult, hrun, hholds, hsame⟩
  have hrows := Machine.rows_of_version hresult
  have hvalue : Handle.firstValue? (result.rows.map Handle.decodeRow) =
      some (.int (Int64.ofInt current.toNat)) := by
    rw [hrows, hsession, hversion]
    rfl
  exists after
  refine ⟨?_, hholds, hsame rfl⟩
  rw [runOn_currentVersion_eq, readVersion,
    hrun (Handle.performs_fetchValue? _ _), hvalue]
  exact congrArg (Prod.mk · after) (versionOfValue_stored current)

theorem runOn_setVersion (h : runner.database.Holds host store)
    {version : UInt32} (hversion : version.toNat < 2147483648) :
    exists after,
      Work.runOn (runner.setVersion version) host = (.ok (), after) ∧
      runner.database.Holds after (Machine.withVersion version.toNat store) := by
  have hexecute := Machine.execute_setVersion store version
  rw [(Machine.storedVersion_eq_self_iff version).mpr hversion] at hexecute
  rcases h.transaction_ok hexecute with
    ⟨session, result, after, hsession, hresult, hrun, hholds, hsame⟩
  have htask := (Handle.performs_execute runner.database
    ("PRAGMA user_version = " ++ versionText version)).bind_pure fun _ => ()
  exists after
  refine ⟨?_, hholds⟩
  rw [setVersion, ofAction, Work.runOn_adapt]
  exact congrArg (fun done => (done.1.mapError Failure.database, done.2)) (hrun htask)

end Versioned

end Runner
end Migration
end TableStore
