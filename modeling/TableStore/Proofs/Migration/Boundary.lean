import TableStore.Proofs.Database.Settled
import TableStore.Proofs.Migration.Runs

/-!
# The range of versions

Versions are whole numbers without a sign, but a store keeps them in a field of
thirty-two bits that has one.  A version from the upper half of the range is stored as
zero, though the work that stores it succeeds.  All other versions are read back as they
were stored and reported, whatever the database has been through before.
-/

namespace TableStore
namespace Migration

open Database (Action Handle Host)
open Engine (Machine)
open Engine.Machine (Store)

section Machines

variable [Machine]

/-!
# Storing a version
-/

def versionStatement (version : UInt32) : Fragment :=
  .ofText ("PRAGMA user_version = " ++ versionText version)

section Runner

variable {runner : Runner} {host after : Host}

theorem sends_setVersion (database : Handle) (version : UInt32) :
    database.Sends
      (do let _ <- database.execute []
            ("PRAGMA user_version = " ++ versionText version))
      (versionStatement version) fun _ => () :=
  (database.sends_execute (versionStatement version)).bind_pure fun _ => ()

theorem holds_of_setVersion [Machine.Lawful] [Machine.Versioned] {version : UInt32}
    (h : Work.runOn (runner.setVersion version) host = (.ok (), after)) :
    exists store, Machine.version store = (Machine.storedVersion version).toNat ∧
      runner.database.Holds after store := by
  rw [Runner.setVersion, ofAction, Work.runOn_adapt] at h
  rcases hrun : Action.runOn (runner.database.atomically
      (do let _ <- runner.database.execute []
            ("PRAGMA user_version = " ++ versionText version))) host with
    ⟨failure | result, behind⟩
  · rw [hrun] at h
    cases h
  · rw [hrun] at h
    cases h
    rcases (sends_setVersion runner.database version).course_of_runOn hrun with
      ⟨found, last, hcourse, hfound, hsilent⟩
    -- Every other course of the transaction ends with a failure.
    cases hcourse with
    | closed => cases hfound
    | unread => cases hfound
    | failed => cases hfound
    | @done connection store found hconnection hopen hcurrent hresult =>
        cases hwritable : (Handle.starting connection store).readOnly with
        | true =>
            rcases Machine.Versioned.set_version_readOnly _ version hwritable with
              ⟨error, herror⟩
            cases herror.symm.trans hresult
        | false =>
            have hstored := (Machine.Versioned.set_version _ version hwritable).left
            have hkept := Handle.runOf_readOnly
              (Handle.starting connection store) (versionStatement version)
            refine ⟨_, ?_, (Handle.holds_committed hconnection hopen
              (hkept.trans hwritable) store).of_silent_eq hsilent.symm⟩
            exact (congrArg Machine.version hstored).trans
              (Machine.Lawful.version_withVersion _ _)

theorem runOn_run_eq_ok {target : UInt32} {report : Report}
    (h : Work.runOn (runner.run target) host = (.ok report, after))
    (hchanged : report.changed = true) :
    report.finish = target ∧ exists start stored,
      Work.runOn (runner.setVersion target) start = (.ok (), stored) ∧
      after = stored.noted (migrated report.start target) := by
  rcases hread : Work.runOn runner.currentVersion host with
    ⟨failure | current, read⟩
  · rw [Runner.run, Work.runOn_bind, hread] at h
    cases h
  · by_cases hle : target <= current
    · rw [runOn_run_idle hread hle] at h
      cases h
      rw [Report.changed, bne_self_eq_false] at hchanged
      cases hchanged
    · rw [runOn_run_forward hread (UInt32.not_le.mp hle), Work.runOn_bind] at h
      rcases hbatches : Work.runOn
          ((runner.migrations.pending current target).forM runner.applyBatch)
          read with ⟨failure | _, start⟩
      · rw [hbatches] at h
        cases h
      · rw [hbatches] at h
        dsimp only at h
        rw [Work.runOn_bind] at h
        rcases hset : Work.runOn (runner.setVersion target) start with
          ⟨failure | _, stored⟩
        · rw [hset] at h
          cases h
        · rw [hset] at h
          cases h
          exact ⟨rfl, start, stored, hset, rfl⟩

end Runner

/-!
# Versions that are read back
-/

/--
Behind work that stores a version, on whatever host, that version is read back if it is
below the bound of the field, and zero otherwise.  A run that changes the version reports
its target, stores it in this way, and has nothing to do when it is repeated, if the
target is below the bound.
-/
theorem stored_version_read_back [Machine.Lawful] [Machine.Versioned]
    (runner : Runner) (host : Host) :
    (forall (version : UInt32) (after : Host),
      Work.runOn (runner.setVersion version) host = (.ok (), after) ->
        exists read, Work.runOn runner.currentVersion after =
          (.ok (if version.toNat < 2147483648 then version else 0), read)) ∧
    (forall (target : UInt32) (report : Report) (after : Host),
      Work.runOn (runner.run target) host = (.ok report, after) ->
      report.changed = true ->
        report.finish = target ∧
        exists read, Work.runOn runner.currentVersion after =
            (.ok (if target.toNat < 2147483648 then target else 0), read) ∧
          (target.toNat < 2147483648 ->
            Work.runOn (runner.run target) after =
              (.ok ⟨target, target, []⟩,
                read.noted (upToDate target target)))) := by
  constructor
  · intro version after h
    rcases holds_of_setVersion h with ⟨store, hversion, hholds⟩
    rcases Runner.runOn_currentVersion hholds hversion with ⟨read, hread, _⟩
    exact ⟨read, hread⟩
  · intro target report after h hchanged
    rcases runOn_run_eq_ok h hchanged with
      ⟨hfinish, start, stored, hset, rfl⟩
    rcases holds_of_setVersion hset with ⟨store, hversion, hholds⟩
    rcases Runner.runOn_currentVersion (hholds.notices _) hversion with
      ⟨read, hread, _⟩
    refine ⟨hfinish, read, hread, fun hlt => ?_⟩
    rw [(Machine.storedVersion_eq_self_iff target).mpr hlt] at hread
    exact runOn_run_idle hread (UInt32.le_refl target)

end Machines

def repeatableRunner : Runner :=
  ⟨⟨0⟩, ⟨[⟨0, ["CREATE TABLE IF NOT EXISTS a (x INTEGER);"]⟩],
    by unfold Ascending; decide⟩⟩

section Witness

open Engine.Sqlite

theorem stored_version_read_back_of_repeatableRunner :
    (exists after read,
      Work.runOn (repeatableRunner.setVersion 2147483647) newHost =
        (.ok (), after) ∧
      Work.runOn repeatableRunner.currentVersion after =
        (.ok 2147483647, read)) ∧
    exists report after read,
      Work.runOn (repeatableRunner.run 3) newHost = (.ok report, after) ∧
      report = ⟨0, 3, [0]⟩ ∧ report.finish = 3 ∧
      Work.runOn repeatableRunner.currentVersion after = (.ok 3, read) ∧
      Work.runOn (repeatableRunner.run 3) after =
        (.ok ⟨3, 3, []⟩, read.noted (upToDate 3 3)) := by
  rcases stored_version_read_back repeatableRunner newHost with ⟨hset, hrun⟩
  constructor
  · rcases hstored : Work.runOn (repeatableRunner.setVersion 2147483647) newHost
      with ⟨result, after⟩
    have hresult : (Work.runOn (repeatableRunner.setVersion 2147483647)
        newHost).1.toOption = some () := by
      decide +kernel
    rw [hstored] at hresult
    cases result with
    | error failure => cases hresult
    | ok _ =>
        rcases hset 2147483647 after hstored with ⟨read, hread⟩
        exact ⟨after, read, rfl, hread⟩
  · rcases hdone : Work.runOn (repeatableRunner.run 3) newHost with
      ⟨result, after⟩
    have hresult : (Work.runOn (repeatableRunner.run 3) newHost).1.toOption =
        some ⟨0, 3, [0]⟩ := by
      decide +kernel
    rw [hdone] at hresult
    cases result with
    | error failure => cases hresult
    | ok report =>
        cases hresult
        rcases hrun 3 ⟨0, 3, [0]⟩ after hdone (by decide) with
          ⟨hfinish, read, hread, hagain⟩
        exact ⟨_, after, read, rfl, rfl, hfinish, hread, hagain (by decide)⟩

/--
The first version above the bound is reported as stored and then read back as zero; the
run that leads to it applies its batch a second time when it is repeated.
-/
theorem version_lost_above_bound :
    (Work.runOn
        (do repeatableRunner.setVersion 2147483648
            repeatableRunner.currentVersion) newHost).1.toOption = some 0 ∧
    (Work.runOn
        (do let first <- repeatableRunner.run 2147483648
            let second <- repeatableRunner.run 2147483648
            return (first, second)) newHost).1.toOption =
      some (⟨0, 2147483648, [0]⟩, ⟨0, 2147483648, [0]⟩) := by
  constructor <;> decide +kernel

end Witness

end Migration
end TableStore
