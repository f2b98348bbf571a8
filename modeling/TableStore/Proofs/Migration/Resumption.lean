import TableStore.Proofs.Migration.Runs

/-!
# Runs in steps

A run to a version in between and another one from there come as far as a single run:
no batch is left out or applied twice where they meet.
-/

namespace TableStore
namespace Migration

open Database (Host)
open Engine (Machine)
open Engine.Machine (Store)

section Machines

variable [Machine]

def Report.followedBy (first second : Report) : Report :=
  ⟨first.start, second.finish, first.applied ++ second.applied⟩

inductive RunsTwice (runner : Runner) (current middle target : UInt32)
    (host : Host) : List Step -> Except Failure Report -> Host -> Prop where
  | stopped {executed : List Step} {failure : Failure} {after : Host} :
      Runs runner current middle host executed (.error failure) after ->
      RunsTwice runner current middle target host executed (.error failure)
        after
  | continued {executed others : List Step} {report : Report}
      {result : Except Failure Report} {between after : Host} :
      Runs runner current middle host executed (.ok report) between ->
      Runs runner middle target between others result after ->
      RunsTwice runner current middle target host (executed ++ others)
        (result.map report.followedBy) after

section Twice

variable {runner : Runner} {store : Store} {current middle target : UInt32}

theorem reach_of_failed (hmiddle : current <= middle)
    (htarget : middle <= target) {found : Step × Engine.Error}
    (hfailed : (runner.reach store current middle).failed? = some found) :
    runner.reach store current target = runner.reach store current middle := by
  rw [Runner.reach,
    <- stepsBetween_append runner.migrations hmiddle htarget]
  exact progress_append_of_failed hfailed

theorem reach_of_completed (hmiddle : current <= middle)
    (htarget : middle <= target)
    (hnone : (runner.reach store current middle).failed? = none) :
    runner.reach store current target =
      (runner.reach store current middle).followedBy
        (runner.reach (runner.reach store current middle).store middle
          target) := by
  rw [Runner.reach,
    <- stepsBetween_append runner.migrations hmiddle htarget]
  exact progress_append hnone

theorem reach_withVersion (version : Int)
    (hignored : runner.migrations.IgnoreVersion) :
    runner.reach (Machine.withVersion version store) current target =
      (runner.reach store current target).withVersion version :=
  progress_withVersion version (forall_stepsBetween hignored current target)

omit [Machine] in
theorem reported_append (runner : Runner) (hmiddle : current <= middle)
    (htarget : middle <= target) :
    (runner.reported current middle).followedBy
        (runner.reported middle target) =
      runner.reported current target := by
  rw [Runner.reported, Runner.reported, Runner.reported, Report.followedBy,
    plannedVersions, plannedVersions, plannedVersions, <- List.map_append,
    runner.migrations.pending_append hmiddle htarget]

/-- The second run starts from the version that the first one has stored. -/
theorem Arrives.twice [Machine.Lawful] [Machine.Versioned] {host between : Host}
    (hfirst : Arrives runner store current middle host between)
    (hmiddle : current <= middle) (hmiddleTarget : middle <= target)
    (htarget : target.toNat < 2147483648)
    (hignored : runner.migrations.IgnoreVersion) :
    exists after left,
      RunsTwice runner current middle target host
        (runner.reach store current target).executed
        ((runner.reach store current target).result
          (runner.reported current target)) after ∧
      runner.database.Holds after left ∧
      Machine.SameContents ((runner.reach store current target).left target) left ∧
      ((runner.reach store current target).failed? = none ->
        left = (runner.reach store current target).left target) := by
  rcases hfirst with ⟨hruns, hholds⟩
  cases hfailed : (runner.reach store current middle).failed? with
  | some found =>
      rw [Progress.result_of_failed hfailed] at hruns
      rw [Progress.left_of_failed hfailed] at hholds
      rw [reach_of_failed hmiddle hmiddleTarget hfailed,
        Progress.result_of_failed hfailed, Progress.left_of_failed hfailed]
      exact ⟨between, _, .stopped hruns, hholds, fun _ => rfl, fun _ => rfl⟩
  | none =>
      rw [Progress.result_of_completed hfailed] at hruns
      rw [Progress.left_of_completed hfailed] at hholds
      rcases arrives_of_le hholds (Machine.Lawful.version_withVersion _ _)
        hmiddleTarget htarget hignored.keepVersion with
        ⟨after, hsecond, hafter⟩
      -- The steps of the second run do not see the version in between.
      rw [reach_withVersion _ hignored] at hsecond hafter
      have htwice := RunsTwice.continued hruns hsecond
      rw [Progress.map_result _ _ _ _
        (reported_append runner hmiddle hmiddleTarget)] at htwice
      rw [reach_of_completed hmiddle hmiddleTarget hfailed]
      refine ⟨after, _, htwice, hafter, ?_, ?_⟩
      · have hleft := (Progress.sameContents_left (Progress.followedBy
          (runner.reach store current middle)
          (runner.reach (runner.reach store current middle).store middle target))
          target).symm
        exact hleft.trans ((Machine.sameContents_withVersion _ _).trans
          (Progress.sameContents_left _ target))
      · intro hnone
        exact Progress.left_withVersion hnone middle.toNat target

end Twice

/--
A run to a version and another one from there to a target do what one run to the
target does: they execute the same steps, with the same result, and leave the same
contents but for the version.
-/
theorem runs_twice_as_once [Machine.Lawful] [Machine.Versioned]
    (runner : Runner) (host : Host) (store : Store)
    (current middle target : UInt32) (h : runner.database.Holds host store)
    (hversion : Machine.version store = current.toNat) (hmiddle : current <= middle)
    (hmiddleTarget : middle <= target) (htarget : target.toNat < 2147483648)
    (hignored : runner.migrations.IgnoreVersion) :
    runner.migrations.pending current middle ++
        runner.migrations.pending middle target =
      runner.migrations.pending current target ∧
    exists executed result after afterBoth left leftBoth,
      Runs runner current target host executed result after ∧
      RunsTwice runner current middle target host executed result afterBoth ∧
      runner.database.Holds after left ∧
      runner.database.Holds afterBoth leftBoth ∧
      Machine.SameContents left leftBoth ∧
      forall report, result = .ok report ->
        left = leftBoth ∧ Machine.version left = target.toNat ∧
        exists again,
          Work.runOn (runner.run target) after =
            (.ok ⟨target, target, []⟩,
              again.noted (upToDate target target)) ∧
          runner.database.Holds again left ∧ after.SameStores again := by
  have hkept := hignored.keepVersion
  have hmiddleFits : middle.toNat < 2147483648 := by
    rw [UInt32.le_iff_toNat_le] at hmiddleTarget
    omega
  rcases arrives_of_le h hversion (UInt32.le_trans hmiddle hmiddleTarget)
    htarget hkept with ⟨after, hruns, hafter⟩
  rcases arrives_of_le h hversion hmiddle hmiddleFits hkept with
    ⟨between, hfirst⟩
  rcases hfirst.twice hmiddle hmiddleTarget htarget hignored with
    ⟨afterBoth, leftBoth, htwice, hafterBoth, htables, hsame⟩
  refine ⟨runner.migrations.pending_append hmiddle hmiddleTarget, _, _, after,
    afterBoth, _, leftBoth, hruns, htwice, hafter, hafterBoth, htables, ?_⟩
  intro report hreport
  have hnone := Progress.completed_of_result hreport
  have hstored : Machine.version ((runner.reach store current target).left target) =
      target.toNat := by
    rw [Progress.left_of_completed hnone, Machine.Lawful.version_withVersion]
  rcases Runner.runOn_currentVersion hafter hstored with
    ⟨again, hread, hholds, hstores⟩
  exact ⟨(hsame hnone).symm, hstored, again,
    runOn_run_idle hread (UInt32.le_refl target), hholds, hstores⟩

end Machines

section Witness

open Engine.Sqlite

theorem runs_twice_as_once_of_stoppingRunner :
    stoppingRunner.database.Holds newHost Machine.empty ∧
    Machine.version Machine.empty = (0 : UInt32).toNat ∧
    (0 : UInt32) <= 1 ∧ (1 : UInt32) <= 2 ∧
    (2 : UInt32).toNat < 2147483648 ∧
    stoppingRunner.migrations.IgnoreVersion ∧
    exists executed result after afterBoth, exists left leftBoth : Engine.Store,
      Runs stoppingRunner 0 2 newHost executed result after ∧
      RunsTwice stoppingRunner 0 1 2 newHost executed result afterBoth ∧
      stoppingRunner.database.Holds after left ∧
      stoppingRunner.database.Holds afterBoth leftBoth ∧
      leftBoth.tables = left.tables := by
  have htarget : (2 : UInt32).toNat < 2147483648 := by decide
  refine ⟨holds_newHost, rfl, by decide, by decide, htarget,
    ignoreVersion_stoppingRunner, ?_⟩
  rcases runs_twice_as_once stoppingRunner newHost Machine.empty 0 1 2 holds_newHost
    rfl (by decide) (by decide) htarget ignoreVersion_stoppingRunner with
    ⟨_, executed, result, after, afterBoth, left, leftBoth, honce, htwice,
      hleft, hleftBoth, hsame, _⟩
  exact ⟨executed, result, after, afterBoth, left, leftBoth, honce, htwice, hleft,
    hleftBoth, Engine.sameContents_iff.mp hsame⟩

end Witness

end Migration
end TableStore
