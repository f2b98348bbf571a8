import TableStore.Engine.Sqlite
import TableStore.Proofs.Engine.Pragma
import TableStore.Proofs.Migration.Plan
import TableStore.Proofs.Migration.Version

/-!
# Runs of migrations

A run commits the statements of its plan one after another, each of them in a
transaction of its own, and stops at the first one that fails.  The host follows the
store of its database step by step.
-/

namespace TableStore
namespace Migration

open Database (Handle Host)
open Engine (Machine)
open Engine.Machine (Store)

section Machines

variable [Machine]

/-!
# Work that tries steps
-/

/-- Work on a host comes as far as some progress on the store of a database. -/
inductive Reaches (database : Handle) (work : Work Unit) (host : Host)
    (done : Progress) : Prop where
  | completed {after : Host} :
      done.failed? = none -> Work.runOn work host = (.ok (), after) ->
      database.Commits host (done.executed.map Prod.snd) after ->
      database.Holds after done.store -> Reaches database work host done
  | stopped {step : Step} {error : Engine.Error} {last after : Host} :
      done.failed? = some (step, error) ->
      Work.runOn work host =
        (.error (.statement step.1 step.2 (.engine error)), after) ->
      database.Commits host (done.executed.map Prod.snd) last ->
      database.Holds last done.store ->
      database.Fails last step.2 (.engine error) ->
      last.SameStores after -> database.Holds after done.store ->
      Reaches database work host done

def Tries (database : Handle) (work : Work Unit) (steps : List Step) : Prop :=
  forall (host : Host) (store : Store), database.Holds host store ->
    Reaches database work host (progress store steps)

section Tries

variable {database : Handle}

theorem tries_pure : Tries database (pure ()) [] := by
  intro host store h
  exact .completed rfl rfl (.done fun _ => rfl) h

theorem Tries.bind {first second : Work Unit} {steps others : List Step}
    (hfirst : Tries database first steps)
    (hsecond : Tries database second others) :
    Tries database (do first; second) (steps ++ others) := by
  intro host store h
  cases hfirst host store h with
  | stopped hfailed hrun hcommits hlast hfails hsame hafter =>
      rw [progress_append_of_failed hfailed]
      refine .stopped hfailed ?_ hcommits hlast hfails hsame hafter
      rw [Work.runOn_bind, hrun]
  | completed hnone hrun hcommits hmiddle =>
      rw [progress_append hnone]
      have hbind := Work.runOn_bind first (fun _ => second) host
      rw [hrun] at hbind
      dsimp only at hbind
      cases hsecond _ _ hmiddle with
      | completed hdone hrunSecond hcommitsSecond hafter =>
          rw [hrunSecond] at hbind
          refine .completed hdone hbind ?_ hafter
          rw [Progress.followedBy, List.map_append]
          exact hcommits.append hcommitsSecond
      | stopped hfailed hrunSecond hcommitsSecond hlast hfails hsame hafter =>
          rw [hrunSecond] at hbind
          refine .stopped hfailed hbind ?_ hlast hfails hsame hafter
          rw [Progress.followedBy, List.map_append]
          exact hcommits.append hcommitsSecond

theorem tries_report (level : LogLevel) (message : String)
    (fields : List (String × String)) :
    Tries database (Database.report level message fields : Work Unit) [] := by
  intro host store h
  exact .completed rfl rfl (.done (host.sameStores_notices _)) (h.notices _)

theorem tries_forM {α : Type} {work : α -> Work Unit}
    {steps : α -> List Step} (items : List α)
    (h : forall item, Tries database (work item) (steps item)) :
    Tries database (items.forM work) (items.flatMap steps) := by
  induction items with
  | nil => exact tries_pure
  | cons item items ih => exact (h item).bind ih

variable [Machine.Lawful]

theorem tries_applyStatement (runner : Runner) (version : UInt32)
    (statement : String) :
    Tries runner.database (runner.applyStatement version statement)
      [(version, statement)] := by
  intro host store h
  have hexecute := Handle.performs_execute runner.database statement
  have htask := (hexecute.bind_pure fun _ => ()).reporting
    "Migration statement failed" fun _ =>
      [("version", versionText version), ("statement", statement)]
  cases hstep : Machine.execute store statement with
  | ok next =>
      rcases h.transaction_ok hstep with
        ⟨_, result, after, _, _, hrun, hafter, _⟩
      have hdone : progress store [(version, statement)] =
          ⟨[(version, statement)], next, none⟩ :=
        progress_cons_ok hstep
      rw [hdone]
      refine .completed rfl ?_ (.single (hrun hexecute)) hafter
      rw [Runner.applyStatement, Work.runOn_adapt, hrun htask]
      rfl
  | error error =>
      -- The statement fails alone as it fails with its report, on the same host.
      rcases h.transaction_error hstep htask with
        ⟨after, hrun, hafter, hsame⟩
      rcases h.transaction_error hstep hexecute with ⟨_, hfails, _⟩
      have hdone : progress store [(version, statement)] =
          ⟨[], store, some ((version, statement), error)⟩ :=
        progress_cons_error hstep
      rw [hdone]
      refine .stopped rfl ?_ (.done fun _ => rfl) h
        (congrArg Prod.fst hfails) hsame hafter
      rw [Runner.applyStatement, Work.runOn_adapt, hrun]
      rfl

theorem tries_applyBatch (runner : Runner) (batch : Batch) :
    Tries runner.database (runner.applyBatch batch) batch.steps := by
  have hstatements := tries_forM batch.statements fun statement =>
    tries_applyStatement runner batch.version statement
  have hsteps : batch.steps = batch.statements.flatMap fun statement =>
      [(batch.version, statement)] :=
    List.map_eq_flatMap
  rw [hsteps]
  exact (tries_report _ _ _).bind hstatements

theorem tries_batches (runner : Runner) (current target : UInt32) :
    Tries runner.database
      ((runner.migrations.pending current target).forM runner.applyBatch)
      (stepsBetween runner.migrations current target) :=
  tries_forM _ (tries_applyBatch runner)

end Tries

/-!
# Whole runs
-/

def plannedVersions (migrations : Migrations) (current target : UInt32) :
    List UInt32 :=
  (migrations.pending current target).map (·.version)

/--
The course of a run that has a version to start from.  Either all steps of the plan
are committed and the target is stored, or a statement fails behind the committed
ones and nothing else changes.
-/
inductive Course (runner : Runner) (current target : UInt32) (host : Host) :
    List Step -> Except Failure Report -> Host -> Prop where
  | completed {last after : Host} {left : Store} :
      runner.database.Commits host
        ((stepsBetween runner.migrations current target).map Prod.snd) last ->
      runner.database.Holds last left -> Machine.version left = current.toNat ->
      runner.database.Holds after (Machine.withVersion target.toNat left) ->
      Course runner current target host
        (stepsBetween runner.migrations current target)
        (.ok ⟨current, target,
          plannedVersions runner.migrations current target⟩)
        after
  | stopped {executed rest : List Step} {version : UInt32}
      {statement : String} {failure : Database.Failure} {last after : Host}
      {left : Store} :
      stepsBetween runner.migrations current target =
        executed ++ (version, statement) :: rest ->
      runner.database.Commits host (executed.map Prod.snd) last ->
      runner.database.Holds last left -> Machine.version left = current.toNat ->
      runner.database.Fails last statement failure ->
      last.SameStores after -> runner.database.Holds after left ->
      Course runner current target host executed
        (.error (.statement version statement failure)) after

structure Runs (runner : Runner) (current target : UInt32) (host : Host)
    (executed : List Step) (result : Except Failure Report) (after : Host) :
    Prop where
  run_eq : Work.runOn (runner.run target) host = (result, after)
  course : Course runner current target host executed result after

def Progress.result (done : Progress) (report : Report) :
    Except Failure Report :=
  match done.failed? with
  | none => .ok report
  | some (step, error) =>
      .error (.statement step.1 step.2 (.engine error))

def Progress.left (done : Progress) (target : UInt32) : Store :=
  match done.failed? with
  | none => Machine.withVersion target.toNat done.store
  | some _ => done.store

def upToDate (current target : UInt32) : Notice :=
  .log .info "Database is up to date"
    [("current", versionText current), ("target", versionText target)]

def migrated (current target : UInt32) : Notice :=
  .log .info "Migrated user_version"
    [("from", versionText current), ("to", versionText target)]

namespace Progress

variable {done : Progress} {found : Step × Engine.Error} {report : Report}

theorem result_of_completed (h : done.failed? = none) (report : Report) :
    done.result report = .ok report := by
  rw [result, h]

theorem result_of_failed (h : done.failed? = some found) (report : Report) :
    done.result report =
      .error (.statement found.1.1 found.1.2 (.engine found.2)) := by
  rw [result, h]

theorem completed_of_result {other : Report}
    (h : done.result report = .ok other) : done.failed? = none := by
  cases hfailed : done.failed? with
  | none => rfl
  | some found =>
      rw [result_of_failed hfailed] at h
      cases h

theorem left_of_completed (h : done.failed? = none) (target : UInt32) :
    done.left target = Machine.withVersion target.toNat done.store := by
  rw [left, h]

theorem left_of_failed (h : done.failed? = some found) (target : UInt32) :
    done.left target = done.store := by
  rw [left, h]

theorem sameContents_left [Machine.Lawful] (done : Progress) (target : UInt32) :
    Machine.SameContents done.store (done.left target) := by
  cases hfailed : done.failed? with
  | none =>
      rw [left_of_completed hfailed]
      exact Machine.sameContents_withVersion _ _
  | some found =>
      rw [left_of_failed hfailed]
      exact fun _ => rfl

theorem left_withVersion [Machine.Lawful] (h : done.failed? = none) (version : Int)
    (target : UInt32) :
    (done.withVersion version).left target = done.left target := by
  rw [left_of_completed h, left, withVersion, h]
  exact Machine.Lawful.withVersion_withVersion _ _ _

theorem map_result (done : Progress) (report other : Report)
    (change : Report -> Report) (h : change other = report) :
    (done.result other).map change = done.result report := by
  cases hfailed : done.failed? with
  | none =>
      rw [result_of_completed hfailed, result_of_completed hfailed, <- h]
      rfl
  | some found =>
      rw [result_of_failed hfailed, result_of_failed hfailed]
      rfl

end Progress

/-- How far the steps of a run come on a store. -/
def Runner.reach (runner : Runner) (store : Store)
    (current target : UInt32) : Progress :=
  progress store (stepsBetween runner.migrations current target)

def Runner.reported (runner : Runner) (current target : UInt32) : Report :=
  ⟨current, target, plannedVersions runner.migrations current target⟩

/-- A run takes a host as far as its steps come on the store of the database. -/
structure Arrives (runner : Runner) (store : Store)
    (current target : UInt32) (host after : Host) : Prop where
  runs : Runs runner current target host
    (runner.reach store current target).executed
    ((runner.reach store current target).result
      (runner.reported current target)) after
  holds : runner.database.Holds after
    ((runner.reach store current target).left target)

section Runs

variable {runner : Runner} {host : Host} {store : Store}
  {current target : UInt32}

theorem runOn_plan {read : Host}
    (hread : Work.runOn runner.currentVersion host = (.ok current, read)) :
    Work.runOn (runner.plan target) host =
      (.ok (runner.migrations.pending current target), read) := by
  rw [Runner.plan, Work.runOn_bind, hread]
  rfl

theorem runOn_run_idle {read : Host}
    (hread : Work.runOn runner.currentVersion host = (.ok current, read))
    (hle : target <= current) :
    Work.runOn (runner.run target) host =
      (.ok ⟨current, current, []⟩, read.noted (upToDate current target)) := by
  rw [Runner.run, Work.runOn_bind, hread]
  dsimp only
  rw [if_pos hle]
  rfl

theorem runOn_run_forward {read : Host}
    (hread : Work.runOn runner.currentVersion host = (.ok current, read))
    (hlt : current < target) :
    Work.runOn (runner.run target) host =
      Work.runOn
        (do
          (runner.migrations.pending current target).forM runner.applyBatch
          runner.setVersion target
          Database.report .info "Migrated user_version"
            [("from", versionText current), ("to", versionText target)]
          return runner.reported current target)
        read := by
  rw [Runner.run, Work.runOn_bind, hread]
  dsimp only
  rw [if_neg (UInt32.not_le.mpr hlt)]
  rfl

variable [Machine.Lawful] [Machine.Versioned]

theorem arrives_of_lt (h : runner.database.Holds host store)
    (hversion : Machine.version store = current.toNat) (hlt : current < target)
    (htarget : target.toNat < 2147483648)
    (hkept : runner.migrations.KeepVersion) :
    exists after, Arrives runner store current target host after := by
  rcases Runner.runOn_currentVersion h hversion with
    ⟨start, hread, hstart, hsame⟩
  have hkeep : Machine.version (runner.reach store current target).store =
      current.toNat :=
    (version_progress (forall_stepsBetween hkept current target)).trans
      hversion
  have hrun := runOn_run_forward hread hlt
  rw [Work.runOn_bind] at hrun
  have hreaches : Reaches runner.database _ start
      (runner.reach store current target) :=
    tries_batches runner current target start store hstart
  -- The version is stored only if no step has failed.
  cases hreaches with
  | completed hnone hsteps hcommits hlast =>
      rcases Runner.runOn_setVersion hlast htarget with
        ⟨after, hset, hafter⟩
      rw [hsteps] at hrun
      dsimp only at hrun
      rw [Work.runOn_bind, hset] at hrun
      have hall : (runner.reach store current target).executed =
          stepsBetween runner.migrations current target :=
        executed_of_none hnone
      rw [hall] at hcommits
      refine ⟨after.noted (migrated current target), ⟨?_, ?_⟩⟩
      · rw [Progress.result_of_completed hnone, hall]
        exact ⟨hrun, .completed (hcommits.of_sameStores hsame) hlast hkeep
          (hafter.notices _)⟩
      · rw [Progress.left_of_completed hnone]
        exact hafter.notices _
  | @stopped _ _ _ after hfailed hsteps hcommits hlast hfails hstays hafter =>
      rw [hsteps] at hrun
      rcases eq_append_of_failed hfailed with ⟨rest, hrest⟩
      have hcourse := Course.stopped hrest (hcommits.of_sameStores hsame)
        hlast hkeep hfails hstays hafter
      refine ⟨after, ⟨?_, ?_⟩⟩
      · rw [Progress.result_of_failed hfailed]
        exact ⟨hrun, hcourse⟩
      · rw [Progress.left_of_failed hfailed]
        exact hafter

theorem arrives_self (h : runner.database.Holds host store)
    (hversion : Machine.version store = current.toNat) :
    exists after, Arrives runner store current current host after := by
  have hle := UInt32.le_refl current
  have hnothing := runner.migrations.pending_eq_nil hle
  have hsteps : stepsBetween runner.migrations current current = [] :=
    congrArg (List.flatMap Batch.steps) hnothing
  have hreported : runner.reported current current =
      ⟨current, current, []⟩ := by
    rw [Runner.reported, plannedVersions, hnothing]
    rfl
  have hreach : runner.reach store current current = ⟨[], store, none⟩ :=
    congrArg (progress store) hsteps
  have hsame : Machine.withVersion current.toNat store = store := by
    rw [<- hversion, Machine.Lawful.withVersion_version]
  rcases Runner.runOn_currentVersion h hversion with ⟨read, hread, hholds, _⟩
  have hleft : runner.database.Holds
      (read.noted (upToDate current current))
      (Machine.withVersion current.toNat store) := hsame.symm ▸ hholds
  have hcourse : Course runner current current host
      (stepsBetween runner.migrations current current)
      (.ok (runner.reported current current))
      (read.noted (upToDate current current)) := by
    apply Course.completed _ h hversion hleft
    rw [hsteps]
    exact .done fun _ => rfl
  rw [hsteps, hreported] at hcourse
  refine ⟨read.noted (upToDate current current), ⟨?_, ?_⟩⟩
  · rw [hreach, hreported]
    exact ⟨runOn_run_idle hread hle, hcourse⟩
  · rw [hreach]
    exact hleft

theorem arrives_of_le (h : runner.database.Holds host store)
    (hversion : Machine.version store = current.toNat) (hle : current <= target)
    (htarget : target.toNat < 2147483648)
    (hkept : runner.migrations.KeepVersion) :
    exists after, Arrives runner store current target host after := by
  by_cases hlt : current < target
  · exact arrives_of_lt h hversion hlt htarget hkept
  · have heq : current = target :=
      UInt32.le_antisymm hle (UInt32.not_lt.mp hlt)
    subst heq
    exact arrives_self h hversion

end Runs

/-!
# What a run does
-/

/--
A plan reads the version and changes nothing; a run that does not lead forward does
no more than a plan.  Any other run goes through its plan: it executes all of it and
stores the target, or it stops at the first statement that fails.
-/
theorem run_executes_plan [Machine.Lawful] [Machine.Versioned] (runner : Runner) (host : Host)
    (store : Store) (current target : UInt32) (h : runner.database.Holds host store)
    (hversion : Machine.version store = current.toNat)
    (htarget : target.toNat < 2147483648)
    (hkept : runner.migrations.KeepVersion) :
    (exists read,
      Work.runOn runner.currentVersion host = (.ok current, read) ∧
      runner.database.Holds read store ∧ host.SameStores read ∧
      Work.runOn (runner.plan target) host =
        (.ok (runner.migrations.pending current target), read) ∧
      (target <= current -> Work.runOn (runner.run target) host =
        (.ok ⟨current, current, []⟩,
          read.noted (upToDate current target)))) ∧
    (current < target -> exists executed result after,
      Runs runner current target host executed result after) := by
  rcases Runner.runOn_currentVersion h hversion with
    ⟨read, hread, hholds, hsame⟩
  constructor
  · exact ⟨read, hread, hholds, hsame, runOn_plan hread,
      runOn_run_idle hread⟩
  · intro hlt
    rcases arrives_of_lt h hversion hlt htarget hkept with ⟨after, harrives⟩
    exact ⟨_, _, after, harrives.runs⟩

def stoppingRunner : Runner :=
  ⟨⟨0⟩, ⟨[⟨0, ["CREATE TABLE a (x INTEGER);"]⟩,
    ⟨1, ["INSERT INTO a VALUES (1);", "INSERT INTO b VALUES (1);"]⟩],
    by unfold Ascending; decide⟩⟩

def newHost : Host :=
  ⟨.empty, [⟨.memory, .start Machine.empty false, true, Machine.empty, false⟩], []⟩

theorem holds_newHost : stoppingRunner.database.Holds newHost Machine.empty :=
  ⟨_, rfl, rfl, rfl, rfl⟩

end Machines

theorem ignoreVersion_stoppingRunner [Engine.Dialect] :
    stoppingRunner.migrations.IgnoreVersion := by
  have hcommands : forall batch, batch ∈ stoppingRunner.migrations.batches ->
      forall statement, statement ∈ batch.statements ->
        forall command, command ∈ Sql.Command.all statement ->
          command.concernsVersion = false := by
    decide +kernel
  exact fun batch hbatch statement hstatement =>
    Engine.ignoresVersion_of_commands (hcommands batch hbatch statement hstatement)

section Witness

open Engine.Sqlite

theorem run_executes_plan_of_stoppingRunner :
    stoppingRunner.database.Holds newHost Machine.empty ∧
    Machine.version Machine.empty = (0 : UInt32).toNat ∧
    (2 : UInt32).toNat < 2147483648 ∧
    stoppingRunner.migrations.KeepVersion ∧
    exists executed result after,
      Runs stoppingRunner 0 2 newHost executed result after := by
  have hkept := ignoreVersion_stoppingRunner.keepVersion
  have htarget : (2 : UInt32).toNat < 2147483648 := by decide
  refine ⟨holds_newHost, rfl, htarget, hkept, ?_⟩
  have hruns := run_executes_plan stoppingRunner newHost Machine.empty 0 2
    holds_newHost rfl htarget hkept
  exact hruns.right (by decide)

end Witness

end Migration
end TableStore
