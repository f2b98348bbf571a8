import Mathlib.Logic.Function.Iterate
import TableStore.Proofs.Database.Settled
import TableStore.Proofs.Migration.Boundary

/-!
# The transactions of a run

A run is a sequence of transactions: one that reads the version, one for each statement,
and one that stores the target.  A run can be resumed behind any of them, and each of
them either leaves the version of the database as it is or stores one.
-/

namespace TableStore

namespace Database
namespace Handle

open Database.Action (runOn)
open Engine (Machine Session)
open Engine.Machine (Store)
open Statement (runOf)

variable [Machine]

/-!
# The version of a database
-/

def version? (handle : Handle) (host : Host) : Option Int64 :=
  (handle.store? host).map fun store =>
    Int64.ofInt (Machine.version store)

section Version

variable {handle : Handle} {host after : Host}

theorem store?_of_current {connection : Connection} {store : Store}
    (hconnection : host.connections[handle.index]? = some connection)
    (hcurrent : current host.disk connection = (store, true)) :
    handle.store? host = some store := by
  rw [store?, hconnection, Option.map_some, hcurrent]

theorem Serves.version?_eq {session : Session Store} (h : handle.Serves host session) :
    handle.version? host =
      some (Int64.ofInt (Machine.version session.store)) := by
  rw [version?, h.store?_eq]
  rfl

theorem Holds.version?_eq {store : Store} (h : handle.Holds host store) :
    handle.version? host = some (Int64.ofInt (Machine.version store)) := by
  rcases h with ⟨connection, hconnection, _, _, hcurrent⟩
  rw [version?, store?_of_current hconnection hcurrent]
  rfl

variable [Machine.Lawful] {α : Type} {task : Action α} {statement : Fragment}
  {look : Session.Result -> α}

theorem Sends.version?_of_error (h : Sends handle task statement look)
    {failure : Failure}
    (hfailed : (runOn (handle.atomically task) host).1 = .error failure) :
    handle.version? (runOn (handle.atomically task) host).2 =
      handle.version? host := by
  have hsettled := h.settled_of_error (Prod.ext hfailed rfl)
  rw [version?, version?, Host.sameStores_of_settled_eq hsettled handle]

theorem Sends.version?_of_keeps (h : Sends handle task statement look)
    (hkept : statement.KeepsVersion) (host : Host) :
    handle.version? (runOn (handle.atomically task) host).2 =
      handle.version? host := by
  rcases hrun : runOn (handle.atomically task) host with
    ⟨failure | result, after⟩
  · have hsame := h.version?_of_error (congrArg Prod.fst hrun)
    rw [hrun] at hsame
    exact hsame
  · rcases h.exists_of_runOn hrun with
      ⟨session, next, found, hserves, hdone, _, hnext⟩
    have hversion := hkept session found (congrArg Prod.snd hdone)
    rw [hdone] at hversion
    rw [hserves.version?_eq, hnext.version?_eq, hversion]

end Version

end Handle
end Database

namespace Migration

open Database (Handle Host)
open Engine (Machine)

/-!
# The stages of a run
-/

/-- What a run does between reading the version and storing the target. -/
inductive Move
  | announce (batch : Batch)
  | apply (version : UInt32) (statement : String)

variable [Machine]

def Move.perform (runner : Runner) : Move -> Work Unit
  | .announce batch =>
      Database.report .info "Applying migration"
        [("version", versionText batch.version),
          ("statements", Decimal.natText batch.statements.length)]
  | .apply version statement => runner.applyStatement version statement

/-- The statement of a move stores a version of its own. -/
def Move.Stores : Move -> Prop
  | .announce _ => False
  | .apply _ statement => ¬ (Fragment.ofText statement).KeepsVersion

def Batch.moves (batch : Batch) : List Move :=
  .announce batch :: batch.statements.map (.apply batch.version)

inductive Stage
  | ready
  | underway (start : UInt32) (rest : List Move)
  | ended (result : Except Failure Report)

namespace Runner

def moves (runner : Runner) (current target : UInt32) : List Move :=
  (runner.migrations.pending current target).flatMap Batch.moves

/-- The next transaction of a run: how far the run has come then, and the host. -/
def advance (runner : Runner) (target : UInt32) :
    Stage -> Host -> Stage × Host
  | .ready, host =>
      match Work.runOn runner.currentVersion host with
      | (.error failure, after) => (.ended (.error failure), after)
      | (.ok current, after) =>
          if target <= current then
            (.ended (.ok ⟨current, current, []⟩),
              after.noted (upToDate current target))
          else (.underway current (runner.moves current target), after)
  | .underway start (move :: rest), host =>
      match Work.runOn (move.perform runner) host with
      | (.error failure, after) => (.ended (.error failure), after)
      | (.ok _, after) => (.underway start rest, after)
  | .underway start [], host =>
      match Work.runOn (runner.setVersion target) host with
      | (.error failure, after) => (.ended (.error failure), after)
      | (.ok _, after) =>
          (.ended (.ok (runner.reported start target)),
            after.noted (migrated start target))
  | .ended result, host => (.ended result, host)

def remaining (runner : Runner) (target : UInt32) : Stage -> Work Report
  | .ready => runner.run target
  | .underway start rest => do
      forM rest (Move.perform runner)
      runner.setVersion target
      Database.report .info "Migrated user_version"
        [("from", versionText start), ("to", versionText target)]
      return runner.reported start target
  | .ended (.ok report) => pure report
  | .ended (.error failure) => throw failure

variable {runner : Runner} {target : UInt32}

theorem applyBatch_eq (runner : Runner) (batch : Batch) :
    runner.applyBatch batch = forM batch.moves (Move.perform runner) := by
  rw [applyBatch, Batch.moves, List.forM_cons, List.forM_map]
  rfl

theorem forM_applyBatch (runner : Runner) (batches : List Batch) :
    forM batches runner.applyBatch =
      forM (batches.flatMap Batch.moves) (Move.perform runner) := by
  induction batches with
  | nil => rfl
  | cons batch batches ih =>
      rw [List.forM_cons, List.flatMap_cons, List.forM_append, ih,
        applyBatch_eq]

theorem not_stores_of_mem_moves (hkept : runner.migrations.KeepVersion)
    {current : UInt32} {move : Move} (h : move ∈ runner.moves current target) :
    ¬ move.Stores := by
  rcases List.mem_flatMap.mp h with ⟨batch, hbatch, hmove⟩
  rcases List.mem_cons.mp hmove with rfl | hstatement
  · exact id
  · rcases List.mem_map.mp hstatement with ⟨statement, hmem, rfl⟩
    exact not_not_intro
      (hkept batch (Migrations.mem_pending_iff.mp hbatch).left statement hmem)

/-- A transaction does the first part of what is left of a run. -/
theorem runOn_remaining (runner : Runner) (target : UInt32) (stage : Stage)
    (host : Host) :
    Work.runOn (runner.remaining target stage) host =
      Work.runOn
        (runner.remaining target (runner.advance target stage host).1)
        (runner.advance target stage host).2 := by
  cases stage with
  | ended result => rfl
  | ready =>
      rw [advance, remaining]
      rcases hread : Work.runOn runner.currentVersion host with
        ⟨failure | current, read⟩
      · rw [run, Work.runOn_bind, hread]
        rfl
      · dsimp only
        by_cases hle : target <= current
        · rw [if_pos hle, runOn_run_idle hread hle]
          rfl
        · rw [if_neg hle, runOn_run_forward hread (UInt32.not_le.mp hle),
            List.forM_eq_forM, forM_applyBatch]
          rfl
  | underway start rest =>
      cases rest with
      | nil =>
          rw [advance, remaining, List.forM_nil, pure_bind, Work.runOn_bind]
          rcases Work.runOn (runner.setVersion target) host with
            ⟨failure | _, stored⟩ <;> rfl
      | cons move rest =>
          rw [advance, remaining, List.forM_cons, bind_assoc, Work.runOn_bind]
          rcases Work.runOn (move.perform runner) host with
            ⟨failure | _, after⟩ <;> rfl

def alone (runner : Runner) (target : UInt32) (reached : Stage × Host) :
    Stage × Host :=
  runner.advance target reached.1 reached.2

theorem iterate_alone_succ (count : Nat) (stage : Stage) (host : Host) :
    (runner.alone target)^[count + 1] (stage, host) =
      (runner.alone target)^[count] (runner.advance target stage host) :=
  rfl

theorem iterate_alone_underway (start : UInt32) (rest : List Move)
    (host : Host) :
    exists count,
      (runner.alone target)^[count] (.underway start rest, host) =
        (.ended (Work.runOn (runner.remaining target
            (.underway start rest)) host).1,
          (Work.runOn (runner.remaining target
            (.underway start rest)) host).2) := by
  induction rest generalizing host with
  | nil =>
      exists 1
      rw [iterate_alone_succ, runOn_remaining, advance]
      rcases Work.runOn (runner.setVersion target) host with
        ⟨failure | _, stored⟩ <;> rfl
  | cons move rest ih =>
      rw [runOn_remaining]
      rcases hmove : Work.runOn (move.perform runner) host with
        ⟨failure | _, after⟩
      · -- A move that fails ends the run, whatever moves are left.
        exists 1
        rw [iterate_alone_succ, advance, hmove]
        rfl
      · rcases ih after with ⟨count, hcount⟩
        exists count + 1
        rw [iterate_alone_succ, advance, hmove]
        exact hcount

/-- The transactions of a run that is alone amount to the run. -/
theorem run_by_transactions (runner : Runner) (target : UInt32)
    (host : Host) :
    exists count, (runner.alone target)^[count] (.ready, host) =
      (.ended (Work.runOn (runner.run target) host).1,
        (Work.runOn (runner.run target) host).2) := by
  have hfirst := runner.runOn_remaining target .ready host
  rw [remaining] at hfirst
  rw [hfirst]
  rcases hnext : runner.advance target .ready host with ⟨stage, after⟩
  cases stage with
  | underway start rest =>
      rcases iterate_alone_underway start rest after with ⟨count, hcount⟩
      exists count + 1
      rw [iterate_alone_succ, hnext]
      exact hcount
  | ended result =>
      exists 1
      rw [iterate_alone_succ, hnext]
      cases result <;> rfl
  | ready =>
      rw [advance] at hnext
      split at hnext
      · cases hnext
      · split at hnext <;> cases hnext

/-!
# What a transaction does to the version
-/

section Transactions

variable {host after : Host}

theorem sends_applyStatement (database : Handle) (version : UInt32)
    (statement : String) :
    database.Sends
      (do
        try
          let _ <- database.execute [] statement
        catch failure =>
          Database.report .warn "Migration statement failed"
            [("version", versionText version), ("statement", statement)]
          throw failure)
      (.ofText statement) fun _ => () :=
  ((database.sends_execute (.ofText statement)).bind_pure
    fun _ => ()).reporting "Migration statement failed" fun _ =>
      [("version", versionText version), ("statement", statement)]

theorem runOn_of_adapt_ok {α : Type} {task : Database.Action α}
    {rename : Database.Failure -> Failure} {result : α}
    (h : Work.runOn (task.adapt rename : Work α) host = (.ok result, after)) :
    Database.Action.runOn task host = (.ok result, after) := by
  rw [Work.runOn_adapt] at h
  rcases hrun : Database.Action.runOn task host with ⟨failure | found, last⟩
  · rw [hrun] at h
    cases h
  · rw [hrun] at h
    cases h
    rfl

section Adapted

variable {α : Type} {database : Handle} {task : Database.Action α}
  {statement : Fragment} {look : Engine.Session.Result -> α}
  {rename : Database.Failure -> Failure}

theorem exists_version?_of_ok (h : database.Sends task statement look)
    {result : α}
    (hrun : Work.runOn ((database.atomically task).adapt rename : Work α) host =
      (.ok result, after)) :
    exists version, database.version? after = some version := by
  have hdone := runOn_of_adapt_ok hrun
  rcases h.exists_of_runOn hdone with ⟨_, next, _, _, _, _, hnext⟩
  exact ⟨_, hnext.version?_eq⟩

variable [Machine.Lawful]

theorem version?_adapt_of_error (h : database.Sends task statement look)
    {failure : Failure}
    (hrun : Work.runOn ((database.atomically task).adapt rename : Work α) host =
      (.error failure, after)) :
    database.version? after = database.version? host := by
  rw [Work.runOn_adapt] at hrun
  rcases Prod.mk.inj hrun with ⟨hfailed, rfl⟩
  cases hresult :
      (Database.Action.runOn (database.atomically task) host).1 with
  | error found => exact h.version?_of_error hresult
  | ok _ =>
      rw [hresult] at hfailed
      cases hfailed

theorem version?_adapt_of_keeps (h : database.Sends task statement look)
    (hkept : statement.KeepsVersion) {result : Except Failure α}
    (hrun : Work.runOn ((database.atomically task).adapt rename : Work α) host =
      (result, after)) :
    database.version? after = database.version? host := by
  rw [Work.runOn_adapt] at hrun
  rcases Prod.mk.inj hrun with ⟨_, rfl⟩
  exact h.version?_of_keeps hkept host

end Adapted

omit [Machine] in
theorem versionOfValue_eq_ok {value? : Option Value} {version : UInt32}
    (h : versionOfValue value? = .ok version) :
    exists n : Int64, value? = some (.int n) ∧ n.toInt = version.toNat := by
  rcases value? with _ | value
  · cases h
  · cases value with
    | int n =>
        refine ⟨n, rfl, ?_⟩
        rw [versionOfValue, Decimal.uint32?] at h
        split at h
        · rename_i hfits
          split at hfits
          · rename_i hrange
            cases hfits
            cases h
            rw [Bool.and_eq_true, decide_eq_true_iff, decide_eq_true_iff] at hrange
            unfold Decimal.uint32Bound at hrange
            rw [UInt32.toNat_ofNat']
            omega
          · cases hfits
        · cases h
    | _ => cases h

theorem sends_readVersion (database : Handle) :
    database.Sends (database.fetchValue? [] "PRAGMA user_version")
      (.ofText "PRAGMA user_version") fun result =>
        Handle.firstValue? (result.rows.map Handle.decodeRow) :=
  database.sends_fetchValue? (.ofText "PRAGMA user_version")

theorem version?_currentVersion [Machine.Lawful] [Machine.Versioned]
    (runner : Runner) (host : Host) :
    runner.database.version? (Work.runOn runner.currentVersion host).2 =
      runner.database.version? host := by
  rw [runOn_currentVersion_eq]
  exact (sends_readVersion runner.database).version?_of_keeps
    Machine.keepsVersion_version host

theorem exists_session_of_currentVersion [Machine.Lawful] [Machine.Versioned]
    {current : UInt32}
    (h : Work.runOn runner.currentVersion host = (.ok current, after)) :
    exists session, runner.database.Serves host session ∧
      (Int64.ofInt (Machine.version session.store)).toInt = current.toNat := by
  rw [runOn_currentVersion_eq] at h
  rcases hread : Database.Action.runOn runner.readVersion host with
    ⟨failure | value?, read⟩
  · rw [hread] at h
    cases h
  · rw [hread] at h
    rcases versionOfValue_eq_ok (congrArg Prod.fst h) with ⟨n, rfl, hn⟩
    rcases (sends_readVersion runner.database).exists_of_runOn hread with
      ⟨session, _, _, hserves, hdone, hlook, _⟩
    rw [Machine.rows_of_version (congrArg Prod.snd hdone)] at hlook
    cases hlook
    exact ⟨session, hserves, hn⟩

theorem version?_setVersion [Machine.Lawful] [Machine.Versioned] {version : UInt32}
    (hbelow : version.toNat < 2147483648)
    (h : Work.runOn (runner.setVersion version) host = (.ok (), after)) :
    runner.database.version? after = some (Int64.ofInt version.toNat) := by
  rcases holds_of_setVersion h with ⟨store, hversion, hholds⟩
  rw [(Machine.storedVersion_eq_self_iff version).mpr hbelow] at hversion
  rw [hholds.version?_eq, hversion]

/--
What the next transaction of a run does to the version, by the stage before it and the
stage behind it.
-/
inductive Advances (runner : Runner) (target : UInt32) (stage : Stage)
    (before? : Option Int64) : Stage -> Option Int64 -> Prop where
  | reads {version : Int64} {current : UInt32} :
      stage = .ready -> before? = some version ->
      version.toInt = current.toNat -> current < target ->
      Advances runner target stage before?
        (.underway current (runner.moves current target)) before?
  | ends {result : Except Failure Report} :
      Advances runner target stage before? (.ended result) before?
  | keeps {start : UInt32} {move : Move} {rest : List Move} :
      stage = .underway start (move :: rest) -> ¬ move.Stores ->
      Advances runner target stage before? (.underway start rest) before?
  | stores {start : UInt32} {move : Move} {rest : List Move}
      {version : Int64} :
      stage = .underway start (move :: rest) -> move.Stores ->
      Advances runner target stage before? (.underway start rest)
        (some version)
  | arrives {start : UInt32} {report : Report} :
      stage = .underway start [] -> report.start = start ->
      report.finish = target ->
      Advances runner target stage before? (.ended (.ok report))
        (some (Int64.ofInt target.toNat))

theorem advances_perform [Machine.Lawful] (target start : UInt32) (move : Move)
    (rest : List Move) (host : Host) :
    runner.Advances target (.underway start (move :: rest))
      (runner.database.version? host)
      (runner.advance target (.underway start (move :: rest)) host).1
      (runner.database.version?
        (runner.advance target (.underway start (move :: rest)) host).2) := by
  rw [advance]
  cases move with
  | announce batch => exact .keeps rfl id
  | apply version statement =>
      have hsends := sends_applyStatement runner.database version statement
      rcases hrun : Work.runOn
          ((Move.apply version statement).perform runner) host with
        ⟨failure | _, after⟩
      · have hsame := version?_adapt_of_error hsends hrun
        rw [<- hsame]
        exact .ends
      · -- A statement that stores no version leaves the one that was found.
        by_cases hstores : (Move.apply version statement).Stores
        · rcases exists_version?_of_ok hsends hrun with ⟨version, hversion⟩
          rw [hversion]
          exact .stores rfl hstores
        · have hkept : (Fragment.ofText statement).KeepsVersion :=
            not_not.mp hstores
          rw [<- version?_adapt_of_keeps hsends hkept hrun]
          exact .keeps rfl hstores

theorem advances [Machine.Lawful] [Machine.Versioned] (runner : Runner) {target : UInt32}
    (hbelow : target.toNat < 2147483648) (stage : Stage) (host : Host) :
    runner.Advances target stage (runner.database.version? host)
      (runner.advance target stage host).1
      (runner.database.version? (runner.advance target stage host).2) := by
  cases stage with
  | ended result => exact .ends
  | ready =>
      rw [advance]
      have hsame := version?_currentVersion runner host
      rcases hread : Work.runOn runner.currentVersion host with
        ⟨failure | current, read⟩
      · rw [hread] at hsame
        rw [<- hsame]
        exact .ends
      · rw [hread] at hsame
        dsimp only
        by_cases hle : target <= current
        · rw [if_pos hle, <- hsame]
          exact .ends
        · rcases exists_session_of_currentVersion hread with
            ⟨session, hserves, hcurrent⟩
          rw [if_neg hle, hsame]
          exact .reads rfl hserves.version?_eq hcurrent (UInt32.not_le.mp hle)
  | underway start rest =>
      cases rest with
      | cons move rest => exact advances_perform target start move rest host
      | nil =>
          rw [advance]
          rcases hset : Work.runOn (runner.setVersion target) host with
            ⟨failure | _, stored⟩
          · have hsends := sends_setVersion runner.database target
            have hsame := version?_adapt_of_error hsends hset
            rw [<- hsame]
            exact .ends
          · have hstored := version?_setVersion hbelow hset
            have harrives : runner.Advances target (.underway start [])
                (runner.database.version? host)
                (.ended (.ok (runner.reported start target))) _ :=
              .arrives rfl rfl rfl
            rw [<- hstored] at harrives
            exact harrives

end Transactions

end Runner
end Migration
end TableStore
