import TableStore.Proofs.Database.Development
import TableStore.Proofs.Migration.Stages

/-!
# Work that tries texts

A run tries the statements of its plan and the one that stores the version, each of them
in a transaction of its own, and stops at the first one that fails.  This holds for every
host, also if the database may only be read.
-/

namespace TableStore

open Database (Handle Host)
open Database.Action (runOn)
open Engine (Machine Session)
open Engine.Machine (Store)
open Statement (runOf)

variable [Machine]

def Database.Alters (_ _ : Store) : Prop := True

instance : IsPreorder Store Database.Alters where
  refl _ := trivial
  trans _ _ _ _ _ := trivial

/-!
# Versions that are found
-/

namespace Database
namespace Handle

/-- The version that the next transaction of an open database finds. -/
def Finds (handle : Handle) (host : Host) (version : UInt32) : Prop :=
  exists session, handle.Serves host session ∧
    (Int64.ofInt (Machine.version session.store)).toInt = version.toNat

theorem Finds.of_rests {handle : Handle} {host after : Host} {version : UInt32}
    (h : handle.Finds host version) (hrests : handle.Rests host after) :
    handle.Finds after version := by
  rcases h with ⟨session, hserves, hversion⟩
  rcases hrests.serves session hserves with ⟨next, hsame, hnext⟩
  exact ⟨next, hnext, hsame.store_eq ▸ hversion⟩

end Handle
end Database

namespace Migration

/-!
# Trying texts
-/

def Failure.source? : Failure -> Option Database.Failure
  | .statement _ _ source => some source
  | .database failure => some failure
  | _ => none

/--
Texts are committed one after another, each of them in a transaction of its own, all of
them or those before the first one that fails.  Nothing else is changed.
-/
inductive Attempted {α : Type} (handle : Handle) (host : Host)
    (texts : List String) : Except Failure α × Host -> Prop where
  | completed {result : α} {after : Host} :
      handle.Commits host texts after ->
      Attempted handle host texts (.ok result, after)
  | stopped {done rest : List String} {text : String} {failure : Failure}
      {source : Database.Failure} {last after : Host} :
      texts = done ++ text :: rest -> handle.Commits host done last ->
      handle.Fails last text source -> failure.source? = some source ->
      last.SameStores after ->
      Attempted handle host texts (.error failure, after)

def Attempts {α : Type} (handle : Handle) (work : Work α)
    (texts : List String) : Prop :=
  forall host, Attempted handle host texts (Work.runOn work host)

section Attempts

variable {α β : Type} {handle : Handle} {host start : Host}
  {texts others : List String}

theorem Attempted.of_sameStores {done : Except Failure α × Host}
    (hsame : host.SameStores start) (h : Attempted handle start texts done) :
    Attempted handle host texts done := by
  cases h with
  | completed hcommits => exact .completed (hcommits.of_sameStores hsame)
  | stopped htexts hcommits hfails hsource hstays =>
      exact .stopped htexts (hcommits.of_sameStores hsame) hfails hsource hstays

theorem Attempted.bind {work : Work α} {next : α -> Work β}
    (h : Attempted handle host texts (Work.runOn work host))
    (hnext : forall result after, Work.runOn work host = (.ok result, after) ->
      Attempted handle after others (Work.runOn (next result) after)) :
    Attempted handle host (texts ++ others)
      (Work.runOn (work >>= next) host) := by
  rw [Work.runOn_bind]
  generalize Work.runOn work host = done at h hnext
  cases h with
  | @completed result after hcommits =>
      have hsecond := hnext result after rfl
      dsimp only
      generalize Work.runOn (next result) after = last at hsecond ⊢
      cases hsecond with
      | completed hrest => exact .completed (hcommits.append hrest)
      | stopped htexts hrest hfails hsource hstays =>
          have hsplit := (congrArg (texts ++ ·) htexts).trans
            (List.append_assoc ..).symm
          exact .stopped hsplit (hcommits.append hrest) hfails hsource hstays
  | stopped htexts hcommits hfails hsource hstays =>
      have hsplit := (congrArg (· ++ others) htexts).trans
        (List.append_assoc ..)
      exact .stopped hsplit hcommits hfails hsource hstays

theorem Attempts.bind {work : Work α} (h : Attempts handle work texts)
    {next : α -> Work β} (hnext : forall result, Attempts handle (next result) others) :
    Attempts handle (work >>= next) (texts ++ others) :=
  fun host => (h host).bind fun result after _ => hnext result after

theorem attempts_pure (result : α) : Attempts handle (pure result) [] :=
  fun _ => .completed (.done fun _ => rfl)

theorem attempts_report (handle : Handle) (level : LogLevel) (message : String)
    (fields : List (String × String)) :
    Attempts handle (Database.report level message fields : Work Unit) [] :=
  fun host => .completed (.done (host.sameStores_notices _))

theorem attempts_forM (items : List α) {work : α -> Work Unit}
    {texts : α -> List String}
    (h : forall item, item ∈ items ->
      Attempts handle (work item) (texts item)) :
    Attempts handle (items.forM work) (items.flatMap texts) := by
  induction items with
  | nil => exact attempts_pure ()
  | cons item items ih =>
      rw [List.forall_mem_cons] at h
      exact h.left.bind fun _ => ih h.right

theorem Attempts.concludes {action : Database.Action α}
    {rename : Database.Failure -> Failure}
    (h : Attempts handle (action.adapt rename : Work α) texts)
    {next : α -> Database.Action β}
    (hnext : forall result, Database.Action.Concludes (next result)) :
    Attempts handle ((action >>= next).adapt rename : Work β) texts := by
  intro host
  have hfirst := h host
  rw [Work.runOn_adapt] at hfirst ⊢
  rw [Database.Action.runOn_bind]
  rcases hrun : runOn action host with ⟨failure | result, after⟩
  · rw [hrun] at hfirst
    dsimp only [Except.mapError] at hfirst ⊢
    cases hfirst with
    | stopped htexts hcommits hfails hsource hstays =>
        exact .stopped htexts hcommits hfails hsource hstays
  · rw [hrun] at hfirst
    dsimp only [Except.mapError] at hfirst
    rcases hnext result after with ⟨last, notices, hlast⟩
    cases hfirst with
    | completed hcommits =>
        have hdone := hcommits.append
          (.done (after.sameStores_notices notices))
        rw [List.append_nil] at hdone
        dsimp only
        rw [hlast]
        exact .completed hdone

variable [Machine.Lawful]

theorem attempts_adapt {task : Database.Action α} {text : String}
    {look : Session.Result -> α} (h : handle.Sends task (.ofText text) look)
    {rename : Database.Failure -> Failure}
    (hsource : forall failure, (rename failure).source? = some failure) :
    Attempts handle ((handle.atomically task).adapt rename : Work α) [text] := by
  intro host
  rw [Work.runOn_adapt]
  cases h.agree (handle.sends_execute (.ofText text)) host with
  | failed hrun hexecute =>
      have hsame := Host.sameStores_of_settled_eq (h.settled_of_error hrun)
      rw [hrun]
      exact .stopped (List.nil_append [text]).symm (.done fun _ => rfl)
        (congrArg Prod.fst hexecute) (hsource _) hsame
  | done hrun hexecute hsilent =>
      rw [hrun, Host.eq_of_silent_eq hsilent]
      exact .completed
        (.step (fun _ => rfl) hexecute (.done (Host.sameStores_notices _ _)))

theorem attempts_applyStatement (runner : Runner) (version : UInt32)
    (statement : String) :
    Attempts runner.database (runner.applyStatement version statement)
      [statement] := by
  apply attempts_adapt
    (Runner.sends_applyStatement runner.database version statement)
  intro failure
  cases failure <;> rfl

theorem attempts_applyBatch (runner : Runner) (batch : Batch) :
    Attempts runner.database (runner.applyBatch batch) batch.statements := by
  have hstatements := attempts_forM batch.statements
    fun statement _ => attempts_applyStatement runner batch.version statement
  rw [List.flatMap_singleton'] at hstatements
  exact (attempts_report _ _ _ _).bind fun _ => hstatements

theorem attempts_setVersion (runner : Runner) (version : UInt32) :
    Attempts runner.database (runner.setVersion version)
      ["PRAGMA user_version = " ++ versionText version] :=
  attempts_adapt (sends_setVersion runner.database version)
    fun _ => rfl

end Attempts

end Migration

/-!
# Runs
-/

namespace Migration

omit [Machine] in
theorem map_snd_stepsBetween (migrations : Migrations)
    (current target : UInt32) :
    (stepsBetween migrations current target).map Prod.snd =
      (migrations.pending current target).flatMap Batch.statements := by
  rw [stepsBetween, List.map_flatMap]
  apply List.flatMap_congr
  intro batch _
  rw [Batch.steps, List.map_map]
  exact List.map_id batch.statements

section Reading

variable [Machine.Lawful] [Machine.Versioned]

theorem Runner.rests_currentVersion (runner : Runner) {host : Host}
    {current : UInt32} (hfinds : runner.database.Finds host current) :
    exists after, Work.runOn runner.currentVersion host = (.ok current, after) ∧
      runner.database.Rests host after := by
  rcases hfinds with ⟨session, hserves, hversion⟩
  rcases Machine.exists_result_of_version session with ⟨result, hresult⟩
  have hidle : (runOf session (.ofText "PRAGMA user_version")).1.store = session.store :=
    (Machine.Versioned.read_version session).left
  rcases (sends_readVersion runner.database).rests hserves hresult hidle
    with ⟨after, hrun, hrests⟩
  rw [Machine.rows_of_version hresult] at hrun
  have hread : runOn runner.readVersion host =
      (.ok (some (.int (Int64.ofInt (Machine.version session.store)))), after) := hrun
  have hvalue : versionOfValue
      (some (.int (Int64.ofInt (Machine.version session.store)))) = .ok current := by
    rw [versionOfValue, hversion, Decimal.uint32?_toNat]
  refine ⟨after, ?_, hrests⟩
  rw [runOn_currentVersion_eq, hread]
  exact congrArg (Prod.mk · after) hvalue

theorem Runner.sameStores_currentVersion (runner : Runner) (host : Host) :
    host.SameStores (Work.runOn runner.currentVersion host).2 := by
  rw [runOn_currentVersion_eq]
  exact (sends_readVersion runner.database).sameStores
    (fun session => (Machine.Versioned.read_version session).left) host

theorem attempted_run (runner : Runner) {host : Host} {current : UInt32}
    (hfinds : runner.database.Finds host current) {target : UInt32}
    (hlt : current < target) :
    Attempted runner.database host
      ((stepsBetween runner.migrations current target).map Prod.snd ++
        ["PRAGMA user_version = " ++ versionText target])
      (Work.runOn (runner.run target) host) := by
  rcases runner.rests_currentVersion hfinds with ⟨read, hread, hrests⟩
  have hbatches := attempts_forM (runner.migrations.pending current target)
    fun batch _ => attempts_applyBatch runner batch
  have hreport := (attempts_report runner.database .info
    "Migrated user_version"
    [("from", versionText current), ("to", versionText target)]).bind
      fun _ => attempts_pure (runner.reported current target)
  have hrest := (attempts_setVersion runner target).bind fun _ => hreport
  have hall := (hbatches.bind fun _ => hrest) read
  rw [List.append_nil, List.append_nil] at hall
  rw [map_snd_stepsBetween, runOn_run_forward hread hlt]
  exact hall.of_sameStores hrests.sameStores

end Reading

end Migration

/-!
# Hosts under a run
-/

namespace Migration

namespace Work

variable {α β : Type} {relation : Store -> Store -> Prop}

def Leads (relation : Store -> Store -> Prop) (work : Work α) : Prop :=
  forall host : Host, host.Filed ->
    host.Develops relation (runOn work host).2

theorem runOn_bind_eq_ok {work : Work α} {next : α -> Work β}
    {host after : Host} {result : β}
    (h : runOn (work >>= next) host = (.ok result, after)) :
    exists found middle, runOn work host = (.ok found, middle) ∧
      runOn (next found) middle = (.ok result, after) := by
  rw [runOn_bind] at h
  rcases hfirst : runOn work host with ⟨failure | found, middle⟩
  · rw [hfirst] at h
    cases h
  · rw [hfirst] at h
    exact ⟨found, middle, rfl, h⟩

theorem leads_adapt {task : Database.Action α}
    (h : Database.Action.Leads relation task)
    (rename : Database.Failure -> Failure) :
    Leads relation (task.adapt rename : Work α) := by
  intro host hfiled
  rw [runOn_adapt]
  exact h host hfiled

variable [IsPreorder Store relation]

theorem leads_pure (result : α) : Leads relation (pure result : Work α) :=
  fun _ hfiled => .of_settled_eq hfiled rfl

theorem leads_report (level : LogLevel) (message : String)
    (fields : List (String × String)) :
    Leads relation (Database.report level message fields : Work Unit) :=
  fun _ hfiled => .of_settled_eq hfiled rfl

theorem Leads.bind {work : Work α} (h : Leads relation work)
    {next : α -> Work β} (hnext : forall result, Leads relation (next result)) :
    Leads relation (work >>= next) := by
  intro host hfiled
  have hfirst := h host hfiled
  rw [runOn_bind]
  rcases hrun : runOn work host with ⟨failure | result, after⟩
  · rw [hrun] at hfirst
    exact hfirst
  · rw [hrun] at hfirst
    exact hfirst.trans (hnext result after hfirst.filed)

theorem leads_forM {items : List α} {work : α -> Work Unit}
    (h : forall item, item ∈ items -> Leads relation (work item)) :
    Leads relation (items.forM work) := by
  induction items with
  | nil => exact leads_pure ()
  | cons item items ih =>
      rw [List.forall_mem_cons] at h
      exact h.left.bind fun _ => ih h.right

end Work

open Work (Leads leads_adapt leads_forM leads_pure leads_report)

theorem relates_alters (statement : Fragment) :
    Database.Relates Database.Alters statement :=
  fun _ => trivial

theorem Runner.leads_currentVersion [Machine.Lawful] (runner : Runner) :
    Leads Database.Alters runner.currentVersion := by
  intro host hfiled
  rw [runOn_currentVersion_eq]
  exact (sends_readVersion runner.database).leads (relates_alters _) host hfiled

theorem Runner.leads_run [Machine.Lawful] (runner : Runner) (target : UInt32) :
    Leads Database.Alters (runner.run target) := by
  have hbatch (batch : Batch) : Leads Database.Alters (runner.applyBatch batch) :=
    (leads_report _ _ _).bind fun _ => leads_forM fun statement _ =>
      leads_adapt ((sends_applyStatement runner.database batch.version
        statement).leads (relates_alters _)) _
  refine runner.leads_currentVersion.bind fun current => ?_
  by_cases hle : target <= current
  · rw [if_pos hle]
    exact (leads_report _ _ _).bind fun _ => leads_pure _
  · rw [if_neg hle]
    refine (leads_forM fun batch _ => hbatch batch).bind fun _ => ?_
    refine (leads_adapt ((sends_setVersion runner.database target).leads
      (relates_alters _)) _).bind fun _ => ?_
    exact (leads_report _ _ _).bind fun _ => leads_pure _

/-!
# Versions that are reached
-/

section Runner

variable [Machine.Lawful] [Machine.Versioned] {runner : Runner} {host after : Host} {current target : UInt32}

theorem finds_of_currentVersion
    (h : Work.runOn runner.currentVersion host = (.ok current, after)) :
    runner.database.Finds host current :=
  Runner.exists_session_of_currentVersion h

/-- A run that succeeds has come to its target, or has found it passed. -/
theorem finds_of_run (hbelow : target.toNat < 2147483648) {report : Report}
    (h : Work.runOn (runner.run target) host = (.ok report, after)) :
    exists reached, target <= reached ∧
      runner.database.Finds after reached := by
  rcases hread : Work.runOn runner.currentVersion host with
    ⟨failure | current, read⟩
  · rw [Runner.run, Work.runOn_bind, hread] at h
    cases h
  · by_cases hle : target <= current
    · -- The run that finds its target passed has only looked at the version.
      have hfinds := finds_of_currentVersion hread
      rcases runner.rests_currentVersion hfinds with ⟨again, hagain, hrests⟩
      rw [hread] at hagain
      cases hagain
      rw [runOn_run_idle hread hle] at h
      cases h
      exact ⟨current, hle, hfinds.of_rests
        (hrests.trans (runner.database.rests_notices read _))⟩
    · have hlt := UInt32.not_le.mp hle
      have hforward := runOn_run_forward hread hlt
      rw [h] at hforward
      rcases Work.runOn_bind_eq_ok hforward.symm with ⟨_, last, _, hlast⟩
      rcases Work.runOn_bind_eq_ok hlast with ⟨_, stored, hset, hreport⟩
      cases hreport
      rcases holds_of_setVersion hset with ⟨store, hversion, hholds⟩
      rcases hholds with ⟨connection, hconnection, hopen, _, hcurrent⟩
      rw [(Machine.storedVersion_eq_self_iff target).mpr hbelow] at hversion
      refine ⟨target, UInt32.le_refl target, Handle.starting connection store,
        ⟨connection, hconnection, hopen, hcurrent, rfl⟩, ?_⟩
      have hstored : Machine.version (Handle.starting connection store).store =
          target.toNat := hversion
      rw [hstored]
      exact Int64.toInt_ofInt_of_le (by omega) (by omega)

end Runner

end Migration

end TableStore
