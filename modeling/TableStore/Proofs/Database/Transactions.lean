import TableStore.Proofs.Database.Alike
import TableStore.Proofs.Engine.Machine

/-!
# Transactions

A text that is run in a transaction of its own either leaves the store that it
makes of the store before it, or nothing at all.  Statements that are committed one
after another are a relation between hosts: each step is one transaction, and no
store changes between two of them.
-/

namespace TableStore
namespace Database

open Engine (Machine Session)
open Engine.Machine (Store)

variable [Machine]

/-!
# Hosts and the stores on them
-/

def Host.setConnection (index : Nat) (connection : Connection)
    (host : Host) : Host :=
  { host with connections := host.connections.set index connection }

/-- Every database starts its next transaction with the same store on both hosts. -/
def Host.SameStores (host other : Host) : Prop :=
  forall handle : Handle, handle.store? other = handle.store? host

theorem Host.SameStores.trans {first second third : Host}
    (h : first.SameStores second) (hnext : second.SameStores third) :
    first.SameStores third :=
  fun handle => (hnext handle).trans (h handle)

theorem Host.sameStores_notices (host : Host) (notices : List Notice) :
    host.SameStores { host with notices := notices } :=
  fun _ => rfl

def Host.noted (notice : Notice) (host : Host) : Host :=
  { host with notices := notice :: host.notices }

def Disk.saved (disk : Disk) (place : Place) (store : Store) : Disk :=
  match place with
  | .memory => disk
  | .file path => disk.put path (.store store)

theorem Disk.find?_put (disk : Disk) (path other : String) (file : File) :
    (disk.put path file).find? other =
      if normal path = normal other then some file else disk.find? other :=
  Keyed.get?_put _ _ _ _

namespace Handle

open Database.Action (runOn runOn_bind runOn_tryCatch)

/-- A database is open for writing, and its next transaction starts with a store. -/
def Holds (handle : Handle) (host : Host) (store : Store) : Prop :=
  exists connection, host.connections[handle.index]? = some connection ∧
    connection.closed = false ∧ connection.session.readOnly = false ∧
    current host.disk connection = (store, true)

theorem Holds.notices {handle : Handle} {host : Host} {store : Store}
    (h : handle.Holds host store) (notices : List Notice) :
    handle.Holds { host with notices := notices } store := h

/-!
# The steps of a transaction
-/

omit [Machine] in
theorem modify_eq_set {α : Type} {items : List α} {index : Nat} {item : α}
    (h : items[index]? = some item) (change : α -> α) :
    items.modify index change = items.set index (change item) := by
  apply List.ext_getElem?
  intro other
  rw [List.getElem?_modify, List.getElem?_set]
  by_cases heq : index = other
  · subst heq
    rcases List.getElem?_eq_some_iff.mp h with ⟨hlt, heq⟩
    simp [hlt, heq]
  · simp [heq]

def starting (connection : Connection) (store : Store) : Session Store :=
  { connection.session with store := store }

def working (connection : Connection) (before : Store) (session : Session Store) :
    Connection :=
  { connection with session := session, readable := true, before := before }

def committed (handle : Handle) (host : Host) (connection : Connection)
    (before : Store) (session : Session Store) : Host :=
  { host.setConnection handle.index (working connection before session) with
    disk := host.disk.saved connection.place session.store }

section Steps

variable {handle : Handle} {host : Host} {connection : Connection}
  {store : Store} {session : Session Store}

theorem getElem?_setConnection {other : Connection}
    (h : host.connections[handle.index]? = some other) :
    (host.setConnection handle.index connection).connections[handle.index]? =
      some connection := by
  rcases List.getElem?_eq_some_iff.mp h with ⟨hlt, _⟩
  exact List.getElem?_set_self hlt

theorem setConnection_setConnection (first second : Connection) :
    (host.setConnection handle.index first).setConnection handle.index
        second =
      host.setConnection handle.index second := by
  simp [Host.setConnection]

theorem runOn_begin_holds
    (hconnection : host.connections[handle.index]? = some connection)
    (hopen : connection.closed = false)
    (hcurrent : current host.disk connection = (store, true)) :
    runOn handle.begin host =
      (.ok (), host.setConnection handle.index
        (working connection store (starting connection store))) := by
  rw [runOn_begin, hconnection]
  dsimp only
  rw [hopen, hcurrent, modify_eq_set hconnection]
  rfl

theorem runOn_commit
    (hconnection : host.connections[handle.index]? = some connection) :
    runOn handle.commit (host.setConnection handle.index
        (working connection store session)) =
      (.ok (), handle.committed host connection store session) := by
  rw [commit, runOn_connection, getElem?_setConnection hconnection]
  rcases connection with ⟨place, earlier, readable, before, closed⟩
  cases place with
  | memory => rfl
  | file path => rfl

theorem runOn_rollback_eq (handle : Handle) (host : Host) :
    runOn (handle.rollback : Action Unit) host =
      (.ok (), { host with
        connections := host.connections.modify handle.index fun connection =>
          { connection with
            session := { connection.session with
              store := connection.before } } }) := rfl

theorem runOn_rollback_working
    (hconnection : host.connections[handle.index]? = some connection) :
    runOn (handle.rollback : Action Unit) (host.setConnection handle.index
        (working connection store session)) =
      (.ok (), host.setConnection handle.index
        (working connection store { session with store := store })) := by
  rw [runOn_rollback_eq, modify_eq_set (getElem?_setConnection hconnection)]
  exact congrArg (Prod.mk _) (setConnection_setConnection _ _)

theorem runOn_rollback_throw {α : Type} {behind : Host}
    (h : runOn (handle.rollback : Action Unit) host = (.ok (), behind))
    (failure : Failure) :
    runOn (do handle.rollback; throw failure : Action α) host =
      (.error failure, behind) := by
  rw [runOn_bind, h]
  rfl

/-!
# Tasks that run a text
-/

/-- A task that runs a text in an open transaction and looks at its result. -/
structure Performs {α : Type} (handle : Handle) (task : Action α)
    (text : String) (look : Session.Result -> α) : Prop where
  ok : forall (host : Host) (connection : Connection)
    (result : Session.Result),
    host.connections[handle.index]? = some connection ->
    connection.readable = true ->
    (Machine.run connection.session [] text).2 = .ok result ->
    runOn task host =
      (.ok (look result), host.setConnection handle.index
        { connection with
          session := (Machine.run connection.session [] text).1 })
  error : forall (host : Host) (connection : Connection)
    (error : Engine.Error),
    host.connections[handle.index]? = some connection ->
    connection.readable = true ->
    (Machine.run connection.session [] text).2 = .error error ->
    exists notices, runOn task host =
      (.error (.engine error), { host.setConnection handle.index
        { connection with
          session := (Machine.run connection.session [] text).1 } with
        notices := notices })

theorem runOn_run_readable (text : String)
    (hconnection : host.connections[handle.index]? = some connection)
    (hreadable : connection.readable = true) :
    runOn (handle.run [] text) host =
      ((Machine.run connection.session [] text).2.mapError Failure.engine,
        host.setConnection handle.index
          { connection with
            session := (Machine.run connection.session [] text).1 }) := by
  have hpermitted : ¬ (!connection.readable) = true := by
    rw [hreadable]
    exact Bool.false_ne_true
  rw [runOn_run, hconnection]
  dsimp only
  rw [if_neg hpermitted, modify_eq_set hconnection]
  rfl

theorem performs_run (handle : Handle) (text : String) :
    Performs handle (handle.run [] text) text id where
  ok host connection result hconnection hreadable hresult := by
    rw [runOn_run_readable text hconnection hreadable, hresult]
    rfl
  error host connection error hconnection hreadable hresult := by
    exists host.notices
    rw [runOn_run_readable text hconnection hreadable, hresult]
    rfl

theorem Performs.bind_pure {α β : Type} {task : Action α} {text : String}
    {look : Session.Result -> α} (h : Performs handle task text look)
    (f : α -> β) :
    Performs handle (do return f (<- task)) text (f ∘ look) where
  ok host connection result hconnection hreadable hresult := by
    rw [runOn_bind, h.ok host connection result hconnection hreadable hresult]
    rfl
  error host connection error hconnection hreadable hresult := by
    rcases h.error host connection error hconnection hreadable hresult with
      ⟨notices, hrun⟩
    exists notices
    rw [runOn_bind, hrun]

theorem Performs.reporting {α : Type} {task : Action α} {text : String}
    {look : Session.Result -> α} (h : Performs handle task text look)
    (message : String) (fields : Failure -> List (String × String)) :
    Performs handle
      (tryCatch task fun failure => do
        report .warn message (fields failure)
        throw failure)
      text look where
  ok host connection result hconnection hreadable hresult := by
    rw [runOn_tryCatch,
      h.ok host connection result hconnection hreadable hresult]
  error host connection error hconnection hreadable hresult := by
    rcases h.error host connection error hconnection hreadable hresult with
      ⟨notices, hrun⟩
    exists .log .warn message (fields (.engine error)) :: notices
    rw [runOn_tryCatch, hrun]
    rfl

theorem performs_execute (handle : Handle) (text : String) :
    Performs handle (handle.execute [] text) text Session.Result.affected := by
  have hreporting : Performs handle
      (handle.runReporting "Statement failed" [] text) text id :=
    (performs_run handle text).reporting "Statement failed" _
  exact hreporting.bind_pure Session.Result.affected

theorem performs_fetchValue? (handle : Handle) (text : String) :
    Performs handle (handle.fetchValue? [] text) text fun result =>
      firstValue? (result.rows.map decodeRow) := by
  have hreporting : Performs handle
      (handle.runReporting "Query failed" [] text) text id :=
    (performs_run handle text).reporting "Query failed" _
  have hfetch : Performs handle (handle.fetch [] text) text fun result =>
      result.rows.map decodeRow :=
    hreporting.bind_pure fun result => result.rows.map decodeRow
  exact hfetch.bind_pure firstValue?

/-!
# Whole transactions
-/

theorem Performs.runOn_working_ok {α : Type} {task : Action α}
    {text : String} {look : Session.Result -> α}
    (h : Performs handle task text look)
    (hconnection : host.connections[handle.index]? = some connection)
    {result : Session.Result}
    (hresult : (Machine.run session [] text).2 = .ok result) :
    runOn task (host.setConnection handle.index
        (working connection store session)) =
      (.ok (look result), host.setConnection handle.index
        (working connection store (Machine.run session [] text).1)) := by
  have htask := h.ok _ _ result (getElem?_setConnection hconnection)
    (Eq.refl (working connection store session).readable) hresult
  rw [setConnection_setConnection] at htask
  exact htask

theorem Performs.runOn_working_error {α : Type} {task : Action α}
    {text : String} {look : Session.Result -> α}
    (h : Performs handle task text look)
    (hconnection : host.connections[handle.index]? = some connection)
    {error : Engine.Error}
    (hresult : (Machine.run session [] text).2 = .error error) :
    exists notices, runOn task (host.setConnection handle.index
        (working connection store session)) =
      (.error (.engine error), { host.setConnection handle.index
        (working connection store (Machine.run session [] text).1) with
        notices := notices }) := by
  have htask := h.error _ _ error (getElem?_setConnection hconnection)
    (Eq.refl (working connection store session).readable) hresult
  rw [setConnection_setConnection] at htask
  exact htask

theorem Performs.runOn_atomically_ok {α : Type} {task : Action α}
    {text : String} {look : Session.Result -> α}
    (h : Performs handle task text look)
    (hconnection : host.connections[handle.index]? = some connection)
    (hopen : connection.closed = false)
    (hcurrent : current host.disk connection = (store, true))
    {result : Session.Result}
    (hresult : (Machine.run (starting connection store) [] text).2 =
      .ok result) :
    runOn (handle.atomically task) host =
      (.ok (look result), handle.committed host connection store
        (Machine.run (starting connection store) [] text).1) := by
  rw [runOn_atomically, runOn_bind,
    runOn_begin_holds hconnection hopen hcurrent]
  dsimp only
  rw [runOn_tryCatch, runOn_bind, h.runOn_working_ok hconnection hresult]
  dsimp only
  rw [runOn_bind, runOn_commit hconnection]
  rfl

theorem Performs.runOn_atomically_error {α : Type} {task : Action α}
    {text : String} {look : Session.Result -> α}
    (h : Performs handle task text look)
    (hconnection : host.connections[handle.index]? = some connection)
    (hopen : connection.closed = false)
    (hcurrent : current host.disk connection = (store, true))
    {error : Engine.Error}
    (hresult : (Machine.run (starting connection store) [] text).2 =
      .error error) :
    exists notices, runOn (handle.atomically task) host =
      (.error (.engine error), { host.setConnection handle.index
        (working connection store
          { (Machine.run (starting connection store) [] text).1 with
            store := store }) with notices := notices }) := by
  rcases h.runOn_working_error hconnection hresult with ⟨notices, htask⟩
  exists notices
  rw [runOn_atomically, runOn_bind,
    runOn_begin_holds hconnection hopen hcurrent]
  dsimp only
  rw [runOn_tryCatch, runOn_bind, htask]
  exact runOn_rollback_throw (@runOn_rollback_working _ handle
    { host with notices := notices } connection store _ hconnection) _

/-!
# The stores behind a transaction
-/

theorem current_saved (disk : Disk) (other : Connection) :
    current (disk.saved other.place other.session.store) other =
      (other.session.store, true) := by
  unfold current Disk.saved
  cases other.place with
  | memory => rfl
  | file path =>
      dsimp only
      rw [Disk.find?_put, if_pos rfl]
      rfl

theorem current_saved_other
    (hcurrent : current host.disk connection = (store, true))
    (other : Connection) :
    (current (host.disk.saved connection.place store) other).1 =
      (current host.disk other).1 := by
  unfold current Disk.saved
  unfold current at hcurrent
  cases hplace : connection.place with
  | memory => rfl
  | file path =>
      rw [hplace] at hcurrent
      dsimp only at hcurrent
      cases other.place with
      | memory => rfl
      | file name =>
          dsimp only
          rw [Disk.find?_put]
          by_cases hsame : Disk.normal path = Disk.normal name
          · have hfile : host.disk.find? name = host.disk.find? path :=
              congrArg (Keyed.get? · host.disk.files) hsame.symm
            rw [if_pos hsame, hfile, hcurrent]
            rfl
          · rw [if_neg hsame]

theorem holds_committed
    (hconnection : host.connections[handle.index]? = some connection)
    (hopen : connection.closed = false)
    (hwritable : session.readOnly = false) (before : Store) :
    handle.Holds (handle.committed host connection before session)
      session.store := by
  exists working connection before session
  refine ⟨getElem?_setConnection hconnection, hopen, hwritable, ?_⟩
  exact current_saved host.disk (working connection before session)

theorem sameStores_of_current {after : Host} {other : Connection}
    (hconnection : host.connections[handle.index]? = some connection)
    (hafter : after.connections = host.connections.set handle.index other)
    (hself : (current after.disk other).1 = (current host.disk connection).1)
    (hothers : forall behind : Connection,
      (current after.disk behind).1 = (current host.disk behind).1) :
    host.SameStores after := by
  intro looking
  rw [store?, store?, hafter, List.getElem?_set]
  split
  · rename_i hindex
    rcases List.getElem?_eq_some_iff.mp hconnection with ⟨hlt, _⟩
    rw [if_pos hlt, <- hindex, hconnection]
    exact congrArg some hself
  · cases host.connections[looking.index]? with
    | none => rfl
    | some behind => exact congrArg some (hothers behind)

theorem sameStores_committed
    (hconnection : host.connections[handle.index]? = some connection)
    (hcurrent : current host.disk connection = (session.store, true))
    (before : Store) :
    host.SameStores (handle.committed host connection before session) := by
  have hself := current_saved host.disk (working connection before session)
  apply sameStores_of_current hconnection rfl
  · rw [hcurrent]
    exact congrArg Prod.fst hself
  · exact current_saved_other hcurrent

theorem current_restored
    (hcurrent : current host.disk connection = (store, true)) :
    current host.disk
        (working connection store { session with store := store }) =
      (store, true) := by
  rw [<- hcurrent]
  unfold current working
  unfold current at hcurrent
  cases hplace : connection.place with
  | memory =>
      rw [hplace] at hcurrent
      exact hcurrent.symm
  | file path => rfl

theorem holds_rolledBack
    (hconnection : host.connections[handle.index]? = some connection)
    (hopen : connection.closed = false)
    (hwritable : session.readOnly = false)
    (hcurrent : current host.disk connection = (store, true))
    (notices : List Notice) :
    handle.Holds { host.setConnection handle.index
        (working connection store { session with store := store }) with
      notices := notices } store := by
  exists working connection store { session with store := store }
  exact ⟨getElem?_setConnection hconnection, hopen, hwritable,
    current_restored hcurrent⟩

theorem sameStores_rolledBack
    (hconnection : host.connections[handle.index]? = some connection)
    (hcurrent : current host.disk connection = (store, true))
    (notices : List Notice) :
    host.SameStores { host.setConnection handle.index
        (working connection store { session with store := store }) with
      notices := notices } := by
  apply sameStores_of_current hconnection rfl
  · rw [hcurrent]
    exact congrArg Prod.fst (current_restored hcurrent)
  · exact fun _ => rfl

end Steps

/-!
# Texts in transactions of their own
-/

section Texts

variable [Machine.Lawful] {handle : Handle} {host : Host} {store : Store} {text : String}

theorem Holds.exists_session (h : handle.Holds host store) (text : String) :
    exists connection, host.connections[handle.index]? = some connection ∧
      connection.closed = false ∧ current host.disk connection = (store, true) ∧
      (Machine.run (starting connection store) [] text).1.readOnly = false ∧
      Machine.execute store text =
        (Machine.run (starting connection store) [] text).2.map fun _ =>
          (Machine.run (starting connection store) [] text).1.store := by
  rcases h with ⟨connection, hconnection, hopen, hwritable, hcurrent⟩
  have hsession : (starting connection store).readOnly = false := hwritable
  refine ⟨connection, hconnection, hopen, hcurrent, ?_,
    Machine.execute_eq_run hsession text⟩
  rw [Machine.Lawful.run_readOnly, hsession]

/--
A text that leaves a store is committed.  The host behind it does not depend on what
the task that runs it looks at.
-/
theorem Holds.transaction_ok (h : handle.Holds host store) {next : Store}
    (hexecute : Machine.execute store text = .ok next) :
    exists (session : Session Store) (result : Session.Result) (after : Host),
      session.store = store ∧ (Machine.run session [] text).2 = .ok result ∧
      (forall {α : Type} {task : Action α} {look : Session.Result -> α},
        Performs handle task text look ->
        runOn (handle.atomically task) host = (.ok (look result), after)) ∧
      handle.Holds after next ∧ (next = store -> host.SameStores after) := by
  rcases h.exists_session text with
    ⟨connection, hconnection, hopen, hcurrent, hkept, hmade⟩
  rw [hexecute] at hmade
  cases hresult : (Machine.run (starting connection store) [] text).2 with
  | error error =>
      rw [hresult] at hmade
      cases hmade
  | ok result =>
      rw [hresult] at hmade
      cases hmade
      refine ⟨_, result, _, rfl, hresult, fun htask =>
        htask.runOn_atomically_ok hconnection hopen hcurrent hresult,
        holds_committed hconnection hopen hkept store, ?_⟩
      intro hsame
      apply sameStores_committed hconnection _ store
      exact hcurrent.trans (congrArg (Prod.mk · true) hsame.symm)

theorem Holds.transaction_error (h : handle.Holds host store)
    {error : Engine.Error} (hexecute : Machine.execute store text = .error error)
    {α : Type} {task : Action α} {look : Session.Result -> α}
    (htask : Performs handle task text look) :
    exists after,
      runOn (handle.atomically task) host = (.error (.engine error), after) ∧
      handle.Holds after store ∧ host.SameStores after := by
  rcases h.exists_session text with
    ⟨connection, hconnection, hopen, hcurrent, hkept, hmade⟩
  rw [hexecute] at hmade
  cases hresult : (Machine.run (starting connection store) [] text).2 with
  | error found =>
      rw [hresult] at hmade
      cases hmade
      rcases htask.runOn_atomically_error hconnection hopen hcurrent hresult
        with ⟨notices, hrun⟩
      exact ⟨_, hrun,
        holds_rolledBack hconnection hopen hkept hcurrent notices,
        sameStores_rolledBack hconnection hcurrent notices⟩
  | ok result =>
      rw [hresult] at hmade
      cases hmade

end Texts

/-!
# Statements committed one after another
-/

/--
Statements, each of them committed in a transaction of its own.  No store changes
before, between and behind these transactions.
-/
inductive Commits (handle : Handle) : Host -> List String -> Host -> Prop where
  | done {host after : Host} :
      host.SameStores after -> Commits handle host [] after
  | step {host start next after : Host} {statement : String}
      {statements : List String} {count : Nat} :
      host.SameStores start ->
      runOn (handle.atomically (handle.execute [] statement)) start =
        (.ok count, next) ->
      Commits handle next statements after ->
      Commits handle host (statement :: statements) after

theorem Commits.of_sameStores {handle : Handle} {host start after : Host}
    {statements : List String} (hsame : host.SameStores start)
    (h : Commits handle start statements after) :
    Commits handle host statements after := by
  cases h with
  | done hafter => exact .done (hsame.trans hafter)
  | step hstart hrun hrest => exact .step (hsame.trans hstart) hrun hrest

theorem Commits.append {handle : Handle} {host middle after : Host}
    {first second : List String} (hfirst : Commits handle host first middle)
    (hsecond : Commits handle middle second after) :
    Commits handle host (first ++ second) after := by
  induction hfirst with
  | done hsame => exact hsecond.of_sameStores hsame
  | step hstart hrun hrest ih => exact .step hstart hrun (ih hsecond)

theorem Commits.single {handle : Handle} {host after : Host}
    {statement : String} {count : Nat}
    (h : runOn (handle.atomically (handle.execute [] statement)) host =
      (.ok count, after)) :
    Commits handle host [statement] after :=
  .step (fun _ => rfl) h (.done fun _ => rfl)

def Fails (handle : Handle) (host : Host) (statement : String)
    (failure : Failure) : Prop :=
  (runOn (handle.atomically (handle.execute [] statement)) host).1 =
    .error failure

end Handle
end Database
end TableStore
