import TableStore.Proofs.Database.Transactions

/-!
# Statements in transactions of their own

A task that sends one statement does in a transaction of its own what the statement
does on the store of the database, or it leaves the store as it was.  What becomes of
the transaction is said here for every host: the database may be closed, its file may
hold no database, and the statement may fail.
-/

namespace TableStore
namespace Database
namespace Handle

open Database.Action
open Engine (Machine Session)
open Engine.Machine (Store)
open Statement (runOf)

variable [Machine]

/-!
# Tasks that send a statement
-/

/--
A task that sends one statement and looks at its result.  It may report what becomes of
the statement.
-/
def Sends {α : Type} (handle : Handle) (task : Action α) (statement : Fragment)
    (look : Session.Result -> α) : Prop :=
  forall host : Host,
    Alike task (look <$> handle.run statement.params statement.text) host host

theorem sends_run (handle : Handle) (statement : Fragment) :
    Sends handle (handle.run statement.params statement.text) statement id := by
  intro host
  rw [id_map]
  rfl

section Sends

variable {α β : Type} {handle : Handle} {task : Action α} {statement : Fragment}
  {look : Session.Result -> α}

theorem Sends.map (h : Sends handle task statement look) (f : α -> β) :
    Sends handle (f <$> task) statement (f ∘ look) := by
  intro host
  rw [comp_map, map_eq_pure_bind, map_eq_pure_bind]
  exact (h host).bind fun result => quiet_pure (f result)

theorem Sends.bind_pure (h : Sends handle task statement look) (f : α -> β) :
    Sends handle (do return f (<- task)) statement (f ∘ look) := by
  rw [<- map_eq_pure_bind]
  exact h.map f

theorem Sends.reporting (h : Sends handle task statement look)
    (message : String) (fields : Failure -> List (String × String)) :
    Sends handle
      (tryCatch task fun failure => do
        report .warn message (fields failure)
        throw failure)
      statement look := by
  intro host
  have hreported : Alike
      (tryCatch task fun failure => do
        report .warn message (fields failure)
        throw failure)
      task host host := by
    rw [Alike, outcome, outcome, runOn_tryCatch]
    rcases runOn task host with ⟨failure | result, after⟩ <;> rfl
  exact hreported.trans (h host)

end Sends

theorem sends_execute (handle : Handle) (statement : Fragment) :
    Sends handle (handle.execute statement.params statement.text) statement
      Session.Result.affected :=
  ((sends_run handle statement).reporting "Statement failed" _).bind_pure
    Session.Result.affected

theorem sends_fetch (handle : Handle) (statement : Fragment) :
    Sends handle (handle.fetch statement.params statement.text) statement
      fun result => result.rows.map decodeRow :=
  ((sends_run handle statement).reporting "Query failed" _).bind_pure
    fun result => result.rows.map decodeRow

theorem sends_fetchValue? (handle : Handle) (statement : Fragment) :
    Sends handle (handle.fetchValue? statement.params statement.text) statement
      fun result => firstValue? (result.rows.map decodeRow) :=
  (sends_fetch handle statement).bind_pure firstValue?

/-!
# What becomes of the transaction
-/

def rolledBack (handle : Handle) (host : Host) (connection : Connection)
    (before : Store) (session : Session Store) : Host :=
  host.setConnection handle.index
    (working connection before { session with store := before })

def unread (handle : Handle) (host : Host) (connection : Connection)
    (found : Store) : Host :=
  host.setConnection handle.index (opened (found, false) connection)

section Transaction

variable {α : Type} {handle : Handle} {task : Action α} {statement : Fragment}
  {look : Session.Result -> α} {host : Host} {connection : Connection}
  {store : Store}

theorem Sends.outcome_atomically (h : Sends handle task statement look)
    {result : Except Failure α} {after : Host}
    (hplain : runOn (handle.atomically
        (look <$> handle.run statement.params statement.text)) host =
      (result, after)) :
    outcome (handle.atomically task) host = (result, after.silent) := by
  have halike : Alike (handle.atomically task)
      (handle.atomically
        (look <$> handle.run statement.params statement.text)) host host :=
    alike_atomically handle fun started _ => h started
  rw [Alike] at halike
  rw [halike, outcome, hplain]
  rfl

theorem runOn_run_working {session : Session Store}
    (hconnection : host.connections[handle.index]? = some connection)
    (statement : Fragment) :
    runOn (handle.run statement.params statement.text)
        (host.setConnection handle.index (working connection store session)) =
      ((runOf session statement).2.mapError Failure.engine,
        host.setConnection handle.index
          (working connection store (runOf session statement).1)) := by
  have hget : (host.setConnection handle.index
      (working connection store session)).connections[handle.index]? =
        some (working connection store session) :=
    getElem?_setConnection hconnection
  have hreadable : ¬ (!(working connection store session).readable) = true :=
    Bool.false_ne_true
  rw [runOn_run, hget]
  dsimp only
  rw [if_neg hreadable, modify_eq_set hget]
  exact congrArg (Prod.mk _) (setConnection_setConnection _ _)

theorem getElem?_unread
    (hconnection : host.connections[handle.index]? = some connection) :
    (handle.unread host connection store).connections[handle.index]? =
      some (opened (store, false) connection) :=
  getElem?_setConnection hconnection

theorem runOn_run_unread
    (hconnection : host.connections[handle.index]? = some connection)
    (statement : Fragment) :
    runOn (handle.run statement.params statement.text)
        (handle.unread host connection store) =
      (.error (.engine .notADatabase), handle.unread host connection store) := by
  rw [runOn_run, getElem?_unread hconnection]
  rfl

theorem runOn_begin_unread
    (hconnection : host.connections[handle.index]? = some connection)
    (hopen : connection.closed = false)
    (hcurrent : current host.disk connection = (store, false)) :
    runOn handle.begin host = (.ok (), handle.unread host connection store) := by
  rw [runOn_begin, hconnection]
  dsimp only
  rw [hopen, hcurrent, modify_eq_set hconnection]
  rfl

theorem runOn_rollback_unread
    (hconnection : host.connections[handle.index]? = some connection) :
    runOn (handle.rollback : Action Unit) (handle.unread host connection store) =
      (.ok (), handle.unread host connection store) := by
  rw [runOn_rollback_eq, modify_eq_set (getElem?_unread hconnection)]
  exact congrArg (Prod.mk _) (setConnection_setConnection _ _)

theorem runOn_begin_closed
    (hclosed : forall connection,
      host.connections[handle.index]? = some connection ->
        connection.closed = true) :
    runOn handle.begin host = (.error .closed, host) := by
  rw [runOn_begin]
  cases hconnection : host.connections[handle.index]? with
  | none => rfl
  | some connection =>
      dsimp only
      rw [if_pos (hclosed connection hconnection)]

theorem Sends.outcome_ok (h : Sends handle task statement look)
    (hconnection : host.connections[handle.index]? = some connection)
    (hopen : connection.closed = false)
    (hcurrent : current host.disk connection = (store, true))
    {result : Session.Result}
    (hresult : (runOf (starting connection store) statement).2 = .ok result) :
    outcome (handle.atomically task) host =
      (.ok (look result), (handle.committed host connection store
        (runOf (starting connection store) statement).1).silent) := by
  apply h.outcome_atomically
  rw [runOn_atomically, runOn_bind, runOn_begin_holds hconnection hopen hcurrent]
  dsimp only
  rw [runOn_tryCatch, runOn_bind, runOn_map, runOn_run_working hconnection, hresult]
  dsimp only [Except.mapError, Except.map]
  rw [runOn_bind, runOn_commit hconnection]
  rfl

theorem Sends.outcome_error (h : Sends handle task statement look)
    (hconnection : host.connections[handle.index]? = some connection)
    (hopen : connection.closed = false)
    (hcurrent : current host.disk connection = (store, true))
    {error : Engine.Error}
    (hresult : (runOf (starting connection store) statement).2 = .error error) :
    outcome (handle.atomically task) host =
      (.error (.engine error), (handle.rolledBack host connection store
        (runOf (starting connection store) statement).1).silent) := by
  apply h.outcome_atomically
  rw [runOn_atomically, runOn_bind, runOn_begin_holds hconnection hopen hcurrent]
  dsimp only
  rw [runOn_tryCatch, runOn_bind, runOn_map, runOn_run_working hconnection, hresult]
  dsimp only [Except.mapError, Except.map]
  exact runOn_rollback_throw (runOn_rollback_working hconnection) _

theorem Sends.outcome_unread (h : Sends handle task statement look)
    (hconnection : host.connections[handle.index]? = some connection)
    (hopen : connection.closed = false)
    (hcurrent : current host.disk connection = (store, false)) :
    outcome (handle.atomically task) host =
      (.error (.engine .notADatabase),
        (handle.unread host connection store).silent) := by
  apply h.outcome_atomically
  rw [runOn_atomically, runOn_bind, runOn_begin_unread hconnection hopen hcurrent]
  dsimp only
  rw [runOn_tryCatch, runOn_bind, runOn_map, runOn_run_unread hconnection]
  exact runOn_rollback_throw (runOn_rollback_unread hconnection) _

theorem Sends.outcome_closed (h : Sends handle task statement look)
    (hclosed : forall connection,
      host.connections[handle.index]? = some connection ->
        connection.closed = true) :
    outcome (handle.atomically task) host = (.error .closed, host.silent) := by
  apply h.outcome_atomically
  rw [runOn_atomically, runOn_bind, runOn_begin_closed hclosed]

end Transaction

inductive Meets (handle : Handle) (host : Host) : Prop where
  | closed : (forall connection,
        host.connections[handle.index]? = some connection ->
          connection.closed = true) -> Meets handle host
  | unread {connection : Connection} {store : Store} :
      host.connections[handle.index]? = some connection ->
      connection.closed = false ->
      current host.disk connection = (store, false) -> Meets handle host
  | ready {connection : Connection} {store : Store} :
      host.connections[handle.index]? = some connection ->
      connection.closed = false ->
      current host.disk connection = (store, true) -> Meets handle host

theorem meets (handle : Handle) (host : Host) : Meets handle host := by
  cases hconnection : host.connections[handle.index]? with
  | none => exact .closed fun connection heq => by rw [hconnection] at heq; cases heq
  | some connection =>
      cases hopen : connection.closed with
      | true =>
          refine .closed fun other heq => ?_
          rw [hconnection] at heq
          cases heq
          exact hopen
      | false =>
          rcases hcurrent : current host.disk connection with ⟨store, readable⟩
          cases readable with
          | false => exact .unread hconnection hopen hcurrent
          | true => exact .ready hconnection hopen hcurrent

/--
What becomes of a statement in a transaction of its own: its result, and the host behind
the transaction, but for what is reported.
-/
inductive Course (handle : Handle) (host : Host) (statement : Fragment) :
    Except Failure Session.Result -> Host -> Prop where
  | closed : (forall connection,
        host.connections[handle.index]? = some connection ->
          connection.closed = true) ->
      Course handle host statement (.error .closed) host
  | unread {connection : Connection} {store : Store} :
      host.connections[handle.index]? = some connection ->
      connection.closed = false ->
      current host.disk connection = (store, false) ->
      Course handle host statement (.error (.engine .notADatabase))
        (handle.unread host connection store)
  | failed {connection : Connection} {store : Store} {error : Engine.Error} :
      host.connections[handle.index]? = some connection ->
      connection.closed = false ->
      current host.disk connection = (store, true) ->
      (runOf (starting connection store) statement).2 = .error error ->
      Course handle host statement (.error (.engine error))
        (handle.rolledBack host connection store
          (runOf (starting connection store) statement).1)
  | done {connection : Connection} {store : Store} {result : Session.Result} :
      host.connections[handle.index]? = some connection ->
      connection.closed = false ->
      current host.disk connection = (store, true) ->
      (runOf (starting connection store) statement).2 = .ok result ->
      Course handle host statement (.ok result)
        (handle.committed host connection store
          (runOf (starting connection store) statement).1)

theorem exists_course (handle : Handle) (host : Host) (statement : Fragment) :
    exists result after, Course handle host statement result after := by
  cases handle.meets host with
  | closed hclosed => exact ⟨_, _, .closed hclosed⟩
  | unread hconnection hopen hcurrent =>
      exact ⟨_, _, .unread hconnection hopen hcurrent⟩
  | @ready connection store hconnection hopen hcurrent =>
      cases hresult : (runOf (starting connection store) statement).2 with
      | error error => exact ⟨_, _, .failed hconnection hopen hcurrent hresult⟩
      | ok result => exact ⟨_, _, .done hconnection hopen hcurrent hresult⟩

section Course

variable {α : Type} {handle : Handle} {task : Action α} {statement : Fragment}
  {look : Session.Result -> α} {host : Host}

theorem Sends.outcome_of_course (h : Sends handle task statement look)
    {result : Except Failure Session.Result} {after : Host}
    (hcourse : Course handle host statement result after) :
    outcome (handle.atomically task) host = (result.map look, after.silent) := by
  cases hcourse with
  | closed hclosed => exact h.outcome_closed hclosed
  | unread hconnection hopen hcurrent =>
      exact h.outcome_unread hconnection hopen hcurrent
  | failed hconnection hopen hcurrent hresult =>
      exact h.outcome_error hconnection hopen hcurrent hresult
  | done hconnection hopen hcurrent hresult =>
      exact h.outcome_ok hconnection hopen hcurrent hresult

/-- A task that sends a statement takes a course of the statement. -/
theorem Sends.course_of_runOn (h : Sends handle task statement look)
    {result : Except Failure α} {last : Host}
    (hrun : runOn (handle.atomically task) host = (result, last)) :
    exists found after, Course handle host statement found after ∧
      result = found.map look ∧ last.silent = after.silent := by
  rcases handle.exists_course host statement with ⟨found, after, hcourse⟩
  have houtcome := h.outcome_of_course hcourse
  rw [outcome, hrun] at houtcome
  exact ⟨found, after, hcourse, congrArg Prod.fst houtcome,
    congrArg Prod.snd houtcome⟩

end Course

theorem Holds.of_silent_eq {handle : Handle} {host other : Host} {store : Store}
    (h : handle.Holds host store) (hsilent : host.silent = other.silent) :
    handle.Holds other store := by
  rw [Host.eq_of_silent_eq hsilent]
  exact h.notices _

/-!
# From one transaction to the next
-/

def Serves (handle : Handle) (host : Host) (session : Session Store) : Prop :=
  exists connection, host.connections[handle.index]? = some connection ∧
    connection.closed = false ∧
    current host.disk connection = (session.store, true) ∧
    starting connection session.store = session

/--
An action has a result, and the next transaction behind it starts with a session.
-/
def Yields {α : Type} (handle : Handle) (action : Action α) (host : Host)
    (result : Except Failure α) (session : Session Store) : Prop :=
  exists after, runOn action host = (result, after) ∧
    handle.Serves after session

section Serves

variable {α β : Type} {handle : Handle} {host : Host} {session : Session Store}

theorem serves_of_memory
    (hopen : host.connections[handle.index]?.map (fun connection =>
      (connection.closed, connection.place)) = some (false, .memory))
    {store : Store} (hstore : handle.store? host = some store) :
    exists session, handle.Serves host session ∧ session.store = store := by
  rcases Option.map_eq_some_iff.mp hopen with ⟨connection, hconnection, hplace⟩
  rw [store?, hconnection] at hstore
  cases hstore
  have hcurrent : current host.disk connection =
      (connection.session.store, true) := by
    rw [current, (Prod.mk.inj hplace).right]
  dsimp only
  rw [hcurrent]
  exact ⟨starting connection connection.session.store,
    ⟨connection, hconnection, (Prod.mk.inj hplace).left, hcurrent, rfl⟩, rfl⟩

theorem Serves.store?_eq (h : handle.Serves host session) :
    handle.store? host = some session.store := by
  rcases h with ⟨connection, hconnection, _, hcurrent, _⟩
  rw [store?, hconnection, Option.map_some, hcurrent]

theorem Serves.of_silent_eq {other : Host} (h : handle.Serves host session)
    (hsilent : host.silent = other.silent) : handle.Serves other session := by
  rw [Host.eq_of_silent_eq hsilent]
  exact h

theorem Yields.map {action : Action α} {result : α}
    (h : handle.Yields action host (.ok result) session) (f : α -> β) :
    handle.Yields (do return f (<- action)) host (.ok (f result)) session := by
  rcases h with ⟨after, hrun, hserves⟩
  exact ⟨after, by rw [runOn_bind, hrun]; rfl, hserves⟩

theorem Yields.bind_error {action : Action α} {failure : Failure}
    (h : handle.Yields action host (.error failure) session)
    (next : α -> Action β) :
    handle.Yields (action >>= next) host (.error failure) session := by
  rcases h with ⟨after, hrun, hserves⟩
  exact ⟨after, by rw [runOn_bind, hrun], hserves⟩

theorem yields_of_outcome {action : Action α} {result : Except Failure α}
    {after : Host} (h : outcome action host = (result, after.silent))
    (hserves : handle.Serves after session) :
    handle.Yields action host result session := by
  rcases exists_of_outcome h with ⟨last, hrun, hsilent⟩
  exact ⟨last, hrun, hserves.of_silent_eq hsilent.symm⟩

variable {task : Action α} {statement : Fragment} {look : Session.Result -> α}
  {after : Session Store}

theorem Sends.yields_ok (h : Sends handle task statement look)
    (hserves : handle.Serves host session) {result : Session.Result}
    (hrun : runOf session statement = (after, .ok result)) :
    handle.Yields (handle.atomically task) host (.ok (look result)) after := by
  rcases hserves with ⟨connection, hconnection, hopen, hcurrent, hstarting⟩
  rw [<- hstarting] at hrun
  apply yields_of_outcome
    (h.outcome_ok hconnection hopen hcurrent (congrArg Prod.snd hrun))
  rw [hrun]
  exact ⟨_, getElem?_setConnection hconnection, hopen,
    current_saved host.disk (working connection session.store after), rfl⟩

theorem Sends.yields_error (h : Sends handle task statement look)
    (hserves : handle.Serves host session) {error : Engine.Error}
    (hrun : runOf session statement = (after, .error error)) :
    handle.Yields (handle.atomically task) host (.error (.engine error))
      { after with store := session.store } := by
  rcases hserves with ⟨connection, hconnection, hopen, hcurrent, hstarting⟩
  rw [<- hstarting] at hrun
  apply yields_of_outcome
    (h.outcome_error hconnection hopen hcurrent (congrArg Prod.snd hrun))
  rw [hrun]
  exact ⟨_, getElem?_setConnection hconnection, hopen,
    current_restored hcurrent, rfl⟩

theorem Sends.ok_of_runOn (h : Sends handle task statement look)
    (hserves : handle.Serves host session) {result : α} {last : Host}
    (hrun : runOn (handle.atomically task) host = (.ok result, last)) :
    exists next found, runOf session statement = (next, .ok found) ∧
      result = look found ∧ handle.Serves last next := by
  rcases hdone : runOf session statement with ⟨next, _ | found⟩
  · rcases h.yields_error hserves hdone with ⟨_, hfailed, _⟩
    rw [hrun] at hfailed
    cases hfailed
  · rcases h.yields_ok hserves hdone with ⟨_, hok, hnext⟩
    rw [hrun] at hok
    cases hok
    exact ⟨next, found, rfl, rfl, hnext⟩

theorem Serves.unique {other : Session Store} (h : handle.Serves host session)
    (hother : handle.Serves host other) : session = other := by
  rcases h with ⟨connection, hconnection, _, hcurrent, hsession⟩
  rcases hother with ⟨same, hsame, _, hother, hsecond⟩
  cases hconnection.symm.trans hsame
  rw [<- hsession, <- hsecond, (Prod.mk.inj (hcurrent.symm.trans hother)).left]

/-- Tasks do alike in transactions if their statements do, as far as is looked at. -/
theorem Sends.alike (h : Sends handle task statement look) {second : Action α}
    {other : Fragment} {lookOther : Session.Result -> α}
    (hother : Sends handle second other lookOther)
    (hruns : forall session, handle.Serves host session ->
      (runOf session statement).1 = (runOf session other).1 ∧
        (runOf session statement).2.map look =
          (runOf session other).2.map lookOther) :
    Alike (handle.atomically task) (handle.atomically second) host host := by
  rw [Alike]
  cases handle.meets host with
  | closed hclosed => rw [h.outcome_closed hclosed, hother.outcome_closed hclosed]
  | unread hconnection hopen hcurrent =>
      rw [h.outcome_unread hconnection hopen hcurrent,
        hother.outcome_unread hconnection hopen hcurrent]
  | @ready connection store hconnection hopen hcurrent =>
      have hserves : handle.Serves host (starting connection store) :=
        ⟨connection, hconnection, hopen, hcurrent, rfl⟩
      rcases hruns _ hserves with ⟨hsession, hresult⟩
      cases hfirst : (runOf (starting connection store) statement).2 with
      | error error =>
          cases hsecond : (runOf (starting connection store) other).2 with
          | error failed =>
              rw [hfirst, hsecond] at hresult
              cases hresult
              rw [h.outcome_error hconnection hopen hcurrent hfirst,
                hother.outcome_error hconnection hopen hcurrent hsecond, hsession]
          | ok found =>
              rw [hfirst, hsecond] at hresult
              cases hresult
      | ok result =>
          cases hsecond : (runOf (starting connection store) other).2 with
          | error failed =>
              rw [hfirst, hsecond] at hresult
              cases hresult
          | ok found =>
              rw [hfirst, hsecond] at hresult
              rw [h.outcome_ok hconnection hopen hcurrent hfirst,
                hother.outcome_ok hconnection hopen hcurrent hsecond, hsession,
                Except.ok.inj hresult]

/--
A transaction of its own that succeeds has started with a session, and its statement has
succeeded there.
-/
theorem Sends.exists_of_runOn (h : Sends handle task statement look) {result : α}
    {last : Host}
    (hrun : runOn (handle.atomically task) host = (.ok result, last)) :
    exists session next found, handle.Serves host session ∧
      runOf session statement = (next, .ok found) ∧ result = look found ∧
      handle.Serves last next := by
  rcases h.course_of_runOn hrun with ⟨found, after, hcourse, hfound, _⟩
  cases hcourse with
  | closed => cases hfound
  | unread => cases hfound
  | failed => cases hfound
  | @done connection store found hconnection hopen hcurrent _ =>
      have hserves : handle.Serves host (starting connection store) :=
        ⟨connection, hconnection, hopen, hcurrent, rfl⟩
      rcases h.ok_of_runOn hserves hrun with ⟨next, found, hdone⟩
      exact ⟨_, next, found, hserves, hdone⟩

end Serves

end Handle
end Database
end TableStore
