import TableStore.Proofs.Database.Statements

/-!
# Hosts between transactions

Between two transactions a database is what its file holds, or what its connection keeps
in memory.  A transaction that is taken back leaves it so.  What a transaction does to it
depends on nothing that earlier transactions may have left on the connection.
-/

namespace TableStore
namespace Database

open Engine (Machine Session)
open Engine.Machine (Store)
open Statement (runOf)

variable [Machine]

/-!
# What remains of a host
-/

def Connection.kept (connection : Connection) : Store :=
  match connection.place with
  | .memory => connection.session.store
  | .file _ => Machine.empty

def Connection.settled (connection : Connection) : Connection :=
  { connection with
    session := .start connection.kept connection.session.readOnly
    readable := true
    before := Machine.empty }

@[simp] theorem Connection.place_settled (connection : Connection) :
    connection.settled.place = connection.place := rfl

@[simp] theorem Connection.closed_settled (connection : Connection) :
    connection.settled.closed = connection.closed := rfl

@[simp] theorem Connection.readOnly_settled (connection : Connection) :
    connection.settled.session.readOnly = connection.session.readOnly := rfl

/--
A host without what the last transactions have left on the connections, and without what
has been reported: its files, and the databases in memory.
-/
def Host.settled (host : Host) : Host :=
  ⟨host.disk, host.connections.map Connection.settled, []⟩

@[simp] theorem Host.disk_settled (host : Host) :
    host.settled.disk = host.disk := rfl

theorem Host.getElem?_settled (host : Host) (index : Nat) :
    host.settled.connections[index]? =
      host.connections[index]?.map Connection.settled :=
  List.getElem?_map

theorem Host.settled_silent (host : Host) : host.silent.settled = host.settled :=
  rfl

theorem Host.settled_eq_of_silent_eq {host other : Host}
    (h : host.silent = other.silent) : host.settled = other.settled := by
  rw [<- host.settled_silent, h, other.settled_silent]

theorem Host.settled_setConnection (host : Host) (index : Nat)
    (connection : Connection) :
    (host.setConnection index connection).settled =
      host.settled.setConnection index connection.settled := by
  simp [Host.settled, Host.setConnection, List.map_set]

theorem Host.settled_setConnection_eq_self {host : Host} {index : Nat}
    {connection other : Connection}
    (hconnection : host.connections[index]? = some connection)
    (hsettled : other.settled = connection.settled) :
    (host.setConnection index other).settled = host.settled := by
  rw [Host.settled_setConnection, hsettled]
  have hget : host.settled.connections[index]? = some connection.settled := by
    rw [Host.getElem?_settled, hconnection]
    rfl
  rcases List.getElem?_eq_some_iff.mp hget with ⟨hlt, heq⟩
  rw [Host.setConnection, <- heq, List.set_getElem_self]

namespace Handle

open Database.Action

theorem current_settled (disk : Disk) (connection : Connection) :
    current disk connection.settled = current disk connection := by
  rcases connection with ⟨place, session, readable, before, closed⟩
  cases place <;> rfl

theorem kept_of_current {disk : Disk} {connection : Connection} {store : Store}
    {readable : Bool} (h : current disk connection = (store, readable))
    (hmemory : connection.place = .memory) : connection.session.store = store := by
  rw [current, hmemory] at h
  exact congrArg Prod.fst h

section Restored

variable {handle : Handle} {host : Host} {connection : Connection} {store : Store}

theorem settled_rolledBack
    (hconnection : host.connections[handle.index]? = some connection)
    (hcurrent : current host.disk connection = (store, true)) {session : Session Store}
    (hreadOnly : session.readOnly = connection.session.readOnly) :
    (handle.rolledBack host connection store session).settled = host.settled := by
  apply Host.settled_setConnection_eq_self hconnection
  rw [Connection.settled, Connection.settled, Connection.kept, Connection.kept]
  cases hplace : connection.place with
  | memory => simp [working, hplace, hreadOnly, kept_of_current hcurrent hplace]
  | file path => simp [working, hplace, hreadOnly]

theorem settled_unread
    (hconnection : host.connections[handle.index]? = some connection)
    (hcurrent : current host.disk connection = (store, false)) :
    (handle.unread host connection store).settled = host.settled := by
  apply Host.settled_setConnection_eq_self hconnection
  rw [Connection.settled, Connection.settled, Connection.kept, Connection.kept]
  cases hplace : connection.place with
  | memory => simp [opened, hplace, kept_of_current hcurrent hplace]
  | file path => simp [opened, hplace]

theorem settled_committed (before : Store) (session : Session Store) :
    (handle.committed host connection before session).settled =
      { host.settled.setConnection handle.index
          (working connection before session).settled with
        disk := host.disk.saved connection.place session.store } := by
  rw [<- Host.settled_setConnection]
  rfl

end Restored

theorem runOf_readOnly [Machine.Lawful] (session : Session Store) (statement : Fragment) :
    (runOf session statement).1.readOnly = session.readOnly :=
  Machine.Lawful.run_readOnly session _ statement.text

theorem settled_rolledBack_runOf [Machine.Lawful] {handle : Handle} {host : Host}
    {connection : Connection} {store : Store}
    (hconnection : host.connections[handle.index]? = some connection)
    (hcurrent : current host.disk connection = (store, true))
    (statement : Fragment) :
    (handle.rolledBack host connection store
      (runOf (starting connection store) statement).1).settled = host.settled :=
  settled_rolledBack hconnection hcurrent (runOf_readOnly _ statement)

theorem Course.settled_of_error [Machine.Lawful] {handle : Handle} {host after : Host}
    {statement : Fragment} {failure : Failure}
    (h : Course handle host statement (.error failure) after) :
    after.settled = host.settled := by
  cases h with
  | closed => rfl
  | unread hconnection _ hcurrent => exact settled_unread hconnection hcurrent
  | failed hconnection _ hcurrent _ =>
      exact settled_rolledBack_runOf hconnection hcurrent statement

/--
Behind a transaction everything is as it was, or what its statements make of the session
is committed.
-/
inductive Leaves (handle : Handle) (host : Host) (made : Session Store -> Session Store)
    (after : Host) : Prop where
  | unchanged : after.settled = host.settled -> Leaves handle host made after
  | committed {connection : Connection} {store : Store} :
      host.connections[handle.index]? = some connection ->
      current host.disk connection = (store, true) ->
      after.settled = (handle.committed host connection store
        (made (starting connection store))).settled ->
      Leaves handle host made after

section Sends

variable {α : Type} {handle : Handle} {task : Action α} {statement : Fragment}
  {look : Session.Result -> α} {host after : Host}

theorem Sends.settled_of_error [Machine.Lawful] (h : Sends handle task statement look)
    {failure : Failure}
    (hrun : runOn (handle.atomically task) host = (.error failure, after)) :
    after.settled = host.settled := by
  rcases h.course_of_runOn hrun with ⟨found, behind, hcourse, hfound, hsilent⟩
  rw [Host.settled_eq_of_silent_eq hsilent]
  cases found with
  | ok result => cases hfound
  | error other => exact hcourse.settled_of_error

theorem Sends.leaves [Machine.Lawful] (h : Sends handle task statement look) (host : Host) :
    Leaves handle host (fun session => (runOf session statement).1)
      (runOn (handle.atomically task) host).2 := by
  rcases hrun : runOn (handle.atomically task) host with ⟨failure | result, after⟩
  · exact .unchanged (h.settled_of_error hrun)
  · rcases h.course_of_runOn hrun with ⟨found, behind, hcourse, hfound, hsilent⟩
    cases hcourse with
    | closed => cases hfound
    | unread => cases hfound
    | failed => cases hfound
    | done hconnection _ hcurrent _ =>
        exact .committed hconnection hcurrent (Host.settled_eq_of_silent_eq hsilent)

end Sends

/-!
# Hosts with the same databases
-/

theorem store?_settled (handle : Handle) (host : Host) :
    handle.store? host.settled = handle.store? host := by
  rw [store?, store?, Host.getElem?_settled, Option.map_map]
  cases host.connections[handle.index]? with
  | none => rfl
  | some connection =>
      exact congrArg (fun found => some found.1) (current_settled _ connection)

end Handle

/-- Hosts that have settled alike start every transaction with the same store. -/
theorem Host.sameStores_of_settled_eq {host other : Host}
    (h : other.settled = host.settled) : host.SameStores other := by
  intro handle
  rw [<- handle.store?_settled other, h, handle.store?_settled]

namespace Handle

open Database.Action

theorem eq_of_settled_eq {connection other : Connection}
    (h : connection.settled = other.settled) :
    connection.place = other.place ∧ connection.closed = other.closed ∧
      connection.session.readOnly = other.session.readOnly := by
  rw [<- connection.place_settled, <- connection.closed_settled,
    <- connection.readOnly_settled, h]
  exact ⟨rfl, rfl, rfl⟩

theorem closed_eq_of_settled_eq {connection other : Connection}
    (h : connection.settled = other.settled) :
    connection.closed = other.closed :=
  (eq_of_settled_eq h).right.left

theorem settled_working_congr {connection other : Connection}
    (h : connection.settled = other.settled) {session otherSession : Session Store}
    (hsession : Session.SameStore session otherSession)
    (before otherBefore : Store) :
    (working connection before session).settled =
      (working other otherBefore otherSession).settled := by
  rcases eq_of_settled_eq h with ⟨hplace, hclosed, _⟩
  have hstore : otherSession.store = session.store := hsession.store_eq
  simp only [Connection.settled, Connection.kept, working, hplace, hclosed, hstore,
    hsession.readOnly_eq]

theorem settled_committed_congr {handle : Handle} {host other : Host}
    (hhosts : host.settled = other.settled) {connection otherConnection : Connection}
    (h : connection.settled = otherConnection.settled)
    {session otherSession : Session Store}
    (hsession : Session.SameStore session otherSession)
    (before otherBefore : Store) :
    (handle.committed host connection before session).settled =
      (handle.committed other otherConnection otherBefore otherSession).settled := by
  have hdisk : host.disk = other.disk := by
    rw [<- host.disk_settled, hhosts, other.disk_settled]
  have hstore : otherSession.store = session.store := hsession.store_eq
  rw [settled_committed, settled_committed, hhosts, hdisk,
    settled_working_congr h hsession before otherBefore, (eq_of_settled_eq h).left,
    hstore]

omit [Machine] in
theorem eq_error_of_map_eq {α β : Type} {f : α -> β}
    {first : Except Engine.Error α} {error : Engine.Error}
    (h : first.map f = (.error error : Except Engine.Error α).map f) :
    first = .error error := by
  cases first with
  | error other =>
      cases h
      rfl
  | ok result => cases h

omit [Machine] in
theorem exists_of_map_eq_ok {α β : Type} {f : α -> β}
    {first : Except Engine.Error α} {result : α}
    (h : first.map f = (.ok result : Except Engine.Error α).map f) :
    exists other, first = .ok other := by
  cases first with
  | error error => cases h
  | ok other => exact ⟨other, rfl⟩

theorem sameStore_runOf [Machine.Lawful] {session other : Session Store}
    (h : Session.SameStore session other) (statement : Fragment) :
    Session.SameStore (runOf session statement).1 (runOf other statement).1 ∧
      (runOf other statement).2.map Session.Result.rows =
        (runOf session statement).2.map Session.Result.rows :=
  Machine.run_sameStore h _ statement.text

theorem sameStore_starting {connection other : Connection}
    (h : connection.settled = other.settled) (store : Store) :
    Session.SameStore (starting connection store) (starting other store) :=
  ⟨rfl, (eq_of_settled_eq h).right.right.symm⟩

theorem exists_behind {host other : Host} (h : host.settled = other.settled)
    {index : Nat} {connection : Connection}
    (hconnection : host.connections[index]? = some connection) :
    exists behind, other.connections[index]? = some behind ∧
      connection.settled = behind.settled := by
  have hsame : other.connections[index]?.map Connection.settled =
      some connection.settled := by
    rw [<- Host.getElem?_settled, <- h, Host.getElem?_settled, hconnection]
    rfl
  rcases Option.map_eq_some_iff.mp hsame with ⟨behind, hbehind, heq⟩
  exact ⟨behind, hbehind, heq.symm⟩

theorem current_congr {host other : Host} (hhosts : host.settled = other.settled)
    {connection behind : Connection} (h : connection.settled = behind.settled) :
    current other.disk behind = current host.disk connection := by
  rw [<- current_settled, <- h, current_settled, <- other.disk_settled, <- hhosts,
    host.disk_settled]

theorem closed_congr {handle : Handle} {host other : Host}
    (hhosts : host.settled = other.settled)
    (hclosed : forall connection,
      host.connections[handle.index]? = some connection ->
        connection.closed = true) :
    forall connection, other.connections[handle.index]? = some connection ->
      connection.closed = true := by
  intro behind hbehind
  rcases exists_behind hhosts.symm hbehind with ⟨connection, hconnection, hsettled⟩
  rw [closed_eq_of_settled_eq hsettled]
  exact hclosed connection hconnection

theorem exists_of_settled_eq {host other : Host} (h : host.settled = other.settled)
    {index : Nat} {connection : Connection} {store : Store} {readable : Bool}
    (hconnection : host.connections[index]? = some connection)
    (hopen : connection.closed = false)
    (hcurrent : current host.disk connection = (store, readable)) :
    exists behind, other.connections[index]? = some behind ∧
      connection.settled = behind.settled ∧ behind.closed = false ∧
      current other.disk behind = (store, readable) := by
  rcases exists_behind h hconnection with ⟨behind, hbehind, hsettled⟩
  exact ⟨behind, hbehind, hsettled,
    (closed_eq_of_settled_eq hsettled).symm.trans hopen,
    (current_congr h hsettled).trans hcurrent⟩

end Handle

/-!
# Work that depends on the databases alone
-/

namespace Action

variable {α β : Type}

def trace (action : Action α) (host : Host) : Except Failure Unit × Host :=
  ((runOn action host).1.map fun _ => (), (runOn action host).2.settled)

/-- Work that does the same on all hosts with the same databases. -/
def Determined (action : Action α) : Prop :=
  forall host other : Host, host.settled = other.settled ->
    trace action host = trace action other

def Reverts (action : Action α) : Prop :=
  forall (host after : Host) (failure : Failure),
    runOn action host = (.error failure, after) -> after.settled = host.settled

def Concludes (action : Action α) : Prop :=
  forall host : Host, exists result notices,
    runOn action host = (.ok result, { host with notices := notices })

theorem concludes_pure (result : α) : Concludes (pure result) :=
  fun host => ⟨result, host.notices, rfl⟩

theorem concludes_report (level : LogLevel) (message : String)
    (fields : List (String × String)) :
    Concludes (Database.report level message fields : Action Unit) :=
  fun _ => ⟨(), _, rfl⟩

theorem Concludes.bind {action : Action α} (h : Concludes action)
    {next : α -> Action β} (hnext : forall result, Concludes (next result)) :
    Concludes (action >>= next) := by
  intro host
  rcases h host with ⟨result, notices, hrun⟩
  rcases hnext result { host with notices := notices } with ⟨last, others, hlast⟩
  exact ⟨last, others, by rw [runOn_bind, hrun]; exact hlast⟩

theorem trace_of_outcome {action : Action α} {host after : Host}
    {result : Except Failure α} (h : outcome action host = (result, after)) :
    trace action host = (result.map fun _ => (), after.settled) := by
  rw [outcome] at h
  rcases Prod.mk.inj h with ⟨hresult, hafter⟩
  rw [trace, <- Host.settled_silent, <- hresult, <- hafter]
  rfl

theorem trace_bind_concludes {action : Action α} {next : α -> Action β}
    (hnext : forall result, Concludes (next result)) (host : Host) :
    trace (action >>= next) host = trace action host := by
  rw [trace, trace, runOn_bind]
  rcases runOn action host with ⟨failure | result, after⟩
  · rfl
  · rcases hnext result after with ⟨last, notices, hlast⟩
    dsimp only
    rw [hlast]
    rfl

structure Atomic (action : Action α) : Prop where
  determined : Determined action
  reverts : Reverts action

theorem Atomic.bind_concludes {action : Action α} (h : Atomic action)
    {next : α -> Action β} (hnext : forall result, Concludes (next result)) :
    Atomic (action >>= next) where
  determined host other hsettled := by
    rw [trace_bind_concludes hnext, trace_bind_concludes hnext]
    exact h.determined host other hsettled
  reverts host after failure hrun := by
    rw [runOn_bind] at hrun
    rcases hfirst : runOn action host with ⟨other | result, middle⟩
    · rw [hfirst] at hrun
      cases hrun
      exact h.reverts host after failure hfirst
    · rw [hfirst] at hrun
      rcases hnext result middle with ⟨last, notices, hlast⟩
      dsimp only at hrun
      rw [hlast] at hrun
      cases hrun

end Action

namespace Handle

open Database.Action

/-- On hosts with the same databases a statement takes the same course. -/
theorem Course.of_settled_eq [Machine.Lawful] {handle : Handle} {host other after : Host}
    {statement : Fragment} {result : Except Failure Session.Result}
    (h : Course handle host statement result after)
    (hhosts : host.settled = other.settled) :
    exists found behind, Course handle other statement found behind ∧
      (found.map fun _ => ()) = (result.map fun _ => ()) ∧
      behind.settled = after.settled := by
  cases h with
  | closed hclosed =>
      exact ⟨_, _, .closed (closed_congr hhosts hclosed), rfl, hhosts.symm⟩
  | unread hconnection hopen hcurrent =>
      rcases exists_of_settled_eq hhosts hconnection hopen hcurrent with
        ⟨behind, hbehind, _, hbehindOpen, hfound⟩
      refine ⟨_, _, .unread hbehind hbehindOpen hfound, rfl, ?_⟩
      rw [settled_unread hbehind hfound, settled_unread hconnection hcurrent, hhosts]
  | @failed connection store error hconnection hopen hcurrent hresult =>
      rcases exists_of_settled_eq hhosts hconnection hopen hcurrent with
        ⟨behind, hbehind, hsettled, hbehindOpen, hfound⟩
      have hrows := (sameStore_runOf (sameStore_starting hsettled store) statement).right
      rw [hresult] at hrows
      refine ⟨_, _, .failed hbehind hbehindOpen hfound (eq_error_of_map_eq hrows),
        rfl, ?_⟩
      rw [settled_rolledBack_runOf hbehind hfound,
        settled_rolledBack_runOf hconnection hcurrent, hhosts]
  | @done connection store result hconnection hopen hcurrent hresult =>
      rcases exists_of_settled_eq hhosts hconnection hopen hcurrent with
        ⟨behind, hbehind, hsettled, hbehindOpen, hfound⟩
      rcases sameStore_runOf (sameStore_starting hsettled store) statement with
        ⟨hsame, hrows⟩
      rw [hresult] at hrows
      rcases exists_of_map_eq_ok hrows with ⟨found, hother⟩
      exact ⟨_, _, .done hbehind hbehindOpen hfound hother, rfl,
        (settled_committed_congr hhosts hsettled hsame store store).symm⟩

theorem Sends.atomic [Machine.Lawful] {α : Type} {handle : Handle} {task : Action α}
    {statement : Fragment} {look : Session.Result -> α}
    (h : Sends handle task statement look) : Atomic (handle.atomically task) where
  reverts _ _ _ hrun := h.settled_of_error hrun
  determined host other hhosts := by
    rcases handle.exists_course host statement with ⟨result, after, hcourse⟩
    rcases hcourse.of_settled_eq hhosts with
      ⟨found, behind, hother, hresult, hsettled⟩
    have hmap (result : Except Failure Session.Result) :
        ((result.map look).map fun _ => ()) = (result.map fun _ => ()) := by
      cases result <;> rfl
    rw [trace_of_outcome (h.outcome_of_course hcourse),
      trace_of_outcome (h.outcome_of_course hother), hmap, hmap, hresult,
      Host.settled_silent, Host.settled_silent, hsettled]

end Handle

end Database
end TableStore
