import TableStore.Engine.Sqlite
import TableStore.Proofs.Database.Operations
import TableStore.Proofs.Engine.Version

/-!
# Operations on tables, done or not done

An operation on a table that fails leaves every database as it was, and one whose filter
is malformed does not even reach the database.  So the operations that succeed and the
transactions that are committed lead, in their order, to the same databases as all
operations and transactions together.
-/

namespace TableStore
namespace Database

open Engine (Machine Session)
open Engine.Machine (Store)
open Predicate (verdict)
open Statement (filterViolations runOf)

/-!
# Operations
-/

inductive Operation
  | create
  | drop
  | select (options : Options)
  | insert (row : Row)
  | update (changes : Row) (options : Options)
  | delete (options : Options)
  | sum (column : String) (filter? : Option Predicate)
  | count (filter? : Option Predicate)

namespace Operation

def perform [Machine] (table : TableHandle) : Operation -> Action Unit
  | .create => table.create
  | .drop => table.drop
  | .select options => do let _ <- table.select options
  | .insert row => table.insert row
  | .update changes options => do let _ <- table.update changes options
  | .delete options => do let _ <- table.delete options
  | .sum column filter? => do let _ <- table.sum column filter?
  | .count filter? => do let _ <- table.count filter?

def filter? : Operation -> Option Predicate
  | .select options => options.filter?
  | .update _ options => options.filter?
  | .delete options => options.filter?
  | .sum _ filter? => filter?
  | .count filter? => filter?
  | _ => none

def statement? (table : TableHandle) :
    Operation -> Except ShapeError Fragment
  | .create => .ok (.ofText (Statement.createTable table.name table.columns))
  | .drop => .ok (.ofText (Statement.dropTable table.name))
  | .select options => Statement.select table.mode table.name options
  | .insert row => .ok (Statement.insert table.name row)
  | .update changes options =>
      Statement.update table.mode table.name changes options
  | .delete options =>
      Statement.delete table.mode table.name options.filter?
  | .sum column filter? =>
      Statement.aggregate table.mode table.name (.sum column) filter?
  | .count filter? =>
      Statement.aggregate table.mode table.name .count filter?

theorem statement?_eq (table : TableHandle) (operation : Operation) :
    exists fragment, operation.statement? table =
      verdict (filterViolations operation.filter?) fragment := by
  cases operation with
  | create => exact ⟨_, rfl⟩
  | drop => exact ⟨_, rfl⟩
  | insert row => exact ⟨_, rfl⟩
  | select options => exact ⟨_, Statement.select_eq _ _ _⟩
  | update changes options => exact ⟨_, Statement.update_eq _ _ _ _⟩
  | delete options => exact ⟨_, Statement.delete_eq _ _ _⟩
  | sum column filter? => exact ⟨_, Statement.aggregate_eq _ _ _ _⟩
  | count filter? => exact ⟨_, Statement.aggregate_eq _ _ _ _⟩

end Operation

section
variable [Machine]

/-!
# Operations done or refused
-/

section Performance

open Database.Action (Atomic concludes_pure concludes_report runOn)

variable {α : Type}

theorem Operation.undertakes_perform (table : TableHandle) (operation : Operation) :
    Undertakes table.database (operation.perform table)
      (operation.statement? table) := by
  cases operation with
  | create =>
      exact (table.undertakes_execute _).bind_concludes
        fun _ => concludes_report _ _ _
  | drop =>
      exact (table.undertakes_execute _).bind_concludes
        fun _ => concludes_report _ _ _
  | insert row =>
      exact (table.undertakes_execute _).bind_concludes fun _ => concludes_pure ()
  | update changes options =>
      exact (table.undertakes_update changes options).bind_concludes
        fun _ => concludes_pure ()
  | delete options =>
      exact (table.undertakes_delete options).bind_concludes
        fun _ => concludes_pure ()
  | select options =>
      exact (table.undertakes_select options).bind_concludes
        fun _ => concludes_pure ()
  | sum column filter? =>
      exact (table.undertakes_sum column filter?).bind_concludes
        fun _ => concludes_pure ()
  | count filter? =>
      exact (table.undertakes_count filter?).bind_concludes
        fun _ => concludes_pure ()

/-- Work that starts with a look at a filter and is one transaction from there on. -/
structure TableHandle.Guarded (filter? : Option Predicate) (action : Action α) :
    Prop where
  refuses : forall (violation : ShapeError) (others : List ShapeError),
    filterViolations filter? = violation :: others ->
      forall host, runOn action host = (.error (.predicate violation), host)
  atomic : filterViolations filter? = [] -> Atomic action

theorem Undertakes.guarded [Machine.Lawful] {action : Action α} {filter? : Option Predicate}
    {handle : Handle} {fragment : Fragment}
    (h : Undertakes handle action (verdict (filterViolations filter?) fragment)) :
    TableHandle.Guarded filter? action where
  refuses violation others hfound := by
    rw [hfound] at h
    cases h with
    | refuses hrefuses => exact hrefuses
  atomic hfound := by
    rw [hfound, Predicate.verdict_nil] at h
    cases h with
    | sends hsends hnext heq =>
        rw [heq]
        exact hsends.atomic.bind_concludes hnext

theorem Operation.guarded_perform [Machine.Lawful] (table : TableHandle) (operation : Operation) :
    TableHandle.Guarded operation.filter? (operation.perform table) := by
  rcases operation.statement?_eq table with ⟨fragment, hstatement⟩
  have hwork := operation.undertakes_perform table
  rw [hstatement] at hwork
  exact hwork.guarded

end Performance

/-!
# Explicit transactions
-/

inductive Request
  | execute (statement : Fragment)
  | fetch (statement : Fragment)
  | fetchValue (statement : Fragment)

namespace Request

def statement : Request -> Fragment
  | .execute statement => statement
  | .fetch statement => statement
  | .fetchValue statement => statement

def send (handle : Handle) : Request -> Action Unit
  | .execute statement => do
      let _ <- handle.execute statement.params statement.text
  | .fetch statement => do
      let _ <- handle.fetch statement.params statement.text
  | .fetchValue statement => do
      let _ <- handle.fetchValue? statement.params statement.text

def attempt (handle : Handle) (request : Request) : Action Unit :=
  tryCatch (request.send handle) fun _ => pure ()

theorem sends_send (handle : Handle) (request : Request) :
    handle.Sends (request.send handle) request.statement fun _ => () := by
  cases request with
  | execute statement => exact (handle.sends_execute statement).bind_pure _
  | fetch statement => exact (handle.sends_fetch statement).bind_pure _
  | fetchValue statement => exact (handle.sends_fetchValue? statement).bind_pure _

end Request

/-- How a transaction ends.  One that is given up is taken back. -/
inductive Ending
  | commit
  | rollback
deriving DecidableEq

def Ending.take (handle : Handle) : Ending -> Action Unit
  | .commit => handle.commit
  | .rollback => handle.rollback

namespace Handle

open Database.Action

def transaction (handle : Handle) (requests : List Request) (ending : Ending) :
    Action Unit := do
  handle.begin
  requests.forM (Request.attempt handle)
  ending.take handle

/-- The session to which requests lead. -/
def sent (session : Session Store) (requests : List Request) :
    Session Store :=
  requests.foldl (fun session request => (runOf session request.statement).1)
    session

theorem sent_readOnly [Machine.Lawful] (session : Session Store) (requests : List Request) :
    (sent session requests).readOnly = session.readOnly := by
  induction requests generalizing session with
  | nil => rfl
  | cons request requests ih => exact (ih _).trans (runOf_readOnly _ _)

theorem sameStore_sent [Machine.Lawful] {session other : Session Store}
    (h : session.SameStore other) (requests : List Request) :
    (sent session requests).SameStore (sent other requests) := by
  induction requests generalizing session other with
  | nil => exact h
  | cons request requests ih => exact ih (sameStore_runOf h request.statement).left

section Transaction

variable {handle : Handle} {host : Host} {connection : Connection} {store : Store}

theorem runOn_attempt_of_send {request : Request} {after : Host}
    {result : Except Failure Unit}
    (h : runOn ((fun _ => ()) <$>
        handle.run request.statement.params request.statement.text) host =
      (result, after)) :
    exists notices, runOn (request.attempt handle) host =
      (.ok (), { after with notices := notices }) := by
  have halike : Alike _ (request.send handle) host host :=
    (request.sends_send handle host).symm
  rcases halike.eq_of_runOn h with ⟨last, hsend, hsilent⟩
  exists last.notices
  rw [Request.attempt, runOn_tryCatch, hsend, <- Host.eq_of_silent_eq hsilent]
  cases result <;> rfl

theorem forM_attempt_cons (request : Request) (requests : List Request) :
    (request :: requests).forM (Request.attempt handle) =
      (do request.attempt handle
          requests.forM (Request.attempt handle)) := rfl

theorem runOn_attempts_working (requests : List Request) {session : Session Store}
    (hconnection : host.connections[handle.index]? = some connection) :
    exists notices,
      runOn (requests.forM (Request.attempt handle))
          (host.setConnection handle.index (working connection store session)) =
        (.ok (), { host.setConnection handle.index
          (working connection store (sent session requests)) with
          notices := notices }) := by
  induction requests generalizing host session with
  | nil => exact ⟨host.notices, rfl⟩
  | cons request requests ih =>
      have hsend := runOn_map (fun _ => ())
        (handle.run request.statement.params request.statement.text)
        (host.setConnection handle.index (working connection store session))
      rw [runOn_run_working hconnection] at hsend
      rcases runOn_attempt_of_send hsend with ⟨notices, hattempt⟩
      rcases @ih { host with notices := notices }
        (runOf session request.statement).1 hconnection with ⟨last, hrest⟩
      exists last
      rw [forM_attempt_cons, runOn_bind, hattempt]
      exact hrest

theorem runOn_attempts_unread (requests : List Request)
    (hconnection : host.connections[handle.index]? = some connection) :
    exists notices,
      runOn (requests.forM (Request.attempt handle))
          (handle.unread host connection store) =
        (.ok (), { handle.unread host connection store with
          notices := notices }) := by
  induction requests generalizing host with
  | nil => exact ⟨host.notices, rfl⟩
  | cons request requests ih =>
      have hrun : runOn ((fun _ => ()) <$>
          handle.run request.statement.params request.statement.text)
            (handle.unread host connection store) =
          (.error (.engine .notADatabase), handle.unread host connection store) := by
        rw [runOn_map, runOn_run_unread hconnection]
        rfl
      rcases runOn_attempt_of_send hrun with ⟨notices, hattempt⟩
      rcases @ih { host with notices := notices } hconnection with ⟨last, hrest⟩
      exists last
      rw [forM_attempt_cons, runOn_bind, hattempt]
      exact hrest

theorem runOn_commit_unread
    (hconnection : host.connections[handle.index]? = some connection) :
    runOn handle.commit (handle.unread host connection store) =
      (.ok (), handle.unread host connection store) := by
  rw [commit, runOn_connection, getElem?_unread hconnection]
  rcases connection with ⟨place, session, readable, before, closed⟩
  cases place <;> rfl

theorem trace_transaction_closed (requests : List Request) (ending : Ending)
    (hclosed : forall connection,
      host.connections[handle.index]? = some connection ->
        connection.closed = true) :
    trace (handle.transaction requests ending) host =
      (.error .closed, host.settled) := by
  rw [trace, transaction, runOn_bind, runOn_begin_closed hclosed]
  rfl

theorem trace_transaction_unread (requests : List Request) (ending : Ending)
    (hconnection : host.connections[handle.index]? = some connection)
    (hopen : connection.closed = false)
    (hcurrent : current host.disk connection = (store, false)) :
    trace (handle.transaction requests ending) host = (.ok (), host.settled) := by
  rcases @runOn_attempts_unread _ handle host connection store requests hconnection
    with ⟨notices, hattempts⟩
  have hend : runOn (ending.take handle)
      (handle.unread { host with notices := notices } connection store) =
        (.ok (), handle.unread { host with notices := notices } connection store) := by
    cases ending with
    | commit => exact runOn_commit_unread hconnection
    | rollback => exact runOn_rollback_unread hconnection
  have hsettled := @settled_unread _ handle { host with notices := notices } connection
    store hconnection hcurrent
  rw [trace, transaction, runOn_bind, runOn_begin_unread hconnection hopen hcurrent]
  dsimp only
  rw [runOn_bind, hattempts]
  exact (congrArg (fun done => (done.1.map fun _ => (), done.2.settled)) hend).trans
    (congrArg (Prod.mk _) hsettled)

def ended (handle : Handle) (host : Host) (connection : Connection)
    (before : Store) (session : Session Store) : Ending -> Host
  | .commit => handle.committed host connection before session
  | .rollback => handle.rolledBack host connection before session

theorem trace_transaction_ready (requests : List Request) (ending : Ending)
    (hconnection : host.connections[handle.index]? = some connection)
    (hopen : connection.closed = false)
    (hcurrent : current host.disk connection = (store, true)) :
    trace (handle.transaction requests ending) host =
      (.ok (), (handle.ended host connection store
        (sent (starting connection store) requests) ending).settled) := by
  rcases @runOn_attempts_working _ handle host connection store requests
    (starting connection store) hconnection with ⟨notices, hattempts⟩
  have hend : runOn (ending.take handle)
      (Host.setConnection handle.index
        (working connection store (sent (starting connection store) requests))
        { host with notices := notices }) =
      (.ok (), handle.ended { host with notices := notices } connection store
        (sent (starting connection store) requests) ending) := by
    cases ending with
    | commit => exact runOn_commit hconnection
    | rollback => exact runOn_rollback_working hconnection
  have hsettled : (handle.ended { host with notices := notices } connection store
      (sent (starting connection store) requests) ending).settled =
        (handle.ended host connection store
          (sent (starting connection store) requests) ending).settled := by
    cases ending <;> rfl
  rw [trace, transaction, runOn_bind, runOn_begin_holds hconnection hopen hcurrent]
  dsimp only
  rw [runOn_bind, hattempts]
  exact (congrArg (fun done => (done.1.map fun _ => (), done.2.settled)) hend).trans
    (congrArg (Prod.mk _) hsettled)

end Transaction

theorem determined_transaction [Machine.Lawful] (handle : Handle) (requests : List Request)
    (ending : Ending) : Determined (handle.transaction requests ending) := by
  intro host other hhosts
  -- Hosts that have settled alike are met in the same way.
  cases handle.meets host with
  | closed hclosed =>
      rw [trace_transaction_closed requests ending hclosed,
        trace_transaction_closed requests ending (closed_congr hhosts hclosed),
        hhosts]
  | unread hconnection hopen hcurrent =>
      rcases exists_of_settled_eq hhosts hconnection hopen hcurrent with
        ⟨behind, hbehind, hsettled, hbehindOpen, hfound⟩
      rw [trace_transaction_unread requests ending hconnection hopen hcurrent,
        trace_transaction_unread requests ending hbehind hbehindOpen hfound, hhosts]
  | @ready connection store hconnection hopen hcurrent =>
      rcases exists_of_settled_eq hhosts hconnection hopen hcurrent with
        ⟨behind, hbehind, hsettled, hbehindOpen, hfound⟩
      have hsame := sameStore_sent (sameStore_starting hsettled store) requests
      rw [trace_transaction_ready requests ending hconnection hopen hcurrent,
        trace_transaction_ready requests ending hbehind hbehindOpen hfound]
      cases ending with
      | commit =>
          exact congrArg (Prod.mk _)
            (settled_committed_congr hhosts hsettled hsame store store)
      | rollback =>
          rw [ended, ended, settled_rolledBack hconnection hcurrent,
            settled_rolledBack hbehind hfound, hhosts]
          · exact sent_readOnly _ requests
          · exact sent_readOnly _ requests

theorem leaves_transaction [Machine.Lawful] (handle : Handle) (requests : List Request)
    (ending : Ending) (host : Host) :
    Leaves handle host (fun session => sent session requests)
      (runOn (handle.transaction requests ending) host).2 := by
  have hsettled : (runOn (handle.transaction requests ending) host).2.settled =
      (trace (handle.transaction requests ending) host).2 := rfl
  cases handle.meets host with
  | closed hclosed =>
      rw [trace_transaction_closed requests ending hclosed] at hsettled
      exact .unchanged hsettled
  | unread hconnection hopen hcurrent =>
      rw [trace_transaction_unread requests ending hconnection hopen hcurrent]
        at hsettled
      exact .unchanged hsettled
  | ready hconnection hopen hcurrent =>
      rw [trace_transaction_ready requests ending hconnection hopen hcurrent]
        at hsettled
      cases ending with
      | commit => exact .committed hconnection hcurrent hsettled
      | rollback =>
          exact .unchanged (hsettled.trans
            (settled_rolledBack hconnection hcurrent (sent_readOnly _ requests)))

theorem settled_transaction [Machine.Lawful] (handle : Handle) (requests : List Request)
    (ending : Ending) (host : Host)
    (h : ending = .rollback ∨
      exists failure, (trace (handle.transaction requests ending) host).1 =
        .error failure) :
    (trace (handle.transaction requests ending) host).2 = host.settled := by
  cases handle.meets host with
  | closed hclosed => rw [trace_transaction_closed requests ending hclosed]
  | unread hconnection hopen hcurrent =>
      rw [trace_transaction_unread requests ending hconnection hopen hcurrent]
  | ready hconnection hopen hcurrent =>
      rw [trace_transaction_ready requests ending hconnection hopen hcurrent] at h ⊢
      rcases h with rfl | ⟨failure, hfailure⟩
      · exact settled_rolledBack hconnection hcurrent (sent_readOnly _ requests)
      · cases hfailure

end Handle

/-!
# Sequences of operations and transactions
-/

inductive Step
  | operation (table : TableHandle) (asked : Operation)
  | transaction (handle : Handle) (requests : List Request) (ending : Ending)

namespace Step

open Database.Action

def perform : Step -> Action Unit
  | .operation table asked => asked.perform table
  | .transaction handle requests ending => handle.transaction requests ending

/-- Whether a step with a result is a successful operation or a committed transaction. -/
def lasts : Step -> Except Failure Unit -> Bool
  | .operation _ _, .ok _ => true
  | .transaction _ _ ending, .ok _ => ending = .commit
  | _, .error _ => false

def afterAll : List Step -> Host -> Host
  | [], host => host
  | step :: rest, host => afterAll rest (runOn step.perform host).2

/-- The steps that are successful operations and committed transactions, in order. -/
def lasting : List Step -> Host -> List Step
  | [], _ => []
  | step :: rest, host =>
      let done := runOn step.perform host
      if step.lasts done.1 then step :: lasting rest done.2
      else lasting rest done.2

omit [Machine] in
theorem map_unit (result : Except Failure Unit) :
    (result.map fun _ => ()) = result := by
  cases result <;> rfl

theorem determined_perform [Machine.Lawful] (step : Step) : Determined step.perform := by
  cases step with
  | operation table asked =>
      intro host other hhosts
      cases hfound : filterViolations asked.filter? with
      | nil =>
          exact ((asked.guarded_perform table).atomic hfound).determined host
            other hhosts
      | cons violation others =>
          have hrefuses :=
            (asked.guarded_perform table).refuses violation others hfound
          rw [trace, trace, perform, hrefuses host, hrefuses other, hhosts]
  | transaction handle requests ending =>
      exact handle.determined_transaction requests ending

theorem reverts_operation [Machine.Lawful] (table : TableHandle) (asked : Operation) :
    Reverts (asked.perform table) := by
  intro host after failure hrun
  cases hfound : filterViolations asked.filter? with
  | nil =>
      exact ((asked.guarded_perform table).atomic hfound).reverts host after
        failure hrun
  | cons violation others =>
      rw [(asked.guarded_perform table).refuses violation others hfound] at hrun
      cases hrun
      rfl

theorem settled_of_not_lasts [Machine.Lawful] {step : Step} {host : Host}
    (h : step.lasts (runOn step.perform host).1 = false) :
    (runOn step.perform host).2.settled = host.settled := by
  rcases hdone : runOn step.perform host with ⟨result, after⟩
  rw [hdone] at h
  cases step with
  | operation table asked =>
      cases result with
      | ok _ => cases h
      | error failure => exact reverts_operation table asked host after failure hdone
  | transaction handle requests ending =>
      have htrace : trace (handle.transaction requests ending) host =
          (result, after.settled) := by
        rw [trace, show runOn (handle.transaction requests ending) host = _ from hdone,
          map_unit]
      have hended := handle.settled_transaction requests ending host
      rw [htrace] at hended
      apply hended
      cases result with
      | error failure => exact .inr ⟨failure, rfl⟩
      | ok _ =>
          cases ending with
          | commit => cases h
          | rollback => exact .inl rfl

theorem eq_of_settled_eq [Machine.Lawful] (step : Step) {host other : Host}
    (h : host.settled = other.settled) :
    (runOn step.perform host).1 = (runOn step.perform other).1 ∧
      (runOn step.perform host).2.settled = (runOn step.perform other).2.settled := by
  have htrace := step.determined_perform host other h
  rw [trace, trace, map_unit, map_unit] at htrace
  exact Prod.mk.inj htrace

/-- Steps that do not last can be left out, from any host with the same databases. -/
theorem settled_afterAll_lasting [Machine.Lawful] (steps : List Step) {host other : Host}
    (h : host.settled = other.settled) :
    (afterAll (lasting steps host) other).settled = (afterAll steps host).settled ∧
      lasting (lasting steps host) other = lasting steps host := by
  induction steps generalizing host other with
  | nil => exact ⟨h.symm, rfl⟩
  | cons step rest ih =>
      rcases step.eq_of_settled_eq h with ⟨hresult, hsettled⟩
      cases hlasts : step.lasts (runOn step.perform host).1 with
      | false =>
          have hkept := (settled_of_not_lasts hlasts).trans h
          have hlasting : lasting (step :: rest) host =
              lasting rest (runOn step.perform host).2 := by
            rw [lasting, hlasts]
            rfl
          rw [hlasting]
          exact ih hkept
      | true =>
          have hlasting : lasting (step :: rest) host =
              step :: lasting rest (runOn step.perform host).2 := by
            rw [lasting, hlasts]
            rfl
          rcases ih hsettled with ⟨hafter, hagain⟩
          rw [hlasting]
          refine ⟨hafter, ?_⟩
          rw [lasting, <- hresult, hlasts, if_pos rfl, hagain]

end Step

/-!
# What failed work leaves
-/

open Database.Action (runOn)

/--
An operation that fails leaves the files and the databases in memory as they were.  If
its filter is malformed, it fails with the first violation of the filter, and nothing at
all is done on the host.  Hence the operations that succeed and the transactions that are
committed, performed alone and in their order, succeed again and lead to the same
databases as all operations and transactions together.
-/
theorem failed_work_leaves_nothing [Machine.Lawful] :
    (forall (table : TableHandle) (operation : Operation) (host : Host),
      (forall (failure : Failure) (after : Host),
        runOn (operation.perform table) host = (.error failure, after) ->
          after.settled = host.settled) ∧
      (forall (violation : ShapeError) (others : List ShapeError),
        filterViolations operation.filter? = violation :: others ->
          runOn (operation.perform table) host =
            (.error (.predicate violation), host))) ∧
    (forall (steps : List Step) (host : Host),
      (Step.afterAll (Step.lasting steps host) host).settled =
          (Step.afterAll steps host).settled ∧
        Step.lasting (Step.lasting steps host) host = Step.lasting steps host) := by
  constructor
  · intro table operation host
    exact ⟨fun failure after => Step.reverts_operation table operation host after failure,
      fun violation others hfound =>
        (operation.guarded_perform table).refuses violation others hfound host⟩
  · intro steps host
    exact Step.settled_afterAll_lasting steps rfl

end

section Witness

open Database.Action (runOn)
open Engine.Sqlite

def freshHost : Host :=
  (runOn (openDatabase ":memory:") (Host.ofDisk .empty)).2

def freshTable : TableHandle :=
  ⟨⟨0⟩, "t", ⟨[⟨"a", .integer, [], none⟩]⟩, .parameterized⟩

/-- A row is added before its table is there, and again in transactions. -/
def mixedSteps : List Step :=
  [.operation freshTable (.insert (.ofList [("a", .int 1)])),
    .operation freshTable .create,
    .transaction ⟨0⟩ [.execute ⟨"INSERT INTO t (a) VALUES (?)", [.int 2]⟩] .rollback,
    .operation freshTable (.count (some [.anyOf []])),
    .transaction ⟨0⟩ [.execute ⟨"INSERT INTO u VALUES (1)", []⟩,
      .execute ⟨"INSERT INTO t (a) VALUES (?)", [.int 3]⟩] .commit]

theorem failed_work_leaves_nothing_of_mixedSteps :
    (exists failure after,
      runOn (Operation.perform freshTable
          (.insert (.ofList [("a", .int 1)]))) freshHost =
        (.error failure, after) ∧ after.settled = freshHost.settled) ∧
    runOn (Operation.perform freshTable (.count (some [.anyOf []]))) freshHost =
      (.error (.predicate .noBranches), freshHost) ∧
    (Step.lasting mixedSteps freshHost).length = 2 ∧
    (Step.afterAll (Step.lasting mixedSteps freshHost) freshHost).settled =
      (Step.afterAll mixedSteps freshHost).settled := by
  rcases failed_work_leaves_nothing with ⟨hoperations, hsteps⟩
  have hlasting : (Step.lasting mixedSteps freshHost).length = 2 := by
    decide +kernel
  refine ⟨?_, ?_, hlasting, (hsteps mixedSteps freshHost).left⟩
  · rcases hdone : runOn (Operation.perform freshTable
        (.insert (.ofList [("a", .int 1)]))) freshHost with ⟨result, after⟩
    have hresult : (runOn (Operation.perform freshTable
        (.insert (.ofList [("a", .int 1)]))) freshHost).1.toOption = none := by
      decide +kernel
    rw [hdone] at hresult
    cases result with
    | ok _ => cases hresult
    | error failure =>
        exact ⟨failure, after, rfl,
          (hoperations freshTable _ freshHost).left failure after hdone⟩
  · apply (hoperations freshTable (.count (some [.anyOf []])) freshHost).right
    rw [Operation.filter?, filterViolations, Predicate.violations,
      Predicate.entryViolations]
    rfl

end Witness

end Database
end TableStore
