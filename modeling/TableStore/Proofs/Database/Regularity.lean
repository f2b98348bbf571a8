import TableStore.Proofs.Database.Atomicity
import TableStore.Proofs.Engine.Stores

/-!
# Hosts in order

The tables of every database on a host are in order, whatever operations and
transactions have been performed on them.
-/

namespace TableStore
namespace Database

open Database.Action (runOn runOn_bind)
open Engine (Dialect Machine Session Store)
open Statement (runOf)

variable [Dialect]

structure Host.Regular (host : Host) : Prop where
  files : forall (path : String) (store : Store),
    host.disk.find? path = some (.store store) -> store.Regular
  connections : forall connection, connection ∈ host.connections ->
    connection.kept.Regular

namespace Host.Regular

variable {host after : Host}

theorem ofDisk_empty : Host.Regular (.ofDisk .empty) where
  files _ _ hfind := nomatch hfind
  connections _ hmem := nomatch hmem

theorem kept_settled (connection : Connection) :
    connection.settled.kept = connection.kept := by
  rcases connection with ⟨place, session, readable, before, closed⟩
  cases place <;> rfl

theorem of_settled_eq (h : host.Regular) (hsettled : after.settled = host.settled) :
    after.Regular where
  files path store hfind := by
    rw [<- Host.disk_settled, hsettled, Host.disk_settled] at hfind
    exact h.files path store hfind
  connections connection hmem := by
    have hmapped : connection.settled ∈ host.settled.connections := by
      rw [<- hsettled]
      exact List.mem_map_of_mem hmem
    rcases List.mem_map.mp hmapped with ⟨behind, hbehind, heq⟩
    rw [<- kept_settled, <- heq, kept_settled]
    exact h.connections behind hbehind

theorem current (h : host.Regular) {index : Nat} {connection : Connection}
    (hconnection : host.connections[index]? = some connection) :
    (Handle.current host.disk connection).1.Regular := by
  have hkept := h.connections connection (List.mem_of_getElem? hconnection)
  rw [Connection.kept] at hkept
  unfold Handle.current
  cases hplace : connection.place with
  | memory =>
      rw [hplace] at hkept
      exact hkept
  | file path =>
      dsimp only
      cases hfile : host.disk.find? path with
      | none => exact Store.regular_empty
      | some file =>
          cases file with
          | store store => exact h.files path store hfile
          | text content =>
              rw [storeOfFile?]
              cases content.isEmpty <;> exact Store.regular_empty

/-- The next transaction on a host in order starts in order. -/
theorem of_serves (h : host.Regular) {handle : Handle} {session : Session Store}
    (hserves : handle.Serves host session) : session.store.Regular := by
  rcases hserves with ⟨connection, hconnection, _, hcurrent, _⟩
  have hregular := h.current hconnection
  rw [hcurrent] at hregular
  exact hregular

theorem committed (h : host.Regular) (handle : Handle) (connection : Connection)
    (before : Store) {session : Session Store} (hsession : session.store.Regular) :
    (handle.committed host connection before session).Regular where
  files path store hfind := by
    have hsaved : (host.disk.saved connection.place session.store).find? path =
        some (.store store) := hfind
    cases hplace : connection.place with
    | memory =>
        rw [hplace] at hsaved
        exact h.files path store hsaved
    | file place =>
        rw [hplace, Disk.saved, Disk.find?_put] at hsaved
        split at hsaved
        · cases hsaved
          exact hsession
        · exact h.files path store hsaved
  connections other hmem := by
    have hset : other ∈ host.connections.set handle.index
        (Handle.working connection before session) := hmem
    rcases List.mem_or_eq_of_mem_set hset with hold | rfl
    · exact h.connections other hold
    · cases hplace : connection.place with
      | memory =>
          rw [Connection.kept, Handle.working, hplace]
          exact hsession
      | file path =>
          rw [Connection.kept, Handle.working, hplace]
          exact Store.regular_empty

end Host.Regular

/-!
# What keeps the databases in order
-/

namespace Action

variable {α β : Type}

def Keeps (action : Action α) : Prop :=
  forall host : Host, host.Regular -> (runOn action host).2.Regular

theorem keeps_of_concludes {action : Action α} (h : Concludes action) :
    Keeps action := by
  intro host hhost
  rcases h host with ⟨result, notices, hrun⟩
  rw [hrun]
  exact hhost.of_settled_eq rfl

theorem Keeps.bind {action : Action α} (h : Keeps action) {next : α -> Action β}
    (hnext : forall result, Keeps (next result)) : Keeps (action >>= next) := by
  intro host hhost
  have hfirst := h host hhost
  rw [runOn_bind]
  rcases hrun : runOn action host with ⟨failure | result, after⟩
  · rw [hrun] at hfirst
    exact hfirst
  · rw [hrun] at hfirst
    exact hnext result after hfirst

end Action

open Database.Action (Keeps keeps_of_concludes)

namespace Handle

theorem regular_runOf {session : Session Store} (h : session.store.Regular)
    (statement : Fragment) : (runOf session statement).1.store.Regular :=
  Session.runText_regular h _ statement.text

/-- A transaction keeps databases in order if its statements keep stores in order. -/
theorem Leaves.regular {handle : Handle} {host after : Host}
    {made : Session Store -> Session Store} (h : Leaves handle host made after)
    (hmade : forall session : Session Store, session.store.Regular ->
      (made session).store.Regular) (hhost : host.Regular) : after.Regular := by
  cases h with
  | unchanged hsettled => exact hhost.of_settled_eq hsettled
  | @committed connection store hconnection hcurrent hsettled =>
      have hstart := hhost.current hconnection
      rw [hcurrent] at hstart
      exact (hhost.committed handle connection store
        (hmade (starting connection store) hstart)).of_settled_eq hsettled

theorem Sends.keeps {α : Type} {handle : Handle} {task : Action α}
    {statement : Fragment} {look : Session.Result -> α}
    (h : Sends handle task statement look) : Keeps (handle.atomically task) :=
  fun host => (h.leaves host).regular fun _ hstart => regular_runOf hstart statement

theorem regular_sent {session : Session Store} (h : session.store.Regular)
    (requests : List Request) : (sent session requests).store.Regular := by
  induction requests generalizing session with
  | nil => exact h
  | cons request requests ih => exact ih (regular_runOf h request.statement)

theorem keeps_transaction (handle : Handle) (requests : List Request)
    (ending : Ending) : Keeps (handle.transaction requests ending) :=
  fun host => (handle.leaves_transaction requests ending host).regular
    fun _ hstart => regular_sent hstart requests

end Handle

theorem Undertakes.keeps {α : Type} {handle : Handle} {action : Action α}
    {statement : Except ShapeError Fragment}
    (h : Undertakes handle action statement) : Keeps action := by
  cases h with
  | refuses hrefuses =>
      intro host hhost
      rw [hrefuses host]
      exact hhost
  | sends hsends hnext heq =>
      rw [heq]
      exact hsends.keeps.bind fun result => keeps_of_concludes (hnext result)

theorem Step.keeps_perform (step : Step) : Keeps step.perform := by
  cases step with
  | operation table asked => exact (asked.undertakes_perform table).keeps
  | transaction handle requests ending =>
      exact handle.keeps_transaction requests ending

theorem keeps_throw {α : Type} (failure : Failure) :
    Keeps (throw failure : Action α) :=
  fun _ hhost => hhost

theorem keeps_openFile (path : String) (address : Address) :
    Keeps (openFile path address) := by
  intro host hhost
  have hget : runOn (get : Action Host) host = (.ok host, host) := rfl
  rw [openFile, runOn_bind, hget]
  dsimp only
  by_cases hdirectory : host.disk.isDirectory path
  · rw [if_pos hdirectory]
    exact hhost
  · rw [if_neg hdirectory]
    cases host.disk.find? path with
    | some file => exact hhost
    | none =>
        dsimp only
        split
        · refine ⟨fun other store hfind => ?_, hhost.connections⟩
          have hput : (host.disk.put path (.store .empty)).find? other =
              some (.store store) := hfind
          rw [Disk.find?_put] at hput
          split at hput
          · cases hput
            exact Store.regular_empty
          · exact hhost.files other store hput
        · exact hhost

theorem keeps_connected (connection : Connection)
    (hconnection : connection.kept.Regular) :
    Keeps (do
      let index := (<- get).connections.length
      modify fun host =>
        { host with connections := host.connections ++ [connection] }
      return (⟨index⟩ : Handle)) := by
  intro host hhost
  refine ⟨hhost.files, fun other hmem => ?_⟩
  have happend : other ∈ host.connections ++ [connection] := hmem
  rcases List.mem_append.mp happend with hold | hnew
  · exact hhost.connections other hold
  · rw [List.mem_singleton.mp hnew]
    exact hconnection

theorem keeps_openDatabase (name : String) : Keeps (openDatabase name) := by
  have hfresh (place : Place) (readOnly : Bool) : Store.Regular
      (Connection.kept ⟨place, .start Machine.empty readOnly, true, Machine.empty, false⟩) := by
    cases place <;> exact Store.regular_empty
  rw [openDatabase]
  cases Address.ofName name with
  | error text => exact keeps_throw _
  | ok address =>
      dsimp only
      rw [pure_bind]
      cases address.place with
      | memory => exact keeps_connected _ (hfresh .memory address.readOnly)
      | file path =>
          exact (keeps_openFile path address).bind
            fun _ => keeps_connected _ (hfresh (.file path) address.readOnly)

theorem Host.Regular.afterAll {host : Host} (h : host.Regular) (steps : List Step) :
    (Step.afterAll steps host).Regular := by
  induction steps generalizing host with
  | nil => exact h
  | cons step rest ih => exact ih (step.keeps_perform host h)

end Database
end TableStore
