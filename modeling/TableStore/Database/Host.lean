import TableStore.Database.Address
import TableStore.Database.Disk
import TableStore.Database.Failure
import TableStore.Database.Log
import TableStore.Row

/-!
# Open databases

A host keeps the files, the databases that have been opened and what has been
reported.  Each database has one connection, on which one transaction at a time
is open.  A transaction keeps the store as it was at its start; ending it by a
commit writes the store to its file, ending it in another way brings the old
store back.
-/

namespace TableStore
namespace Database

open Engine (Machine Session)

variable [Machine]

structure Connection where
  place : Place
  session : Session Machine.Store
  readable : Bool
  /-- The store at the start of the open transaction. -/
  before : Machine.Store
  closed : Bool

structure Host where
  disk : Disk
  connections : List Connection
  notices : List Notice

def Host.ofDisk (disk : Disk) : Host :=
  ⟨disk, [], []⟩

/-- Work on a host that may fail; what was done before the failure stays. -/
abbrev Action := ExceptT Failure (StateM Host)

structure Handle where
  index : Nat
deriving DecidableEq

def notify (notice : Notice) : StateM Host Unit :=
  modify fun host => { host with notices := notice :: host.notices }

def report (level : LogLevel) (message : String)
    (fields : List (String × String)) : StateM Host Unit :=
  notify (.log level message fields)

def storeOfFile? : Option File -> Option Machine.Store
  | some (.store store) => some store
  | some (.text content) => if content.isEmpty then some Machine.empty else none
  | none => some Machine.empty

def openFile (path : String) (address : Address) : Action Unit := do
  let disk := (<- get).disk
  if disk.isDirectory path then throw (.engine .cannotOpen)
  match disk.find? path with
  | some _ => return
  | none =>
      if address.create && !address.readOnly &&
          disk.isDirectory (Disk.parent path) then
        modify fun host =>
          { host with disk := host.disk.put path (.store Machine.empty) }
      else throw (.engine .cannotOpen)

def openDatabase (name : String) : Action Handle := do
  let address <-
    match Address.ofName name with
    | .ok address => pure address
    | .error text => throw (.configuration text)
  match address.place with
  | .memory => pure ()
  | .file path => openFile path address
  let connection : Connection :=
    ⟨address.place, .start Machine.empty address.readOnly, true, Machine.empty,
      false⟩
  let index := (<- get).connections.length
  modify fun host =>
    { host with connections := host.connections ++ [connection] }
  return ⟨index⟩

namespace Handle

def connection? (handle : Handle) : StateM Host (Option Connection) := do
  return (<- get).connections[handle.index]?

def modifyConnection (handle : Handle) (change : Connection -> Connection) :
    StateM Host Unit :=
  modify fun host =>
    { host with connections := host.connections.modify handle.index change }

def close (handle : Handle) : StateM Host Unit := do
  report .info "Closing database" []
  handle.modifyConnection fun connection => { connection with closed := true }

/-- The store of a connection and whether there is one, as its file has it. -/
def current (disk : Disk) (connection : Connection) : Machine.Store × Bool :=
  match connection.place with
  | .memory => (connection.session.store, true)
  | .file path =>
      match storeOfFile? (disk.find? path) with
      | some store => (store, true)
      | none => (Machine.empty, false)

def begin (handle : Handle) : Action Unit := do
  match <- handle.connection? with
  | none => throw .closed
  | some connection =>
      if connection.closed then throw .closed
      let (store, readable) := current (<- get).disk connection
      handle.modifyConnection fun connection =>
        { connection with
          session := { connection.session with store := store }
          readable := readable
          before := store }

def run (handle : Handle) (params : List Value) (text : String) :
    Action Session.Result := do
  match <- handle.connection? with
  | none => throw .closed
  | some connection =>
      if !connection.readable then throw (.engine .notADatabase)
      let (session, result) :=
        Machine.run connection.session (params.map Engine.Cell.ofValue) text
      handle.modifyConnection fun connection =>
        { connection with session := session }
      match result with
      | .ok result => return result
      | .error error => throw (.engine error)

def runReporting (handle : Handle) (complaint : String) (params : List Value)
    (text : String) : Action Session.Result := do
  try
    handle.run params text
  catch failure =>
    report .warn complaint [("sql", text), ("error", failure.source)]
    throw failure

def execute (handle : Handle) (params : List Value) (text : String) :
    Action Nat := do
  return (<- handle.runReporting "Statement failed" params text).affected

def decodeRow (row : Engine.ResultRow) : Row :=
  Row.ofList (row.map fun (name, cell) => (name, cell.value))

def fetch (handle : Handle) (params : List Value) (text : String) :
    Action (List Row) := do
  let result <- handle.runReporting "Query failed" params text
  return result.rows.map decodeRow

/-- The first value of the first row. -/
def firstValue? (rows : List Row) : Option Value :=
  rows.head?.bind fun row => row.values.head?

def fetchValue? (handle : Handle) (params : List Value) (text : String) :
    Action (Option Value) := do
  return firstValue? (<- handle.fetch params text)

def commit (handle : Handle) : Action Unit := do
  match <- handle.connection? with
  | none => throw .closed
  | some connection =>
      match connection.place with
      | .memory => pure ()
      | .file path =>
          if connection.readable then
            modify fun host =>
              { host with
                disk := host.disk.put path (.store connection.session.store) }

def rollback (handle : Handle) : StateM Host Unit :=
  handle.modifyConnection fun connection =>
    { connection with
      session := { connection.session with store := connection.before } }

def atomically {α : Type} (handle : Handle) (task : Action α) : Action α := do
  handle.begin
  try
    let result <- task
    handle.commit
    return result
  catch failure =>
    handle.rollback
    throw failure

end Handle
end Database
end TableStore
