import TableStore.Engine.Query

/-!
# Sessions

A session runs statement text on a store, one statement after another, and
remembers how many rows the last change has concerned.
-/

namespace TableStore
namespace Engine

structure Outcome where
  rows : List ResultRow
  /-- The number of rows that a change concerns; absent for other statements. -/
  changed? : Option Nat

variable [Dialect]

namespace Store

def run (store : Store) (params : List Cell) :
    Sql.Command -> Except Error (Store × Outcome)
  | .createTable table ifAbsent columns => do
      return (<- store.createTable table ifAbsent columns, ⟨[], none⟩)
  | .dropTable table ifPresent => do
      return (<- store.dropTable table ifPresent, ⟨[], none⟩)
  | .addColumn table column => do
      return (<- store.addColumn table column, ⟨[], none⟩)
  | .insert table rows => do
      let (after, count) <- store.insert table params rows
      return (after, ⟨[], some count⟩)
  | .select query => do
      return (store, ⟨<- store.select params query, none⟩)
  | .update table assignments condition? => do
      let (after, count) <- store.update table params assignments condition?
      return (after, ⟨[], some count⟩)
  | .delete table condition? => do
      let (after, count) <- store.delete table params condition?
      return (after, ⟨[], some count⟩)
  | .version =>
      .ok (store,
        ⟨[[("user_version", .int (Int64.ofInt store.version))]], none⟩)
  | .setVersion version => .ok (store.withVersion version, ⟨[], none⟩)

def runWithin (store : Store) (params : List Cell) (command : Sql.Command) :
    Except Error (Store × Outcome) :=
  match Dialect.excess? command with
  | some message => .error (.excess message)
  | none => store.run params command

def changesRows : Sql.Command -> Bool
  | .insert _ _ => true
  | .update _ _ _ => true
  | .delete _ _ => true
  | _ => false

def writes (store : Store) : Sql.Command -> Bool
  | .createTable table _ _ => (store.find? table).isNone
  | .dropTable table _ => (store.find? table).isSome
  | .select _ => false
  | .version => false
  | _ => true

end Store

namespace Session

def attempt (session : Session Store) (params : List Cell)
    (command : Sql.Command) : Except Error (Store × Outcome) :=
  match session.store.runWithin params command with
  | .error error =>
      if session.readOnly && error.isLate && session.store.writes command then
        .error .readOnly
      else .error error
  | .ok result =>
      if session.readOnly && session.store.writes command then .error .readOnly
      else .ok result

/-- Runs a command.  When a change fails on its way, it concerns no row. -/
def perform (session : Session Store) (params : List Cell)
    (command : Sql.Command) : Session Store × Except Error (List ResultRow) :=
  match session.attempt params command with
  | .ok (store, outcome) =>
      ({ session with
          store := store
          changes := outcome.changed?.getD session.changes },
        .ok outcome.rows)
  | .error error =>
      (if error.isLate && Store.changesRows command then
          { session with changes := 0 }
        else session,
        .error error)

def Result.push (rows : List ResultRow) (changes : Nat) (result : Result) :
    Result :=
  ⟨rows ++ result.rows, changes + result.affected⟩

def runTokens (params : List Cell) :
    Nat -> Session Store -> List Sql.Lexeme -> Session Store × Except Error Result
  | 0, session, _ => (session, .ok ⟨[], 0⟩)
  | fuel + 1, session, tokens =>
      match Sql.Command.dropEmptyStatements tokens with
      | [] => (session, .ok ⟨[], 0⟩)
      | first :: rest =>
          match Sql.Command.read.run (first :: rest) with
          | .error fault => (session, .error (.fault fault))
          | .ok (command, others) =>
              match session.perform params command with
              | (session, .error error) => (session, .error error)
              | (session, .ok rows) =>
                  let changes := session.changes
                  let (session, result) := runTokens params fuel session others
                  (session, result.map (Result.push rows changes))

/--
Runs the statements of a text.  The statements before one that fails have been
run, those behind it are not looked at.
-/
def runText (session : Session Store) (params : List Cell) (text : String) :
    Session Store × Except Error Result :=
  let tokens := Sql.scan text
  runTokens params (tokens.length + 1) session tokens

end Session

instance machine : Machine where
  Store := Store
  empty := .empty
  isBlank store := store.tables.isEmpty && store.version = 0
  version := Store.version
  withVersion := Store.withVersion
  run := Session.runText

end Engine
end TableStore
