import TableStore.Engine.Cell
import TableStore.Engine.Error

/-!
# Engines

What the work on databases needs of an engine: it runs statement text on what is
kept in a database, and what is kept has a version.  Nothing is said here about
the language of the statements.
-/

namespace TableStore
namespace Engine

abbrev ResultRow := List (String × Cell)

structure Session (Store : Type) where
  store : Store
  changes : Nat
  readOnly : Bool

namespace Session

variable {Store : Type}

def start (store : Store) (readOnly : Bool) : Session Store :=
  ⟨store, 0, readOnly⟩

structure Result where
  rows : List ResultRow
  /-- The rows that the last change concerned, summed over all statements. -/
  affected : Nat

end Session

class Machine where
  /-- What is kept in a database. -/
  Store : Type
  empty : Store
  isBlank : Store -> Bool
  version : Store -> Int
  withVersion : Int -> Store -> Store
  /-- Runs the statements of a text up to the first one that fails. -/
  run : Session Store -> List Cell -> String ->
    Session Store × Except Error Session.Result

/-- What the work on databases relies on. -/
class Machine.Lawful [Machine] : Prop where
  version_withVersion : forall version store,
    Machine.version (Machine.withVersion version store) = version
  withVersion_version : forall store,
    Machine.withVersion (Machine.version store) store = store
  withVersion_withVersion : forall version other store,
    Machine.withVersion version (Machine.withVersion other store) =
      Machine.withVersion version store
  run_readOnly : forall session params text,
    (Machine.run session params text).1.readOnly = session.readOnly
  run_changes : forall session changes params text,
    (Machine.run { session with changes := changes } params text).1.store =
        (Machine.run session params text).1.store ∧
      (Machine.run { session with changes := changes } params text).2.map
          Session.Result.rows =
        (Machine.run session params text).2.map Session.Result.rows

end Engine
end TableStore
