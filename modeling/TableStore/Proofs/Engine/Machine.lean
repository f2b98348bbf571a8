import TableStore.Engine.Machine
import TableStore.Fragment

/-!
# Texts on an engine

What a text makes of a store, whatever the engine, and what is assumed of the texts
that are about the version: one returns it, the other ones replace it and nothing
else.
-/

namespace TableStore
namespace Engine

structure Session.SameStore {Store : Type} (session other : Session Store) : Prop where
  store_eq : other.store = session.store
  readOnly_eq : other.readOnly = session.readOnly

theorem Session.SameStore.trans {Store : Type} {first second third : Session Store}
    (h : first.SameStore second) (hnext : second.SameStore third) :
    first.SameStore third :=
  ⟨hnext.store_eq.trans h.store_eq, hnext.readOnly_eq.trans h.readOnly_eq⟩

namespace Machine

theorem map_eq_of_rows {α : Type} {first second : Except Error Session.Result}
    (h : first.map Session.Result.rows = second.map Session.Result.rows)
    (value : α) : (first.map fun _ => value) = second.map fun _ => value := by
  rcases first with error | result
  · rcases second with other | result
    · cases h
      rfl
    · cases h
  · rcases second with error | other
    · cases h
    · rfl

/-- The version that is read back behind a version that has been stored. -/
def storedVersion (version : UInt32) : UInt32 :=
  if version.toNat < 2147483648 then version else 0

theorem storedVersion_eq_self_iff (version : UInt32) :
    storedVersion version = version <-> version.toNat < 2147483648 := by
  unfold storedVersion
  split
  · simp [*]
  · rename_i hlarge
    constructor
    · intro heq
      rw [<- heq] at hlarge
      exact absurd (by decide) hlarge
    · exact fun hlt => absurd hlt hlarge

variable [Machine]

def execute (store : Machine.Store) (text : String) : Except Error Machine.Store :=
  let done := Machine.run (Session.start store false) [] text
  done.2.map fun _ => done.1.store

theorem execute_eq_run [Machine.Lawful] {session : Session Machine.Store}
    (hwritable : session.readOnly = false) (text : String) :
    execute session.store text =
      (run session [] text).2.map fun _ => (run session [] text).1.store := by
  have hsession : session =
      { Session.start session.store false with changes := session.changes } := by
    rw [Session.start, <- hwritable]
  rcases Lawful.run_changes (Session.start session.store false) session.changes
    [] text with ⟨hstore, hrows⟩
  rw [<- hsession] at hstore hrows
  rw [hstore]
  exact map_eq_of_rows hrows.symm _

/-- A text succeeds on a store and leaves it as it is. -/
def Made (store : Machine.Store) (text : String) : Prop :=
  forall session : Session Machine.Store, session.store = store ->
    (exists result, (run session [] text).2 = .ok result) ∧
      (run session [] text).1.store = store

/-- A text that has succeeded has nothing left to do. -/
def Settles (text : String) : Prop :=
  forall (session : Session Machine.Store) (result : Session.Result),
    (run session [] text).2 = .ok result ->
      Made (run session [] text).1.store text

theorem run_sameStore [Machine.Lawful] {session other : Session Machine.Store}
    (h : session.SameStore other) (params : List Cell) (text : String) :
    (run session params text).1.SameStore (run other params text).1 ∧
      (run other params text).2.map Session.Result.rows =
        (run session params text).2.map Session.Result.rows := by
  have hother : other = { session with changes := other.changes } := by
    rw [<- h.store_eq, <- h.readOnly_eq]
  rcases Lawful.run_changes session other.changes params text with ⟨hstore, hrows⟩
  rw [<- hother] at hstore hrows
  refine ⟨⟨hstore, ?_⟩, hrows⟩
  rw [Lawful.run_readOnly, Lawful.run_readOnly, h.readOnly_eq]

def SameContents (store other : Machine.Store) : Prop :=
  forall version, withVersion version other = withVersion version store

theorem sameContents_withVersion [Machine.Lawful] (version : Int) (store : Machine.Store) :
    SameContents store (withVersion version store) :=
  fun other => Lawful.withVersion_withVersion other version store

theorem SameContents.trans {first second third : Machine.Store}
    (h : SameContents first second) (hnext : SameContents second third) :
    SameContents first third :=
  fun version => (hnext version).trans (h version)

theorem SameContents.symm {store other : Machine.Store} (h : SameContents store other) :
    SameContents other store :=
  fun version => (h version).symm

end Machine
end Engine

open Engine (Machine Session)

variable [Machine]

def Statement.runOf (session : Session Machine.Store) (statement : Fragment) :
    Session Machine.Store × Except Engine.Error Session.Result :=
  Machine.run session (statement.params.map Engine.Cell.ofValue) statement.text

/-!
# Statements and the version
-/

namespace Fragment

open Statement (runOf)

/-- A statement that leaves the version as it is, unless it fails. -/
def KeepsVersion (statement : Fragment) : Prop :=
  forall session result, (runOf session statement).2 = .ok result ->
    Machine.version (runOf session statement).1.store = Machine.version session.store

/-- A statement that does the same whatever the version, which it keeps. -/
def IgnoresVersion (statement : Fragment) : Prop :=
  forall version session,
    let other := { session with store := Machine.withVersion version session.store }
    (runOf other statement).1.store =
        Machine.withVersion version (runOf session statement).1.store ∧
      (runOf other statement).2.map Session.Result.rows =
        (runOf session statement).2.map Session.Result.rows

theorem IgnoresVersion.keepsVersion [Machine.Lawful] {statement : Fragment}
    (h : statement.IgnoresVersion) : statement.KeepsVersion := by
  intro session result _
  have hstore := (h (Machine.version session.store) session).left
  rw [Machine.Lawful.withVersion_version] at hstore
  rw [hstore, Machine.Lawful.version_withVersion]

theorem IgnoresVersion.execute_withVersion {text : String}
    (h : (Fragment.ofText text).IgnoresVersion) (version : Int)
    (store : Machine.Store) :
    Machine.execute (Machine.withVersion version store) text =
      (Machine.execute store text).map (Machine.withVersion version) := by
  rcases h version (Session.start store false) with ⟨hstore, hrows⟩
  have hmoved : Machine.execute (Machine.withVersion version store) text =
      (Machine.run (.start store false) [] text).2.map fun _ =>
        Machine.withVersion version (Machine.run (.start store false) [] text).1.store :=
    (Machine.map_eq_of_rows hrows _).trans
      (congrArg (fun made => (Machine.run (.start store false) [] text).2.map
        fun _ => made) hstore)
  rw [hmoved, Machine.execute]
  cases (Machine.run (.start store false) [] text).2 <;> rfl

theorem KeepsVersion.version_of_execute {text : String}
    (h : (Fragment.ofText text).KeepsVersion) {store after : Machine.Store}
    (hexecute : Machine.execute store text = .ok after) :
    Machine.version after = Machine.version store := by
  have hkept := h (Session.start store false)
  rw [Machine.execute] at hexecute
  cases hresult : (Machine.run (.start store false) [] text).2 with
  | error error =>
      rw [hresult] at hexecute
      cases hexecute
  | ok result =>
      rw [hresult] at hexecute
      cases hexecute
      exact hkept result hresult

end Fragment

namespace Engine
namespace Machine

def versionRows (version : Int) : List ResultRow :=
  [[("user_version", .int (Int64.ofInt version))]]

class Versioned : Prop where
  read_version : forall session : Session Machine.Store,
    (run session [] "PRAGMA user_version").1.store = session.store ∧
      (run session [] "PRAGMA user_version").2.map Session.Result.rows =
        .ok (versionRows (version session.store))
  /-- Versions from the upper half of their range do not fit. -/
  set_version : forall (session : Session Machine.Store) (version : UInt32),
    session.readOnly = false ->
    (run session [] ("PRAGMA user_version = " ++ Decimal.natText version.toNat)).1.store =
        withVersion (storedVersion version).toNat session.store ∧
      exists result,
        (run session []
          ("PRAGMA user_version = " ++ Decimal.natText version.toNat)).2 = .ok result
  set_version_readOnly : forall (session : Session Machine.Store) (version : UInt32),
    session.readOnly = true ->
    exists error,
      (run session []
        ("PRAGMA user_version = " ++ Decimal.natText version.toNat)).2 = .error error

theorem rows_of_version [Versioned] {session : Session Machine.Store}
    {result : Session.Result}
    (h : (run session [] "PRAGMA user_version").2 = .ok result) :
    result.rows = versionRows (version session.store) := by
  have hrows := (Versioned.read_version session).right
  rw [h] at hrows
  exact Except.ok.inj hrows

theorem exists_result_of_version [Versioned] (session : Session Machine.Store) :
    exists result, (run session [] "PRAGMA user_version").2 = .ok result := by
  have hrows := (Versioned.read_version session).right
  cases hresult : (run session [] "PRAGMA user_version").2 with
  | error error =>
      rw [hresult] at hrows
      cases hrows
  | ok result => exact ⟨result, rfl⟩

theorem execute_version [Versioned] (store : Machine.Store) :
    execute store "PRAGMA user_version" = .ok store := by
  rcases exists_result_of_version (.start store false) with ⟨result, hresult⟩
  have hstore := (Versioned.read_version (Session.start store false)).left
  rw [execute, hresult]
  exact congrArg Except.ok hstore

theorem execute_setVersion [Versioned] (store : Machine.Store) (version : UInt32) :
    execute store ("PRAGMA user_version = " ++ Decimal.natText version.toNat) =
      .ok (withVersion (storedVersion version).toNat store) := by
  rcases Versioned.set_version (Session.start store false) version rfl with
    ⟨hstore, result, hresult⟩
  rw [execute, hresult]
  exact congrArg Except.ok hstore

theorem keepsVersion_version [Versioned] :
    (Fragment.ofText "PRAGMA user_version").KeepsVersion :=
  fun session _ _ => congrArg version (Versioned.read_version session).left

end Machine
end Engine

end TableStore
