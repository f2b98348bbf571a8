import TableStore.Database.Host

/-!
# Work that differs in what it reports

Two actions do alike on two hosts if they have the same result and leave the same
files and the same connections; what they report may differ.  Actions of parts
that do alike do alike, since nothing that is done depends on what has been
reported.
-/

namespace TableStore
namespace Database

open Engine (Machine Session)
open Engine.Machine (Store)

variable [Machine]

def Host.silent (host : Host) : Host :=
  { host with notices := [] }

theorem Host.eq_of_silent_eq {host other : Host}
    (h : host.silent = other.silent) :
    other = { host with notices := other.notices } := by
  cases host
  cases other
  cases h
  rfl

namespace Action

variable {α β : Type}

def runOn (action : Action α) (host : Host) : Except Failure α × Host :=
  action.run.run host

/-!
# The steps of an action
-/

theorem runOn_bind (action : Action α) (next : α -> Action β) (host : Host) :
    runOn (action >>= next) host =
      match runOn action host with
      | (.ok result, after) => runOn (next result) after
      | (.error failure, after) => (.error failure, after) := by
  have hbind : runOn (action >>= next) host =
      (ExceptT.bindCont next (runOn action host).1).run
        (runOn action host).2 := rfl
  rw [hbind]
  rcases runOn action host with ⟨failure | result, after⟩ <;> rfl

theorem runOn_bind_eq_ok {action : Action α} {next : α -> Action β}
    {host after : Host} {result : β} :
    runOn (action >>= next) host = (.ok result, after) ↔
      exists found middle, runOn action host = (.ok found, middle) ∧
        runOn (next found) middle = (.ok result, after) := by
  rw [runOn_bind]
  constructor
  · intro h
    rcases hfirst : runOn action host with ⟨failure | found, middle⟩
    · rw [hfirst] at h
      cases h
    · rw [hfirst] at h
      exact ⟨found, middle, rfl, h⟩
  · rintro ⟨found, middle, hfirst, hnext⟩
    rw [hfirst]
    exact hnext

theorem runOn_tryCatch (action : Action α) (handler : Failure -> Action α)
    (host : Host) :
    runOn (tryCatch action handler) host =
      match runOn action host with
      | (.ok result, after) => (.ok result, after)
      | (.error failure, after) => runOn (handler failure) after := by
  rcases hdone : runOn action host with ⟨result, after⟩
  have hrun : @StateT.run Host Id (Except Failure α) action host =
      (result, after) := hdone
  unfold runOn
  simp only [tryCatch, tryCatchThe, MonadExceptOf.tryCatch, ExceptT.tryCatch,
    ExceptT.run_mk, StateT.run_bind]
  rw [hrun]
  cases result <;> rfl

theorem runOn_map (f : α -> β) (action : Action α) (host : Host) :
    runOn (f <$> action) host =
      ((runOn action host).1.map f, (runOn action host).2) := by
  rw [map_eq_pure_bind, runOn_bind]
  rcases runOn action host with ⟨failure | result, after⟩ <;> rfl

/-!
# Doing alike
-/

/-- What an action does apart from what it reports. -/
def outcome (action : Action α) (host : Host) : Except Failure α × Host :=
  Prod.map id Host.silent (runOn action host)

theorem exists_of_outcome {action : Action α} {host after : Host}
    {result : Except Failure α} (h : outcome action host = (result, after)) :
    exists behind, runOn action host = (result, behind) ∧
      behind.silent = after := by
  rcases hrun : runOn action host with ⟨found, behind⟩
  rw [outcome, hrun] at h
  cases h
  exact ⟨behind, rfl, rfl⟩

def Alike (first second : Action α) (host other : Host) : Prop :=
  outcome first host = outcome second other

def Quiet (action : Action α) : Prop :=
  forall host other : Host, host.silent = other.silent ->
    Alike action action host other

theorem quiet_pure (result : α) : Quiet (pure result) := by
  intro host other h
  exact congrArg (Prod.mk (Except.ok result)) h

theorem quiet_throw (failure : Failure) :
    Quiet (throw failure : Action α) := by
  intro host other h
  exact congrArg (Prod.mk (Except.error failure)) h

theorem Alike.eq_of_runOn {first second : Action α} {host other after : Host}
    {result : Except Failure α} (h : Alike first second host other)
    (hfirst : runOn first host = (result, after)) :
    exists afterOther, runOn second other = (result, afterOther) ∧
      after.silent = afterOther.silent := by
  rw [Alike, outcome, outcome, hfirst] at h
  rcases hsecond : runOn second other with ⟨otherResult, afterOther⟩
  rw [hsecond] at h
  rcases Prod.mk.inj h with ⟨rfl, hsilent⟩
  exact ⟨afterOther, rfl, hsilent⟩

theorem Alike.bind {first second : Action α} {next behind : α -> Action β}
    {host other : Host} (h : Alike first second host other)
    (hnext : forall result (after afterOther : Host),
      after.silent = afterOther.silent ->
      Alike (next result) (behind result) after afterOther) :
    Alike (first >>= next) (second >>= behind) host other := by
  rcases hfirst : runOn first host with ⟨result, after⟩
  rcases h.eq_of_runOn hfirst with ⟨afterOther, hsecond, hsilent⟩
  rw [Alike, outcome, outcome, runOn_bind, runOn_bind, hfirst, hsecond]
  cases result with
  | error failure => exact congrArg (Prod.mk (Except.error failure)) hsilent
  | ok result => exact hnext result after afterOther hsilent

theorem Alike.tryCatch {first second : Action α}
    {handler otherHandler : Failure -> Action α} {host other : Host}
    (h : Alike first second host other)
    (hhandler : forall failure (after afterOther : Host),
      after.silent = afterOther.silent ->
      Alike (handler failure) (otherHandler failure) after afterOther) :
    Alike (tryCatch first handler) (tryCatch second otherHandler) host
      other := by
  rcases hfirst : runOn first host with ⟨result, after⟩
  rcases h.eq_of_runOn hfirst with ⟨afterOther, hsecond, hsilent⟩
  rw [Alike, outcome, outcome, runOn_tryCatch, runOn_tryCatch, hfirst,
    hsecond]
  cases result with
  | error failure => exact hhandler failure after afterOther hsilent
  | ok result => exact congrArg (Prod.mk (Except.ok result)) hsilent

end Action

/-!
# Transactions
-/

namespace Handle

open Database.Action

theorem runOn_connection {β : Type} (handle : Handle)
    (next : Option Connection -> Action β) (host : Host) :
    runOn (do next (<- handle.connection?)) host =
      runOn (next host.connections[handle.index]?) host := rfl

theorem quiet_commit (handle : Handle) : Quiet handle.commit := by
  intro host other h
  rw [Host.eq_of_silent_eq h, Alike, outcome, outcome, commit,
    runOn_connection, runOn_connection]
  rcases host.connections[handle.index]? with _ | connection
  · rfl
  · dsimp only
    cases connection.place with
    | memory => rfl
    | file path => cases connection.readable <;> rfl

theorem quiet_rollback (handle : Handle) :
    Quiet (handle.rollback : Action Unit) := by
  intro host other h
  rw [Host.eq_of_silent_eq h]
  rfl

theorem runOn_atomically {α : Type} (handle : Handle) (task : Action α)
    (host : Host) :
    runOn (handle.atomically task) host =
      runOn
        (do
          handle.begin
          tryCatch
            (do
              let result <- task
              handle.commit
              pure result)
            (fun failure => do
              handle.rollback
              throw failure))
        host := by
  rw [atomically, runOn_bind, runOn_bind]
  rcases runOn handle.begin host with ⟨failure | _, after⟩
  · rfl
  · dsimp only
    rw [runOn_bind, runOn_tryCatch, runOn_tryCatch, runOn_bind, runOn_bind]
    rcases runOn task after with ⟨failure | result, done⟩
    · rfl
    · dsimp only
      rw [runOn_bind, runOn_bind]
      rcases runOn handle.commit done with ⟨failure | _, committed⟩
      · rfl
      · rfl

/--
Two tasks that do alike as soon as a transaction is open do alike in transactions
of their own.
-/
theorem alike_atomically {α : Type} (handle : Handle)
    {first second : Action α} {host : Host}
    (h : forall after, runOn handle.begin host = (.ok (), after) ->
      Alike first second after after) :
    Alike (handle.atomically first) (handle.atomically second) host host := by
  rw [Alike, outcome, outcome, runOn_atomically, runOn_atomically,
    runOn_bind, runOn_bind]
  rcases hbegin : runOn handle.begin host with ⟨failure | _, after⟩
  · rfl
  · dsimp only
    apply Alike.tryCatch
    · apply Alike.bind (h after hbegin)
      intro result committed other hsilent
      apply Alike.bind (quiet_commit handle committed other hsilent)
      intro _ last lastOther hlast
      exact quiet_pure result last lastOther hlast
    · intro failure failed other hsilent
      apply Alike.bind (quiet_rollback handle failed other hsilent)
      intro _ last lastOther hlast
      exact quiet_throw failure last lastOther hlast

/-!
# Statements in an open transaction
-/

def store? (handle : Handle) (host : Host) : Option Store :=
  host.connections[handle.index]?.map fun connection =>
    (current host.disk connection).1

def opened (found : Store × Bool) (connection : Connection) :
    Connection :=
  { connection with
    session := { connection.session with store := found.1 }
    readable := found.2
    before := found.1 }

theorem runOn_begin (handle : Handle) (host : Host) :
    runOn handle.begin host =
      match host.connections[handle.index]? with
      | none => (.error .closed, host)
      | some connection =>
          if connection.closed then (.error .closed, host)
          else
            (.ok (),
              { host with
                connections := host.connections.modify handle.index
                  (opened (current host.disk connection)) }) := by
  rw [begin, runOn_connection]
  cases hconnection : host.connections[handle.index]? with
  | none => rfl
  | some connection =>
      dsimp only
      cases connection.closed with
      | true => rfl
      | false => rfl

theorem runOn_run (handle : Handle) (params : List Value) (text : String)
    (host : Host) :
    runOn (handle.run params text) host =
      match host.connections[handle.index]? with
      | none => (.error .closed, host)
      | some connection =>
          if !connection.readable then (.error (.engine .notADatabase), host)
          else
            let done := Machine.run connection.session
              (params.map Engine.Cell.ofValue) text
            (done.2.mapError Failure.engine,
              { host with
                connections := host.connections.modify handle.index
                  fun connection => { connection with session := done.1 } }) := by
  rw [run, runOn_connection]
  cases host.connections[handle.index]? with
  | none => rfl
  | some connection =>
      dsimp only
      cases connection.readable with
      | false => rfl
      | true =>
          rcases Machine.run connection.session
            (params.map Engine.Cell.ofValue) text with
            ⟨session, error | result⟩
          · rfl
          · rfl

end Handle

end Database
end TableStore
