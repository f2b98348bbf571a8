import Mathlib.Order.Defs.Unbundled
import TableStore.Proofs.Database.Atomicity

/-!
# How hosts develop

Transactions neither add files nor remove them.  What the files hold after work on a host
is related to what they held before, as far as every statement of the work relates the
store before it to the store behind it.
-/

namespace TableStore
namespace Database

open Engine (Machine Session)
open Engine.Machine (Store)
open Statement (runOf)

variable [Machine]

/-!
# Files and directories
-/

namespace Disk

def store? (disk : Disk) (path : String) : Option Store :=
  storeOfFile? (disk.find? path)

variable {disk : Disk} {path : String} {file : File}

theorem isDirectory_eq (disk : Disk) (path : String) :
    disk.isDirectory path =
      ((normal path).isEmpty || disk.directories.contains (normal path) ||
        (Keyed.keys disk.files).any fun name =>
          ((normal path).toList ++ ['/']).isPrefixOf name.toList) := by
  rw [Keyed.keys, List.any_map]
  rfl

theorem isDirectory_put (h : (disk.find? path).isSome = true) (file : File)
    (other : String) :
    (disk.put path file).isDirectory other = disk.isDirectory other := by
  have hmem : normal path ∈ Keyed.keys disk.files := by
    apply Decidable.byContradiction
    intro hnot
    rw [find?, (Keyed.get?_eq_none_iff _ _).mpr hnot] at h
    cases h
  have hkeys : Keyed.keys (disk.put path file).files =
      Keyed.keys disk.files := by
    rw [put, Keyed.keys_put, if_pos hmem]
  rw [isDirectory_eq, isDirectory_eq, hkeys]
  rfl

theorem isDirectory_put_self (h : disk.isDirectory path = false)
    (file : File) : (disk.put path file).isDirectory path = false := by
  have hself : ((normal path).toList ++ ['/']).isPrefixOf
      (normal path).toList = false := by
    rw [<- Bool.not_eq_true, List.isPrefixOf_iff_prefix]
    intro hprefix
    have hle := hprefix.length_le
    rw [List.length_append, List.length_singleton] at hle
    omega
  rw [isDirectory_eq, Bool.or_eq_false_iff] at h ⊢
  refine ⟨h.left, ?_⟩
  rw [put, Keyed.keys_put]
  split
  · exact h.right
  · rw [List.any_append, h.right, List.any_cons, hself]
    rfl

theorem isSome_find?_put (h : (disk.find? path).isSome = true) (file : File)
    (other : String) :
    ((disk.put path file).find? other).isSome = (disk.find? other).isSome := by
  rw [find?_put]
  split
  · rename_i hsame
    rw [find?, hsame] at h
    rw [find?, h]
    rfl
  · rfl

section Saved

variable {place : Place}

theorem isSome_find?_saved
    (h : forall path, place = .file path -> (disk.find? path).isSome = true)
    (store : Store) (other : String) :
    ((disk.saved place store).find? other).isSome = (disk.find? other).isSome := by
  cases place with
  | memory => rfl
  | file path => exact isSome_find?_put (h path rfl) _ other

theorem isDirectory_saved
    (h : forall path, place = .file path -> (disk.find? path).isSome = true)
    (store : Store) (other : String) :
    (disk.saved place store).isDirectory other = disk.isDirectory other := by
  cases place with
  | memory => rfl
  | file path => exact isDirectory_put (h path rfl) _ other

end Saved

theorem store?_of_current {connection : Connection} {store : Store}
    (hplace : connection.place = .file path)
    (hcurrent : Handle.current disk connection = (store, true)) :
    disk.store? path = some store := by
  rw [Handle.current, hplace] at hcurrent
  dsimp only at hcurrent
  rw [Disk.store?]
  cases hheld : storeOfFile? (disk.find? path) with
  | none =>
      rw [hheld] at hcurrent
      cases hcurrent
  | some held =>
      rw [hheld] at hcurrent
      cases hcurrent
      rfl

theorem current_of_store? {connection : Connection} {store : Store}
    (hplace : connection.place = .file path)
    (hstore : disk.store? path = some store) :
    Handle.current disk connection = (store, true) := by
  rw [Disk.store?] at hstore
  rw [Handle.current, hplace]
  dsimp only
  rw [hstore]

end Disk

/-!
# Hosts
-/

/-- The files of all connections are there. -/
def Host.Filed (host : Host) : Prop :=
  forall connection, connection ∈ host.connections ->
    forall path, connection.place = .file path ->
      (host.disk.find? path).isSome = true

theorem Host.filed_ofDisk (disk : Disk) : (Host.ofDisk disk).Filed :=
  fun _ hmem => nomatch hmem

/--
Behind work on a host the same files and databases are there as before, and what each file
holds is related to what it held.
-/
structure Host.Develops (relation : Store -> Store -> Prop)
    (host after : Host) : Prop where
  filed : after.Filed
  files : forall path,
    (after.disk.find? path).isSome = (host.disk.find? path).isSome
  directories : forall path,
    after.disk.isDirectory path = host.disk.isDirectory path
  places : forall (index : Nat) (connection : Connection),
    host.connections[index]? = some connection ->
      exists other, after.connections[index]? = some other ∧
        other.place = connection.place
  stores : forall path,
    Option.Rel relation (host.disk.store? path) (after.disk.store? path)

theorem Host.Develops.notices {relation : Store -> Store -> Prop}
    {host after : Host} (h : host.Develops relation after)
    (notices : List Notice) :
    host.Develops relation { after with notices := notices } :=
  ⟨h.filed, h.files, h.directories, h.places, h.stores⟩

section Develops

variable {relation : Store -> Store -> Prop} [IsPreorder Store relation]

theorem rel_refl (store? : Option Store) :
    Option.Rel relation store? store? := by
  cases store? with
  | none => exact .none
  | some store => exact .some (refl_of relation store)

theorem rel_trans {first second third : Option Store}
    (h : Option.Rel relation first second)
    (hnext : Option.Rel relation second third) :
    Option.Rel relation first third := by
  cases h with
  | none => exact hnext
  | some hfirst =>
      cases hnext with
      | some hsecond => exact .some (trans_of relation hfirst hsecond)

theorem eq_of_rel_eq {first second : Option Store}
    (h : Option.Rel Eq first second) : second = first := by
  cases h with
  | none => rfl
  | some heq => rw [heq]

theorem Host.Develops.trans {first second third : Host}
    (h : first.Develops relation second)
    (hnext : second.Develops relation third) :
    first.Develops relation third where
  filed := hnext.filed
  files path := (hnext.files path).trans (h.files path)
  directories path := (hnext.directories path).trans (h.directories path)
  places index connection hconnection := by
    rcases h.places index connection hconnection with
      ⟨middle, hmiddle, hplace⟩
    rcases hnext.places index middle hmiddle with ⟨other, hother, hsame⟩
    exact ⟨other, hother, hsame.trans hplace⟩
  stores path := rel_trans (h.stores path) (hnext.stores path)

variable {host after : Host}

theorem Host.Develops.of_places (hfiled : host.Filed)
    (hdisk : after.disk = host.disk)
    (hplaces : forall index : Nat,
      after.connections[index]?.map Connection.place =
        host.connections[index]?.map Connection.place) :
    host.Develops relation after := by
  refine ⟨?_, ?_, ?_, ?_, ?_⟩
  · intro connection hmem path hplace
    rcases List.mem_iff_getElem?.mp hmem with ⟨index, hindex⟩
    have hsame := hplaces index
    rw [hindex] at hsame
    rcases Option.map_eq_some_iff.mp hsame.symm with ⟨behind, hbehind, heq⟩
    rw [hdisk]
    exact hfiled behind (List.mem_of_getElem? hbehind) path (heq.trans hplace)
  · intro path
    rw [hdisk]
  · intro path
    rw [hdisk]
  · intro index connection hconnection
    have hsame := hplaces index
    rw [hconnection] at hsame
    exact Option.map_eq_some_iff.mp hsame
  · intro path
    rw [hdisk]
    exact rel_refl _

theorem Host.Develops.of_settled_eq (hfiled : host.Filed)
    (h : after.settled = host.settled) : host.Develops relation after := by
  have hdisk : after.disk = host.disk := by
    rw [<- after.disk_settled, h, host.disk_settled]
  have hsettled (other : Host) (index : Nat) :
      other.connections[index]?.map Connection.place =
        other.settled.connections[index]?.map Connection.place := by
    rw [other.getElem?_settled, Option.map_map]
    rfl
  apply of_places hfiled hdisk
  intro index
  rw [hsettled, h, <- hsettled]

/-- What files hold is related to what they held, if that is so where a store is saved. -/
theorem Disk.rel_saved {disk : Disk} {place : Place} {before store : Store}
    (hbefore : forall path, place = .file path -> disk.store? path = some before)
    (hrelated : relation before store) (path : String) :
    Option.Rel relation (disk.store? path)
      ((disk.saved place store).store? path) := by
  cases place with
  | memory => exact rel_refl _
  | file saved =>
      rw [Disk.store?, Disk.store?, Disk.saved, Disk.find?_put]
      split
      · rename_i hsame
        have hheld := hbefore saved rfl
        rw [Disk.store?, Disk.find?, hsame, <- Disk.find?] at hheld
        rw [hheld]
        exact .some hrelated
      · exact rel_refl _

/-- A transaction on a file changes what this file holds and nothing else. -/
theorem Host.Develops.committed (hfiled : host.Filed) {handle : Handle}
    {connection : Connection} {store : Store}
    (hconnection : host.connections[handle.index]? = some connection)
    (hcurrent : Handle.current host.disk connection = (store, true))
    (before : Store) {session : Session Store} (hrelated : relation store session.store) :
    host.Develops relation (handle.committed host connection before session) := by
  have hconnections : (handle.committed host connection before
      session).connections =
        host.connections.set handle.index
          (Handle.working connection before session) := rfl
  have hfound : forall path, connection.place = .file path ->
      (host.disk.find? path).isSome = true :=
    hfiled connection (List.mem_of_getElem? hconnection)
  have hfiles := Disk.isSome_find?_saved hfound session.store
  refine ⟨?_, hfiles, Disk.isDirectory_saved hfound session.store, ?_,
    Disk.rel_saved (fun path hplace => Disk.store?_of_current hplace hcurrent)
      hrelated⟩
  · intro other hmem path hplace
    rw [hconnections] at hmem
    refine (hfiles path).trans ?_
    rcases List.mem_or_eq_of_mem_set hmem with hold | rfl
    · exact hfiled other hold path hplace
    · exact hfound path hplace
  · intro index other hother
    rw [hconnections, List.getElem?_set]
    split
    · rename_i hindex
      rcases List.getElem?_eq_some_iff.mp hconnection with ⟨hlt, _⟩
      rw [if_pos hlt]
      rw [<- hindex, hconnection] at hother
      cases hother
      exact ⟨_, rfl, rfl⟩
    · exact ⟨other, hother, rfl⟩

end Develops

/-!
# Openings
-/

section Openings

open Database.Action (runOn runOn_bind)

variable {host opened : Host} {path : String} {address : Address}

theorem runOn_openFile_of_found (address : Address)
    (hdirectory : host.disk.isDirectory path = false)
    (hfound : (host.disk.find? path).isSome = true) :
    runOn (openFile path address) host = (.ok (), host) := by
  have hget : runOn (get : Action Host) host = (.ok host, host) := rfl
  rcases Option.isSome_iff_exists.mp hfound with ⟨file, hfile⟩
  rw [openFile, runOn_bind, hget]
  dsimp only
  rw [hdirectory, if_neg Bool.false_ne_true, hfile]
  rfl

theorem runOn_openFile_eq_error {failure : Failure}
    (h : runOn (openFile path address) host = (.error failure, opened)) :
    opened = host := by
  have hget : runOn (get : Action Host) host = (.ok host, host) := rfl
  rw [openFile, runOn_bind, hget] at h
  dsimp only at h
  split at h
  · cases h
    rfl
  · split at h
    · cases h
    · split at h
      · cases h
      · cases h
        rfl

structure FileOpened (path : String) (host opened : Host) : Prop where
  connections_eq : opened.connections = host.connections
  directory : opened.disk.isDirectory path = false
  found : (opened.disk.find? path).isSome = true
  others : forall other, (host.disk.find? other).isSome = true ->
    (opened.disk.find? other).isSome = true

theorem runOn_openFile_eq_ok
    (h : runOn (openFile path address) host = (.ok (), opened)) :
    FileOpened path host opened := by
  have hget : runOn (get : Action Host) host = (.ok host, host) := rfl
  rw [openFile, runOn_bind, hget] at h
  dsimp only at h
  split at h
  · cases h
  · rename_i hdirectory
    rw [Bool.not_eq_true] at hdirectory
    split at h
    · rename_i file hfile
      cases h
      exact ⟨rfl, hdirectory, Option.isSome_of_eq_some hfile, fun _ => id⟩
    · split at h
      · cases h
        refine ⟨rfl, Disk.isDirectory_put_self hdirectory _, ?_, ?_⟩
        · rw [Disk.find?_put, if_pos rfl]
          rfl
        · intro other hother
          rw [Disk.find?_put]
          split
          · rfl
          · exact hother
      · cases h

def Address.connection (address : Address) : Connection :=
  ⟨address.place, .start Machine.empty address.readOnly, true, Machine.empty, false⟩

def Host.connected (connection : Connection) (host : Host) : Host :=
  { host with connections := host.connections ++ [connection] }

theorem runOn_openDatabase {name : String}
    (haddress : Address.ofName name = .ok address)
    (hplace : address.place = .file path) (host : Host) :
    runOn (openDatabase name) host =
      match runOn (openFile path address) host with
      | (.ok _, after) =>
          (.ok ⟨after.connections.length⟩, after.connected address.connection)
      | (.error failure, after) => (.error failure, after) := by
  rw [openDatabase, haddress]
  dsimp only
  rw [pure_bind, hplace]
  dsimp only
  rw [runOn_bind]
  rcases runOn (openFile path address) host with ⟨failure | _, after⟩
  · rfl
  · rw [Address.connection, hplace]
    rfl

inductive DatabaseOpened (name : String) (host : Host) :
    Except Failure Handle × Host -> Prop where
  | failed {failure : Failure} :
      DatabaseOpened name host (.error failure, host)
  | memory {address : Address} :
      Address.ofName name = .ok address -> address.place = .memory ->
      DatabaseOpened name host
        (.ok ⟨host.connections.length⟩, host.connected address.connection)
  | file {address : Address} {path : String} {opened : Host} :
      Address.ofName name = .ok address -> address.place = .file path ->
      FileOpened path host opened ->
      DatabaseOpened name host
        (.ok ⟨opened.connections.length⟩, opened.connected address.connection)

theorem databaseOpened (name : String) (host : Host) :
    DatabaseOpened name host (runOn (openDatabase name) host) := by
  cases haddress : Address.ofName name with
  | error text =>
      rw [openDatabase, haddress]
      exact .failed
  | ok address =>
      cases hplace : address.place with
      | memory =>
          have hopened := @DatabaseOpened.memory _ name host address haddress hplace
          rw [openDatabase, haddress]
          dsimp only
          rw [Address.connection, hplace] at hopened
          rw [pure_bind, hplace]
          exact hopened
      | file path =>
          rw [runOn_openDatabase haddress hplace]
          rcases hfile : runOn (openFile path address) host with
            ⟨failure | _, after⟩
          · rw [runOn_openFile_eq_error hfile]
            exact .failed
          · exact .file haddress hplace (runOn_openFile_eq_ok hfile)

theorem runOn_openDatabase_eq_error {name : String} {failure : Failure}
    (h : runOn (openDatabase name) host = (.error failure, opened)) :
    opened = host := by
  have hopened := databaseOpened name host
  rw [h] at hopened
  cases hopened
  rfl

theorem Host.getElem?_connected (connection : Connection) (host : Host) :
    (host.connected connection).connections[host.connections.length]? =
      some connection := by
  rw [connected, List.getElem?_append_right (Nat.le_refl _), Nat.sub_self]
  rfl

theorem Host.Filed.connected (h : host.Filed) (connection : Connection)
    (hconnection : forall path, connection.place = .file path ->
      (host.disk.find? path).isSome = true) :
    (host.connected connection).Filed := by
  intro other hmem path hplace
  rcases List.mem_append.mp hmem with hold | hnew
  · exact h other hold path hplace
  · rw [List.mem_singleton] at hnew
    rw [hnew] at hplace
    exact hconnection path hplace

theorem Host.Filed.of_fileOpened (h : host.Filed)
    (hopened : FileOpened path host opened) : opened.Filed := by
  intro connection hmem other hplace
  rw [hopened.connections_eq] at hmem
  exact hopened.others other (h connection hmem other hplace)

theorem Host.Filed.openDatabase (h : host.Filed) (name : String) :
    (runOn (Database.openDatabase name) host).2.Filed := by
  have hopened := databaseOpened name host
  generalize runOn (Database.openDatabase name) host = done at hopened ⊢
  cases hopened with
  | failed => exact h
  | memory _ hplace =>
      apply h.connected
      intro path hfile
      cases hplace.symm.trans hfile
  | file _ hplace hfile =>
      apply (h.of_fileOpened hfile).connected
      intro other hother
      cases hplace.symm.trans hother
      exact hfile.found

end Openings

/-!
# Work
-/

namespace Action

variable {α β : Type}

def Leads (relation : Store -> Store -> Prop) (action : Action α) : Prop :=
  forall host : Host, host.Filed ->
    host.Develops relation (runOn action host).2

variable {relation : Store -> Store -> Prop} [IsPreorder Store relation]

theorem leads_of_settled {action : Action α}
    (h : forall host, (runOn action host).2.settled = host.settled) :
    Leads relation action :=
  fun host hfiled => .of_settled_eq hfiled (h host)

theorem leads_of_concludes {action : Action α} (h : Concludes action) :
    Leads relation action := by
  apply leads_of_settled
  intro host
  rcases h host with ⟨result, notices, hrun⟩
  rw [hrun]
  rfl

theorem Leads.bind {action : Action α} (h : Leads relation action)
    {next : α -> Action β} (hnext : forall result, Leads relation (next result)) :
    Leads relation (action >>= next) := by
  intro host hfiled
  have hfirst := h host hfiled
  rw [runOn_bind]
  rcases hrun : runOn action host with ⟨failure | result, after⟩
  · rw [hrun] at hfirst
    exact hfirst
  · rw [hrun] at hfirst
    exact hfirst.trans (hnext result after hfirst.filed)

end Action

/-- A statement relates the store before it to the store behind it. -/
def Relates (relation : Store -> Store -> Prop) (statement : Fragment) : Prop :=
  forall session : Session Store,
    relation session.store (runOf session statement).1.store

namespace Handle

open Database.Action

variable {relation : Store -> Store -> Prop} [IsPreorder Store relation]
  {handle : Handle}

theorem Sends.committed {α : Type} {task : Action α} {statement : Fragment}
    {look : Session.Result -> α} (h : Sends handle task statement look)
    {host : Host} {session next : Session Store} {found : Session.Result}
    (hserves : handle.Serves host session)
    (hdone : runOf session statement = (next, .ok found)) :
    exists connection notices,
      host.connections[handle.index]? = some connection ∧
      current host.disk connection = (session.store, true) ∧
      runOn (handle.atomically task) host =
        (.ok (look found),
          { handle.committed host connection session.store next with
            notices := notices }) := by
  rcases hserves with ⟨connection, hconnection, hopen, hcurrent, hstarting⟩
  rw [<- hstarting] at hdone
  rcases exists_of_outcome (h.outcome_ok hconnection hopen hcurrent
    (congrArg Prod.snd hdone)) with ⟨after, hrun, hsilent⟩
  rw [hdone] at hsilent
  refine ⟨connection, after.notices, hconnection, hcurrent, ?_⟩
  rw [hrun, Host.eq_of_silent_eq hsilent.symm]

/-- Hosts develop under a transaction as its statements relate stores. -/
theorem Leaves.develops {host after : Host} {made : Session Store -> Session Store}
    (h : Leaves handle host made after)
    (hmade : forall session : Session Store, relation session.store (made session).store)
    (hfiled : host.Filed) : host.Develops relation after := by
  cases h with
  | unchanged hsettled => exact .of_settled_eq hfiled hsettled
  | @committed connection store hconnection hcurrent hsettled =>
      have hcommitted := Host.Develops.committed hfiled hconnection hcurrent store
        (hmade (starting connection store))
      exact hcommitted.trans (.of_settled_eq hcommitted.filed hsettled)

theorem Sends.leads [Machine.Lawful] {α : Type} {task : Action α} {statement : Fragment}
    {look : Session.Result -> α} (h : Sends handle task statement look)
    (hstatement : Relates relation statement) :
    Leads relation (handle.atomically task) :=
  fun host => (h.leaves host).develops hstatement

theorem relates_sent {requests : List Request}
    (h : forall request, request ∈ requests ->
      Relates relation request.statement) (session : Session Store) :
    relation session.store (sent session requests).store := by
  induction requests generalizing session with
  | nil => exact refl_of relation session.store
  | cons request requests ih =>
      rw [List.forall_mem_cons] at h
      exact trans_of relation (h.left session) (ih h.right _)

theorem leads_transaction [Machine.Lawful] {requests : List Request}
    (h : forall request, request ∈ requests ->
      Relates relation request.statement) (ending : Ending) :
    Leads relation (handle.transaction requests ending) :=
  fun host => (handle.leaves_transaction requests ending host).develops
    (relates_sent h)

end Handle

/-!
# Tasks that send the same statement
-/

namespace Handle

open Database.Action

inductive Agree {α β : Type} (first : Action α) (second : Action β)
    (host : Host) : Prop where
  | failed {failure : Failure} {after behind : Host} :
      runOn first host = (.error failure, after) ->
      runOn second host = (.error failure, behind) -> Agree first second host
  | done {result : α} {found : β} {after behind : Host} :
      runOn first host = (.ok result, after) ->
      runOn second host = (.ok found, behind) ->
      behind.silent = after.silent -> Agree first second host

theorem Sends.agree {α β : Type} {handle : Handle} {task : Action α}
    {other : Action β} {statement : Fragment} {look : Session.Result -> α}
    {lookOther : Session.Result -> β} (h : Sends handle task statement look)
    (hother : Sends handle other statement lookOther) (host : Host) :
    Agree (handle.atomically task) (handle.atomically other) host := by
  rcases handle.exists_course host statement with ⟨result, behind, hcourse⟩
  rcases exists_of_outcome (h.outcome_of_course hcourse) with ⟨_, hfirst, hsilent⟩
  rcases exists_of_outcome (hother.outcome_of_course hcourse) with
    ⟨_, hsecond, hsame⟩
  cases result with
  | error failure => exact .failed hfirst hsecond
  | ok result => exact .done hfirst hsecond (hsame.trans hsilent.symm)

structure Rests (handle : Handle) (host after : Host) : Prop where
  serves : forall session, handle.Serves host session ->
    exists next, session.SameStore next ∧ handle.Serves after next
  sameStores : host.SameStores after
  develops : host.Filed -> host.Develops Eq after

section Rests

variable {handle : Handle} {host middle after : Host}

theorem rests_notices (handle : Handle) (host : Host) (notices : List Notice) :
    handle.Rests host { host with notices := notices } where
  serves session h := ⟨session, ⟨rfl, rfl⟩, h⟩
  sameStores := host.sameStores_notices notices
  develops hfiled := .of_settled_eq hfiled rfl

theorem Rests.trans (h : handle.Rests host middle)
    (hnext : handle.Rests middle after) : handle.Rests host after where
  serves session hserves := by
    rcases h.serves session hserves with ⟨found, hfound, hmiddle⟩
    rcases hnext.serves found hmiddle with ⟨last, hlast, hafter⟩
    exact ⟨last, hfound.trans hlast, hafter⟩
  sameStores := h.sameStores.trans hnext.sameStores
  develops hfiled :=
    have hdevelops := h.develops hfiled
    hdevelops.trans (hnext.develops hdevelops.filed)

theorem Serves.eq {session other : Session Store} (h : handle.Serves host session)
    (hother : handle.Serves host other) : other = session := by
  rcases h with ⟨connection, hconnection, _, hcurrent, hstarting⟩
  rcases hother with ⟨behind, hbehind, _, hfound, hstart⟩
  rw [hconnection] at hbehind
  cases hbehind
  rw [hcurrent] at hfound
  have hstore : session.store = other.store := congrArg Prod.fst hfound
  rw [<- hstart, <- hstore, hstarting]

variable [Machine.Lawful] {α : Type} {task : Action α} {statement : Fragment}
  {look : Session.Result -> α}

/-- A statement that changes nothing is committed without a change. -/
theorem Sends.rests (h : Sends handle task statement look)
    {session : Session Store} (hserves : handle.Serves host session)
    {result : Session.Result} (hresult : (runOf session statement).2 = .ok result)
    (hidle : (runOf session statement).1.store = session.store) :
    exists after,
      runOn (handle.atomically task) host = (.ok (look result), after) ∧
        handle.Rests host after := by
  rcases hrun : runOf session statement with ⟨next, found⟩
  have hsame : session.SameStore next := by
    have hreadOnly := runOf_readOnly session statement
    rw [hrun] at hidle hreadOnly
    exact ⟨hidle, hreadOnly⟩
  rw [hrun] at hresult
  cases hresult
  rcases h.committed hserves hrun with
    ⟨connection, notices, hconnection, hcurrent, hcommitted⟩
  rcases h.yields_ok hserves hrun with ⟨after, hdone, hnext⟩
  rw [hcommitted] at hdone
  cases hdone
  refine ⟨_, hcommitted, ?_, ?_, ?_⟩
  · intro other hother
    rw [hserves.eq hother]
    exact ⟨next, hsame, hnext⟩
  · have hheld := hcurrent.trans
      (congrArg (Prod.mk · true) hsame.store_eq.symm)
    exact (sameStores_committed hconnection hheld session.store).trans
      (Host.sameStores_notices _ notices)
  · intro hfiled
    exact (Host.Develops.committed hfiled hconnection hcurrent session.store
      hsame.store_eq.symm).notices notices

theorem Sends.sameStores (h : Sends handle task statement look)
    (hidle : forall session, (runOf session statement).1.store = session.store)
    (host : Host) :
    host.SameStores (runOn (handle.atomically task) host).2 := by
  rcases hrun : runOn (handle.atomically task) host with
    ⟨failure | found, after⟩
  · exact Host.sameStores_of_settled_eq (h.settled_of_error hrun)
  · rcases h.exists_of_runOn hrun with ⟨session, next, result, hserves, hdone, _⟩
    rcases h.rests hserves (congrArg Prod.snd hdone) (hidle session) with
      ⟨behind, hbehind, hrests⟩
    rw [hrun] at hbehind
    cases hbehind
    exact hrests.sameStores

end Rests

end Handle

/-!
# Operations and transactions
-/

def Step.statements : Step -> List Fragment
  | .operation table asked => (asked.statement? table).toOption.toList
  | .transaction _ requests _ => requests.map Request.statement

section Steps

open Database.Action

variable {relation : Store -> Store -> Prop} [IsPreorder Store relation]

/-- Hosts develop under work on one statement as this statement relates stores. -/
theorem Undertakes.leads [Machine.Lawful] {α : Type} {handle : Handle} {action : Action α}
    {statement : Except ShapeError Fragment}
    (h : Undertakes handle action statement)
    (hrelates : forall fragment, fragment ∈ statement.toOption.toList ->
      Relates relation fragment) : Leads relation action := by
  cases h with
  | refuses hrefuses =>
      apply leads_of_settled
      intro host
      rw [hrefuses host]
  | sends hsends hnext heq =>
      rw [heq]
      exact (hsends.leads (hrelates _ (.head _))).bind
        fun result => leads_of_concludes (hnext result)

theorem Step.leads_perform [Machine.Lawful] {step : Step}
    (h : forall statement, statement ∈ step.statements ->
      Relates relation statement) : Leads relation step.perform := by
  cases step with
  | operation table asked => exact (asked.undertakes_perform table).leads h
  | transaction handle requests ending =>
      exact Handle.leads_transaction (fun request hmem =>
        h request.statement (List.mem_map_of_mem hmem)) ending

end Steps

end Database
end TableStore
