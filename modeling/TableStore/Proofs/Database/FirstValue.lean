import TableStore.Engine.Sqlite
import TableStore.Proofs.Database.Alike

/-!
# The first value of a result

A query is asked for one value by way of its decoded rows.  A decoded row keeps one cell
for each name, so a cell of the first row gives way to those behind it that have the
name of the first column.
-/

namespace TableStore

/-!
# Names that repeat
-/

namespace Keyed

variable {α β : Type} {name : String} {value : α} {others : List (String × α)}

def latest (name : String) (value : α) : List (String × α) -> α
  | [] => value
  | (other, next) :: rest => latest name (if other = name then next else value) rest

theorem latest_append (first second : List (String × α)) :
    latest name value (first ++ second) =
      latest name (latest name value first) second := by
  induction first generalizing value with
  | nil => rfl
  | cons entry first ih => exact ih

theorem latest_of_not_mem (h : name ∉ keys others) :
    latest name value others = value := by
  induction others with
  | nil => rfl
  | cons entry others ih =>
      rw [keys_cons, List.mem_cons, not_or] at h
      rw [latest, if_neg (Ne.symm h.left)]
      exact ih h.right

theorem latest_append_cons (before : List (String × α)) (last : α)
    (h : name ∉ keys others) :
    latest name value (before ++ (name, last) :: others) = last := by
  rw [latest_append, latest, if_pos rfl]
  exact latest_of_not_mem h

theorem latest_map (f : α -> β) :
    latest name (f value) (others.map fun entry => (entry.1, f entry.2)) =
      f (latest name value others) := by
  induction others generalizing value with
  | nil => rfl
  | cons entry others ih =>
      rw [List.map_cons, latest, latest, <- ih, apply_ite f]

theorem head?_put {before : List (String × α)} (column : String) (next : α)
    (h : before.head? = some (name, value)) :
    (put column next before).head? =
      some (name, if column = name then next else value) := by
  cases before with
  | nil => cases h
  | cons entry rest =>
      cases h
      by_cases heq : name = column
      · rw [put, if_pos heq, if_pos heq.symm]
        rfl
      · rw [put, if_neg heq, if_neg (Ne.symm heq)]
        rfl

end Keyed

namespace Row

theorem head?_foldl_set {row : Row} {name : String} {value : Value}
    (h : row.cells.head? = some (name, value)) (others : List (String × Value)) :
    (others.foldl (fun row cell => row.set cell.1 cell.2) row).cells.head? =
      some (name, Keyed.latest name value others) := by
  induction others generalizing row value with
  | nil => exact h
  | cons cell others ih => exact ih (Keyed.head?_put cell.1 cell.2 h)

/-- Later cells of the first name stand in the place of the first cell. -/
theorem head?_ofList (name : String) (value : Value)
    (others : List (String × Value)) :
    (ofList ((name, value) :: others)).cells.head? =
      some (name, Keyed.latest name value others) := by
  have hfirst : (empty.set name value).cells.head? = some (name, value) := rfl
  exact head?_foldl_set hfirst others

end Row

namespace Database
namespace Handle

open Database.Action (runOn runOn_bind runOn_tryCatch)
open Engine (Cell ResultRow Session)

/-!
# Values of results
-/

theorem firstValue?_nil (rows : List ResultRow) :
    firstValue? (([] :: rows).map decodeRow) = none := rfl

theorem firstValue?_cons (name : String) (cell : Cell) (others : ResultRow)
    (rows : List ResultRow) :
    firstValue? ((((name, cell) :: others) :: rows).map decodeRow) =
      some (Keyed.latest name cell others).value := by
  have hhead := Row.head?_ofList name cell.value
    (others.map fun entry => (entry.1, entry.2.value))
  rw [Keyed.latest_map] at hhead
  rw [List.map_cons, firstValue?, List.head?_cons, Option.bind_some, Row.values,
    List.head?_map]
  exact congrArg (Option.map Prod.snd) hhead

structure UnderFirstName (rows : List ResultRow) (value? : Option Value) :
    Prop where
  none_iff : value? = none <-> rows = [] ∨ exists others, rows = [] :: others
  latest : forall (name : String) (cell : Cell) (others : ResultRow)
    (rest : List ResultRow), rows = ((name, cell) :: others) :: rest ->
      value? = some (Keyed.latest name cell others).value
  first : forall (name : String) (cell : Cell) (others : ResultRow)
    (rest : List ResultRow), rows = ((name, cell) :: others) :: rest ->
      name ∉ Keyed.keys others -> value? = some cell.value
  last : forall (name : String) (cell last : Cell) (before behind : ResultRow)
    (rest : List ResultRow),
    rows = ((name, cell) :: (before ++ (name, last) :: behind)) :: rest ->
      name ∉ Keyed.keys behind -> value? = some last.value

theorem underFirstName (rows : List ResultRow) :
    UnderFirstName rows (firstValue? (rows.map decodeRow)) where
  none_iff := by
    rcases rows with _ | ⟨_ | ⟨⟨name, cell⟩, others⟩, rows⟩
    · exact ⟨fun _ => .inl rfl, fun _ => rfl⟩
    · exact ⟨fun _ => .inr ⟨rows, rfl⟩, fun _ => firstValue?_nil rows⟩
    · rw [firstValue?_cons]
      simp
  latest name cell others rest hrows := by
    rw [hrows, firstValue?_cons]
  first name cell others rest hrows hdistinct := by
    rw [hrows, firstValue?_cons, Keyed.latest_of_not_mem hdistinct]
  last name cell last before behind rest hrows hlast := by
    rw [hrows, firstValue?_cons, Keyed.latest_append_cons before last hlast]

/-!
# Queries for one value
-/

section Queries

variable [Engine.Machine]

variable {handle : Handle} {params : List Value} {text : String} {host after : Host}

theorem runOn_fetchValue?_of_ok {result : Session.Result}
    (h : runOn (handle.run params text) host = (.ok result, after)) :
    runOn (handle.fetchValue? params text) host =
      (.ok (firstValue? (result.rows.map decodeRow)), after) := by
  have hreporting : runOn (handle.runReporting "Query failed" params text) host =
      (.ok result, after) := by
    rw [runReporting, runOn_tryCatch, h]
  rw [fetchValue?, runOn_bind, fetch, runOn_bind, hreporting]
  rfl

theorem runOn_fetchValue?_of_error {failure : Failure}
    (h : runOn (handle.run params text) host = (.error failure, after)) :
    exists behind,
      runOn (handle.fetchValue? params text) host = (.error failure, behind) := by
  have hreporting : exists behind,
      runOn (handle.runReporting "Query failed" params text) host =
        (.error failure, behind) := by
    rw [runReporting, runOn_tryCatch, h]
    exact ⟨_, rfl⟩
  rcases hreporting with ⟨behind, hreporting⟩
  exists behind
  rw [fetchValue?, runOn_bind, fetch, runOn_bind, hreporting]

end Queries

section Witness

open Engine.Sqlite

def rowHost : Host :=
  (runOn (do
    let database <- openDatabase ":memory:"
    database.begin
    let _ <- database.execute [] "CREATE TABLE t (a INTEGER, b INTEGER)"
    let _ <- database.execute [] "INSERT INTO t VALUES (1, 2)") (.ofDisk .empty)).2

end Witness

end Handle
end Database
end TableStore
