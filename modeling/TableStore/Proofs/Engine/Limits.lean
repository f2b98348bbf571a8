import TableStore.Engine.Sqlite
import TableStore.Proofs.Decimal.Whole
import TableStore.Proofs.Engine.Filters

/-!
# Limits of queries

A limit is written in digits and read as a number.  As long as it is a whole number of
sixty-four bits with sign, it allows as many rows as it says.  From there on it is read
as a binary number, which is no whole number of a cell, and the query fails.

The rows that a limit allows are the first ones of an arrangement of all the rows.
Without the limit the engine may have come to another arrangement, in which rows that
tie have changed places.
-/

namespace TableStore
namespace Engine

open Decimal (Binary64 int64?)
open Statement (outputsOf projectionOf)

/-!
# Limits as cells
-/

theorem int64?_of_lt {n : Nat} (h : n < 2 ^ 63) :
    int64? n = some (Int64.ofInt n) := by
  rw [int64?, if_pos]
  rw [Bool.and_eq_true, decide_eq_true_iff, decide_eq_true_iff, Decimal.int64Bound]
  omega

theorem int64?_of_le {n : Nat} (h : 2 ^ 63 <= n) : int64? n = none := by
  rw [int64?, if_neg]
  rw [Bool.and_eq_true, decide_eq_true_iff, decide_eq_true_iff, Decimal.int64Bound]
  omega

theorem limitOf_int [Conversions] {n : Int64} (h : 0 <= n.toInt) :
    limitOf (.int n) = .ok (some n.toInt.toNat) := by
  have hsign : ¬ n < 0 := by
    rw [Int64.lt_iff_toInt_lt]
    exact Int.not_lt.mpr h
  change Except.ok (if n < 0 then none else some n.toInt.toNat) = _
  rw [if_neg hsign]

theorem ofReal_of_le {x : Binary64}
    (h : forall n, x.toInt? = some n -> 2 ^ 63 <= n.natAbs) :
    Cell.ofReal x = .real x := by
  rw [Cell.ofReal]
  split
  · rename_i n hn
    have hlarge := h n hn
    rw [if_neg]
    rw [Bool.and_eq_true, decide_eq_true_iff, decide_eq_true_iff,
      Decimal.int64Bound]
    omega
  · rfl

/-- Digits beyond the whole numbers of a cell are not read as one of these. -/
class ReadsLarge [Conversions] : Prop where
  two_pow_le_of_read : forall n : Nat, 2 ^ 63 <= n -> n < 2 ^ 64 ->
    forall m, (Conversions.read ⟨n, 0⟩).toInt? = some m -> 2 ^ 63 <= m.natAbs

section
variable [Conversions]

def limitCell (limit : Nat) : Cell :=
  (int64? limit).elim (Cell.ofValue (.real (Conversions.read ⟨limit, 0⟩))) Cell.int

theorem closedCell_limit (params : List Cell) (limit : Nat) :
    closedCell params (Sql.limitExpr limit) = .ok (limitCell limit) := by
  have hsigned : Decimal.signed false limit = limit := rfl
  rw [Sql.limitExpr, Sql.Expr.ofDigits, hsigned, limitCell]
  cases int64? limit <;> rfl

theorem limitOf_of_lt {limit : Nat} (h : limit < 2 ^ 63) :
    limitOf (limitCell limit) = .ok (some limit) := by
  have hwhole := int64?_of_lt h
  have hvalue := Decimal.toInt_of_int64? hwhole
  rw [limitCell, hwhole, Option.elim_some, limitOf_int, hvalue, Int.toNat_natCast]
  rw [hvalue]
  exact Int.natCast_nonneg limit

/-- A limit that is no whole number of a cell is none at all. -/
theorem limitOf_of_le [ReadsLarge] {limit : Nat} (hlow : 2 ^ 63 <= limit)
    (hhigh : limit < 2 ^ 64) :
    limitOf (limitCell limit) = .error .mismatch := by
  have hlarge := ReadsLarge.two_pow_le_of_read limit hlow hhigh
  rw [limitCell, int64?_of_le hlow, Option.elim_none, Cell.ofValue]
  split
  · rfl
  · rw [limitOf, Cell.numeric, ofReal_of_le hlarge]

end

namespace Sqlite

open Decimal (Scaled)

theorem readExtended_of_lt {n : Nat} (hpos : 0 < n) (h : n < 10 * Scaled.digitBound) :
    Scaled.readExtended ⟨n, 0⟩ = Binary64.ofInt n := by
  have hread : ¬ Scaled.digitBound <= n / 10 := by omega
  have hshorten (fuel : Nat) : Scaled.shorten fuel ⟨n, 0⟩ = ⟨n, 0⟩ := by
    cases fuel with
    | zero => rfl
    | succ fuel => rw [Scaled.shorten, if_neg hread]
  have hplace : Scaled.trimFraction 20 (Scaled.lengthen 20 ⟨n, 0⟩) = ⟨n, 0⟩ := rfl
  rw [Scaled.readExtended, hshorten, hplace]
  dsimp only
  rw [if_neg (Nat.ne_of_gt hpos), if_pos rfl, Binary64.ofInt, Int.natAbs_natCast,
    decide_eq_false (Int.not_lt.mpr (Int.natCast_nonneg n))]

theorem two_pow_le_of_readExtended {n : Nat} (hlow : 2 ^ 63 <= n) (hhigh : n < 2 ^ 64)
    {m : Int} (h : (Scaled.readExtended ⟨n, 0⟩).toInt? = some m) :
    2 ^ 63 <= m.natAbs := by
  by_cases hread : n < 10 * Scaled.digitBound
  · rw [readExtended_of_lt (by omega) hread] at h
    exact Binary64.two_pow_le_of_toInt? (by decide) hlow hhigh h
  · -- The last digit of the greatest numbers is not read.
    have hlast : forall last, last < 16 ->
        forall m, m ∈ (Scaled.readExtended
          ⟨10 * Scaled.digitBound + last, 0⟩).toInt? -> 2 ^ 63 <= m.natAbs := by
      decide +kernel
    have hsum : 10 * Scaled.digitBound + (n - 10 * Scaled.digitBound) = n := by omega
    have hless : n - 10 * Scaled.digitBound < 16 := by
      rw [Scaled.digitBound]
      omega
    have hbound := hlast _ hless m
    rw [hsum] at hbound
    exact hbound h

scoped instance : ReadsLarge where
  two_pow_le_of_read _ hlow hhigh _ h := two_pow_le_of_readExtended hlow hhigh h

end Sqlite

/-!
# Columns and orderings by their names
-/

namespace Table

def Lists (table : Table) (names : List String) : Prop :=
  forall name, name ∈ names -> (table.position? name).isSome = true

theorem lists_cons {table : Table} {name : String} {names : List String} :
    table.Lists (name :: names) ↔
      (table.position? name).isSome = true ∧ table.Lists names :=
  List.forall_mem_cons

/-- The cell of a record in the column of a name, under the column's own name. -/
def cell? (table : Table) (record : Record) (name : String) : Option (String × Cell) :=
  (table.position? name).map fun position =>
    (table.fieldName position, record.cells[position]?.getD .null)

def projected (table : Table) (columns? : Option (List String)) (record : Record) :
    ResultRow :=
  match columns? with
  | some (column :: columns) => (column :: columns).filterMap (table.cell? record)
  | _ => table.listed record

def sortKeys (table : Table) (orders : List OrderBy) : List SortKey :=
  orders.filterMap fun order =>
    ((table.scope []).column? order.column).map fun column =>
      (column, order.direction)

section
variable [Conversions] {table : Table} (params : List Cell)

theorem exists_column_of_isSome {name : String}
    (h : (table.position? name).isSome = true) :
    exists position affinity,
      table.position? name = some position ∧
      (table.scope []).column? name = some (.column position affinity) ∧
      (table.scope params).resolve (.column none name) =
        .ok (.column position affinity) := by
  rcases Option.isSome_iff_exists.mp h with ⟨position, hposition⟩
  rcases resolve_column_of_position? hposition with ⟨field, hfield, hcolumn⟩
  refine ⟨position, field.affinity, hposition, ?_, hcolumn params⟩
  have hnamed : (table.scope []).columns[position]? =
      some ⟨field.name, field.affinity⟩ := by
    rw [scope, List.getElem?_map, hfield]
    rfl
  rw [Scope.column?, position?_scope, hposition, Option.bind_eq_bind,
    Option.bind_some, hnamed]
  rfl

theorem mapM_outputs {columns : List String} (h : table.Lists columns) :
    exists outputs, (columns.map fun name =>
        Sql.Output.value (.column none name) name).mapM
      (resolveOutput table (table.scope params)) = .ok outputs ∧
      outputRow outputs.flatten = fun record =>
        columns.filterMap (table.cell? record) := by
  induction columns with
  | nil => exact ⟨[], rfl, rfl⟩
  | cons column columns ih =>
      rw [lists_cons] at h
      rcases exists_column_of_isSome params h.left with
        ⟨position, affinity, hposition, _, hcolumn⟩
      rcases ih h.right with ⟨outputs, houtputs, hrow⟩
      refine ⟨[(table.fieldName position, .column position affinity)] ::
        outputs, ?_, ?_⟩
      · rw [List.map_cons, List.mapM_cons, houtputs, resolveOutput, hcolumn]
        rfl
      · funext record
        have hcell : table.cell? record column =
            some (table.fieldName position, record.cells[position]?.getD .null) := by
          rw [cell?, hposition]
          rfl
        rw [List.filterMap_cons_some hcell, <- congrFun hrow record]
        rfl

theorem mapM_outputsOf {columns? : Option (List String)}
    (h : forall columns, columns? = some columns -> table.Lists columns) :
    exists outputs, (outputsOf columns?).mapM
      (resolveOutput table (table.scope params)) = .ok outputs ∧
      outputRow outputs.flatten = table.projected columns? := by
  have hall : outputRow ([table.fields.zipIdx.map fun entry =>
      (entry.1.name, Formula.column entry.2 entry.1.affinity)].flatten) =
        table.listed := by
    funext record
    rw [List.flatten_cons, List.flatten_nil, List.append_nil, outputRow, List.map_map,
      listed]
    rfl
  rcases columns? with _ | _ | ⟨column, columns⟩
  · exact ⟨_, rfl, hall⟩
  · exact ⟨_, rfl, hall⟩
  · exact mapM_outputs params (h _ rfl)

theorem mapM_orderings_of_lists {orders : List OrderBy}
    (h : table.Lists (orders.map OrderBy.column)) :
    (orders.map Sql.orderTerm).mapM (fun term => do
      return (<- (table.scope params).resolve term.expr, term.direction)) =
        .ok (table.sortKeys orders) := by
  induction orders with
  | nil => rfl
  | cons order orders ih =>
      rw [List.map_cons, lists_cons] at h
      rcases exists_column_of_isSome params h.left with
        ⟨position, affinity, _, hkey, hcolumn⟩
      have hkeys : table.sortKeys (order :: orders) =
          (.column position affinity, order.direction) :: table.sortKeys orders := by
        rw [sortKeys, List.filterMap_cons, hkey]
        rfl
      rw [List.map_cons, List.mapM_cons, ih h.right, Sql.orderTerm, hcolumn, hkeys]
      rfl

end

end Table

/-!
# Queries with and without a limit
-/

namespace Store

variable [Conversions]

theorem mapM_closedCell_limitExpr (params : List Cell) (limit? : Option Nat) :
    (limit?.map Sql.limitExpr).mapM (closedCell params) =
      .ok (limit?.map limitCell) := by
  cases limit? with
  | none => rfl
  | some limit =>
      rw [Option.map_some, Option.mapM_some, closedCell_limit]
      rfl

/-- A limit says how many rows are asked for, and nothing about which ones. -/
theorem selection_of_lists {store : Store} {name : String} {params : List Cell}
    {condition? : Option Sql.Expr} {table : Table} {passes : Record -> Bool}
    (hchosen : store.chosen name params condition? = .ok (table, passes))
    {columns? : Option (List String)}
    (hcolumns : forall columns, columns? = some columns -> table.Lists columns)
    {orders : List OrderBy} (horders : table.Lists (orders.map OrderBy.column)) :
    exists outputs, outputRow outputs = table.projected columns? ∧
      forall limit? : Option Nat,
        store.selection params
            (Sql.sourceQuery (projectionOf columns?) name condition? orders limit?)
            (outputsOf columns?) =
          (fun limit? => ⟨table, passes, outputs, table.sortKeys orders, limit?.join⟩) <$>
            (limit?.map limitCell).mapM limitOf := by
  rcases chosen_eq_ok.mp hchosen with ⟨hget, hpasses⟩
  rcases Table.mapM_outputsOf params hcolumns with ⟨outputs, houtputs, hrow⟩
  refine ⟨outputs.flatten, hrow, fun limit? => ?_⟩
  rw [selection, Sql.sourceQuery]
  simp only [hget, mapM_closedCell_limitExpr, houtputs, hpasses,
    Table.mapM_orderings_of_lists params horders, ok_bind]
  rfl

end Store

section
variable [Dialect] {store : Store} {name : String} {params : List Cell}
  {condition? : Option Sql.Expr} {table : Table} {passes : Record -> Bool}
  (hchosen : store.chosen name params condition? = .ok (table, passes))
  {columns? : Option (List String)}
  (hcolumns : forall columns, columns? = some columns -> table.Lists columns)
  {orders : List OrderBy} (horders : table.Lists (orders.map OrderBy.column))

include hchosen hcolumns horders

namespace Store

theorem select_of_limit {limit? : Option Nat} {allowed? : Option (Option Nat)}
    (hlimit : (limit?.map limitCell).mapM limitOf = .ok allowed?) :
    exists arranged,
      Arranges (table.sortKeys orders) (table.records.filter passes) arranged ∧
      store.select params
          (Sql.sourceQuery (projectionOf columns?) name condition? orders limit?) =
        .ok ((takeRows allowed?.join arranged).map (table.projected columns?)) := by
  rcases selection_of_lists hchosen hcolumns horders with
    ⟨outputs, houtputs, hselection⟩
  have hfound := hselection limit?
  rw [hlimit] at hfound
  rcases (answers_select store params (Sql.sourceQuery (projectionOf columns?) name
    condition? orders limit?)).cases (Statement.projectionOf_eq columns?) with
    ⟨error, herror, _⟩ | ⟨selection, rows, hok, ⟨arranged, harranged, rfl⟩, hselect⟩
  · rw [hfound] at herror
    cases herror
  · cases hfound.symm.trans hok
    refine ⟨arranged, harranged, hselect.trans ?_⟩
    rw [Selection.rows, houtputs, takeRows_map]

theorem select_of_refused {limit? : Option Nat} {error : Error}
    (hlimit : (limit?.map limitCell).mapM limitOf = .error error) :
    store.select params
        (Sql.sourceQuery (projectionOf columns?) name condition? orders limit?) =
      .error error := by
  rcases selection_of_lists hchosen hcolumns horders with ⟨outputs, _, hselection⟩
  have hfound := hselection limit?
  rw [hlimit] at hfound
  rcases (answers_select store params (Sql.sourceQuery (projectionOf columns?) name
    condition? orders limit?)).cases (Statement.projectionOf_eq columns?) with
    ⟨found, herror, hselect⟩ | ⟨selection, rows, hok, _⟩
  · cases hfound.symm.trans herror
    exact hselect
  · rw [hfound] at hok
    cases hok

end Store

end

/-!
# The first rows
-/

/-- Orderings that let no two records tie. -/
def TellsApart [Conversions] (orderings : List SortKey) (records : List Record) : Prop :=
  forall a b, a ∈ records -> b ∈ records ->
    compareRows orderings a b = .eq -> a = b

/--
The first of some arranged records, as far as the orderings decide which ones these are:
others may stand for those with which they tie.
-/
structure Leads [Conversions] (orderings : List SortKey) (arranged : List Record)
    (limit : Nat) (first : List Record) : Prop where
  length_eq : first.length = min limit arranged.length
  subperm : first.Subperm arranged
  tied : List.Forall₂ (fun a b => compareRows orderings a b = .eq) first
    (arranged.take limit)
  eq_take : TellsApart orderings arranged -> first = arranged.take limit

theorem leads_take [Conversions] {orderings : List SortKey}
    {records arranged others : List Record}
    (h : Arranges orderings records arranged)
    (hothers : Arranges orderings records others) (limit : Nat) :
    Leads orderings arranged limit (others.take limit) where
  length_eq := by
    rw [List.length_take, (hothers.perm.trans h.perm.symm).length_eq]
  subperm := (List.take_sublist limit others).subperm.trans
    (hothers.perm.trans h.perm.symm).subperm
  tied := List.forall₂_take limit (hothers.tied h)
  eq_take happart := by
    rw [hothers.eq_of_distinct h fun a b ha hb => happart a b
      (h.perm.mem_iff.mpr ha) (h.perm.mem_iff.mpr hb)]

end Engine
end TableStore
