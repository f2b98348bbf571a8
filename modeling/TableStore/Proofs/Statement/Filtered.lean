import TableStore.Proofs.Engine.Filters
import TableStore.Proofs.Statement.Runs

/-!
# What statements do with the rows of a filter

Each statement with a filter reaches the engine in a way of its own, but each is about
the records that the filter chooses: a query lists them, an aggregate computes something
from them, a removal takes them away and an update changes nothing else.
-/

namespace TableStore
namespace Statement

open Engine (Admits Cell Dialect Record Session Store)

def positionsOf (stored : Engine.Table) (columns : List String) : List Nat :=
  columns.filterMap stored.position?

theorem positions_of_lookedUp [Engine.Conversions] {stored : Engine.Table}
    {cells : List (String × Value)}
    {resolved : List (Nat × Engine.Formula)}
    (h : cells.mapM (lookedUp (stored.scope [])) = .ok resolved) :
    resolved.map Prod.fst = positionsOf stored (Keyed.keys cells) := by
  induction cells generalizing resolved with
  | nil =>
      cases h
      rfl
  | cons cell cells ih =>
      rw [List.mapM_cons, Engine.bind_eq_ok] at h
      rcases h with ⟨first, hfirst, h⟩
      rcases Engine.bind_eq_ok.mp h with ⟨rest, hrest, h⟩
      cases h
      rw [lookedUp, Engine.Table.position?_scope] at hfirst
      rw [Keyed.keys_cons, positionsOf, List.filterMap_cons, List.map_cons,
        ih hrest]
      cases hposition : stored.position? cell.1 with
      | none =>
          rw [hposition] at hfirst
          cases hfirst
      | some position =>
          rw [hposition] at hfirst
          cases hfirst
          rfl

theorem plainLists_ofFilter (filter? : Option Predicate) :
    PlainLists (.ofFilter filter?) :=
  ⟨nofun, nofun⟩

/-- The records that a filter chooses are those of the condition that it is read as. -/
theorem chosen_of_choice [Engine.Conversions] {store : Store} {table : String}
    {mode : Rendering} {filter? : Option Predicate}
    {result : Except Engine.Error (Engine.Table × (Record -> Bool))}
    (h : store.choice table mode filter? = result) (before : List Value) :
    store.chosen table (statementCells before mode filter?)
      (conditionTree (operandLeaf mode before.length) filter?) = result :=
  (Store.chosen_conditionTree store table mode before filter?).trans h

namespace Legible

section Runs

variable [Dialect] {mode : Rendering} {table : String} {filter? : Option Predicate}
  {session : Session Store} {stored : Engine.Table} {passes : Record -> Bool}

/-!
# Queries
-/

theorem hasAnswer_of_runOf_query (h : Legible mode table filter?) {options : Options}
    (hfilter : options.filter? = filter?) (hplain : PlainLists options)
    {result : Session.Result}
    (hresult : (runOf session
      (selectBase table options.columns? ++ condition mode filter? ++
        .ofText (tail options))).2 = .ok result) :
    session.store.select (statementCells [] mode filter?)
      (queryOf mode table options) = .ok result.rows := by
  by_cases hadmits : Admits (selectBase table options.columns? ++
    condition mode filter? ++ .ofText (tail options)).text
  · rw [h.runOf_query hfilter hplain hadmits] at hresult
    cases hselect : session.store.select (statementCells [] mode filter?)
        (queryOf mode table options) with
    | error error =>
        rw [hselect] at hresult
        cases hresult
    | ok rows =>
        rw [hselect] at hresult
        cases hresult
        rfl
  · rcases h.runOf_query_of_not_admits hfilter hplain hadmits session with
      ⟨message, hrun⟩
    rw [hrun] at hresult
    cases hresult

theorem length_of_runOf_query (h : Legible mode table filter?)
    (hchoice : session.store.choice table mode filter? = .ok (stored, passes))
    {options : Options} (hfilter : options.filter? = filter?)
    (hlimit : options.limit? = none) (hplain : PlainLists options)
    {result : Session.Result}
    (hresult : (runOf session
      (selectBase table options.columns? ++ condition mode filter? ++
        .ofText (tail options))).2 = .ok result) :
    result.rows.length = (stored.records.filter passes).length := by
  have hchosen := chosen_of_choice hchoice []
  have hselect := h.hasAnswer_of_runOf_query hfilter hplain hresult
  have hanswers := Store.answers_select session.store
    (statementCells [] mode filter?) (queryOf mode table options)
  rw [hselect, queryOf, hfilter, hlimit] at hanswers
  exact hanswers.length_of_chosen hchosen

theorem runOf_query_of_error (h : Legible mode table filter?)
    {error : Engine.Error}
    (hchoice : session.store.choice table mode filter? = .error error)
    {options : Options} (hfilter : options.filter? = filter?)
    (hplain : PlainLists options) :
    exists found, runOf session
        (selectBase table options.columns? ++ condition mode filter? ++
          .ofText (tail options)) = (session, .error found) := by
  by_cases hadmits : Admits (selectBase table options.columns? ++
    condition mode filter? ++ .ofText (tail options)).text
  · have hchosen := chosen_of_choice hchoice []
    rcases Store.selectBy_of_error
      (fun stored => Dialect.visit stored (statementCells [] mode filter?)
        (queryOf mode table options)) hchosen (projectionOf options.columns?)
      options.orderBy (options.limit?.map UInt64.toNat) with ⟨found, hfound⟩
    exists found
    have hselect : session.store.select (statementCells [] mode filter?)
        (queryOf mode table options) = .error found := by
      rw [queryOf, hfilter]
      rw [queryOf, hfilter] at hfound
      exact hfound
    rw [h.runOf_query hfilter hplain hadmits, hselect]
    rfl
  · rcases h.runOf_query_of_not_admits hfilter hplain hadmits session with
      ⟨message, hrun⟩
    exact ⟨_, hrun⟩

/-!
# Aggregates
-/

theorem runOf_computed_of_choice (h : Legible mode table filter?)
    (hchoice : session.store.choice table mode filter? = .ok (stored, passes))
    {computed : Aggregate}
    (hcolumn : forall column, computed = .sum column ->
      Sql.isPlainName column = true)
    (hadmits : Admits (aggregateBase table computed ++ condition mode filter?).text) :
    exists name visited, visited.Perm (stored.records.filter passes) ∧
      runOf session (aggregateBase table computed ++ condition mode filter?) =
        (session,
          (Store.summand? (stored.scope []) computed >>=
            Store.totalOf visited).map fun cell =>
              ⟨[[(name, cell)]], session.changes⟩) := by
  have hchosen := chosen_of_choice hchoice []
  rcases h.runOf_computed hcolumn hadmits session with ⟨name, total, htotals, hrun⟩
  rcases htotals.of_chosen hchosen with ⟨visited, hvisited, rfl⟩
  exact ⟨name, visited, hvisited, hrun⟩

theorem runOf_computed_of_error (h : Legible mode table filter?)
    {error : Engine.Error}
    (hchoice : session.store.choice table mode filter? = .error error)
    {computed : Aggregate}
    (hcolumn : forall column, computed = .sum column ->
      Sql.isPlainName column = true) :
    exists found, runOf session
        (aggregateBase table computed ++ condition mode filter?) =
      (session, .error found) := by
  by_cases hadmits :
      Admits (aggregateBase table computed ++ condition mode filter?).text
  · have hchosen := chosen_of_choice hchoice []
    rcases h.runOf_computed hcolumn hadmits session with ⟨name, total, htotals, hrun⟩
    rcases htotals.of_error hchosen with ⟨found, rfl⟩
    exact ⟨found, hrun⟩
  · rcases h.runOf_computed_of_not_admits hcolumn hadmits session with
      ⟨message, hrun⟩
    exact ⟨_, hrun⟩

/-!
# Removals
-/

/-- A removal takes the chosen records away, or it is refused. -/
theorem runOf_removal_of_choice (h : Legible mode table filter?)
    (hchoice : session.store.choice table mode filter? = .ok (stored, passes))
    (hadmits : Admits (deleteBase table ++ condition mode filter?).text) :
    (runOf session (deleteBase table ++ condition mode filter?) =
      ({ session with
          store := session.store.put { stored with
            records := stored.records.filter fun record => !passes record }
          changes := (stored.records.filter passes).length },
        .ok ⟨[], (stored.records.filter passes).length⟩)) ∨
    exists error changes,
      (session.store.Retains stored passes error ∨
        session.readOnly = true ∧ error = .readOnly) ∧
      runOf session (deleteBase table ++ condition mode filter?) =
        ({ session with changes := changes }, .error error) := by
  have hwithin := (Session.admits_iff_of_read h.read_removal).mp hadmits
  have hchosen : session.store.chosen table (statementCells [] mode filter?)
      (conditionTree (operandLeaf mode 0) filter?) = .ok (stored, passes) :=
    chosen_of_choice hchoice []
  have hrun := (Store.runWithin_of_none hwithin _ _).trans
    (Store.run_delete session.store table (statementCells [] mode filter?) _)
  rw [Store.delete_of_chosen hchosen, Functor.map_map] at hrun
  rw [h.runOf_removal]
  rcases Session.reported_change (Store.writes_delete _ _ _) hrun with
    ⟨after, hwithout, _, hdone⟩ | ⟨error, changes, hreason, hfailed⟩
  · rw [Store.without_eq_ok hwithout] at hdone
    exact .inl hdone
  · exact .inr ⟨error, changes, hreason.imp_left Store.retains_of_without, hfailed⟩

theorem runOf_removal_of_error (h : Legible mode table filter?)
    {error : Engine.Error}
    (hchoice : session.store.choice table mode filter? = .error error) :
    exists found changes,
      runOf session (deleteBase table ++ condition mode filter?) =
        ({ session with changes := changes }, .error found) := by
  have hchosen := chosen_of_choice hchoice []
  rw [h.runOf_removal]
  apply Session.reported_of_error (Store.writes_delete _ _ _)
  apply Store.runWithin_of_error
  rcases Store.delete_of_error hchosen with ⟨found, hfound⟩
  exists found
  rw [Store.run_delete]
  exact congrArg _ hfound

/-!
# Updates
-/

theorem runOf_change (h : Legible mode table filter?) {changes : Row}
    (hne : changes.columns ≠ [])
    (hcolumns : forall column, column ∈ changes.columns ->
      Sql.isPlainName column = true)
    {options : Options} (hfilter : options.filter? = filter?)
    (horders : options.orderBy = []) (hlimit : options.limit? = none)
    (session : Session Store) :
    runOf session
        (updateBase table changes ++ condition mode filter? ++
          .ofText (tail options)) =
      Session.reported (session.perform (statementCells changes.values mode filter?)
        (.update table (Sql.placeholderAssignments changes.columns)
          (conditionTree (operandLeaf mode changes.values.length) filter?))) :=
  h.runOf_update_of_no_tail hne hcolumns hfilter
    (orders_isPlainName_of_nil horders) (tailTokens_eq_nil horders hlimit)

theorem not_ok_of_no_columns (h : Legible mode table filter?) {changes : Row}
    (hempty : changes.columns = []) {options : Options}
    (horders : options.orderBy = []) :
    exists found, runOf session
        (updateBase table changes ++ condition mode filter? ++
          .ofText (tail options)) = (session, .error found) :=
  ⟨_, h.runOf_update_of_no_columns hempty (orders_isPlainName_of_nil horders)⟩

theorem run_of_reported_ok {params : List Cell} {command : Sql.Command}
    {result : Session.Result}
    (h : (Session.reported (session.perform params command)).2 = .ok result) :
    session.store.runWithin params command = session.store.run params command := by
  apply Store.runWithin_of_none
  cases hexcess : Dialect.excess? command with
  | none => rfl
  | some message =>
      rw [Session.perform_of_excess session params hexcess] at h
      cases h

/--
An update that succeeds replaces the chosen records, each by one that differs from it
in the columns of the update only.
-/
theorem runOf_change_of_choice (h : Legible mode table filter?)
    (hregular : stored.Regular)
    (hchoice : session.store.choice table mode filter? = .ok (stored, passes))
    {changes : Row}
    (hcolumns : forall column, column ∈ changes.columns ->
      Sql.isPlainName column = true)
    {options : Options} (hfilter : options.filter? = filter?)
    (horders : options.orderBy = []) (hlimit : options.limit? = none)
    {result : Session.Result}
    (hresult : (runOf session
      (updateBase table changes ++ condition mode filter? ++
        .ofText (tail options))).2 = .ok result) :
    exists records news,
      runOf session
          (updateBase table changes ++ condition mode filter? ++
            .ofText (tail options)) =
        ({ session with
            store := session.store.put { stored with records := records }
            changes := (stored.records.filter passes).length },
          .ok ⟨[], (stored.records.filter passes).length⟩) ∧
      Engine.Table.Regular { stored with records := records } ∧
      List.Forall₂ (stored.Alters (positionsOf stored changes.columns))
        (stored.records.filter passes) news ∧
      records.Perm
        (news ++ stored.records.filter fun record => !passes record) := by
  by_cases hempty : changes.columns = []
  · rcases h.not_ok_of_no_columns hempty horders with ⟨found, hrun⟩
    rw [hrun] at hresult
    cases hresult
  · have hchosen := chosen_of_choice hchoice changes.values
    rw [h.runOf_change hempty hcolumns hfilter horders hlimit] at hresult ⊢
    have hrun := (run_of_reported_ok hresult).trans (Store.run_update session.store table
      (statementCells changes.values mode filter?) _ _)
    have hassignments := resolveAssignments_of_update stored changes mode filter?
    cases hresolved : changes.cells.mapM (lookedUp (stored.scope [])) with
    | error error =>
        rw [hresolved] at hassignments
        rw [Store.update_of_unresolved (Store.chosen_eq_ok.mp hchosen).left
          hassignments] at hrun
        rcases Session.reported_of_error (Store.writes_update _ _ _ _)
          ⟨error, hrun⟩ with ⟨found, changes, hfailed⟩
        rw [hfailed] at hresult
        cases hresult
    | ok resolved =>
        rw [hresolved] at hassignments
        rw [Store.update_of_chosen hchosen hassignments, Functor.map_map] at hrun
        rcases Session.reported_change (Store.writes_update _ _ _ _) hrun with
          ⟨after, hafter, _, hdone⟩ | ⟨error, changes, _, hfailed⟩
        · rcases Store.assigning_eq_ok hregular hafter with
            ⟨records, news, rfl, hkept, hnews, hperm⟩
          rw [positions_of_lookedUp hresolved] at hnews
          exact ⟨records, news, hdone, hkept, hnews, hperm⟩
        · rw [hfailed] at hresult
          cases hresult

theorem runOf_change_of_error (h : Legible mode table filter?)
    {error : Engine.Error}
    (hchoice : session.store.choice table mode filter? = .error error)
    {changes : Row}
    (hcolumns : forall column, column ∈ changes.columns ->
      Sql.isPlainName column = true)
    {options : Options} (hfilter : options.filter? = filter?)
    (horders : options.orderBy = []) (hlimit : options.limit? = none) :
    exists found changed,
      runOf session
          (updateBase table changes ++ condition mode filter? ++
            .ofText (tail options)) =
        ({ session with changes := changed }, .error found) := by
  by_cases hempty : changes.columns = []
  · rcases h.not_ok_of_no_columns hempty horders with ⟨found, hrun⟩
    exact ⟨found, session.changes, hrun⟩
  · have hchosen := chosen_of_choice hchoice changes.values
    rw [h.runOf_change hempty hcolumns hfilter horders hlimit]
    apply Session.reported_of_error (Store.writes_update _ _ _ _)
    apply Store.runWithin_of_error
    rcases Store.update_of_error hchosen
      (Sql.placeholderAssignments changes.columns) with ⟨found, hfound⟩
    exists found
    rw [Store.run_update]
    exact congrArg _ hfound

end Runs

end Legible

/-!
# All statements with a filter
-/

/-- The statements with a filter, on columns with plain names. -/
inductive Filtered (mode : Rendering) (table : String) (filter? : Option Predicate) :
    Fragment -> Prop where
  | query {options : Options} : options.filter? = filter? -> PlainLists options ->
      Filtered mode table filter?
        (selectBase table options.columns? ++ condition mode filter? ++
          .ofText (tail options))
  | computed {computed : Aggregate} :
      (forall column, computed = .sum column -> Sql.isPlainName column = true) ->
      Filtered mode table filter?
        (aggregateBase table computed ++ condition mode filter?)
  | removal : Filtered mode table filter? (deleteBase table ++ condition mode filter?)
  | change {changes : Row} {options : Options} :
      (forall column, column ∈ changes.columns -> Sql.isPlainName column = true) ->
      options.filter? = filter? -> options.orderBy = [] -> options.limit? = none ->
      Filtered mode table filter?
        (updateBase table changes ++ condition mode filter? ++ .ofText (tail options))

namespace Legible

section Failing

variable [Dialect] {mode : Rendering} {table : String} {filter? : Option Predicate}
  {statement : Fragment}

theorem fails_of_error (h : Legible mode table filter?)
    (hfiltered : Filtered mode table filter? statement) {session : Session Store}
    {error : Engine.Error}
    (hchoice : session.store.choice table mode filter? = .error error) :
    exists found changes,
      runOf session statement = ({ session with changes := changes }, .error found) := by
  cases hfiltered with
  | query hfilter hplain =>
      rcases h.runOf_query_of_error hchoice hfilter hplain with ⟨found, hrun⟩
      exact ⟨found, session.changes, hrun⟩
  | computed hcolumn =>
      rcases h.runOf_computed_of_error hchoice hcolumn with ⟨found, hrun⟩
      exact ⟨found, session.changes, hrun⟩
  | removal => exact h.runOf_removal_of_error hchoice
  | change hcolumns hfilter horders hlimit =>
      exact h.runOf_change_of_error hchoice hcolumns hfilter horders hlimit

theorem fails_of_not_admits (h : Legible mode table filter?)
    (hfiltered : Filtered mode table filter? statement)
    (hbeyond : ¬ Admits statement.text) (session : Session Store) :
    exists found, runOf session statement = (session, .error found) := by
  cases hfiltered with
  | query hfilter hplain =>
      rcases h.runOf_query_of_not_admits hfilter hplain hbeyond session with
        ⟨message, hrun⟩
      exact ⟨_, hrun⟩
  | computed hcolumn =>
      rcases h.runOf_computed_of_not_admits hcolumn hbeyond session with
        ⟨message, hrun⟩
      exact ⟨_, hrun⟩
  | removal =>
      rcases runOf_of_not_admits h.read_removal hbeyond session with ⟨message, hrun⟩
      exact ⟨_, hrun⟩
  | @change changes options hcolumns hfilter horders hlimit =>
      by_cases hempty : changes.columns = []
      · exact h.not_ok_of_no_columns hempty horders
      · cases hfilter
        rcases runOf_of_not_admits
          (h.read_update_of_no_tail hempty hcolumns (orders_isPlainName_of_nil horders)
            (tailTokens_eq_nil horders hlimit)) hbeyond session with ⟨message, hrun⟩
        exact ⟨_, hrun⟩

end Failing

end Legible
end Statement
end TableStore
