import TableStore.Proofs.Engine.Choice
import TableStore.Proofs.Engine.Session
import TableStore.Proofs.Predicate.Renderings

/-!
# What statements run

A statement whose filter can be built and read reaches the engine as one command, or
it is refused at one of its words.  If the operands of the filter are kept, then it
does the same in both renderings: it is refused with the same fault, runs the same
change on the same rows, or asks for the same rows.
-/

namespace TableStore
namespace Statement

open Engine (Admits Cell Dialect Session Store)
open Predicate (Kept Unquoted)
open Sql (Expr Scans Token)

structure Legible (mode : Rendering) (table : String)
    (filter? : Option Predicate) : Prop where
  table_isPlainName : Sql.isPlainName table = true
  violations_eq : filterViolations filter? = []
  columns_isPlainName : forall column, column ∈ filterColumns filter? ->
    Sql.isPlainName column = true
  unquoted : mode = .inline -> forall value,
    value ∈ filterOperands filter? -> Unquoted value

/-- Statements about a table with a filter, in which no name can mean anything else. -/
structure Unambiguous (mode : Rendering) (table : String)
    (filter? : Option Predicate) : Prop extends Legible mode table filter? where
  table_isTableName : Sql.isTableName table = true
  columns_isColumnName : forall column, column ∈ filterColumns filter? ->
    Sql.isColumnName column = true

theorem unambiguous_of_names {table : String} {filter? : Option Predicate}
    (htable : Sql.isTableName table = true)
    (hfound : filterViolations filter? = [])
    (hcolumns : forall column, column ∈ filterColumns filter? ->
      Sql.isColumnName column = true) :
    Unambiguous .parameterized table filter? where
  table_isPlainName := Sql.isPlainName_of_isTableName htable
  violations_eq := hfound
  columns_isPlainName column hmem :=
    Sql.isPlainName_of_isColumnName (hcolumns column hmem)
  unquoted hmode := by cases hmode
  table_isTableName := htable
  columns_isColumnName := hcolumns

theorem Legible.leavesRead {mode : Rendering} {table : String}
    {filter? : Option Predicate} (h : Legible mode table filter?)
    (before : Nat) :
    Predicate.LeavesRead before mode (operandLeaf mode before)
      (filterOperands filter?) :=
  leavesRead_operandLeaf before h.violations_eq h.unquoted

def statementCells (before : List Value) (mode : Rendering)
    (filter? : Option Predicate) : List Cell :=
  (before ++ boundOperands mode (filterOperands filter?)).map Cell.ofValue

/-- The query of a selection from a table. -/
def queryOf (mode : Rendering) (table : String) (options : Options) : Sql.Query :=
  Sql.sourceQuery (projectionOf options.columns?) table
    (conditionTree (operandLeaf mode 0) options.filter?) options.orderBy
    (options.limit?.map UInt64.toNat)

structure PlainLists (options : Options) : Prop where
  columns_isColumnName : forall columns, options.columns? = some columns ->
    forall column, column ∈ columns -> Sql.isColumnName column = true
  orders_isColumnName : forall order, order ∈ options.orderBy ->
    Sql.isColumnName order.column = true

theorem PlainLists.columns {options : Options} (h : PlainLists options) :
    forall columns, options.columns? = some columns ->
      forall column, column ∈ columns -> Sql.isPlainName column = true :=
  fun columns heq column hmem =>
    Sql.isPlainName_of_isColumnName (h.columns_isColumnName columns heq column hmem)

theorem PlainLists.orders {options : Options} (h : PlainLists options) :
    forall order, order ∈ options.orderBy -> Sql.isPlainName order.column = true :=
  fun order hmem => Sql.isPlainName_of_isColumnName (h.orders_isColumnName order hmem)

theorem isPlainName_of_count : forall column,
    Aggregate.count = .sum column -> Sql.isPlainName column = true :=
  nofun

theorem isPlainName_of_sum {column : String}
    (hcolumn : Sql.isPlainName column = true) : forall other,
      Aggregate.sum column = .sum other ->
        Sql.isPlainName other = true := by
  intro other heq
  cases heq
  exact hcolumn

section
variable [Dialect]

theorem runOf_of_read {statement : Fragment} {params : List Value}
    (hparams : statement.params = params) {command : Sql.Command}
    (hread : Sql.Command.read.run (Sql.scan statement.text) = .ok (command, []))
    (session : Session Store) :
    runOf session statement =
      Session.reported (session.perform (params.map Cell.ofValue) command) := by
  rw [<- hparams]
  exact Session.runText_of_read hread session _

theorem runOf_of_not_admits {statement : Fragment} {command : Sql.Command}
    (hread : Sql.Command.read.run (Sql.scan statement.text) = .ok (command, []))
    (h : ¬ Admits statement.text) (session : Session Store) :
    exists message, runOf session statement = (session, .error (.excess message)) := by
  rw [Engine.Session.admits_iff_of_read hread] at h
  rcases Option.ne_none_iff_exists'.mp h with ⟨message, hmessage⟩
  exists message
  rw [runOf_of_read rfl hread, Session.perform_of_excess _ _ hmessage]
  rfl

theorem runOf_of_fault {statement : Fragment} {word : String} {tokens : List Sql.Token}
    {fault : Sql.Fault}
    (hspells : Sql.Spells (Sql.scan statement.text) (.word word :: tokens))
    (h : Sql.Command.read.run (Sql.scan statement.text) = .error fault)
    (session : Session Store) :
    runOf session statement = (session, .error (.fault fault)) :=
  Session.runText_of_fault hspells h session _

theorem runOf_of_refuses {statement : Fragment} {word : String}
    {tokens : List Sql.Token} {fault : Sql.Fault}
    (hspells : Sql.Spells (Sql.scan statement.text) (.word word :: tokens))
    (h : Sql.Refuses Sql.Command.read (.word word :: tokens) fault)
    (session : Session Store) :
    runOf session statement = (session, .error (.fault fault)) :=
  runOf_of_fault hspells (h _ hspells) session

end

theorem params_filtered (base : Fragment) (mode : Rendering)
    (filter? : Option Predicate) :
    (base ++ condition mode filter?).params =
      base.params ++ boundOperands mode (filterOperands filter?) := by
  rw [Fragment.params_append, params_condition, boundOperands_eq]
  rfl

theorem params_filtered_tail (base : Fragment) (mode : Rendering)
    (filter? : Option Predicate) (ending : String) :
    (base ++ condition mode filter? ++ .ofText ending).params =
      base.params ++ boundOperands mode (filterOperands filter?) := by
  rw [Fragment.params_append, params_filtered, Fragment.params_ofText,
    List.append_nil]

section Runs

variable {mode : Rendering} {table : String} {filter? : Option Predicate}

/-!
# Removals and queries
-/

namespace Legible

theorem read_removal (h : Legible mode table filter?) :
    Sql.Command.read.run
        (Sql.scan (deleteBase table ++ condition mode filter?).text) =
      .ok (.delete table (conditionTree (operandLeaf mode 0) filter?), []) :=
  read_delete h.table_isPlainName h.violations_eq h.columns_isPlainName
    (h.leavesRead 0)

theorem read_query (h : Legible mode table filter?) {options : Options}
    (hfilter : options.filter? = filter?) (hplain : PlainLists options) :
    Sql.Command.read.run
        (Sql.scan (selectBase table options.columns? ++ condition mode filter? ++
          .ofText (tail options)).text) =
      .ok (.select (queryOf mode table options), []) := by
  cases hfilter
  exact read_select h.table_isPlainName hplain.columns h.violations_eq
    h.columns_isPlainName hplain.orders (h.leavesRead 0)

end Legible

section
variable [Dialect] {session : Session Store}

namespace Legible

theorem runOf_removal (h : Legible mode table filter?) :
    runOf session (deleteBase table ++ condition mode filter?) =
      Session.reported (session.perform (statementCells [] mode filter?)
        (.delete table (conditionTree (operandLeaf mode 0) filter?))) :=
  runOf_of_read (params_filtered _ _ _) h.read_removal session

theorem runOf_query_of_not_admits (h : Legible mode table filter?)
    {options : Options} (hfilter : options.filter? = filter?)
    (hplain : PlainLists options)
    (hbeyond : ¬ Admits (selectBase table options.columns? ++
      condition mode filter? ++ .ofText (tail options)).text)
    (session : Session Store) :
    exists message, runOf session
      (selectBase table options.columns? ++ condition mode filter? ++
        .ofText (tail options)) = (session, .error (.excess message)) :=
  runOf_of_not_admits (h.read_query hfilter hplain) hbeyond session

theorem runOf_query (h : Legible mode table filter?) {options : Options}
    (hfilter : options.filter? = filter?) (hplain : PlainLists options)
    (hadmits : Admits (selectBase table options.columns? ++
      condition mode filter? ++ .ofText (tail options)).text) :
    runOf session
        (selectBase table options.columns? ++ condition mode filter? ++
          .ofText (tail options)) =
      (session,
        (session.store.select (statementCells [] mode filter?)
          (queryOf mode table options)).map fun rows =>
            ⟨rows, session.changes⟩) := by
  have hread := h.read_query hfilter hplain
  rw [runOf_of_read (params_filtered_tail _ _ _ _) hread, Session.perform_select _ _
    ((Session.admits_iff_of_read hread).mp hadmits)]
  rfl

theorem runOf_computed_of_not_admits (h : Legible mode table filter?)
    {computed : Aggregate}
    (hcolumn : forall column, computed = .sum column ->
      Sql.isPlainName column = true)
    (hbeyond : ¬ Admits
      (aggregateBase table computed ++ condition mode filter?).text)
    (session : Session Store) :
    exists message, runOf session
      (aggregateBase table computed ++ condition mode filter?) =
        (session, .error (.excess message)) := by
  rcases read_aggregate h.table_isPlainName hcolumn h.violations_eq
    h.columns_isPlainName (h.leavesRead 0) with ⟨name, hread⟩
  exact runOf_of_not_admits hread hbeyond session

theorem runOf_computed (h : Legible mode table filter?) {computed : Aggregate}
    (hcolumn : forall column, computed = .sum column ->
      Sql.isPlainName column = true)
    (hadmits : Admits (aggregateBase table computed ++ condition mode filter?).text)
    (session : Session Store) :
    exists name total,
      session.store.Totals table (statementCells [] mode filter?) computed
        (conditionTree (operandLeaf mode 0) filter?) total ∧
      runOf session (aggregateBase table computed ++ condition mode filter?) =
        (session, total.map fun cell => ⟨[[(name, cell)]], session.changes⟩) := by
  rcases read_aggregate h.table_isPlainName hcolumn h.violations_eq
    h.columns_isPlainName (h.leavesRead 0) with ⟨name, hread⟩
  rcases Store.select_aggregate session.store table name
    (statementCells [] mode filter?) computed
    (conditionTree (operandLeaf mode 0) filter?) with ⟨total, htotal, hselect⟩
  refine ⟨name, total, htotal, ?_⟩
  have hparams : (aggregateBase table computed ++ condition mode filter?).params =
      [] ++ boundOperands mode (filterOperands filter?) := params_filtered _ _ _
  rw [runOf_of_read hparams hread, Session.perform_select _ _
    ((Session.admits_iff_of_read hread).mp hadmits), Session.reported]
  dsimp only
  rw [<- statementCells, hselect]
  cases total <;> rfl

end Legible

end

/-!
# Updates

An update has the same tokens in both renderings, apart from its condition.  If it
has no assignments, or an ordering or a limit, it is refused at one of the words
that it has in both.
-/

theorem scanned_updateBase_of_no_columns
    (htable : Sql.isPlainName table = true) {changes : Row}
    (hempty : changes.columns = []) :
    Scanned (updateBase table changes) (Sql.updateTokens table [] []) := by
  intro rest others hrest hscan
  have hvalues : changes.values.length = 0 := by
    rw [Row.length_values, hempty]
    rfl
  have hlength : (updateBase table changes).params.length = 0 := hvalues
  rw [hlength] at hscan
  have hset := piece_word "SET" (by decide) 0 _ _
    (endsPiece_cons (by decide) _) (Scans.blank hscan)
  have hname := piece_name htable 0 _ _ (endsPiece_cons (by decide) _)
    (Scans.blank hset)
  have hupdate := piece_word "UPDATE" (by decide) 0 _ _
    (endsPiece_cons (by decide) _) (Scans.blank hname)
  simpa [updateBase, assignments, hempty, Text.join, Sql.updateTokens,
    Sql.separated] using hupdate

def tailTokens (options : Options) : List Token :=
  Sql.orderTokens options.orderBy ++
    Sql.limitTokens (options.limit?.map UInt64.toNat)

theorem orders_isPlainName_of_nil {options : Options}
    (horders : options.orderBy = []) : forall order,
      order ∈ options.orderBy -> Sql.isPlainName order.column = true := by
  rw [horders]
  exact List.forall_mem_nil _

theorem tailTokens_eq_nil {options : Options} (horders : options.orderBy = [])
    (hlimit : options.limit? = none) : tailTokens options = [] := by
  rw [tailTokens, horders, hlimit]
  rfl

namespace Legible

theorem read_update_of_no_tail {options : Options}
    (h : Legible mode table options.filter?) {changes : Row}
    (hne : changes.columns ≠ [])
    (hcolumns : forall column, column ∈ changes.columns ->
      Sql.isPlainName column = true)
    (horders : forall order, order ∈ options.orderBy ->
      Sql.isPlainName order.column = true)
    (htail : tailTokens options = []) :
    Sql.Command.read.run
        (Sql.scan (updateBase table changes ++
          condition mode options.filter? ++ .ofText (tail options)).text) =
      .ok (.update table (Sql.placeholderAssignments changes.columns)
        (conditionTree (operandLeaf mode changes.columns.length)
          options.filter?), []) := by
  rcases scanned_update h.table_isPlainName hne hcolumns h.violations_eq
    h.columns_isPlainName horders (h.leavesRead _) with
    ⟨clause, hclause, hscanned⟩
  have htokens : Sql.orderTokens options.orderBy ++
      Sql.limitTokens (options.limit?.map UInt64.toNat) = [] := htail
  rw [htokens, List.append_nil] at hscanned
  exact hscanned.run_read (Sql.takes_update
    (not_isReserved h.table_isPlainName) hne (not_isReserved_of_mem hcolumns)
    hclause) (.inl rfl)

variable [Dialect] {session : Session Store}

theorem runOf_update_of_no_columns (h : Legible mode table filter?)
    {changes : Row} (hempty : changes.columns = []) {options : Options}
    (horders : forall order, order ∈ options.orderBy ->
      Sql.isPlainName order.column = true) :
    runOf session
        (updateBase table changes ++ condition mode filter? ++
          .ofText (tail options)) =
      (session, .error (.fault
        (if (conditionTree (operandLeaf mode
              (updateBase table changes).params.length) filter?).isSome then
            .near "WHERE"
          else Sql.faultBefore (tailTokens options)))) := by
  have hbase := scanned_updateBase_of_no_columns h.table_isPlainName hempty
  rcases hbase.filtered h.violations_eq h.columns_isPlainName
    (h.leavesRead _) with ⟨clause, hclause, hscanned⟩
  have hspells := (hscanned.tail horders).spells
  have hrefuses := Sql.refuses_update (not_isReserved h.table_isPlainName)
    (hclause.startsReserved (Sql.startsReserved_tail options.orderBy
      (options.limit?.map UInt64.toNat)))
  rw [hclause.faultBefore_append] at hrefuses
  exact runOf_of_refuses hspells hrefuses session

theorem runOf_update_of_tail (h : Legible mode table filter?) {changes : Row}
    (hne : changes.columns ≠ [])
    (hcolumns : forall column, column ∈ changes.columns ->
      Sql.isPlainName column = true)
    {options : Options} (hfilter : options.filter? = filter?)
    (horders : forall order, order ∈ options.orderBy ->
      Sql.isPlainName order.column = true)
    (htail : tailTokens options ≠ []) :
    runOf session
        (updateBase table changes ++ condition mode filter? ++
          .ofText (tail options)) =
      (session, .error (.fault (Sql.faultBefore (tailTokens options)))) := by
  cases hfilter
  rcases scanned_update h.table_isPlainName hne hcolumns h.violations_eq
    h.columns_isPlainName horders (h.leavesRead _) with
    ⟨clause, hclause, hscanned⟩
  have hfollow := Sql.endsCondition_tail options.orderBy
    (options.limit?.map UInt64.toNat) (Eq.refl none)
  rw [Option.or_none] at hfollow
  have hrefuses := (Sql.takes_update (not_isReserved h.table_isPlainName) hne
    (not_isReserved_of_mem hcolumns) hclause).refuses_rest hfollow
      (Sql.startsReserved_tail options.orderBy
        (options.limit?.map UInt64.toNat)) htail
  exact runOf_of_refuses hscanned.spells hrefuses session

theorem runOf_update_of_no_tail (h : Legible mode table filter?) {changes : Row}
    (hne : changes.columns ≠ [])
    (hcolumns : forall column, column ∈ changes.columns ->
      Sql.isPlainName column = true)
    {options : Options} (hfilter : options.filter? = filter?)
    (horders : forall order, order ∈ options.orderBy ->
      Sql.isPlainName order.column = true)
    (htail : tailTokens options = []) :
    runOf session
        (updateBase table changes ++ condition mode filter? ++
          .ofText (tail options)) =
      Session.reported (session.perform
        (statementCells changes.values mode filter?)
        (.update table (Sql.placeholderAssignments changes.columns)
          (conditionTree (operandLeaf mode changes.values.length) filter?))) := by
  cases hfilter
  rw [Row.length_values]
  exact runOf_of_read (params_filtered_tail _ _ _ _)
    (h.read_update_of_no_tail hne hcolumns horders htail) session

end Legible

end Runs

theorem resolveAssignments_of_update [Engine.Conversions] (stored : Engine.Table)
    (changes : Row) (mode : Rendering) (filter? : Option Predicate) :
    Engine.resolveAssignments
        (stored.scope (statementCells changes.values mode filter?))
        (Sql.placeholderAssignments changes.columns) =
      changes.cells.mapM (lookedUp (stored.scope [])) :=
  resolveAssignments_placeholders rfl

/-!
# Both renderings
-/

/--
A filter with which statements about a table of a store are the same in both
renderings.
-/
structure Interchangeable [Engine.Conversions] (store : Store) (table : String)
    (predicate : Predicate) : Prop where
  table_isPlainName : Sql.isPlainName table = true
  violations_eq : filterViolations (some predicate) = []
  columns_isPlainName : forall column,
    column ∈ filterColumns (some predicate) -> Sql.isPlainName column = true
  unquoted : forall value, value ∈ filterOperands (some predicate) ->
    Unquoted value
  kept : forall stored, store.get table = .ok stored ->
    Kept (stored.scope []).columns predicate

theorem isSome_conditionTree (leaf : Nat -> Value -> Expr)
    (predicate : Predicate) :
    (conditionTree leaf (some predicate)).isSome = !predicate.isEmpty := by
  cases predicate <;> rfl

namespace Interchangeable

section

variable [Engine.Conversions] {store : Store} {table : String}
  {predicate : Predicate}

theorem sameChoice (h : Interchangeable store table predicate)
    (before : List Value) :
    store.SameChoice table
      (statementCells before .parameterized (some predicate))
      (statementCells before .inline (some predicate))
      (conditionTree (operandLeaf .parameterized before.length)
        (some predicate))
      (conditionTree (operandLeaf .inline before.length) (some predicate)) := by
  intro stored hstored
  cases hentries : predicate with
  | nil => rfl
  | cons entry rest =>
      rw [conditionTree, conditionTree, <- hentries]
      have hnames (params others : List Cell) :
          (stored.scope params).SameNames (stored.scope others) := ⟨rfl, rfl⟩
      have hagree := Predicate.agree_renderings
        (hnames (statementCells before .parameterized (some predicate))
          (statementCells before .inline (some predicate))) rfl
        (Predicate.literals_of_violations h.violations_eq)
        (h.kept stored hstored)
      exact Engine.chosenBy_of_agree hagree

theorem legible (h : Interchangeable store table predicate)
    (mode : Rendering) : Legible mode table (some predicate) :=
  ⟨h.table_isPlainName, h.violations_eq, h.columns_isPlainName,
    fun _ => h.unquoted⟩

/-- In either rendering, a selection asks for the rows that it does with operands bound. -/
theorem answers (h : Interchangeable store table predicate) {options : Options}
    (hfilter : options.filter? = some predicate) {mode : Rendering}
    {result : Except Engine.Error (List Engine.ResultRow)}
    (hanswers : store.Answers (statementCells [] mode options.filter?)
      (queryOf mode table options) result) :
    store.Answers (statementCells [] .parameterized options.filter?)
      (queryOf .parameterized table options) result := by
  cases mode with
  | parameterized => exact hanswers
  | inline =>
      rcases hanswers with ⟨visit, hvisit, rfl⟩
      refine ⟨visit, hvisit, ?_⟩
      rw [queryOf, queryOf, hfilter]
      exact (Store.selectBy_congr visit (h.sameChoice []) options.columns?
        options.orderBy (options.limit?.map UInt64.toNat)).symm

theorem totals (h : Interchangeable store table predicate) {computed : Aggregate}
    {mode : Rendering} {result : Except Engine.Error Cell}
    (htotals : store.Totals table (statementCells [] mode (some predicate)) computed
      (conditionTree (operandLeaf mode 0) (some predicate)) result) :
    store.Totals table (statementCells [] .parameterized (some predicate)) computed
      (conditionTree (operandLeaf .parameterized 0) (some predicate)) result := by
  cases mode with
  | parameterized => exact htotals
  | inline =>
      rcases htotals with ⟨visit, hvisit, rfl⟩
      exact ⟨visit, hvisit,
        (Store.aggregateCell_congr visit (h.sameChoice []) computed).symm⟩

end

variable [Dialect] {session : Session Store} {table : String}
  {predicate : Predicate}

theorem runOf_delete (h : Interchangeable session.store table predicate)
    (hadmits : forall mode,
      Admits (deleteBase table ++ condition mode (some predicate)).text) :
    runOf session
        (deleteBase table ++ condition .parameterized (some predicate)) =
      runOf session
        (deleteBase table ++ condition .inline (some predicate)) := by
  have hwithin (mode : Rendering) := (Session.admits_iff_of_read
    (h.legible mode).read_removal).mp (hadmits mode)
  have hrun : session.store.delete table
      (statementCells [] .parameterized (some predicate))
      (conditionTree (operandLeaf .parameterized 0) (some predicate)) =
        session.store.delete table (statementCells [] .inline (some predicate))
          (conditionTree (operandLeaf .inline 0) (some predicate)) :=
    Store.delete_congr (h.sameChoice [])
  rw [(h.legible .parameterized).runOf_removal, (h.legible .inline).runOf_removal]
  apply congrArg
  exact Session.perform_congr (hwithin .parameterized) (hwithin .inline)
    (by rw [Store.run, Store.run, hrun]) rfl rfl

theorem runOf_update (h : Interchangeable session.store table predicate)
    {changes : Row}
    (hcolumns : forall column, column ∈ changes.columns ->
      Sql.isPlainName column = true)
    {options : Options} (hfilter : options.filter? = some predicate)
    (horders : forall order, order ∈ options.orderBy ->
      Sql.isPlainName order.column = true)
    (hadmits : forall mode, Admits (updateBase table changes ++
      condition mode (some predicate) ++ .ofText (tail options)).text) :
    runOf session
        (updateBase table changes ++
          condition .parameterized (some predicate) ++
          .ofText (tail options)) =
      runOf session
        (updateBase table changes ++ condition .inline (some predicate) ++
          .ofText (tail options)) := by
  have hbound := h.legible .parameterized
  have hinline := h.legible .inline
  by_cases hempty : changes.columns = []
  · rw [hbound.runOf_update_of_no_columns hempty horders,
      hinline.runOf_update_of_no_columns hempty horders,
      isSome_conditionTree, isSome_conditionTree]
  · by_cases htail : tailTokens options = []
    · rw [hbound.runOf_update_of_no_tail hempty hcolumns hfilter horders htail,
        hinline.runOf_update_of_no_tail hempty hcolumns hfilter horders htail]
      have hwithin (mode : Rendering) : Dialect.excess? (.update table
          (Sql.placeholderAssignments changes.columns)
          (conditionTree (operandLeaf mode changes.values.length)
            (some predicate))) = none := by
        have hlegible : Legible mode table options.filter? :=
          hfilter ▸ h.legible mode
        have hread := hlegible.read_update_of_no_tail hempty hcolumns horders htail
        rw [hfilter] at hread
        rw [Row.length_values]
        exact (Session.admits_iff_of_read hread).mp (hadmits mode)
      have hassignments (stored : Engine.Table) :=
        (resolveAssignments_of_update stored changes .parameterized
          (some predicate)).trans
        (resolveAssignments_of_update stored changes .inline
          (some predicate)).symm
      have hrun := Store.update_congr hassignments (h.sameChoice changes.values)
      apply congrArg
      exact Session.perform_congr (hwithin .parameterized) (hwithin .inline)
        (by rw [Store.run, Store.run, hrun]) rfl rfl
    · rw [hbound.runOf_update_of_tail hempty hcolumns hfilter horders htail,
        hinline.runOf_update_of_tail hempty hcolumns hfilter horders htail]

end Interchangeable

end Statement
end TableStore
