import TableStore.Proofs.Database.Filters

/-!
# Tables in both renderings

A handle to a table and a copy of it with the other rendering do alike with a
filter whose operands are kept, as far as the order does not matter in which the rows
are visited.  With another filter they may not: a binary number may be read as a
neighbouring whole number, and then the one handle finds a row that the other one does
not find.
-/

namespace TableStore
namespace Database
namespace TableHandle

open Database.Action (Alike runOn)
open Engine (Cell Dialect Record Selection Session Store)
open Predicate (Kept Unquoted)
open Statement (Interchangeable PlainLists outputsOf queryOf runOf statementCells)

def rendered (table : TableHandle) (mode : Rendering) : TableHandle :=
  { table with mode := mode }

section Dialects

variable [Dialect]

/--
Selections in both renderings are alike, or both return rows of one selection, arranged
in ways that may differ where no ordering decides.
-/
inductive SelectionsAgree (table : TableHandle) (options : Options) (host : Host) :
    Prop where
  | alike : Alike ((table.rendered .parameterized).select options)
      ((table.rendered .inline).select options) host host ->
      SelectionsAgree table options host
  | arranged {session : Session Store} {selection : Selection} :
      session.store.selection (statementCells [] .parameterized options.filter?)
          (queryOf .parameterized table.name options) (outputsOf options.columns?) =
        .ok selection ->
      (forall mode, exists rows, selection.Returns rows ∧
        table.database.Yields ((table.rendered mode).select options) host
          (.ok (rows.map table.shownRow)) session) ->
      SelectionsAgree table options host

def summed (total : Except Engine.Error Cell) : Except Failure Value :=
  match total with
  | .ok cell => .ok (sumOf (some cell.value))
  | .error error => .error (.engine error)

/--
Sums in both renderings are alike, or both are sums of the same cells, which are not the
same in every order.
-/
inductive SumsAgree (table : TableHandle) (column : String) (predicate : Predicate)
    (host : Host) : Prop where
  | alike : Alike ((table.rendered .parameterized).sum column (some predicate))
      ((table.rendered .inline).sum column (some predicate)) host host ->
      SumsAgree table column predicate host
  | reordered {session : Session Store} {stored : Engine.Table}
      {passes : Record -> Bool} {formula : Engine.Formula}
      {visited : Rendering -> List Record} :
      session.store.choice table.name .parameterized (some predicate) =
        .ok (stored, passes) ->
      (stored.scope []).resolve (.column none column) = .ok formula ->
      (forall mode, (visited mode).Perm (stored.records.filter passes) ∧
        table.database.Yields ((table.rendered mode).sum column (some predicate)) host
          (summed (Engine.sum ((visited mode).map formula.eval))) session) ->
      Engine.sum ((visited .parameterized).map formula.eval) ≠
        Engine.sum ((visited .inline).map formula.eval) ->
      SumsAgree table column predicate host

structure RenderingsAgree (table : TableHandle) (predicate : Predicate)
    (host : Host) : Prop where
  select : forall options : Options, options.filter? = some predicate ->
    PlainLists options ->
    (forall mode, (table.rendered mode).Admits (.select options)) ->
    SelectionsAgree table options host
  rows : forall options : Options, options.filter? = some predicate ->
    PlainLists options ->
    (forall mode, (table.rendered mode).Admits (.select options)) ->
    forall rows others after last,
      runOn ((table.rendered .parameterized).select options) host =
        (.ok rows, after) ->
      runOn ((table.rendered .inline).select options) host = (.ok others, last) ->
      rows.length = others.length ∧ (options.limit? = none -> rows.Perm others)
  update : forall (changes : Row) (options : Options),
    options.filter? = some predicate ->
    (forall column, column ∈ changes.columns ->
      Sql.isPlainName column = true) ->
    (forall order, order ∈ options.orderBy ->
      Sql.isPlainName order.column = true) ->
    (forall mode, (table.rendered mode).Admits (.update changes options)) ->
    Alike ((table.rendered .parameterized).update changes options)
      ((table.rendered .inline).update changes options) host host
  delete : forall options : Options, options.filter? = some predicate ->
    (forall mode, (table.rendered mode).Admits (.delete options)) ->
    Alike ((table.rendered .parameterized).delete options)
      ((table.rendered .inline).delete options) host host
  sum : forall column : String, Sql.isPlainName column = true ->
    (forall mode, (table.rendered mode).Admits (.sum column (some predicate))) ->
    SumsAgree table column predicate host
  count : (forall mode, (table.rendered mode).Admits (.count (some predicate))) ->
    Alike ((table.rendered .parameterized).count (some predicate))
      ((table.rendered .inline).count (some predicate)) host host

/-!
# What agreement means for the results
-/

section Agreement

variable {table : TableHandle} {host : Host} {options : Options}

/-- Both selections return equally many rows, and without a limit the same ones. -/
theorem SelectionsAgree.rows (h : SelectionsAgree table options host)
    {rows others : List Row} {after last : Host}
    (hrows : runOn ((table.rendered .parameterized).select options) host =
      (.ok rows, after))
    (hothers : runOn ((table.rendered .inline).select options) host =
      (.ok others, last)) :
    rows.length = others.length ∧ (options.limit? = none -> rows.Perm others) := by
  cases h with
  | alike halike =>
      have hsame : rows = others := by
        have hresults := congrArg Prod.fst halike
        rw [Action.outcome, Action.outcome, hrows, hothers] at hresults
        exact Except.ok.inj hresults
      rw [hsame]
      exact ⟨rfl, fun _ => .refl others⟩
  | @arranged session selection hselection hyields =>
      rcases hyields .parameterized with ⟨found, hfound, _, hrun, _⟩
      rcases hyields .inline with ⟨other, hother, _, hsecond, _⟩
      cases hrows.symm.trans hrun
      cases hothers.symm.trans hsecond
      constructor
      · rw [List.length_map, List.length_map]
        exact hfound.length_eq hother
      · intro hlimit
        have hall : selection.limit? = none :=
          Store.limit?_of_selection (by rw [queryOf, hlimit]; rfl) hselection
        exact ((hfound.perm hall).trans (hother.perm hall).symm).map _

end Agreement

section Operations

variable {table : TableHandle} {predicate : Predicate} {host : Host}

/-!
# Changes
-/

theorem alike_execute {first second : Fragment} {mode other : Rendering}
    (h : forall session, table.database.Serves host session ->
      runOf session first = runOf session second) :
    Alike ((table.rendered mode).execute first)
      ((table.rendered other).execute second) host host := by
  apply ((table.rendered mode).sends_execute first).alike
    ((table.rendered other).sends_execute second)
  intro session hserves
  rw [h session hserves]
  exact ⟨rfl, rfl⟩

theorem alike_select {options : Options} (hfilter : options.filter? = some predicate)
    (hfound : Statement.filterViolations (some predicate) = [])
    (h : forall session, table.database.Serves host session ->
      runOf session
          (Statement.selectBase table.name options.columns? ++
            Statement.condition .parameterized (some predicate) ++
            .ofText (Statement.tail options)) =
        runOf session
          (Statement.selectBase table.name options.columns? ++
            Statement.condition .inline (some predicate) ++
            .ofText (Statement.tail options))) :
    Alike ((table.rendered .parameterized).select options)
      ((table.rendered .inline).select options) host host := by
  rw [select_eq hfound hfilter, select_eq hfound hfilter]
  apply Alike.bind
  · apply (Handle.sends_fetch _ _).alike (Handle.sends_fetch _ _)
    intro session hserves
    have hruns := h session hserves
    rw [rendered, rendered, hruns]
    exact ⟨rfl, rfl⟩
  · intro rows after afterOther hsilent
    exact Action.quiet_pure _ after afterOther hsilent

/-!
# Selections
-/

theorem alike_select_of_error {session : Session Store}
    (hserves : table.database.Serves host session)
    (hlegible : forall mode, Statement.Legible mode table.name (some predicate))
    {options : Options} (hfilter : options.filter? = some predicate)
    (hplain : PlainLists options)
    (hadmits : forall mode, (table.rendered mode).Admits (.select options))
    {error : Engine.Error}
    (hfails : forall mode, session.store.select
      (statementCells [] mode options.filter?) (queryOf mode table.name options) =
        .error error) :
    Alike ((table.rendered .parameterized).select options)
      ((table.rendered .inline).select options) host host := by
  apply alike_select hfilter (hlegible .parameterized).violations_eq
  intro other hother
  cases hserves.unique hother
  have hrun (mode : Rendering) : runOf session
      (Statement.selectBase table.name options.columns? ++
        Statement.condition mode (some predicate) ++
        .ofText (Statement.tail options)) = (session, .error error) := by
    have hselect := (table.rendered mode).runOf_select options session
      (hfilter ▸ hlegible mode) hplain (hadmits mode)
    rw [hfilter] at hselect hfails
    refine hselect.trans ?_
    exact congrArg (fun result => (session, Except.map _ result)) (hfails mode)
  rw [hrun, hrun]

theorem selectionsAgree (hinterchangeable : forall session,
      table.database.Serves host session ->
        Interchangeable session.store table.name predicate)
    (hfound : Statement.filterViolations (some predicate) = [])
    {options : Options} (hfilter : options.filter? = some predicate)
    (hplain : PlainLists options)
    (hadmits : forall mode, (table.rendered mode).Admits (.select options)) :
    SelectionsAgree table options host := by
  by_cases hready : exists session, table.database.Serves host session
  · rcases hready with ⟨session, hserves⟩
    have h := hinterchangeable session hserves
    have hanswers (mode : Rendering) := (h.answers hfilter
      (Store.answers_select session.store (statementCells [] mode options.filter?)
        (queryOf mode table.name options))).cases
          (Statement.projectionOf_eq options.columns?)
    cases hselection : session.store.selection
        (statementCells [] .parameterized options.filter?)
        (queryOf .parameterized table.name options) (outputsOf options.columns?) with
    | error error =>
        have hfails (mode : Rendering) : session.store.select
            (statementCells [] mode options.filter?)
            (queryOf mode table.name options) = .error error := by
          rcases hanswers mode with ⟨found, hother, hselect⟩ | ⟨_, _, hother, _⟩
          · cases hselection.symm.trans hother
            exact hselect
          · cases hselection.symm.trans hother
        exact .alike
          (alike_select_of_error hserves h.legible hfilter hplain hadmits hfails)
    | ok selection =>
        refine .arranged hselection fun mode => ?_
        rcases hanswers mode with ⟨_, hother, _⟩ | ⟨found, rows, hother, hrows, hselect⟩
        · cases hselection.symm.trans hother
        · cases hselection.symm.trans hother
          have hlegible : Statement.Legible mode table.name options.filter? :=
            hfilter ▸ h.legible mode
          exact ⟨rows, hrows, (table.rendered mode).yields_select_of_ok options hserves
            hlegible hplain (hadmits mode) hselect⟩
  · refine .alike (alike_select hfilter hfound fun session hserves => ?_)
    exact absurd ⟨session, hserves⟩ hready

/-!
# Aggregates
-/

/-- In a session, both renderings compute from the records that the filter chooses. -/
theorem exists_totals {session : Session Store}
    (h : Interchangeable session.store table.name predicate)
    {computed : Statement.Aggregate}
    (hcolumn : forall column, computed = .sum column ->
      Sql.isPlainName column = true)
    (hadmits : forall mode, Engine.Admits
      (Statement.aggregateBase table.name computed ++
        Statement.condition mode (some predicate)).text) :
    exists totals : Rendering -> Except Engine.Error Cell, forall mode,
      session.store.Totals table.name
          (statementCells [] .parameterized (some predicate)) computed
          (Statement.conditionTree (Statement.operandLeaf .parameterized 0)
            (some predicate)) (totals mode) ∧
        exists name, runOf session
            (Statement.aggregateBase table.name computed ++
              Statement.condition mode (some predicate)) =
          (session, (totals mode).map fun cell =>
            ⟨[[(name, cell)]], session.changes⟩) := by
  have hruns (mode : Rendering) :=
    (h.legible mode).runOf_computed hcolumn (hadmits mode) session
  choose name totals htotals hrun using hruns
  exact ⟨totals, fun mode => ⟨h.totals (htotals mode), name mode, hrun mode⟩⟩

theorem alike_aggregate (hfound : Statement.filterViolations (some predicate) = [])
    {computed : Statement.Aggregate}
    (h : forall session, table.database.Serves host session ->
      exists total : Except Engine.Error Cell, forall mode, exists name,
        runOf session (Statement.aggregateBase table.name computed ++
            Statement.condition mode (some predicate)) =
          (session, total.map fun cell => ⟨[[(name, cell)]], session.changes⟩)) :
    Alike
      ((table.rendered .parameterized).aggregate computed (some predicate))
      ((table.rendered .inline).aggregate computed (some predicate))
      host host := by
  rw [aggregate_eq hfound, aggregate_eq hfound]
  apply (Handle.sends_fetchValue? _ _).alike (Handle.sends_fetchValue? _ _)
  intro session hserves
  rcases h session hserves with ⟨total, hruns⟩
  rcases hruns .parameterized with ⟨name, hbound⟩
  rcases hruns .inline with ⟨other, hinline⟩
  rw [rendered, rendered, hbound, hinline]
  cases total <;> exact ⟨rfl, rfl⟩

theorem yields_sum_of_total {session : Session Store} {mode : Rendering}
    {column name : String} {total : Except Engine.Error Cell}
    (hserves : table.database.Serves host session)
    (hfound : Statement.filterViolations (some predicate) = [])
    (hrun : runOf session (Statement.aggregateBase table.name (.sum column) ++
        Statement.condition mode (some predicate)) =
      (session, total.map fun cell => ⟨[[(name, cell)]], session.changes⟩)) :
    table.database.Yields ((table.rendered mode).sum column (some predicate)) host
      (summed total) session := by
  rw [sum_eq, aggregate_eq hfound]
  cases total with
  | error error =>
      exact ((table.database.sends_fetchValue? _).yields_error hserves hrun).bind_error _
  | ok cell =>
      exact ((table.database.sends_fetchValue? _).yields_ok hserves hrun).map sumOf

theorem alike_count (hinterchangeable : forall session,
      table.database.Serves host session ->
        Interchangeable session.store table.name predicate)
    (hfound : Statement.filterViolations (some predicate) = [])
    (hadmits : forall mode, Engine.Admits
      (Statement.aggregateBase table.name .count ++
        Statement.condition mode (some predicate)).text) :
    Alike ((table.rendered .parameterized).count (some predicate))
      ((table.rendered .inline).count (some predicate)) host host := by
  apply Alike.bind
  · apply alike_aggregate hfound
    intro session hserves
    rcases exists_totals (hinterchangeable session hserves)
      Statement.isPlainName_of_count hadmits with ⟨totals, htotals⟩
    refine ⟨totals .parameterized, fun mode => ?_⟩
    rcases htotals mode with ⟨htotal, hrun⟩
    rwa [htotal.count_eq (htotals .parameterized).left] at hrun
  · intro value? after afterOther hsilent
    exact Action.quiet_pure _ after afterOther hsilent

theorem alike_sum (hfound : Statement.filterViolations (some predicate) = [])
    {column : String}
    (h : forall session, table.database.Serves host session ->
      exists total : Except Engine.Error Cell, forall mode, exists name,
        runOf session (Statement.aggregateBase table.name (.sum column) ++
            Statement.condition mode (some predicate)) =
          (session, total.map fun cell => ⟨[[(name, cell)]], session.changes⟩)) :
    Alike ((table.rendered .parameterized).sum column (some predicate))
      ((table.rendered .inline).sum column (some predicate)) host host := by
  rw [sum_eq, sum_eq]
  apply (alike_aggregate hfound h).bind
  intro value? after afterOther hsilent
  exact Action.quiet_pure _ after afterOther hsilent

/-- Sums that differ are sums of the same cells in different orders. -/
theorem sumsAgree_of_ne {session : Session Store}
    (hserves : table.database.Serves host session)
    (hfound : Statement.filterViolations (some predicate) = []) {column : String}
    {totals : Rendering -> Except Engine.Error Cell}
    (htotals : forall mode, session.store.Totals table.name
      (statementCells [] .parameterized (some predicate)) (.sum column)
      (Statement.conditionTree (Statement.operandLeaf .parameterized 0)
        (some predicate)) (totals mode))
    (hruns : forall mode, exists name, runOf session
        (Statement.aggregateBase table.name (.sum column) ++
          Statement.condition mode (some predicate)) =
      (session, (totals mode).map fun cell => ⟨[[(name, cell)]], session.changes⟩))
    (hdiffer : totals .parameterized ≠ totals .inline) :
    SumsAgree table column predicate host := by
  rcases Store.Totals.cases session.store table.name
    (statementCells [] .parameterized (some predicate)) (.sum column)
    (Statement.conditionTree (Statement.operandLeaf .parameterized 0)
      (some predicate)) with
    ⟨error, hfails⟩ | ⟨stored, passes, formula?, hget, hpasses, hsummand, hall⟩
  · -- An error does not depend on the order of the rows.
    exact absurd ((hfails _ (htotals .parameterized)).trans
      (hfails _ (htotals .inline)).symm) hdiffer
  · have hvisits (mode : Rendering) := hall _ (htotals mode)
    choose visited hvisited htotal using hvisits
    rw [Store.summand?, Store.resolve_column_scope stored _ []] at hsummand
    cases hresolved : (stored.scope []).resolve (.column none column) with
    | error error =>
        rw [hresolved] at hsummand
        cases hsummand
    | ok formula =>
        rw [hresolved] at hsummand
        cases hsummand
        have hchosen := Engine.chosenBy_conditionTree stored .parameterized []
          (some predicate)
        refine .reordered
          (Engine.Store.chosen_eq_ok.mpr ⟨hget, hchosen.symm.trans hpasses⟩) hresolved
          (fun mode => ⟨hvisited mode, ?_⟩) ?_
        · rcases hruns mode with ⟨name, hrun⟩
          rw [htotal mode] at hrun
          exact yields_sum_of_total hserves hfound hrun
        · rw [htotal, htotal] at hdiffer
          exact hdiffer

theorem sumsAgree (hinterchangeable : forall session,
      table.database.Serves host session ->
        Interchangeable session.store table.name predicate)
    (hfound : Statement.filterViolations (some predicate) = []) {column : String}
    (hcolumn : Sql.isPlainName column = true)
    (hadmits : forall mode, Engine.Admits
      (Statement.aggregateBase table.name (.sum column) ++
        Statement.condition mode (some predicate)).text) :
    SumsAgree table column predicate host := by
  by_cases hready : exists session, table.database.Serves host session
  · rcases hready with ⟨session, hserves⟩
    rcases exists_totals (hinterchangeable session hserves)
      (Statement.isPlainName_of_sum hcolumn) hadmits with ⟨totals, htotals⟩
    by_cases hsame : totals .parameterized = totals .inline
    · refine .alike (alike_sum hfound fun other hother => ?_)
      cases hserves.unique hother
      refine ⟨totals .parameterized, fun mode => ?_⟩
      have hrun := (htotals mode).right
      cases mode with
      | parameterized => exact hrun
      | inline => rwa [<- hsame] at hrun
    · exact sumsAgree_of_ne hserves hfound (fun mode => (htotals mode).left)
        (fun mode => (htotals mode).right) hsame
  · refine .alike (alike_sum hfound fun session hserves => ?_)
    exact absurd ⟨session, hserves⟩ hready

/-!
# All operations
-/

theorem renderingsAgree (h : forall session,
      table.database.Serves host session ->
        Interchangeable session.store table.name predicate)
    (hfound : Statement.filterViolations (some predicate) = []) :
    RenderingsAgree table predicate host where
  select options hfilter hplain hadmits :=
    selectionsAgree h hfound hfilter hplain hadmits
  rows options hfilter hplain hadmits _ _ _ _ hrows hothers :=
    (selectionsAgree h hfound hfilter hplain hadmits).rows hrows hothers
  update changes options hfilter hcolumns horders hadmits := by
    rw [update_eq hfound changes hfilter, update_eq hfound changes hfilter]
    apply alike_execute
    intro session hserves
    exact (h session hserves).runOf_update hcolumns hfilter horders fun mode =>
      hadmits mode _ (Operation.statement?_update hfound changes hfilter)
  delete options hfilter hadmits := by
    rw [delete_eq hfound hfilter, delete_eq hfound hfilter]
    apply alike_execute
    intro session hserves
    exact (h session hserves).runOf_delete fun mode =>
      hadmits mode _ (Operation.statement?_delete hfound hfilter)
  sum column hcolumn hadmits := sumsAgree h hfound hcolumn fun mode =>
    hadmits mode _ (Operation.aggregate_of_found hfound _ (.sum column))
  count hadmits := alike_count h hfound fun mode =>
    hadmits mode _ (Operation.aggregate_of_found hfound _ .count)

end Operations

/-!
# Predicates in both renderings
-/

/--
A predicate is one condition in both renderings, on all columns by which its
operands are kept, and handles to tables with such columns agree on it,
whichever rendering they have.
-/
theorem renderings_agree (predicate : Predicate) (clause : Fragment)
    (hclause : predicate.compile .parameterized = .ok clause)
    (hnames : forall column, column ∈ predicate.columns ->
      Sql.isPlainName column = true)
    (hquotes : forall value, value ∈ predicate.operands -> Unquoted value) :
    (predicate ≠ [] ->
      exists inlined, predicate.compile .inline = .ok inlined ∧
        forall columns, Kept columns predicate ->
          Predicate.SameTruth columns clause inlined) ∧
      forall (table : TableHandle) (host : Host),
        Sql.isPlainName table.name = true ->
        (forall store stored, table.database.store? host = some store ->
          store.get table.name = .ok stored ->
          Kept (stored.scope []).columns predicate) ->
        RenderingsAgree table predicate host := by
  rw [Predicate.compile_eq_verdict, Predicate.verdict_eq_ok_iff] at hclause
  rcases hclause with ⟨hfound, rfl⟩
  constructor
  · intro hne
    refine ⟨predicate.rendered .inline, ?_, ?_⟩
    · rw [Predicate.compile_eq_verdict, hfound, Predicate.verdict_nil]
    · intro columns hkept
      exact Predicate.sameTruth_renderings hfound hne hnames hquotes hkept
  · intro table host htable hkept
    apply renderingsAgree _ hfound
    intro session hserves
    exact ⟨htable, hfound, hnames, hquotes,
      fun stored => hkept session.store stored hserves.store?_eq⟩

end Dialects

section Witness

open Engine.Sqlite

def numberTable : TableHandle :=
  ⟨⟨0⟩, "t", ⟨[⟨"a", .integer, [], none⟩]⟩, .parameterized⟩

def numberHost : Host :=
  ⟨.empty,
    [⟨.memory, .start ⟨[⟨"t", [⟨"a", .numeric, false, .null, none⟩], none,
      false, [], [], 1, [⟨1, [.int 3]⟩]⟩], 0⟩ false, true, .empty, false⟩],
    []⟩

def exactFilter : Predicate :=
  [.compare "a" [.test .ge (.real ⟨0x4008000000000000⟩),
    .not [.test .eq (.real ⟨0x400c000000000000⟩)]]]

theorem admits_exactFilter (mode : Rendering) :
    (numberTable.rendered mode).Admits (.count (some exactFilter)) := by
  cases mode <;> exact admits_of_excess? (by decide +kernel)

theorem renderings_agree_exact_numbers :
    exactFilter.compile .parameterized =
      .ok ⟨"(a >= ? AND NOT (a = ?))",
        [.real ⟨0x4008000000000000⟩, .real ⟨0x400c000000000000⟩]⟩ ∧
    RenderingsAgree numberTable exactFilter numberHost ∧
    Alike ((numberTable.rendered .parameterized).count (some exactFilter))
      ((numberTable.rendered .inline).count (some exactFilter))
      numberHost numberHost := by
  have hclause : exactFilter.compile .parameterized =
      .ok ⟨"(a >= ? AND NOT (a = ?))",
        [.real ⟨0x4008000000000000⟩, .real ⟨0x400c000000000000⟩]⟩ := by
    have hthree : Decimal.Binary64.isFinite ⟨0x4008000000000000⟩ = true := by
      decide +kernel
    have hfraction :
        Decimal.Binary64.isFinite ⟨0x400c000000000000⟩ = true := by
      decide +kernel
    simp [exactFilter, Predicate.compile, Predicate.entryClauses,
      Predicate.comparatorClauses, Predicate.renderTest,
      Predicate.renderOperand, Value.isLiteral, hthree, hfraction]
    cbv
  have hthree : Predicate.respelled ⟨0x4008000000000000⟩ = .literal (.int 3) := by
    decide +kernel
  have hfraction : Predicate.respelled ⟨0x400c000000000000⟩ =
      .decimal false ⟨35, -1⟩ := by
    decide +kernel
  have hexact : Decimal.Binary64.toInt? ⟨0x4008000000000000⟩ =
      some (3 : Int64).toInt := by
    decide +kernel
  have hread : Engine.readDecimal false ⟨35, -1⟩ = ⟨0x400c000000000000⟩ := by
    decide +kernel
  have hagree : RenderingsAgree numberTable exactFilter numberHost := by
    refine (renderings_agree _ _ hclause ?_ ?_).right _ _ ?_ ?_
    · simp [exactFilter, Predicate.columns, Predicate.entryColumns,
        Predicate.comparatorColumns]
      decide
    · simp [exactFilter, Predicate.operands, Predicate.entryOperands,
        Predicate.comparatorOperands, Unquoted]
    · decide
    · intro store stored hstore hget test htest
      cases hstore
      cases hget
      simp [exactFilter, Predicate.tests, Predicate.entryTests,
        Predicate.comparatorTests] at htest
      rcases htest with rfl | rfl
      · refine ⟨fun n hn => ?_, fun negative d hd => ?_⟩
        · cases hthree.symm.trans hn
          exact ⟨hexact, by decide⟩
        · cases hthree.symm.trans hd
      · refine ⟨fun n hn => ?_, fun negative d hd => ?_⟩
        · cases hfraction.symm.trans hn
        · cases hfraction.symm.trans hd
          exact hread
  exact ⟨hclause, hagree, hagree.count admits_exactFilter⟩

/--
The numbers of rows that both renderings find in a new table of one column and one
row, when the column is compared with an operand.
-/
def bothCounts (type : ColumnType) (value operand : Value) :
    Action (Int64 × Int64) := do
  let database <- openDatabase ":memory:"
  let table : TableHandle :=
    ⟨database, "t", ⟨[⟨"a", type, [], none⟩]⟩, .parameterized⟩
  table.create
  table.insert (.ofList [("a", value)])
  let filter : Predicate := [.equal "a" operand]
  let bound <- (table.rendered .parameterized).count filter
  let inlined <- (table.rendered .inline).count filter
  return (bound, inlined)

/--
Two to the power of sixty-two is a binary number whose shortest digits are those of
another whole number, five has the text of another number in a column of texts, and the
digits of some fractions are read as a neighbour of the number that they are written for.
-/
theorem counts_differ_of_operand_not_kept :
    Predicate.compile .parameterized
        [.equal "a" (.real ⟨0x43d0000000000000⟩)] =
      .ok ⟨"(a = ?)", [.real ⟨0x43d0000000000000⟩]⟩ ∧
    Predicate.compile .inline [.equal "a" (.real ⟨0x43d0000000000000⟩)] =
      .ok ⟨"(a = 4611686018427388000)", []⟩ ∧
    (Action.runOn
        (bothCounts .integer (.int 4611686018427387904)
          (.real ⟨0x43d0000000000000⟩))
        (.ofDisk .empty)).1.toOption = some (1, 0) ∧
    (Action.runOn
        (bothCounts .text (.text "5.0") (.real ⟨0x4014000000000000⟩))
        (.ofDisk .empty)).1.toOption = some (1, 0) ∧
    (Action.runOn
        (bothCounts .real (.real ⟨0x3fbdd78811b1d92b⟩) (.real ⟨0x3fbdd78811b1d92b⟩))
        (.ofDisk .empty)).1.toOption = some (1, 0) := by
  have hfinite : Decimal.Binary64.isFinite ⟨0x43d0000000000000⟩ = true := by
    decide +kernel
  have htext : Decimal.Binary64.positionalText ⟨0x43d0000000000000⟩ =
      "4611686018427388000" := by
    decide +kernel
  refine ⟨?_, ?_, by decide +kernel, by decide +kernel, by decide +kernel⟩
  · simp [Predicate.compile, Predicate.entryClauses, Predicate.renderTest,
      Predicate.renderOperand, Value.isLiteral, hfinite]
    cbv
  · simp [Predicate.compile, Predicate.entryClauses, Predicate.renderTest,
      Predicate.renderOperand, Value.isLiteral, hfinite, Value.operandText,
      htext]
    cbv

end Witness

end TableHandle
end Database
end TableStore
