import TableStore.Proofs.Database.Booleans
import TableStore.Proofs.Database.Filters
import TableStore.Proofs.Engine.Contents

/-!
# What is inserted is what is read

A row that a table returns lists its columns in the order of their declaration, each
with the value that was inserted or with what the engine reads in its default.  Truth
values, which are stored as one and zero, are truth values again.
-/

namespace TableStore

/-!
# Rows
-/

namespace Keyed

variable {α : Type} {key : String} {before : List (String × α)}

theorem put_of_not_mem (h : key ∉ keys before) (value : α) :
    put key value before = before ++ [(key, value)] := by
  induction before with
  | nil => rfl
  | cons entry before ih =>
      rw [keys_cons, List.mem_cons, not_or] at h
      rw [put, if_neg (Ne.symm h.left), ih h.right, List.cons_append]

end Keyed

namespace Row

theorem cells_ofList {cells : List (String × Value)}
    (h : (Keyed.keys cells).Nodup) : (ofList cells).cells = cells := by
  have hfrom : forall (others : List (String × Value)) (row : Row),
      (Keyed.keys (row.cells ++ others)).Nodup ->
        (others.foldl (fun row cell => row.set cell.1 cell.2) row).cells =
          row.cells ++ others := by
    intro others
    induction others with
    | nil =>
        intro row _
        exact (List.append_nil _).symm
    | cons cell others ih =>
        intro row hdistinct
        have hnew : cell.1 ∉ Keyed.keys row.cells := by
          rw [Keyed.keys, List.map_append, List.map_cons] at hdistinct
          intro hmem
          exact (List.nodup_append.mp hdistinct).right.right _ hmem _
            List.mem_cons_self rfl
        have hset : (row.set cell.1 cell.2).cells = row.cells ++ [cell] :=
          Keyed.put_of_not_mem hnew cell.2
        rw [List.foldl_cons, ih, hset, List.append_assoc, List.singleton_append]
        rwa [hset, List.append_assoc, List.singleton_append]
  exact hfrom cells empty h

end Row

/-- The row that the insertion of a row leads to, in the order of the columns. -/
def Columns.rowOf [Engine.Conversions] (columns : Columns) (row : Row) : List (String × Value) :=
  columns.toList.map fun column => (column.name, column.valueIn row)

namespace Database

open Database.Action (runOn runOn_bind_eq_ok)
open Engine (Cell Conversions Dialect Record Session Store)
open Statement (Legible runOf)

/-- A value of a column, from the one that it is stored as. -/
def restored (type : ColumnType) (value : Value) : Value :=
  if type = .boolean then restoreBoolean value else value

theorem cells_restoreBooleans (columns : Columns) (value : Column -> Value)
    {row : Row}
    (hcells : row.cells = columns.toList.map fun column =>
      (column.name, value column)) :
    (restoreBooleans columns row).cells = columns.toList.map fun column =>
      (column.name, restored column.type (value column)) := by
  have hnames : (columns.toList.map (·.name)).Nodup := by
    have hdistinct := row.distinct
    rw [hcells, Keyed.keys, List.map_map] at hdistinct
    exact hdistinct
  rw [cells_restoreBooleans_eq_map, hcells, List.map_map]
  apply List.map_congr_left
  intro column hmem
  have hdeclares : DeclaresBoolean columns.toList column.name ↔
      column.type = .boolean := by
    constructor
    · rintro ⟨other, hother, hname, hboolean⟩
      rw [List.inj_on_of_nodup_map hnames hother hmem hname] at hboolean
      exact hboolean
    · exact fun hboolean => ⟨column, hmem, rfl, hboolean⟩
  rw [Function.comp_apply, restoredUnder, restored]
  simp only [hdeclares]

theorem restored_of_suits {type : ColumnType} {value : Value}
    (h : value.Suits type) : restored type (Cell.ofValue value).value = value := by
  rw [restored]
  cases value with
  | null => split <;> rfl
  | bool b =>
      rw [Value.Suits] at h
      rw [h]
      cases b <;> rfl
  | int n =>
      rw [Value.Suits] at h
      rw [h]
      rfl
  | real x =>
      rw [h.left, Cell.ofValue, h.right.left]
      rfl
  | text s =>
      rw [Value.Suits] at h
      rw [h]
      rfl
  | blob bytes => split <;> rfl

theorem listed_of_cells [Conversions] {columns : Columns} {stored : Engine.Table}
    (hfields : List.Forall₂ Engine.Field.Keeps columns.toList stored.fields)
    {row : Row} {record : Record} (hcells : record.cells = columns.cellsOf row) :
    stored.listed record = columns.toList.map fun column =>
      (column.name, Cell.ofValue (column.valueIn row)) := by
  have hnames : columns.toList.map Column.name =
      stored.fields.map Engine.Field.name :=
    Engine.map_eq_map_of_forall₂ hfields
      fun column field hkeeps => hkeeps.name_eq.symm
  apply List.ext_getElem?
  intro position
  have hname := congrArg (fun names => names[position]?) hnames
  rw [List.getElem?_map, List.getElem?_map] at hname
  rw [Engine.Table.listed, List.getElem?_map, List.getElem?_zipIdx, List.getElem?_map,
    hcells, Columns.cellsOf]
  cases hcolumn : columns.toList[position]? with
  | none =>
      rw [hcolumn] at hname
      rw [Option.map_eq_none_iff.mp hname.symm]
      rfl
  | some column =>
      rw [hcolumn] at hname
      rcases Option.map_eq_some_iff.mp hname.symm with ⟨field, hfield, hsame⟩
      rw [hfield]
      simp [hcolumn, hsame]

/-- Columns with distinct names, whose defaults are of their kind or missing. -/
structure Keepable (columns : Columns) : Prop where
  nonempty : columns.toList ≠ []
  names : forall column, column ∈ columns.toList ->
    Sql.isPlainName column.name = true
  distinct : columns.Distinct
  defaults : forall column, column ∈ columns.toList ->
    column.default.Suits column.type ∧ column.default.HasLiteral

namespace TableHandle

section Contents

variable [Conversions] {table : TableHandle} {stored : Engine.Table}
  {rows : List Row}

theorem cells_shown (hcolumns : Keepable table.columns)
    (hfields : List.Forall₂ Engine.Field.Keeps table.columns.toList stored.fields)
    {row : Row} (hrow : table.columns.Admits row) {record : Record}
    (hcells : record.cells = table.columns.cellsOf row) :
    (table.shown stored record).cells = table.columns.rowOf row := by
  have hdecoded : (Handle.decodeRow (stored.listed record)).cells =
      table.columns.toList.map fun column =>
        (column.name, (Cell.ofValue (column.valueIn row)).value) := by
    rw [Handle.decodeRow, listed_of_cells hfields hcells, List.map_map]
    apply Row.cells_ofList
    rw [Keyed.keys, List.map_map]
    exact hcolumns.distinct.of_map
  rw [shown, shownRow, cells_restoreBooleans _ _ hdecoded, Columns.rowOf]
  apply List.map_congr_left
  intro column hmem
  rw [restored_of_suits (hrow.suits_valueIn hmem (hcolumns.defaults column hmem).left)]

theorem perm_of_contains (hcolumns : Keepable table.columns)
    (hrows : forall row, row ∈ rows -> table.columns.Admits row)
    (h : stored.Contains table.columns rows) :
    ((stored.records.map (table.shown stored)).map Row.cells).Perm
      (rows.map table.columns.rowOf) := by
  have hshown := h.cells.map fun cells => (table.shown stored ⟨0, cells⟩).cells
  rw [List.map_map, List.map_map] at hshown
  have hrowOf : rows.map ((fun cells => (table.shown stored ⟨0, cells⟩).cells) ∘
      table.columns.cellsOf) = rows.map table.columns.rowOf :=
    List.map_congr_left fun row hmem =>
      cells_shown hcolumns h.fields (hrows row hmem) rfl
  rw [hrowOf] at hshown
  rw [List.map_map]
  exact hshown

end Contents

/-!
# Creations and insertions
-/

theorem legible_none {mode : Rendering} {name : String}
    (hname : Sql.isPlainName name = true) : Legible mode name none where
  table_isPlainName := hname
  violations_eq := rfl
  columns_isPlainName := nofun
  unquoted _ := nofun

section Dialects

variable [Dialect]

def createWith (table : TableHandle) (rows : List Row) : Action Unit := do
  table.create
  rows.forM table.insert

section Runs

variable {table : TableHandle} {host after : Host} {session : Session Store}

theorem run_of_execute {fragment : Fragment} {count : Nat}
    (hrun : runOn (table.execute fragment) host = (.ok count, after))
    (hserves : table.database.Serves host session) {command : Sql.Command}
    (hread : Sql.Command.read.run (Sql.scan fragment.text) = .ok (command, [])) :
    exists next outcome, table.database.Serves after next ∧
      session.store.run (fragment.params.map Cell.ofValue) command =
        .ok (next.store, outcome) := by
  rcases (table.sends_execute fragment).ok_of_runOn hserves hrun with
    ⟨next, found, hfound, _, hnext⟩
  rw [Statement.runOf_of_read rfl hread] at hfound
  rcases Session.run_of_reported hfound with ⟨outcome, houtcome⟩
  exact ⟨next, outcome, hnext, houtcome⟩

theorem ok_of_create (hrun : runOn table.create host = (.ok (), after)) :
    exists count last,
      runOn (table.execute (.ofText (Statement.createTable table.name table.columns)))
          host = (.ok count, last) ∧ last.silent = after.silent := by
  rcases runOn_bind_eq_ok.mp hrun with ⟨count, last, hexecute, hreport⟩
  cases hreport
  exact ⟨count, last, hexecute, rfl⟩

theorem contains_of_create (hname : Sql.isPlainName table.name = true)
    (hcolumns : Keepable table.columns)
    (hserves : table.database.Serves host session)
    (hfresh : session.store.find? table.name = none)
    (hrun : runOn table.create host = (.ok (), after)) :
    exists next, table.database.Serves after next ∧
      next.store.Contains table.name table.columns [] := by
  rcases ok_of_create hrun with ⟨count, last, hexecute, hsilent⟩
  rcases run_of_execute hexecute hserves (Statement.read_createTable hname
    hcolumns.nonempty hcolumns.names) with ⟨next, outcome, hnext, hdone⟩
  rcases Engine.bind_eq_ok.mp hdone with ⟨made, hmade, heq⟩
  cases heq
  exact ⟨next, hnext.of_silent_eq hsilent,
    Engine.Store.contains_of_createTable hfresh hcolumns.defaults hmade⟩

theorem contains_of_insert (hname : Sql.isPlainName table.name = true)
    (hcolumns : Keepable table.columns) {row : Row} {rows : List Row}
    (hrow : table.columns.Admits row)
    (hserves : table.database.Serves host session)
    (hcontains : session.store.Contains table.name table.columns rows)
    (hrun : runOn (table.insert row) host = (.ok (), after)) :
    exists next, table.database.Serves after next ∧
      next.store.Contains table.name table.columns (row :: rows) := by
  rcases runOn_bind_eq_ok.mp hrun with ⟨count, last, hexecute, hlast⟩
  cases hlast
  rcases run_of_execute hexecute hserves
    (Statement.read_insert_sourceOf hname hrow.names) with
    ⟨next, outcome, hnext, hdone⟩
  rcases Engine.bind_eq_ok.mp hdone with ⟨⟨made, number⟩, hmade, heq⟩
  cases heq
  rw [Statement.params_insert] at hmade
  exact ⟨next, hnext, hcontains.insert hcolumns.distinct hrow hmade⟩

theorem contains_of_inserts (hname : Sql.isPlainName table.name = true)
    (hcolumns : Keepable table.columns) {rows before : List Row}
    (hrows : forall row, row ∈ rows -> table.columns.Admits row)
    (hserves : table.database.Serves host session)
    (hcontains : session.store.Contains table.name table.columns before)
    (hrun : runOn (rows.forM table.insert) host = (.ok (), after)) :
    exists next, table.database.Serves after next ∧
      next.store.Contains table.name table.columns (rows.reverse ++ before) := by
  induction rows generalizing host session before with
  | nil =>
      cases hrun
      exact ⟨session, hserves, hcontains⟩
  | cons row rows ih =>
      rw [List.forall_mem_cons] at hrows
      rcases runOn_bind_eq_ok.mp hrun with ⟨_, last, hinsert, hothers⟩
      rcases contains_of_insert hname hcolumns hrows.left hserves hcontains hinsert
        with ⟨middle, hmiddle, hinserted⟩
      rcases ih hrows.right hmiddle hinserted hothers with ⟨next, hnext, hall⟩
      refine ⟨next, hnext, ?_⟩
      rwa [List.reverse_cons, List.append_assoc, List.singleton_append]

theorem admits_select_all (hname : Sql.isPlainName table.name = true) :
    table.Admits (.select .none) := by
  have hlegible : Legible table.mode table.name none := legible_none hname
  have hplain : Statement.PlainLists .none := Statement.plainLists_ofFilter none
  intro statement hstatement
  rw [Operation.statement?_select hlegible.violations_eq rfl] at hstatement
  cases hstatement
  rw [Session.admits_iff_of_read (hlegible.read_query rfl hplain)]
  exact Dialect.excess?_all table.name

/-- A query without options returns all records of the table. -/
theorem yields_select_all (hserves : table.database.Serves host session)
    (hname : Sql.isPlainName table.name = true) {stored : Engine.Table}
    (hfind : session.store.find? table.name = some stored) :
    exists found, found.Perm (stored.records.map (table.shown stored)) ∧
      table.database.Yields (table.select .none) host (.ok found) session := by
  have hget : session.store.get table.name = .ok stored := by
    rw [Engine.Store.get, hfind]
  have hchoice : session.store.choice table.name table.mode none =
      .ok (stored, Engine.Record.passes none) :=
    Engine.Store.chosen_eq_ok.mpr ⟨hget, rfl⟩
  have hall : stored.records.filter (Engine.Record.passes none) = stored.records :=
    List.filter_eq_self.mpr fun _ _ => rfl
  have hyields := yields_select hserves (legible_none hname) hchoice
    (admits_select_all hname)
  rwa [hall] at hyields

end Runs

end Dialects

section Witness

open Engine.Sqlite

def kindsTable : TableHandle :=
  ⟨⟨0⟩, "t", ⟨[⟨"n", .integer, [.primaryKey], none⟩,
    ⟨"s", .text, [], some (.text "it's")⟩,
    ⟨"x", .real, [.notNull], some (.real (Decimal.Binary64.ofInt 5))⟩,
    ⟨"b", .boolean, [], some (.bool true)⟩]⟩, .inline⟩

/-- Rows that leave columns out and name them in another order and another case. -/
def kindsRows : List Row :=
  [.ofList [("b", .bool false), ("n", .int 2)],
    .ofList [("X", .real (Decimal.Binary64.ofInt (-3))), ("s", .blob [0]),
      ("n", .int 1)]]

theorem keepable_kindsTable : Keepable kindsTable.columns where
  nonempty := by decide
  names := by decide
  distinct := by
    unfold Columns.Distinct
    decide
  defaults := by decide

theorem admits_kindsRows : forall row, row ∈ kindsRows ->
    kindsTable.columns.Admits row := by
  have hsuits : forall row, row ∈ kindsRows ->
      forall column, column ∈ kindsTable.columns.toList ->
        forall cell, cell ∈ row.cells ->
          Text.sameName column.name cell.1 = true -> cell.2.Suits column.type := by
    decide
  have hnames : forall row, row ∈ kindsRows ->
      forall name, name ∈ row.columns -> Sql.isPlainName name = true := by
    decide
  have hnumbers : forall row, row ∈ kindsRows ->
      (row.given? "n" = some (.int 2) ∨ row.given? "n" = some (.int 1)) := by
    decide
  have hkeys : forall column, column ∈ kindsTable.columns.toList ->
      column.NumbersRecords -> column.name = "n" := by
    decide
  intro row hrow
  refine ⟨hnames row hrow, hsuits row hrow, ?_⟩
  intro column hcolumn hnumbered
  rw [hkeys column hcolumn hnumbered]
  rcases hnumbers row hrow with heq | heq
  · exact ⟨_, heq, nofun⟩
  · exact ⟨_, heq, nofun⟩

def kindsFound : List (List (String × Value)) :=
  [[("n", .int 2), ("s", .text "it's"), ("x", .real (Decimal.Binary64.ofInt 5)),
      ("b", .bool false)],
    [("n", .int 1), ("s", .blob [0]), ("x", .real (Decimal.Binary64.ofInt (-3))),
      ("b", .bool true)]]

def fractionTable : TableHandle :=
  ⟨⟨0⟩, "t", ⟨[⟨"b", .integer, [], none⟩,
    ⟨"a", .real, [], some (.real (Decimal.Binary64.ofDecimal false 11657 (-5)))⟩]⟩,
    .parameterized⟩

def fractionRow : Row := .ofList [("b", .int 1)]

theorem keepable_fractionTable : Keepable fractionTable.columns where
  nonempty := by decide
  names := by decide
  distinct := by
    unfold Columns.Distinct
    decide
  defaults := by decide +kernel

theorem admits_fractionRow : fractionTable.columns.Admits fractionRow where
  names := by decide
  suits := by decide
  numbered := by
    have hnone : forall column, column ∈ fractionTable.columns.toList ->
        ¬ column.NumbersRecords := by
      decide
    exact fun column hmem hnumbers => absurd hnumbers (hnone column hmem)

end Witness

end TableHandle
end Database
end TableStore
