import TableStore.Proofs.Engine.Session
import TableStore.Proofs.Engine.Storage
import TableStore.Proofs.Statement.Binding

/-!
# Rows that tables hold

A table that is created of columns holds no rows, and every row that is inserted into
it is added to the rows that it holds: with a cell for each column, which is the value
that the row gives the column, or else what is read in the default of the column.
-/

namespace TableStore

/-- The value that a row gives a column, in whatever case the name is written. -/
def Row.given? (row : Row) (column : String) : Option Value :=
  (row.cells.find? fun cell => Text.sameName column cell.1).map Prod.snd

namespace Column

def valueIn [Engine.Conversions] (column : Column) (row : Row) : Value :=
  (row.given? column.name).getD (Engine.absentValue column)

def NumbersRecords (column : Column) : Prop :=
  column.type = .integer ∧ Constraint.primaryKey ∈ column.constraints

instance (column : Column) : Decidable column.NumbersRecords :=
  inferInstanceAs (Decidable (_ ∧ _))

end Column

namespace Columns

def Distinct (columns : Columns) : Prop :=
  (columns.names.map Text.foldCase).Nodup

def cellsOf [Engine.Conversions] (columns : Columns) (row : Row) :
    List Engine.Cell :=
  columns.toList.map fun column => Engine.Cell.ofValue (column.valueIn row)

/-- A row that gives its columns values of their kind, and each record its number. -/
structure Admits (columns : Columns) (row : Row) : Prop where
  names : forall name, name ∈ row.columns -> Sql.isPlainName name = true
  suits : forall column, column ∈ columns.toList ->
    forall cell, cell ∈ row.cells -> Text.sameName column.name cell.1 = true ->
      cell.2.Suits column.type
  numbered : forall column, column ∈ columns.toList -> column.NumbersRecords ->
    exists value, row.given? column.name = some value ∧ value ≠ .null

theorem Admits.suits_given {columns : Columns} {row : Row} (h : columns.Admits row)
    {column : Column} (hcolumn : column ∈ columns.toList) {value : Value}
    (hvalue : row.given? column.name = some value) : value.Suits column.type := by
  rcases Option.map_eq_some_iff.mp hvalue with ⟨cell, hfind, rfl⟩
  have hname := List.find?_some hfind
  exact h.suits column hcolumn cell (List.mem_of_find?_eq_some hfind) hname

theorem Admits.suits_valueIn [Engine.Conversions] {columns : Columns} {row : Row}
    (h : columns.Admits row) {column : Column} (hcolumn : column ∈ columns.toList)
    (hdefault : column.default.Suits column.type) :
    (column.valueIn row).Suits column.type := by
  rw [Column.valueIn]
  cases hgiven : row.given? column.name with
  | none => exact Engine.Cell.suits_reread hdefault
  | some value => exact h.suits_given hcolumn hgiven

end Columns

namespace Engine

open Statement (sourceOf)

namespace Table

/-!
# Values and their positions
-/

section Positions

variable {table : Table}
  (hdistinct : (table.fields.map fun field => Text.foldCase field.name).Nodup)

include hdistinct

theorem position_eq_iff {name : String} {found position : Nat} {field : Field}
    (hfound : table.position? name = some found)
    (hfield : table.fields[position]? = some field) :
    found = position ↔ Text.sameName field.name name = true := by
  rcases List.findIdx?_eq_some_iff_getElem.mp hfound with ⟨hlt, hname, _⟩
  rcases List.getElem?_eq_some_iff.mp hfield with ⟨hposition, rfl⟩
  rw [Text.sameName, beq_iff_eq] at hname ⊢
  constructor
  · rintro rfl
    exact hname
  · intro hsame
    have hlength : found < (table.fields.map fun field =>
        Text.foldCase field.name).length := by
      rwa [List.length_map]
    apply (List.getElem?_inj hlength hdistinct).mp
    rw [List.getElem?_map, List.getElem?_map, List.getElem?_eq_getElem hlt,
      List.getElem?_eq_getElem hposition, Option.map_some, Option.map_some,
      hname, hsame]

theorem find?_zip_positions {name : String} {cells : List (String × Value)}
    {positions : List Nat}
    (hpositions : insertPositions table name (some (Keyed.keys cells)) =
      .ok positions) {position : Nat} {field : Field}
    (hfield : table.fields[position]? = some field) :
    ((positions.zip (cells.map fun cell => Cell.ofValue cell.2)).find?
        fun (target, _) => target = position).map Prod.snd =
      (cells.find? fun cell => Text.sameName field.name cell.1).map
        fun cell => Cell.ofValue cell.2 := by
  rw [insertPositions] at hpositions
  -- The first value for a column counts, in the row as among its positions.
  induction cells generalizing positions with
  | nil =>
      cases hpositions
      rfl
  | cons cell cells ih =>
      rw [Keyed.keys_cons, List.mapM_cons, bind_eq_ok] at hpositions
      rcases hpositions with ⟨first, hfirst, hpositions⟩
      rcases bind_eq_ok.mp hpositions with ⟨others, hothers, hpositions⟩
      cases hpositions
      cases hfound : table.position? cell.1 with
      | none =>
          rw [hfound] at hfirst
          cases hfirst
      | some found =>
          rw [hfound] at hfirst
          cases hfirst
          have hiff := position_eq_iff hdistinct hfound hfield
          rw [List.map_cons, List.zip_cons_cons, List.find?_cons, List.find?_cons]
          cases hsame : Text.sameName field.name cell.1 with
          | true => simp [hiff.mpr hsame]
          | false =>
              have hother : first ≠ position := by
                intro heq
                rw [hiff.mp heq] at hsame
                cases hsame
              simpa [hother] using ih hothers

def arranged (table : Table) (row : Row) : List Cell :=
  table.fields.map fun field =>
    ((row.given? field.name).map Cell.ofValue).getD field.default

theorem arrangeCells_positions {name : String} {row : Row} {positions : List Nat}
    (hpositions : insertPositions table name (some row.columns) = .ok positions) :
    arrangeCells table positions (row.values.map Cell.ofValue) =
      table.arranged row := by
  apply List.ext_getElem?
  intro position
  rw [arrangeCells, arranged, List.getElem?_map, List.getElem?_map,
    List.getElem?_zipIdx]
  cases hfield : table.fields[position]? with
  | none => rfl
  | some field =>
      have hfind := find?_zip_positions hdistinct hpositions hfield
      rw [Option.map_some, Option.map_some, Option.map_some, Nat.zero_add, Row.values,
        List.map_map, Row.given?, Option.map_map, Function.comp_def, <- hfind]
      dsimp only
      cases (positions.zip (row.cells.map fun cell => Cell.ofValue cell.2)).find?
        fun (target, _) => target = position <;> rfl

theorem newRows_sourceOf [Conversions] {name : String} {row : Row} {rows : List (List Cell)}
    (h : newRows table name (row.values.map Cell.ofValue) (sourceOf row) = .ok rows) :
    rows = [table.arranged row] := by
  rw [sourceOf] at h
  split at h
  · rename_i hempty
    cases h
    rw [Row.isEmpty, List.isEmpty_iff] at hempty
    simp [arranged, Row.given?, hempty]
  · rw [Statement.newRows_placeholders] at h
    cases hpositions : insertPositions table name (some row.columns) with
    | error error =>
        rw [hpositions] at h
        cases h
    | ok positions =>
        rw [hpositions] at h
        cases h
        exact congrArg (fun cells => [cells])
          (arrangeCells_positions hdistinct hpositions)

end Positions

/-!
# What a table contains
-/

theorem numbersRecords_of_spec {column : Column}
    (h : (Sql.Declaration.ofColumn column).spec.NumbersRecords) :
    column.NumbersRecords := by
  rcases h with ⟨htype, neverReused, hrule⟩
  constructor
  · have hnames : forall type : ColumnType,
        Text.foldCase type.name = "integer" -> type = .integer := by
      intro type
      cases type <;> decide
    exact hnames column.type htype
  · rw [rules_ofColumn] at hrule
    rcases List.mem_append.mp hrule with hrule | hrule
    · rcases List.mem_map.mp hrule with ⟨constraint, hconstraint, heq⟩
      cases constraint with
      | primaryKey => exact hconstraint
      | notNull => cases heq
      | unique => cases heq
    · rcases List.mem_map.mp hrule with ⟨_, _, heq⟩
      cases heq

section
variable [Conversions]

/-- The records of a table are the inserted rows, each with a cell for every column. -/
structure Contains (columns : Columns) (rows : List Row) (table : Table) : Prop where
  fields : List.Forall₂ Field.Keeps columns.toList table.fields
  key : forall position, table.keyField? = some position ->
    exists column, columns.toList[position]? = some column ∧ column.NumbersRecords
  cells : (table.records.map Record.cells).Perm (rows.map columns.cellsOf)

theorem Declared.contains {name : String} {columns : Columns} {table : Table}
    (h : Declared name ((columns.toList.map Sql.Declaration.ofColumn).map
      Sql.Declaration.spec) table)
    (hdefaults : forall column, column ∈ columns.toList ->
      column.default.Suits column.type ∧ column.default.HasLiteral) :
    table.Contains columns [] where
  fields := by
    have hfields := h.fields_eq
    rw [List.mapM_map, List.mapM_map] at hfields
    exact forall₂_of_mapM_ok (fun column hcolumn field hfield =>
      Field.keeps_of_ofSpec (hdefaults column hcolumn).left
        (hdefaults column hcolumn).right hfield) hfields
  key position hposition := by
    rcases h.key position hposition with ⟨spec, hspec, htype, _, hrule⟩
    rw [List.map_map, List.getElem?_map] at hspec
    rcases Option.map_eq_some_iff.mp hspec with ⟨column, hcolumn, rfl⟩
    exact ⟨column, hcolumn, numbersRecords_of_spec ⟨htype, _, hrule⟩⟩
  cells := by
    rw [h.records_eq]
    exact .refl _

section Contains

variable {table : Table} {columns : Columns} {rows : List Row}

theorem Contains.distinct (h : table.Contains columns rows)
    (hdistinct : columns.Distinct) :
    (table.fields.map fun field => Text.foldCase field.name).Nodup := by
  have hnames : columns.toList.map (fun column => Text.foldCase column.name) =
      table.fields.map fun field => Text.foldCase field.name := by
    apply map_eq_map_of_forall₂ h.fields
    intro column field hkeeps
    rw [hkeeps.name_eq]
  rw [<- hnames]
  rwa [Columns.Distinct, Columns.names, List.map_map] at hdistinct

theorem Contains.converted_arranged (h : table.Contains columns rows) {row : Row}
    (hrow : columns.Admits row) :
    table.converted (table.arranged row) = columns.cellsOf row := by
  have hfields := (List.forall₂_and_left columns.toList table.fields).mpr
    ⟨fun column (hmem : column ∈ columns.toList) => hmem, h.fields⟩
  have hzip : table.converted (table.arranged row) = table.fields.map fun field =>
      (((row.given? field.name).map Cell.ofValue).getD field.default).stored
        field.affinity := by
    rw [converted, arranged, <- List.map_prod_left_eq_zip, List.map_map]
    rfl
  rw [hzip, Columns.cellsOf]
  symm
  apply map_eq_map_of_forall₂ hfields
  rintro column field ⟨hmem, hkeeps⟩
  rw [hkeeps.name_eq, Column.valueIn]
  cases hgiven : row.given? column.name with
  | none => exact hkeeps.default_eq.symm
  | some value =>
      rw [Option.map_some, Option.getD_some, Option.getD_some, hkeeps.affinity_eq]
      exact (Cell.stored_of_suits (hrow.suits_given hmem hgiven)).symm

theorem Contains.withId_cellsOf (h : table.Contains columns rows) {row : Row}
    (hrow : columns.Admits row) {id : Int64}
    (hid : table.newId (columns.cellsOf row) = .ok id) :
    table.withId id (columns.cellsOf row) = columns.cellsOf row := by
  cases hkey : table.keyField? with
  | none => rw [withId, hkey]
  | some position =>
      rcases h.key position hkey with ⟨column, hcolumn, hnumbers⟩
      have hmem := List.mem_of_getElem? hcolumn
      rcases hrow.numbered column hmem hnumbers with ⟨value, hvalue, hnull⟩
      have hsuits : value.Suits .integer :=
        hnumbers.left ▸ hrow.suits_given hmem hvalue
      have hcell : (columns.cellsOf row)[position]? = some (Cell.ofValue value) := by
        rw [Columns.cellsOf, List.getElem?_map, hcolumn, Option.map_some,
          Column.valueIn, hvalue]
        rfl
      rw [newId, hkey] at hid
      dsimp only at hid
      rw [hcell, Option.getD_some] at hid
      rw [withId, hkey]
      dsimp only
      -- Only a whole number is taken for a number of records, as the cell has it.
      cases value with
      | null => exact absurd rfl hnull
      | int n =>
          cases hid
          rcases List.getElem?_eq_some_iff.mp hcell with ⟨hlt, heq⟩
          have hself := List.set_getElem_self hlt
          rwa [heq] at hself
      | blob bytes => cases hid
      | bool b => cases hsuits
      | real x => cases hsuits.left
      | text s => cases hsuits

/-- What is inserted into a table is added to the rows that it contains. -/
theorem Contains.insertCells (h : table.Contains columns rows) {row : Row}
    (hrow : columns.Admits row) {after : Table}
    (hinsert : table.insertCells (table.arranged row) = .ok after) :
    after.Contains columns (row :: rows) := by
  rcases insertCells_eq_ok hinsert with ⟨id, hid, _, rfl⟩
  rw [h.converted_arranged hrow] at hid ⊢
  rw [h.withId_cellsOf hrow hid]
  refine ⟨h.fields, h.key, ?_⟩
  have hplaced := (perm_placeRecord ⟨id, columns.cellsOf row⟩
    table.records).map Record.cells
  exact hplaced.trans (h.cells.cons _)

end Contains

end

end Table

namespace Store

/-!
# Stores with the table
-/

section Store

variable {store after : Store} {name : String}

theorem find?_add (h : store.find? name = none) {table : Table}
    (hname : Text.sameName table.name name = true) :
    (store.add table).find? name = some table := by
  rw [find?] at h
  rw [find?, add, List.find?_append, h, List.find?_cons, hname]
  rfl

theorem sameName_of_find? {table : Table} (h : store.find? name = some table) :
    Text.sameName table.name name = true := by
  rw [find?] at h
  have hname := List.find?_some h
  exact hname

theorem find?_put {old : Table} (h : store.find? name = some old) {table : Table}
    (hname : Text.sameName table.name name = true) :
    (store.put table).find? name = some table := by
  have hold := sameName_of_find? h
  rw [find?] at h
  rw [Text.sameName, beq_iff_eq] at hname hold
  have hsame : Text.sameName old.name table.name = true := by
    rw [Text.sameName, hold, hname, beq_self_eq_true]
  have htest : ((fun other => Text.sameName other.name name) ∘ fun other =>
      if Text.sameName other.name table.name = true then table else other) =
        fun other => Text.sameName other.name name := by
    funext other
    rw [Function.comp_apply]
    split
    · rename_i hother
      rw [Text.sameName, beq_iff_eq] at hother
      rw [Text.sameName, Text.sameName, hother]
    · rfl
  rw [find?, put, List.find?_map, htest, h, Option.map_some, if_pos hsame]

variable [Conversions]

def Contains (store : Store) (name : String) (columns : Columns) (rows : List Row) :
    Prop :=
  exists table, store.find? name = some table ∧ table.Contains columns rows

variable {columns : Columns}

theorem contains_of_createTable (hnew : store.find? name = none)
    (hdefaults : forall column, column ∈ columns.toList ->
      column.default.Suits column.type ∧ column.default.HasLiteral)
    {ifAbsent : Bool}
    (h : store.createTable name ifAbsent
      ((columns.toList.map Sql.Declaration.ofColumn).map Sql.Declaration.spec) =
        .ok after) :
    after.Contains name columns [] := by
  rw [createTable, hnew] at h
  rcases bind_eq_ok.mp h with ⟨table, htable, hafter⟩
  cases hafter
  have hdeclared := Table.declared_of_ofSpecs htable
  refine ⟨table, find?_add hnew ?_, hdeclared.contains hdefaults⟩
  rw [hdeclared.name_eq, Text.sameName_refl]

theorem Contains.insert {rows : List Row} (h : store.Contains name columns rows)
    (hdistinct : columns.Distinct) {row : Row} (hrow : columns.Admits row)
    {count : Nat}
    (hinsert : store.insert name (row.values.map Cell.ofValue) (sourceOf row) =
      .ok (after, count)) :
    after.Contains name columns (row :: rows) := by
  rcases h with ⟨table, hfind, hcontains⟩
  unfold Store.insert at hinsert
  rcases bind_eq_ok.mp hinsert with ⟨found, hfound, hinsert⟩
  rw [Store.get, hfind] at hfound
  cases hfound
  rcases bind_eq_ok.mp hinsert with ⟨cells, hcells, hinsert⟩
  rcases bind_eq_ok.mp hinsert with ⟨_, _, hinsert⟩
  rcases bind_eq_ok.mp hinsert with ⟨filled, hfilled, hinsert⟩
  rcases bind_eq_ok.mp hinsert with ⟨kept, hkept, hinsert⟩
  cases hinsert
  rw [Table.newRows_sourceOf (hcontains.distinct hdistinct) hcells,
    List.foldlM_cons] at hfilled
  rcases bind_eq_ok.mp hfilled with ⟨_, hinserted, hlast⟩
  cases hlast
  have hname : filled.name = table.name := by
    rcases Table.insertCells_eq_ok hinserted with ⟨_, _, _, rfl⟩
    rfl
  rw [keepReferences_eq_ok hkept]
  refine ⟨filled, find?_put hfind ?_, hcontains.insertCells hrow hinserted⟩
  rw [hname]
  exact sameName_of_find? hfind

end Store

end Store

namespace Session

/-- A command whose text has a result has been run on the store. -/
theorem run_of_reported [Dialect] {session next : Session Store} {params : List Cell}
    {command : Sql.Command} {result : Result}
    (h : reported (session.perform params command) = (next, .ok result)) :
    exists outcome, session.store.run params command = .ok (next.store, outcome) := by
  rcases session.perform_done_or_failed params command with
    ⟨after, outcome, hrun, hdone⟩ | ⟨error, changes, hfailed⟩
  · rw [hdone] at h
    cases h
    exact ⟨outcome, hrun⟩
  · rw [hfailed] at h
    cases h

end Session
end Engine
end TableStore
