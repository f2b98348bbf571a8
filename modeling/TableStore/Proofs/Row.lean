import TableStore.Row
import TableStore.Proofs.Keyed

/-!
# Rows as maps in which the last write wins

A row keeps its columns in the order in which they were first set.  Setting a
column again and assigning to it change the value in its place, and assigning to
a column that is not there changes nothing.
-/

namespace TableStore
namespace Row

inductive Edit where
  | set (column : String) (value : Value)
  | assign (column : String) (value : Value)

def Edit.column : Edit -> String
  | .set column _ => column
  | .assign column _ => column

def Edit.value : Edit -> Value
  | .set _ value => value
  | .assign _ value => value

def edit (row : Row) : Edit -> Row
  | .set column value => row.set column value
  | .assign column value => row.modify column fun _ => value

def edited (row : Row) (edits : List Edit) : Row :=
  edits.foldl edit row

/-!
# What a history of writes says
-/

/-- The columns that are set, in order and with repetitions. -/
def settings : List Edit -> List String
  | [] => []
  | .set column _ :: edits => column :: settings edits
  | .assign _ _ :: edits => settings edits

/-- Whether a write behind others has an effect: an assignment needs its column. -/
def Edit.Counts (before : List Edit) : Edit -> Prop
  | .set _ _ => True
  | .assign column _ => column ∈ settings before

def LastWrite (column : String) (value : Value) (edits : List Edit) : Prop :=
  exists before edit after, edits = before ++ edit :: after ∧
    edit.column = column ∧ edit.value = value ∧ edit.Counts before ∧
    forall later, later ∈ after -> later.column ≠ column

structure LastWriteWins (edits : List Edit) (row : Row) : Prop where
  nodup_columns : row.columns.Nodup
  columns_eq : row.columns = (settings edits).eraseDups
  get?_eq_some_iff : forall column value,
    row.get? column = some value ↔ LastWrite column value edits
  get?_eq_none_iff : forall column,
    row.get? column = none ↔ column ∉ settings edits
  values_eq : row.values.map some = row.columns.map row.get?
  cells_eq : row.cells = row.columns.zip row.values

theorem settings_append (edits others : List Edit) :
    settings (edits ++ others) = settings edits ++ settings others := by
  induction edits with
  | nil => rfl
  | cons edit edits ih =>
      cases edit with
      | set column value => exact congrArg (List.cons column) ih
      | assign column value => exact ih

theorem lastWrite_concat (column : String) (value : Value) (edits : List Edit)
    (edit : Edit) :
    LastWrite column value (edits ++ [edit]) ↔
      if edit.column = column then edit.value = value ∧ edit.Counts edits
      else LastWrite column value edits := by
  constructor
  · rintro ⟨before, last, after, hedits, hcolumn, hvalue, hcounts, hafter⟩
    rcases List.eq_nil_or_concat after with rfl | ⟨after, final, rfl⟩
    · rcases List.append_inj' hedits rfl with ⟨rfl, hlast⟩
      cases hlast
      rw [if_pos hcolumn]
      exact ⟨hvalue, hcounts⟩
    · have hsplit : edits ++ [edit] = (before ++ last :: after) ++ [final] := by
        rw [hedits, List.concat_eq_append, List.append_assoc, List.cons_append]
      rcases List.append_inj' hsplit rfl with ⟨rfl, hfinal⟩
      cases hfinal
      rw [if_neg (hafter edit (by simp))]
      exact ⟨before, last, after, rfl, hcolumn, hvalue, hcounts,
        fun later hlater => hafter later (by simp [hlater])⟩
  · intro h
    by_cases hcolumn : edit.column = column
    · rw [if_pos hcolumn] at h
      exact ⟨edits, edit, [], rfl, hcolumn, h.left, h.right, by simp⟩
    · rw [if_neg hcolumn] at h
      rcases h with ⟨before, last, after, rfl, hlast, hvalue, hcounts, hafter⟩
      refine ⟨before, last, after ++ [edit], by simp, hlast, hvalue, hcounts, ?_⟩
      intro later hlater
      rcases List.mem_append.mp hlater with hlater | hlater
      · exact hafter later hlater
      · rw [List.mem_singleton.mp hlater]
        exact hcolumn

/-!
# Rows behind a history
-/

theorem map_some_values (row : Row) :
    row.values.map some = row.columns.map row.get? :=
  Keyed.map_some_values row.distinct

theorem get?_eq_none_iff (row : Row) (column : String) :
    row.get? column = none ↔ column ∉ row.columns :=
  Keyed.get?_eq_none_iff column row.cells

theorem mem_columns_of_get? {row : Row} {column : String} {value : Value}
    (hvalue : row.get? column = some value) : column ∈ row.columns := by
  apply Decidable.byContradiction
  intro habsent
  rw [(get?_eq_none_iff row column).mpr habsent] at hvalue
  cases hvalue

theorem eq_of_columns_of_get? {row other : Row}
    (hcolumns : row.columns = other.columns)
    (hget : forall column, row.get? column = other.get? column) :
    row = other := by
  have hcells := Keyed.eq_of_keys_of_get? row.distinct hcolumns hget
  cases row
  cases other
  cases hcells
  rfl

theorem columns_modify (row : Row) (column : String) (change : Value -> Value) :
    (row.modify column change).columns = row.columns := by
  rw [modify]
  split
  · rename_i value hvalue
    rw [columns_set, if_pos (mem_columns_of_get? hvalue)]
  · rfl

theorem get?_modify (row : Row) (column name : String) (change : Value -> Value) :
    (row.modify column change).get? name =
      if column = name then (row.get? name).map change else row.get? name := by
  rw [modify]
  split
  · rename_i value hvalue
    rw [get?_set]
    split
    · rename_i hname
      rw [<- hname, hvalue]
      rfl
    · rfl
  · rename_i hnone
    split
    · rename_i hname
      rw [<- hname, hnone]
      rfl
    · rfl

theorem lastWriteWins_of {edits : List Edit} {row : Row}
    (hcolumns : row.columns = (settings edits).eraseDups)
    (hget : forall column value,
      row.get? column = some value ↔ LastWrite column value edits) :
    LastWriteWins edits row where
  nodup_columns := row.distinct
  columns_eq := hcolumns
  get?_eq_some_iff := hget
  get?_eq_none_iff column := by
    rw [get?_eq_none_iff, hcolumns, List.mem_eraseDups]
  values_eq := map_some_values row
  cells_eq := Keyed.eq_zip row.cells

theorem lastWriteWins_empty : LastWriteWins [] empty := by
  apply lastWriteWins_of rfl
  intro column value
  constructor
  · intro h
    cases h
  · rintro ⟨before, last, after, hedits, -⟩
    simp at hedits

/-- One more write to a row is one more write of its history. -/
theorem LastWriteWins.edit {edits : List Edit} {row : Row}
    (h : LastWriteWins edits row) (edit : Edit) :
    LastWriteWins (edits ++ [edit]) (row.edit edit) := by
  have hmem : forall column, column ∈ row.columns ↔ column ∈ settings edits := by
    intro column
    rw [h.columns_eq, List.mem_eraseDups]
  cases edit with
  | set name new =>
      apply lastWriteWins_of
      · have hadded : settings (edits ++ [.set name new]) = settings edits ++ [name] :=
          settings_append edits [.set name new]
        rw [hadded, eraseDups_concat, <- h.columns_eq]
        simp only [Row.edit, columns_set, hmem]
      · intro column value
        rw [lastWrite_concat, <- h.get?_eq_some_iff]
        by_cases hname : name = column
        · simp [Row.edit, get?_set, Edit.column, Edit.value, Edit.Counts, hname]
        · simp [Row.edit, get?_set, Edit.column, hname]
  | assign name new =>
      apply lastWriteWins_of
      · have hsame : settings (edits ++ [.assign name new]) = settings edits := by
          rw [settings_append, settings, settings, List.append_nil]
        rw [hsame, <- h.columns_eq]
        exact columns_modify row name fun _ => new
      · intro column value
        rw [lastWrite_concat, <- h.get?_eq_some_iff]
        by_cases hname : name = column
        · -- The assignment is seen exactly when the column is there.
          simp only [Row.edit, get?_modify, Edit.column, Edit.value, Edit.Counts,
            hname, if_true, <- hmem]
          cases hold : row.get? column with
          | none =>
              have habsent := (Row.get?_eq_none_iff row column).mp hold
              simp [habsent]
          | some old =>
              have hthere := mem_columns_of_get? hold
              simp [hthere]
        · simp [Row.edit, get?_modify, Edit.column, hname]

theorem LastWriteWins.edited {before : List Edit} {row : Row}
    (h : LastWriteWins before row) (edits : List Edit) :
    LastWriteWins (before ++ edits) (row.edited edits) := by
  induction edits generalizing before row with
  | nil =>
      rw [List.append_nil]
      exact h
  | cons edit edits ih =>
      have hnext := ih (h.edit edit)
      rw [List.append_assoc] at hnext
      exact hnext

def collecting (cells : List (String × Value)) : List Edit :=
  cells.map fun cell => .set cell.1 cell.2

theorem ofList_eq_edited (cells : List (String × Value)) :
    ofList cells = empty.edited (collecting cells) := by
  rw [edited, collecting, List.foldl_map]
  rfl

theorem LastWriteWins.eq {edits others : List Edit} {row other : Row}
    (h : LastWriteWins edits row) (hother : LastWriteWins others other)
    (hcolumns : (settings edits).eraseDups = (settings others).eraseDups)
    (hwrites : forall column value,
      LastWrite column value edits ↔ LastWrite column value others) :
    row = other := by
  apply eq_of_columns_of_get?
  · rw [h.columns_eq, hother.columns_eq, hcolumns]
  · intro column
    ext value
    rw [h.get?_eq_some_iff, hother.get?_eq_some_iff]
    exact hwrites column value

/--
A row that is collected, from no cells or from some, and then written to holds
what its history says, and any other history with the same columns in the order
of their first setting and the same last writes gives the same row.
-/
theorem last_write_wins (cells : List (String × Value)) (edits : List Edit) :
    LastWriteWins (collecting cells ++ edits) ((ofList cells).edited edits) ∧
      forall (otherCells : List (String × Value)) (others : List Edit),
        (settings (collecting cells ++ edits)).eraseDups =
            (settings (collecting otherCells ++ others)).eraseDups ->
        (forall column value,
          LastWrite column value (collecting cells ++ edits) ↔
            LastWrite column value (collecting otherCells ++ others)) ->
        (ofList cells).edited edits = (ofList otherCells).edited others := by
  have hholds : forall cells edits,
      LastWriteWins (collecting cells ++ edits) ((ofList cells).edited edits) := by
    intro cells edits
    rw [ofList_eq_edited]
    exact (lastWriteWins_empty.edited (collecting cells)).edited edits
  refine ⟨hholds cells edits, ?_⟩
  intro otherCells others hcolumns hwrites
  exact (hholds cells edits).eq (hholds otherCells others) hcolumns hwrites

theorem last_write_wins_of_assignments :
    (settings (collecting [("a", .int 1), ("b", .int 2), ("a", .int 3)] ++
        [.assign "b" (.int 4), .assign "c" (.int 5)])).eraseDups =
      (settings (collecting [("a", .null)] ++
        [.set "b" (.int 4), .assign "a" (.int 3)])).eraseDups ∧
    (ofList [("a", .int 1), ("b", .int 2), ("a", .int 3)]).edited
        [.assign "b" (.int 4), .assign "c" (.int 5)] =
      (ofList [("a", .null)]).edited
        [.set "b" (.int 4), .assign "a" (.int 3)] := by
  have hcolumns :
      (settings (collecting [("a", .int 1), ("b", .int 2), ("a", .int 3)] ++
          [.assign "b" (.int 4), .assign "c" (.int 5)])).eraseDups =
        (settings (collecting [("a", .null)] ++
          [.set "b" (.int 4), .assign "a" (.int 3)])).eraseDups := by
    decide
  refine ⟨hcolumns, (last_write_wins _ _).right _ _ hcolumns ?_⟩
  intro column value
  rw [<- (last_write_wins _ _).left.get?_eq_some_iff,
    <- (last_write_wins _ _).left.get?_eq_some_iff]
  rfl

end Row
end TableStore
