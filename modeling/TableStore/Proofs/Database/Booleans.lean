import Mathlib.Data.List.Forall2
import TableStore.Database.TableHandle
import TableStore.Proofs.Row

/-!
# Truth values of selected rows

Truth values are stored as whole numbers.  Restoring them in a row goes through the
declared columns one after another, whatever they are and however often a name is
declared, and changes the whole numbers under the names of columns of truth values
only.
-/

namespace TableStore
namespace Database

def DeclaresBoolean (declared : List Column) (name : String) : Prop :=
  exists column, column ∈ declared ∧ column.name = name ∧ column.type = .boolean

instance (declared : List Column) (name : String) :
    Decidable (DeclaresBoolean declared name) :=
  inferInstanceAs (Decidable (exists column, column ∈ declared ∧
    column.name = name ∧ column.type = .boolean))

/-- What becomes of an entry of a row. -/
inductive Restores (declared : List Column) :
    String × Value -> String × Value -> Prop
  | boolean {name : String} (n : Int64) (h : DeclaresBoolean declared name) :
      Restores declared (name, .int n) (name, .bool (n != 0))
  | unchanged {name : String} {value : Value}
      (h : ¬ (DeclaresBoolean declared name ∧ exists n, value = .int n)) :
      Restores declared (name, value) (name, value)

def restoredUnder (declared : List Column) (name : String) (value : Value) : Value :=
  if DeclaresBoolean declared name then restoreBoolean value else value

theorem restoreBoolean_restoreBoolean (value : Value) :
    restoreBoolean (restoreBoolean value) = restoreBoolean value := by
  cases value <;> rfl

theorem restoredUnder_of_declared {declared : List Column} {name : String}
    (h : DeclaresBoolean declared name) :
    restoredUnder declared name = restoreBoolean :=
  funext fun _ => if_pos h

theorem restoredUnder_of_not_declared {declared : List Column} {name : String}
    (h : ¬ DeclaresBoolean declared name) : restoredUnder declared name = id :=
  funext fun _ => if_neg h

theorem declaresBoolean_append (declared others : List Column) (name : String) :
    DeclaresBoolean (declared ++ others) name ↔
      DeclaresBoolean declared name ∨ DeclaresBoolean others name := by
  simp only [DeclaresBoolean, List.mem_append, or_and_right, exists_or]

theorem restoredUnder_append (declared others : List Column) (name : String)
    (value : Value) :
    restoredUnder (declared ++ others) name value =
      restoredUnder others name (restoredUnder declared name value) := by
  simp only [restoredUnder, declaresBoolean_append]
  by_cases hdeclared : DeclaresBoolean declared name
  · by_cases hothers : DeclaresBoolean others name <;>
      simp [hdeclared, hothers, restoreBoolean_restoreBoolean]
  · simp [hdeclared]

theorem restores_restoredUnder (declared : List Column) (name : String)
    (value : Value) :
    Restores declared (name, value) (name, restoredUnder declared name value) := by
  by_cases hdeclared : DeclaresBoolean declared name
  · rw [restoredUnder_of_declared hdeclared]
    cases value with
    | int n => exact .boolean n hdeclared
    | _ => exact .unchanged nofun
  · rw [restoredUnder_of_not_declared hdeclared]
    exact .unchanged fun h => hdeclared h.left

/-!
# Declared columns one after another
-/

def restoreColumn (row : Row) (column : Column) : Row :=
  if column.type = .boolean then row.modify column.name restoreBoolean else row

theorem restoreBooleans_eq_foldl (columns : Columns) (row : Row) :
    restoreBooleans columns row = columns.toList.foldl restoreColumn row :=
  rfl

theorem columns_restoreColumn (row : Row) (column : Column) :
    (restoreColumn row column).columns = row.columns := by
  rw [restoreColumn]
  split
  · exact Row.columns_modify row column.name restoreBoolean
  · rfl

theorem get?_restoreColumn (row : Row) (column : Column) (name : String) :
    (restoreColumn row column).get? name =
      (row.get? name).map (restoredUnder [column] name) := by
  have hdeclares : DeclaresBoolean [column] name ↔
      column.type = .boolean ∧ column.name = name := by
    simp [DeclaresBoolean, and_comm]
  rw [restoreColumn]
  split
  · rename_i hboolean
    rw [Row.get?_modify]
    split
    · rename_i hname
      rw [restoredUnder_of_declared (hdeclares.mpr ⟨hboolean, hname⟩)]
    · rename_i hname
      rw [restoredUnder_of_not_declared fun h => hname (hdeclares.mp h).right,
        Option.map_id_fun, id]
  · rename_i hother
    rw [restoredUnder_of_not_declared fun h => hother (hdeclares.mp h).left,
      Option.map_id_fun, id]

theorem columns_restoreBooleans (columns : Columns) (row : Row) :
    (restoreBooleans columns row).columns = row.columns := by
  rw [restoreBooleans_eq_foldl]
  induction columns.toList generalizing row with
  | nil => rfl
  | cons column declared ih => rw [List.foldl_cons, ih, columns_restoreColumn]

theorem get?_restoreBooleans (columns : Columns) (row : Row) (name : String) :
    (restoreBooleans columns row).get? name =
      (row.get? name).map (restoredUnder columns.toList name) := by
  rw [restoreBooleans_eq_foldl]
  -- A name that is declared again finds a value that is restored already.
  induction columns.toList generalizing row with
  | nil =>
      rw [restoredUnder_of_not_declared (by simp [DeclaresBoolean]),
        Option.map_id_fun, id]
      rfl
  | cons column declared ih =>
      rw [List.foldl_cons, ih, get?_restoreColumn, Option.map_map]
      congr 1
      funext value
      exact (restoredUnder_append [column] declared name value).symm

/-- Every entry of a row is restored by itself. -/
theorem cells_restoreBooleans_eq_map (columns : Columns) (row : Row) :
    (restoreBooleans columns row).cells = row.cells.map fun cell =>
      (cell.1, restoredUnder columns.toList cell.1 cell.2) := by
  apply Keyed.eq_of_keys_of_get? (restoreBooleans columns row).distinct
  · rw [Keyed.keys_map_values]
    exact columns_restoreBooleans columns row
  · intro name
    rw [Keyed.get?_map_values]
    exact get?_restoreBooleans columns row name

theorem restoreBooleans_congr {columns others : Columns}
    (h : forall name, DeclaresBoolean columns.toList name ↔
      DeclaresBoolean others.toList name) (row : Row) :
    restoreBooleans columns row = restoreBooleans others row := by
  apply Row.eq_of_columns_of_get?
  · rw [columns_restoreBooleans, columns_restoreBooleans]
  · intro name
    rw [get?_restoreBooleans, get?_restoreBooleans]
    congr 1
    funext value
    exact if_congr (h name) rfl rfl

theorem restoreBooleans_append (columns others : Columns) (row : Row) :
    restoreBooleans ⟨columns.toList ++ others.toList⟩ row =
      restoreBooleans others (restoreBooleans columns row) :=
  List.foldl_append

theorem restoreBooleans_restoreBooleans (columns : Columns) (row : Row) :
    restoreBooleans columns (restoreBooleans columns row) =
      restoreBooleans columns row := by
  rw [<- restoreBooleans_append]
  apply restoreBooleans_congr
  intro name
  rw [declaresBoolean_append, or_self]

/--
Restoring the truth values of a row keeps its columns in their order.  A whole number
under a name that is declared for truth values becomes one, and every other entry
stays as it is.  Doing it again changes nothing more, and the order of the
declarations does not matter.
-/
theorem restoreBooleans_changes_numbers_only (columns : Columns) (row : Row) :
    (restoreBooleans columns row).columns = row.columns ∧
    List.Forall₂ (Restores columns.toList) row.cells
      (restoreBooleans columns row).cells ∧
    restoreBooleans columns (restoreBooleans columns row) =
      restoreBooleans columns row ∧
    forall others : Columns, others.toList.Perm columns.toList ->
      restoreBooleans others row = restoreBooleans columns row := by
  refine ⟨columns_restoreBooleans columns row, ?_,
    restoreBooleans_restoreBooleans columns row, ?_⟩
  · rw [cells_restoreBooleans_eq_map, List.forall₂_map_right_iff, List.forall₂_same]
    intro cell _
    exact restores_restoredUnder columns.toList cell.1 cell.2
  · intro others hperm
    apply restoreBooleans_congr
    intro name
    simp only [DeclaresBoolean, hperm.mem_iff]

def declaredTwice : Columns :=
  ⟨[⟨"a", .boolean, [], none⟩, ⟨"b", .boolean, [], none⟩, ⟨"a", .text, [], none⟩,
    ⟨"c", .boolean, [], none⟩]⟩

def declaredOtherwise : Columns :=
  ⟨[⟨"a", .text, [], none⟩, ⟨"c", .boolean, [], none⟩, ⟨"b", .boolean, [], none⟩,
    ⟨"a", .boolean, [], none⟩]⟩

theorem restoreBooleans_changes_numbers_only_of_declaredTwice :
    declaredOtherwise.toList.Perm declaredTwice.toList ∧
    restoreBooleans declaredOtherwise
        (Row.ofList [("d", .int 1), ("b", .null), ("a", .int (-2))]) =
      restoreBooleans declaredTwice
        (Row.ofList [("d", .int 1), ("b", .null), ("a", .int (-2))]) ∧
    (restoreBooleans declaredTwice
        (Row.ofList [("d", .int 1), ("b", .null), ("a", .int (-2))])).cells =
      [("d", .int 1), ("b", .null), ("a", .bool true)] := by
  have hperm : declaredOtherwise.toList.Perm declaredTwice.toList := by decide
  exact ⟨hperm, (restoreBooleans_changes_numbers_only declaredTwice
    _).right.right.right declaredOtherwise hperm, by decide⟩

end Database
end TableStore
