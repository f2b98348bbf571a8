import TableStore.Keyed
import TableStore.Value.Basic

/-!
# Rows

The values of one row under the names of their columns, in the order in which
the columns were first given a value.

## Main statements

The columns of a row are distinct by its type.  Setting a column adds it at the
end or replaces its value in place.
-/

namespace TableStore

structure Row where
  cells : List (String × Value)
  distinct : (Keyed.keys cells).Nodup

namespace Row

def empty : Row :=
  ⟨[], List.nodup_nil⟩

/-- Gives a column a value.  A column that is already there keeps its place. -/
def set (row : Row) (column : String) (value : Value) : Row :=
  ⟨Keyed.put column value row.cells, Keyed.nodup_keys_put column value row.distinct⟩

def ofList (cells : List (String × Value)) : Row :=
  cells.foldl (fun row cell => row.set cell.1 cell.2) empty

def get? (row : Row) (column : String) : Option Value :=
  Keyed.get? column row.cells

def modify (row : Row) (column : String) (change : Value -> Value) : Row :=
  match row.get? column with
  | some value => row.set column (change value)
  | none => row

def columns (row : Row) : List String :=
  Keyed.keys row.cells

def values (row : Row) : List Value :=
  row.cells.map Prod.snd

def size (row : Row) : Nat :=
  row.cells.length

def isEmpty (row : Row) : Bool :=
  row.cells.isEmpty

@[simp] theorem columns_empty : empty.columns = [] := rfl

theorem columns_set (row : Row) (column : String) (value : Value) :
    (row.set column value).columns =
      if column ∈ row.columns then row.columns else row.columns ++ [column] :=
  Keyed.keys_put column value row.cells

theorem get?_set (row : Row) (column name : String) (value : Value) :
    (row.set column value).get? name =
      if column = name then some value else row.get? name :=
  Keyed.get?_put column name value row.cells

end Row
end TableStore
