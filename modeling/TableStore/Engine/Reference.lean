import TableStore.Engine.Table

/-!
# References between tables

A row may refer to a row of another table by the value of that row in a column
with distinct values.  A reference that leads to no row dangles; a statement
that leaves more references dangling than there were before breaks a rule.
-/

namespace TableStore
namespace Engine

def total : List Nat -> Nat
  | [] => 0
  | n :: rest => n + total rest

namespace Table

def isKey (table : Table) (position : Nat) : Bool :=
  table.keyField? = some position ||
    table.uniques.any fun rule => rule.position = position

def primaryPosition? (table : Table) : Option Nat :=
  match table.keyField? with
  | some position => some position
  | none => (table.uniques.find? (·.primary)).map (·.position)

def targetPosition? (table : Table) (reference : Reference) : Option Nat :=
  match reference.column? with
  | none => table.primaryPosition?
  | some column =>
      (table.position? column).bind fun position =>
        if table.isKey position then some position else none

end Table

namespace Store

variable [Conversions]

/-- Whether a cell refers to no row. -/
def dangles (store : Store) (reference : Reference) (cell : Cell) : Bool :=
  if cell.isNull then false
  else
    match store.find? reference.table with
    | none => true
    | some parent =>
        match parent.targetPosition? reference with
        | none => true
        | some position =>
            let affinity :=
              (parent.fields[position]?.map (·.affinity)).getD .blob
            !(parent.column position).any fun other =>
              other.same (cell.stored affinity)

def danglingOf (store : Store) (table : Table) : Nat :=
  total (table.fields.zipIdx.map fun (field, position) =>
    match field.reference? with
    | none => 0
    | some reference => (table.column position).countP (store.dangles reference))

def dangling (store : Store) : Nat :=
  total (store.tables.map store.danglingOf)

def checkTargets (store : Store) (table : Table) (fields : List Field) :
    Except Error Unit :=
  (fields.filterMap (·.reference?)).forM fun reference =>
    match store.find? reference.table with
    | none => .error (.noSuchTable ("main." ++ reference.table))
    | some parent =>
        match parent.targetPosition? reference with
        | some _ => .ok ()
        | none => .error (.referenceMismatch table.name parent.name)

/-- The later of two stores, unless more references dangle in it. -/
def keepReferences (before after : Store) : Except Error Store :=
  if before.dangling < after.dangling then
    .error (.violation .foreignKey)
  else .ok after

end Store

end Engine
end TableStore
