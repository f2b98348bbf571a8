import TableStore.Column.Basic
import TableStore.Value.Document

/-!
# Columns as documents

A column is an object with the fields `name`, `type`, `constraints` and
`default`.  The last two are left out when there is nothing to say.
-/

namespace TableStore
namespace Column

def document (column : Column) : Json :=
  .obj ([("name", .str column.name), ("type", .str column.type.name)] ++
    (if column.constraints.isEmpty then []
      else
        [("constraints",
          .arr (column.constraints.map fun constraint => .str constraint.name))]) ++
    (match column.default? with
      | some value => [("default", value.document)]
      | none => []))

def readType : Json.Outline -> Json.Read ColumnType :=
  Json.Outline.word ColumnType.ofName? (ColumnType.all.map (·.name))

def readConstraint : Json.Outline -> Json.Read Constraint :=
  Json.Outline.word Constraint.ofName?
    ["NOT NULL", "NOT_NULL", "UNIQUE", "PRIMARY KEY", "PRIMARY_KEY"]

def readConstraints : Json.Outline -> Json.Read (List Constraint) :=
  Json.Outline.list readConstraint

/-- The fields of a column that have been read so far. -/
structure Fields where
  name : Option String
  type : Option ColumnType
  constraints : Option (List Constraint)
  /-- The default, which may have been read as absent. -/
  default? : Option (Option Value)

def Fields.start : Fields :=
  ⟨none, none, none, none⟩

def Fields.step (room : Nat) (fields : Fields) (key : String)
    (value : Json.Outline) : Json.Read Fields :=
  match key with
  | "name" => do
      let name <- Json.readField key fields.name Json.Outline.text value
      return { fields with name := name }
  | "type" => do
      let type <- Json.readField key fields.type readType value
      return { fields with type := type }
  | "constraints" => do
      let constraints <-
        Json.readField key fields.constraints readConstraints value
      return { fields with constraints := constraints }
  | "default" => do
      let default? <-
        Json.readField key fields.default? (Value.readOptional room) value
      return { fields with default? := default? }
  | _ => Json.skipField fields value

def Fields.finish (fields : Fields) : Json.Read Column := do
  let name <- Json.requireField "name" fields.name
  let type <- Json.requireField "type" fields.type
  return ⟨name, type, fields.constraints.getD [], fields.default?.getD none⟩

def ofItems (room : Nat) (items : Json.Items) : Json.Read Column := do
  let wanted := "struct ColumnDef with 4 elements"
  let (name, items) <- items.required 0 wanted Json.Outline.text
  let (type, items) <- items.required 1 wanted readType
  let (constraints, items) <- items.optional [] readConstraints
  let (default?, items) <- items.optional none (Value.readOptional room)
  items.finish
  return ⟨name, type, constraints, default?⟩

/-- Reads a column.  A default may hold `room` lists inside one another. -/
def read (room : Nat) : Json.Outline -> Json.Read Column :=
  Json.Outline.record "struct ColumnDef" (ofItems room) Fields.start
    (Fields.step room) Fields.finish

end Column

namespace Columns

def document (columns : Columns) : Json :=
  .arr (columns.toList.map Column.document)

/-- Reads a list of columns as it stands, repeated names included. -/
def read (room : Nat) (part : Json.Outline) : Json.Read Columns :=
  (Json.Outline.list (Column.read room) part).map Columns.mk

def ofText (text : String) : Json.Read Columns :=
  Json.readText (read (Json.maxDepth - 2)) text

end Columns
end TableStore
