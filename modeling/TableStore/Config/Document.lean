import TableStore.Config.Basic

/-!
# Configurations as documents

A configuration is an object with the fields `name`, `version`, `migrations`,
`auto_migrate`, `auto_create_tables` and `tables`.  Only the first two have to
be there.
-/

namespace TableStore
namespace TableDeclaration

def document (table : TableDeclaration) : Json :=
  .obj [("name", .str table.name), ("columns", table.columns.document)]

/-- The fields of a table that have been read so far. -/
structure Fields where
  name : Option String
  columns : Option Columns

def Fields.step (room : Nat) (fields : Fields) (key : String)
    (value : Json.Outline) : Json.Read Fields :=
  match key with
  | "name" => do
      let name <- Json.readField key fields.name Json.Outline.text value
      return { fields with name := name }
  | "columns" => do
      let columns <-
        Json.readField key fields.columns (Columns.read room) value
      return { fields with columns := columns }
  | _ => Json.skipField fields value

def Fields.finish (fields : Fields) : Json.Read TableDeclaration := do
  let name <- Json.requireField "name" fields.name
  let columns <- Json.requireField "columns" fields.columns
  return ⟨name, columns⟩

def ofItems (room : Nat) (items : Json.Items) :
    Json.Read TableDeclaration := do
  let wanted := "struct TableConfig with 2 elements"
  let (name, items) <- items.required 0 wanted Json.Outline.text
  let (columns, items) <- items.required 1 wanted (Columns.read room)
  items.finish
  return ⟨name, columns⟩

def read (room : Nat) : Json.Outline -> Json.Read TableDeclaration :=
  Json.Outline.record "struct TableConfig" (ofItems room) ⟨none, none⟩
    (Fields.step room) Fields.finish

end TableDeclaration

namespace Config

/-- The document of a configuration, with all its fields. -/
def document (config : Config) : Json :=
  .obj [("name", .str config.name),
    ("version", .num (.int config.version.toNat)),
    ("migrations", config.migrations.document),
    ("auto_migrate", .bool config.autoMigrate),
    ("auto_create_tables", .bool config.autoCreate),
    ("tables", .arr (config.tables.map TableDeclaration.document))]

/-- The fields of a configuration that have been read so far. -/
structure Fields where
  name : Option String
  version : Option UInt32
  migrations : Option Migrations
  autoMigrate : Option Bool
  autoCreate : Option Bool
  tables : Option (List TableDeclaration)

def readTables (room : Nat) :
    Json.Outline -> Json.Read (List TableDeclaration) :=
  Json.Outline.list (TableDeclaration.read room)

/-- The field that a key names; two keys have a second spelling. -/
def fieldName (key : String) : String :=
  match key with
  | "autoMigrate" => "auto_migrate"
  | "autoCreateTables" => "auto_create_tables"
  | _ => key

def Fields.step (room : Nat) (fields : Fields) (key : String)
    (value : Json.Outline) : Json.Read Fields :=
  let field := fieldName key
  match field with
  | "name" => do
      let name <- Json.readField field fields.name Json.Outline.text value
      return { fields with name := name }
  | "version" => do
      let version <-
        Json.readField field fields.version Json.Outline.version value
      return { fields with version := version }
  | "migrations" => do
      let migrations <-
        Json.readField field fields.migrations Migrations.read value
      return { fields with migrations := migrations }
  | "auto_migrate" => do
      let flag <- Json.readField field fields.autoMigrate Json.Outline.flag value
      return { fields with autoMigrate := flag }
  | "auto_create_tables" => do
      let flag <- Json.readField field fields.autoCreate Json.Outline.flag value
      return { fields with autoCreate := flag }
  | "tables" => do
      let tables <- Json.readField field fields.tables (readTables room) value
      return { fields with tables := tables }
  | _ => Json.skipField fields value

def Fields.finish (fields : Fields) : Json.Read Config := do
  let name <- Json.requireField "name" fields.name
  let version <- Json.requireField "version" fields.version
  return ⟨name, version, fields.migrations.getD .empty,
    fields.autoMigrate.getD false, fields.autoCreate.getD false,
    fields.tables.getD []⟩

def ofItems (room : Nat) (items : Json.Items) : Json.Read Config := do
  let wanted := "struct DatabaseConfig with 6 elements"
  let (name, items) <- items.required 0 wanted Json.Outline.text
  let (version, items) <- items.required 1 wanted Json.Outline.version
  let (migrations, items) <- items.optional .empty Migrations.read
  let (autoMigrate, items) <- items.optional false Json.Outline.flag
  let (autoCreate, items) <- items.optional false Json.Outline.flag
  let (tables, items) <- items.optional [] (readTables room)
  items.finish
  return ⟨name, version, migrations, autoMigrate, autoCreate, tables⟩

def read (room : Nat) : Json.Outline -> Json.Read Config :=
  Json.Outline.record "struct DatabaseConfig" (ofItems room)
    ⟨none, none, none, none, none, none⟩ (Fields.step room) Fields.finish

def ofText (text : String) : Json.Read Config :=
  Json.readText (read (Json.maxDepth - 5)) text

end Config
end TableStore
