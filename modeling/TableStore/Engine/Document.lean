import TableStore.Engine.Define
import TableStore.Json.Document

/-!
# Stores as documents

The form in which a store is kept in a file.  A condition is kept as its text,
and its names are looked up again when the store is read.
-/

namespace TableStore
namespace Engine

def hexDocument (kind : String) (digits : List Char) : Json :=
  .obj [(kind, .str (String.ofList digits))]

namespace Cell

def document : Cell -> Json
  | .null => .null
  | .int n => .num (.int n.toInt)
  | .real x => hexDocument "real" (Text.hexOfNumber 16 x.bits.toNat)
  | .text s => .str s
  | .blob bytes => hexDocument "blob" (Text.hexOfBytes Text.lowerHexDigit bytes)

def ofDocument? : Json -> Option Cell
  | .null => some .null
  | .num (.int n) => some (.int (Int64.ofInt n))
  | .str s => some (.text s)
  | .obj [("real", .str digits)] => do
      let bits <- Text.numberOfHex? digits.toList
      return .real ⟨UInt64.ofNat bits⟩
  | .obj [("blob", .str digits)] => do
      let bytes <- Text.bytesOfHex? digits.toList
      return .blob bytes
  | _ => none

end Cell

namespace Affinity

def word : Affinity -> String
  | .blob => "blob"
  | .text => "text"
  | .numeric => "numeric"
  | .real => "real"

def ofWord? (word : String) : Option Affinity :=
  [Affinity.blob, .text, .numeric, .real].find? fun affinity =>
    affinity.word = word

theorem ofWord?_word (affinity : Affinity) : ofWord? affinity.word = some affinity := by
  cases affinity <;> decide

end Affinity

def natDocument (n : Nat) : Json :=
  .num (.int n)

def natOfDocument? : Json -> Option Nat
  | .num (.int n) => if 0 <= n then some n.toNat else none
  | _ => none

namespace Field

def document (field : Field) : Json :=
  .arr [.str field.name, .str field.affinity.word, .bool field.notNull,
    field.default.document,
    match field.reference? with
    | none => .null
    | some ⟨table, none⟩ => .arr [.str table]
    | some ⟨table, some column⟩ => .arr [.str table, .str column]]

def referenceOf? : Json -> Option (Option Reference)
  | .null => some none
  | .arr [.str table] => some (some ⟨table, none⟩)
  | .arr [.str table, .str column] => some (some ⟨table, some column⟩)
  | _ => none

def ofDocument? : Json -> Option Field
  | .arr [.str name, .str word, .bool notNull, default, reference] => do
      return ⟨name, <- Affinity.ofWord? word, notNull,
        <- Cell.ofDocument? default, <- referenceOf? reference⟩
  | _ => none

end Field

namespace Record

/-- The document of a record: its number and its cells. -/
def document (record : Record) : Json :=
  .arr (.num (.int record.id.toInt) :: record.cells.map Cell.document)

def ofDocument? : Json -> Option Record
  | .arr (.num (.int id) :: cells) => do
      return ⟨Int64.ofInt id, <- cells.mapM Cell.ofDocument?⟩
  | _ => none

end Record

def UniqueRule.document (rule : UniqueRule) : Json :=
  .arr [natDocument rule.position, .bool rule.primary]

def UniqueRule.ofDocument? : Json -> Option UniqueRule
  | .arr [position, .bool primary] => do
      return ⟨<- natOfDocument? position, primary⟩
  | _ => none

namespace Table

def document (table : Table) : Json :=
  .obj [("name", .str table.name),
    ("fields", .arr (table.fields.map Field.document)),
    ("key",
      match table.keyField? with
      | some position => natDocument position
      | none => .null),
    ("never_reused", .bool table.neverReused),
    ("uniques", .arr (table.uniques.map UniqueRule.document)),
    ("checks", .arr (table.checks.map fun check => .str check.2)),
    ("highest", .num (.int table.highest.toInt)),
    ("records", .arr (table.records.map Record.document))]

def checkOfText? [Conversions] (scope : Scope) : Json -> Option (Formula × String)
  | .str text =>
      match Sql.Expr.read.run (Sql.scan text) with
      | .ok (expr, _) =>
          match scope.resolve expr with
          | .ok formula => some (formula, text)
          | .error _ => none
      | .error _ => none
  | _ => none

def ofDocument? [Conversions] : Json -> Option Table
  | .obj [("name", .str name), ("fields", .arr fields), ("key", key),
      ("never_reused", .bool neverReused), ("uniques", .arr uniques),
      ("checks", .arr checks), ("highest", .num (.int highest)),
      ("records", .arr records)] => do
      let fields <- fields.mapM Field.ofDocument?
      let uniques <- uniques.mapM UniqueRule.ofDocument?
      let records <- records.mapM Record.ofDocument?
      let table : Table := ⟨name, fields, natOfDocument? key, neverReused,
        uniques, [], Int64.ofInt highest, records⟩
      let checks <- checks.mapM (checkOfText? (table.scope []))
      return { table with checks := checks }
  | _ => none

end Table

namespace Store

def document (store : Store) : Json :=
  .obj [("version", .num (.int store.version)),
    ("tables", .arr (store.tables.map Table.document))]

def ofDocument? [Conversions] : Json -> Option Store
  | .obj [("version", .num (.int version)), ("tables", .arr tables)] => do
      return ⟨<- tables.mapM Table.ofDocument?, version⟩
  | _ => none

end Store

end Engine
end TableStore
