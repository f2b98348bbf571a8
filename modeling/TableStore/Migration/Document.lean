import TableStore.Json.Reading
import TableStore.Migration.Batch

/-!
# Migration batches as documents

A set of batches is an object whose keys are versions in decimal digits and
whose values are lists of statements.
-/

namespace TableStore
namespace Migrations

def document (migrations : Migrations) : Json :=
  .obj (migrations.batches.map fun batch =>
    (Decimal.natText batch.version.toNat,
      .arr (batch.statements.map fun statement => .str statement)))

/--
Reads the version that a key spells.  The key has to be a number as it stands
in the text, up to its closing quote.
-/
def readKey (key : Json.TextToken) : Json.Read UInt32 := do
  match key.raw with
  | [] => .error (.fault .malformed)
  | c :: _ =>
      if c = '-' || Decimal.isDigit c then
        let (value, rest) <- Json.ofFault (Json.scanNumber key.raw)
        let version <- Json.Number.version (<- Json.ofFault value)
        if rest.head? = some '"' then return version
        else .error (.fault .malformed)
      else .error (.fault .malformed)

def readBatch (migrations : Migrations) (key : Json.TextToken)
    (value : Json.Outline) : Json.Read Migrations := do
  let version <- readKey key
  let statements <- value.list Json.Outline.text
  return migrations.put ⟨version, statements⟩

def read : Json.Outline -> Json.Read Migrations :=
  Json.Outline.entries readBatch empty

def ofText (text : String) : Json.Read Migrations :=
  Json.readText read text

end Migrations
end TableStore
