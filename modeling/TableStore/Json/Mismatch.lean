import TableStore.Decimal.Digits
import TableStore.Decimal.Notation
import TableStore.Json.Outline
import TableStore.Text.Join
import TableStore.Text.Shown

/-!
# Mismatches

What a reader of documents reports when a text does not hold what it needs:
a fault of the text itself, or a well-formed part of the wrong shape.
-/

namespace TableStore
namespace Json

open Text (marked)

inductive Found
  | null
  | bool (value : Bool)
  | num (value : Number)
  | str (text : String)
  | list
  | object

/-- A part of the wrong shape. -/
inductive Mismatch
  | kind (found : Found) (wanted : String)
  | range (found : Found) (wanted : String)
  /-- A list with too few items for the fields of a record. -/
  | length (count : Nat) (wanted : String)
  | missing (field : String)
  | repeated (field : String)
  | word (found : String) (known : List String)
  | noValue

inductive Refusal
  | fault (fault : Fault)
  | mismatch (mismatch : Mismatch)

def Found.words : Found -> String
  | .null => "null"
  | .bool true => "boolean \x60true\x60"
  | .bool false => "boolean \x60false\x60"
  | .num (.int n) => "integer \x60" ++ Decimal.intText n ++ "\x60"
  | .num (.float x) => "floating point \x60" ++ x.documentText ++ "\x60"
  | .str s => "string " ++ Text.shown s
  | .list => "sequence"
  | .object => "map"

def Mismatch.message : Mismatch -> String
  | .kind found wanted =>
      "invalid type: " ++ found.words ++ ", expected " ++ wanted
  | .range found wanted =>
      "invalid value: " ++ found.words ++ ", expected " ++ wanted
  | .length count wanted =>
      "invalid length " ++ Decimal.natText count ++ ", expected " ++ wanted
  | .missing field => "missing field " ++ marked field
  | .repeated field => "duplicate field " ++ marked field
  | .word found known =>
      "unknown variant " ++ marked found ++ ", expected one of " ++
        Text.join ", " (known.map marked)
  | .noValue => "data did not match any variant of untagged enum SqlValue"

end Json
end TableStore
