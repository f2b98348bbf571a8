import TableStore.Json.Reading
import TableStore.Value.Basic

/-!
# Values as documents

A value is written as the document that looks like it: a run of bytes as the
list of its numbers.  Reading tries the kinds of value in their order, so a
whole number beyond sixty-four bits with sign is read as a binary number.
-/

namespace TableStore
namespace Value

def document : Value -> Json
  | .null => .null
  | .bool b => .bool b
  | .int n => .num (.int n.toInt)
  | .real x => if x.isFinite then .num (.float x) else .null
  | .text s => .str s
  | .blob bytes => .arr (bytes.map fun b => .num (.int b.toNat))

def realOfNumber : Number -> Decimal.Binary64
  | .int n => Decimal.Binary64.ofInt n
  | .float x => x

def ofNumber : Number -> Value
  | .int n =>
      match Decimal.int64? n with
      | some value => .int value
      | none => .real (realOfNumber (.int n))
  | .float x => .real x

def byteOfDocument? : Json -> Option UInt8
  | .num (.int n) =>
      if 0 <= n && n < 256 then some (UInt8.ofNat n.toNat) else none
  | _ => none

def ofDocument? : Json -> Option Value
  | .null => some .null
  | .bool b => some (.bool b)
  | .num n => some (ofNumber n)
  | .str s => some (.text s)
  | .arr items => (items.mapM byteOfDocument?).map .blob
  | .obj _ => none

/-- Reads a value; the whole document is read before it is judged. -/
def read (room : Nat) (part : Json.Outline) : Json.Read Value := do
  let document <- Json.ofFault (part.document room)
  match ofDocument? document with
  | some value => return value
  | none => Json.refuse .noValue

def readOptional (room : Nat) (part : Json.Outline) :
    Json.Read (Option Value) :=
  match part with
  | .null => .ok none
  | _ => (read room part).map some

def ofText (text : String) : Json.Read Value :=
  Json.readText (read Json.maxDepth) text

end Value
end TableStore
