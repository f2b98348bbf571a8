import TableStore.Decimal.Binary64

/-!
# Values

What a cell of a table can hold, what a statement can be given as a parameter,
and what a predicate compares with.
-/

namespace TableStore

inductive Value
  | null
  | bool (value : Bool)
  | int (value : Int64)
  | real (value : Decimal.Binary64)
  | text (value : String)
  | blob (bytes : List UInt8)
deriving DecidableEq

namespace Value

/-- Whether a value may be compared with: text, finite numbers, truth values. -/
def isLiteral : Value -> Bool
  | .null => false
  | .bool _ => true
  | .int _ => true
  | .real x => x.isFinite
  | .text _ => true
  | .blob _ => false

def isNull : Value -> Bool
  | .null => true
  | _ => false

def asInt? : Value -> Option Int64
  | .int n => some n
  | .bool b => some (if b then 1 else 0)
  | _ => none

def asReal? : Value -> Option Decimal.Binary64
  | .int n => some (Decimal.Binary64.ofInt n.toInt)
  | .real x => some x
  | _ => none

def asText? : Value -> Option String
  | .text s => some s
  | _ => none

/-- A value as a truth value; a whole number is true unless it is zero. -/
def asBool? : Value -> Option Bool
  | .bool b => some b
  | .int n => some (n != 0)
  | _ => none

end Value
end TableStore
