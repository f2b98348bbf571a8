import TableStore.Decimal.Binary64
import TableStore.Keyed

/-!
# Documents

The values of the JSON data format.  The members of an object are a list, since
their order matters to readers of this library.
-/

namespace TableStore

inductive Number
  /-- A whole number written without point and exponent. -/
  | int (value : Int)
  /-- Any other number. -/
  | float (value : Decimal.Binary64)
deriving DecidableEq

inductive Json
  | null
  | bool (value : Bool)
  | num (value : Number)
  | str (text : String)
  | arr (items : List Json)
  | obj (members : List (String × Json))
deriving Inhabited

namespace Json

def member? (key : String) : Json -> Option Json
  | .obj members => Keyed.get? key members
  | _ => none

end Json
end TableStore
