import TableStore.Decimal.Digits
import TableStore.Decimal.Notation
import TableStore.Text.Hex
import TableStore.Text.Join
import TableStore.Text.Quoted
import TableStore.Value.Basic

/-!
# Literals

The spellings of values in statements and in reports.
-/

namespace TableStore
namespace Value

/--
The literal of a value.  There is no literal for a number that is not finite;
it is written as the missing value.
-/
def literal : Value -> String
  | .null => "NULL"
  | .bool true => "TRUE"
  | .bool false => "FALSE"
  | .int n => Decimal.intText n.toInt
  | .real x => if x.isFinite then x.positionalText else "NULL"
  | .text s => Text.quote s
  | .blob bytes =>
      "X'" ++ String.ofList (Text.hexOfBytes Text.upperHexDigit bytes) ++ "'"

/--
The spelling of a value inside a condition.  A text stands between quotes as it
is, its own quotes included.
-/
def operandText : Value -> String
  | .text s => "'" ++ s ++ "'"
  | .bool true => "true"
  | .bool false => "false"
  | .int n => Decimal.intText n.toInt
  | .real x => x.positionalText
  | .null => "NULL"
  | .blob bytes => literal (.blob bytes)

def shown : Value -> String
  | .null => "Null"
  | .bool b => "Bool(" ++ (if b then "true" else "false") ++ ")"
  | .int n => "Int(" ++ Decimal.intText n.toInt ++ ")"
  | .real x => "Float(" ++ x.positionalText ++ ")"
  | .text s => "Text(" ++ s ++ ")"
  | .blob bytes =>
      "Blob([" ++
        Text.join ", " (bytes.map fun b => Decimal.natText b.toNat) ++ "])"

end Value
end TableStore
