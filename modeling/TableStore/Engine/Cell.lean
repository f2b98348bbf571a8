import TableStore.Sql.Token
import TableStore.Decimal.Notation
import TableStore.Decimal.Range
import TableStore.Value.Basic

/-!
# Cells

What a table stores in one place, the conversions that the type of a column
makes when a value is stored, and the order of cells.

Cells fall into classes: no value, numbers, texts, bytes.  A cell of an earlier
class comes before one of a later class; whole numbers and binary numbers are
one class and compare by their exact values.
-/

namespace TableStore
namespace Engine

inductive Cell
  | null
  | int (n : Int64)
  | real (x : Decimal.Binary64)
  | text (s : String)
  | blob (bytes : List UInt8)
deriving DecidableEq

/-- How an engine turns decimals into binary numbers, and those into texts. -/
class Conversions where
  read : Decimal.Scaled -> Decimal.Binary64
  spell : Decimal.Binary64 -> String

def readDecimal [Conversions] (negative : Bool) (d : Decimal.Scaled) : Decimal.Binary64 :=
  if negative then (Conversions.read d).neg else Conversions.read d

inductive Affinity
  | blob
  | text
  /-- Texts that are numbers become numbers, whole ones if possible. -/
  | numeric
  /-- Texts that are numbers become numbers, and all numbers binary ones. -/
  | real
deriving DecidableEq

/-!
# Numbers in texts
-/

def isTextBlank (c : Char) : Bool :=
  c = ' ' || (9 <= c.toNat && c.toNat <= 13)

structure Numeral where
  negative : Bool
  decimal : Decimal.Scaled
  isWhole : Bool

namespace Numeral

def scan (s : List Char) : Option (Numeral × List Char) :=
  let s := s.dropWhile isTextBlank
  let negative := s.head? = some '-'
  let s := if negative || s.head? = some '+' then s.drop 1 else s
  let whole := s.takeWhile Decimal.isDigit
  let rest := s.dropWhile Decimal.isDigit
  let hasPoint := rest.head? = some '.'
  let behind := if hasPoint then rest.drop 1 else rest
  let fraction := if hasPoint then behind.takeWhile Decimal.isDigit else []
  let rest := if hasPoint then behind.dropWhile Decimal.isDigit else rest
  if (whole ++ fraction).isEmpty then none
  else
    match Sql.scanExponent rest with
    | some (exponent, after) =>
        some (⟨negative, ⟨Decimal.ofDigits (whole ++ fraction),
          exponent - fraction.length⟩, false⟩, after)
    | none =>
        some (⟨negative, ⟨Decimal.ofDigits (whole ++ fraction),
          -(fraction.length : Int)⟩, !hasPoint⟩, rest)

def real [Conversions] (n : Numeral) : Decimal.Binary64 :=
  readDecimal n.negative n.decimal

def whole? (n : Numeral) : Option Int64 :=
  if n.isWhole then
    Decimal.int64? (Decimal.signed n.negative n.decimal.coefficient)
  else none

def ofText? (s : String) : Option Numeral :=
  match scan s.toList with
  | some (n, rest) => if rest.all isTextBlank then some n else none
  | none => none

end Numeral

section
variable [Conversions]

namespace Cell

/-- A binary number as a whole one, if it is one inside the range of those. -/
def ofReal (x : Decimal.Binary64) : Cell :=
  match x.toInt? with
  | some n =>
      if -Decimal.int64Bound < n && n < Decimal.int64Bound - 1 then
        .int (Int64.ofInt n)
      else .real x
  | none => .real x

def ofNumeral (n : Numeral) : Cell :=
  match n.whole? with
  | some value => .int value
  | none => ofReal n.real

def numeric : Cell -> Cell
  | .text s =>
      match Numeral.ofText? s with
      | some n => ofNumeral n
      | none => .text s
  | .real x => ofReal x
  | cell => cell

def widened : Cell -> Cell
  | .int n => .real (Decimal.Binary64.ofInt n.toInt)
  | cell => cell

def spelled : Cell -> Cell
  | .int n => .text (Decimal.intText n.toInt)
  | .real x => .text (Conversions.spell x)
  | cell => cell

def stored (affinity : Affinity) (cell : Cell) : Cell :=
  match affinity with
  | .blob => cell
  | .text => cell.spelled
  | .numeric => cell.numeric
  | .real => cell.numeric.widened

/-- The cell that a value is bound as; an undefined number is no value. -/
def ofValue : Value -> Cell
  | .null => .null
  | .bool b => .int (if b then 1 else 0)
  | .int n => .int n
  | .real x => if x.isNaN then .null else .real x
  | .text s => .text s
  | .blob bytes => .blob bytes

def value : Cell -> Value
  | .null => .null
  | .int n => .int n
  | .real x => .real x
  | .text s => .text s
  | .blob bytes => .blob bytes

def isNull : Cell -> Bool
  | .null => true
  | _ => false

def isText : Cell -> Bool
  | .text _ => true
  | _ => false

def asReal : Cell -> Decimal.Binary64
  | .null => .zero
  | .int n => .ofInt n.toInt
  | .real x => x
  | .text s =>
      match Numeral.scan s.toList with
      | some (n, _) => n.real
      | none => .zero
  | .blob bytes =>
      match Numeral.scan (bytes.map fun b => Char.ofNat b.toNat) with
      | some (n, _) => n.real
      | none => .zero

/-!
# Order
-/

def compareBytes : List UInt8 -> List UInt8 -> Ordering
  | [], [] => .eq
  | [], _ :: _ => .lt
  | _ :: _, [] => .gt
  | a :: as, b :: bs =>
      if a < b then .lt else if b < a then .gt else compareBytes as bs

def compareTexts (s t : String) : Ordering :=
  if s < t then .lt else if s = t then .eq else .gt

def rank : Cell -> Nat
  | .null => 0
  | .int _ => 1
  | .real _ => 1
  | .text _ => 2
  | .blob _ => 3

def compare : Cell -> Cell -> Ordering
  | .int a, .int b => Ord.compare a.toInt b.toInt
  | .int a, .real b => Decimal.Binary64.compareInt a.toInt b
  | .real a, .int b => (Decimal.Binary64.compareInt b.toInt a).swap
  | .real a, .real b => Decimal.Binary64.compare a b
  | .text a, .text b => compareTexts a b
  | .blob a, .blob b => compareBytes a b
  | a, b => Ord.compare a.rank b.rank

def same (a b : Cell) : Bool :=
  compare a b = .eq

end Cell

end

namespace Affinity

def mentions (piece : String) : List Char -> Bool
  | [] => false
  | c :: rest => piece.toList.isPrefixOf (c :: rest) || mentions piece rest

def ofType (type : String) : Affinity :=
  let name := (Text.foldCase type).toList
  if mentions "int" name then .numeric
  else if ["char", "clob", "text"].any fun piece => mentions piece name then .text
  else if type.isEmpty || mentions "blob" name then .blob
  else if ["real", "floa", "doub"].any fun piece => mentions piece name then .real
  else .numeric

def isNumeric : Affinity -> Bool
  | .numeric => true
  | .real => true
  | _ => false

end Affinity

end Engine
end TableStore
