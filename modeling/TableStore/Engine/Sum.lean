import TableStore.Engine.Cell
import TableStore.Engine.Error

/-!
# Sums

The sum of cells.  Whole numbers are added exactly, and their sum may not leave
their range.  From the first other number on, the sum is a binary number with a
second one that collects what rounding loses.
-/

namespace TableStore
namespace Engine

open Decimal

structure Running where
  sum : Binary64
  /-- What rounding has lost. -/
  lost : Binary64
  /-- Whether whole numbers have left their range since the last other number. -/
  overflowed : Bool

/-- The whole numbers from here on are added in two parts. -/
def splitBound : Int := 4503599627370496

def splitSize : Int := 16384

namespace Running

def add (r : Running) (x : Binary64) : Running :=
  let total := r.sum.add x
  let loss :=
    if x.abs.compare r.sum.abs = .lt then (r.sum.sub total).add x
    else (x.sub total).add r.sum
  { r with sum := total, lost := r.lost.add loss }

def addInt (r : Running) (n : Int) : Running :=
  if n <= -splitBound || splitBound <= n then
    let low := n.tmod splitSize
    (r.add (Binary64.ofInt (n - low))).add (Binary64.ofInt low)
  else r.add (Binary64.ofInt n)

def ofInt (n : Int) : Running :=
  if n <= -splitBound || splitBound <= n then
    let low := n.tmod splitSize
    ⟨Binary64.ofInt (n - low), Binary64.ofInt low, false⟩
  else ⟨Binary64.ofInt n, .zero, false⟩

def total (r : Running) : Binary64 :=
  if r.lost.isFinite then r.sum.add r.lost else r.sum

end Running

inductive Total
  | nothing
  | whole (n : Int)
  | binary (r : Running)

namespace Total

def addInt (n : Int) : Total -> Total
  | .nothing => .whole n
  | .whole sum =>
      match int64? (sum + n) with
      | some _ => .whole (sum + n)
      | none => .binary { (Running.ofInt sum).addInt n with overflowed := true }
  | .binary r => .binary (r.addInt n)

def addReal (x : Binary64) : Total -> Total
  | .nothing => .binary ((Running.ofInt 0).add x)
  | .whole sum => .binary ((Running.ofInt sum).add x)
  | .binary r => .binary { r.add x with overflowed := false }

variable [Conversions]

/-- One more cell; a text that is no number counts as what it starts with. -/
def add (total : Total) (cell : Cell) : Total :=
  match cell with
  | .null => total
  | .int n => total.addInt n.toInt
  | .text s =>
      match (Numeral.ofText? s).bind Numeral.whole? with
      | some n => total.addInt n.toInt
      | none => total.addReal cell.asReal
  | _ => total.addReal cell.asReal

def cell : Total -> Except Error Cell
  | .nothing => .ok .null
  | .whole n => .ok (.int (Int64.ofInt n))
  | .binary r =>
      if r.overflowed then .error .overflow
      else if r.total.isNaN then .ok .null
      else .ok (.real r.total)

end Total

def sum [Conversions] (cells : List Cell) : Except Error Cell :=
  (cells.foldl Total.add .nothing).cell

end Engine
end TableStore
