import TableStore.Decimal.Digits
import TableStore.Decimal.Shortest

/-!
# Written forms of binary numbers

Three ways to write a number of the binary format:

- positional, with the shortest digits and never an exponent;
- for documents, with the shortest digits, a point or an exponent in every
  number, and an exponent where the first digit is far from the point;
- as stored text, with fifteen significant digits.
-/

namespace TableStore
namespace Decimal

def zeros (count : Nat) : List Char :=
  List.replicate count '0'

/-- The number of digits before the point; not positive for a small decimal. -/
def Scaled.pointPlace (d : Scaled) : Int :=
  (digits d.coefficient).length + d.place

def Scaled.positional (d : Scaled) : List Char :=
  let ds := digits d.coefficient
  let point := d.pointPlace
  if 0 <= d.place then ds ++ zeros d.place.toNat
  else if 0 < point then ds.take point.toNat ++ '.' :: ds.drop point.toNat
  else '0' :: '.' :: zeros (-point).toNat ++ ds

def Scaled.scientific (d : Scaled) : List Char :=
  let ds := digits d.coefficient
  let exponent := d.pointPlace - 1
  let sign := if exponent < 0 then '-' else '+'
  let tail := if ds.length <= 1 then [] else '.' :: ds.drop 1
  ds.take 1 ++ tail ++ 'e' :: sign :: digits exponent.natAbs

namespace Binary64

def signText (x : Binary64) : List Char :=
  if x.negative then ['-'] else []

def positionalText (x : Binary64) : String :=
  if x.isNaN then "NaN"
  else
    String.ofList (x.signText ++
      if x.isFinite then (x.shortest .up).positional else ['i', 'n', 'f'])

def documentText (x : Binary64) : String :=
  let d := x.shortest .even
  let leading := d.pointPlace - 1
  String.ofList (x.signText ++
    if x.significand = 0 then ['0', '.', '0']
    else if leading < -5 || 15 < leading then d.scientific
    else if 0 <= d.place then d.positional ++ ['.', '0']
    else d.positional)

def rounded (x : Binary64) (count : Nat) : Scaled :=
  let place : Int := decimalScale x.numerator x.denominator - count + 1
  let num := x.numerator * tenTo (-place).toNat
  let den := x.denominator * tenTo place.toNat
  ⟨(2 * num + den) / (2 * den), place⟩

/--
The text that a stored number turns into: fifteen digits without trailing
zeros, at least one of them behind the point, and an exponent of two digits or
more when the first digit is more than four places behind the point or more
than fourteen before its end.
-/
def storedText (x : Binary64) : String :=
  if x.significand = 0 then "0.0"
  else if !x.isFinite then if x.negative then "-Inf" else "Inf"
  else
    let d := (x.rounded 15).trim 15
    let ds := digits d.coefficient
    let leading := d.pointPlace - 1
    String.ofList (x.signText ++
      if leading < -4 || 14 < leading then
        let tail := if ds.length <= 1 then ['0'] else ds.drop 1
        let sign := if leading < 0 then '-' else '+'
        let size := digits leading.natAbs
        ds.take 1 ++ '.' :: tail ++ 'e' :: sign ::
          (zeros (2 - size.length) ++ size)
      else if 0 <= d.place then d.positional ++ ['.', '0']
      else d.positional)

end Binary64

end Decimal
end TableStore
