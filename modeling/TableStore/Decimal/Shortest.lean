import TableStore.Decimal.Binary64
import TableStore.Decimal.Digits

/-!
# Shortest decimals

For a finite number of the binary format, a decimal with as few digits as
possible among those whose nearest binary number it is.

The search looks at grids of one to seventeen digits.  On each it tries the two
neighbours of the exact value; the first grid on which one of them reads back
gives the result, and of two that do, the nearer one.  Every candidate is kept
only after it has been read back, and if no grid has one the exact decimal
expansion is the result.
-/

namespace TableStore
namespace Decimal

/-- Which of two equally near neighbours is taken. -/
inductive Tie
  | up
  | even
deriving DecidableEq

def decimalScale (num den : Nat) : Int :=
  let guess : Int := Binary64.binaryScale num den * 30103 / 100000
  let reaches (e : Int) : Bool :=
    den * tenTo e.toNat <= num * tenTo (-e).toNat
  if reaches (guess + 1) then guess + 1
  else if reaches guess then guess
  else guess - 1

def Scaled.readsAs (d : Scaled) (magnitude : Nat) : Bool :=
  (Binary64.ofDecimal false d.coefficient d.place).magnitude == magnitude

def Scaled.trim : Nat -> Scaled -> Scaled
  | 0, d => d
  | fuel + 1, d =>
      if d.coefficient % 10 = 0 then
        Scaled.trim fuel ⟨d.coefficient / 10, d.place + 1⟩
      else d

namespace Binary64

def expansion (x : Binary64) : Scaled :=
  if x.exponent < 0 then
    ⟨x.significand * fiveTo (-x.exponent).toNat, x.exponent⟩
  else
    ⟨x.significand * twoTo x.exponent.toNat, 0⟩

/-- The neighbour with `count` digits that reads back, the nearer of two. -/
def neighbour? (x : Binary64) (tie : Tie) (count : Nat) : Option Scaled :=
  let place : Int := decimalScale x.numerator x.denominator - count + 1
  let num := x.numerator * tenTo (-place).toNat
  let den := x.denominator * tenTo place.toNat
  let below : Scaled := ⟨num / den, place⟩
  let above : Scaled := ⟨num / den + 1, place⟩
  let twice := 2 * (num % den)
  let aboveFirst :=
    if twice = den then tie = .up || below.coefficient % 2 = 1 else decide (den < twice)
  let order := if aboveFirst then [above, below] else [below, above]
  order.find? fun d => d.readsAs x.magnitude

/-- A shortest decimal of a finite number without its sign; zero has one digit. -/
def shortest (x : Binary64) (tie : Tie) : Scaled :=
  if x.significand = 0 then ⟨0, 0⟩
  else
    let found := (List.range 17).findSome? fun k => x.neighbour? tie (k + 1)
    (found.getD x.expansion).trim 400

end Binary64

end Decimal
end TableStore
