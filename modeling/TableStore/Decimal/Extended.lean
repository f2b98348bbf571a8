import TableStore.Decimal.Binary64
import TableStore.Decimal.Digits

/-!
# Extended precision

Numbers with significands of sixty-four bits, in which a decimal can be scaled to
its place before it is rounded to the 64-bit format.  Every step rounds, so what
comes out is near to the decimal, but it is not always the nearest number.
-/

namespace TableStore
namespace Decimal

/-- The number `significand * 2 ^ exponent`. -/
structure Extended where
  significand : Nat
  exponent : Int

namespace Extended

/-- The nearest number whose significand has at most sixty-four bits. -/
def round (x : Extended) : Extended :=
  let shift := x.significand.log2 - 63
  ⟨Binary64.roundHalfEven x.significand (twoTo shift), x.exponent + shift⟩

def mul (x y : Extended) : Extended :=
  round ⟨x.significand * y.significand, x.exponent + y.exponent⟩

def mulRepeatedly (factor : Extended) : Nat -> Extended -> Extended
  | 0, x => x
  | count + 1, x => mulRepeatedly factor count (x.mul factor)

def powerOfTen (n : Nat) : Extended :=
  round ⟨tenTo n, 0⟩

def inversePower (n : Nat) : Extended :=
  let shift := 64 + (tenTo n).log2
  ⟨Binary64.roundHalfEven (twoTo shift) (tenTo n), -(shift : Int)⟩

def scale (power : Nat -> Extended) (places : Nat) (x : Extended) : Extended :=
  mulRepeatedly (power 1) (places % 10)
    (mulRepeatedly (power 10) (places / 10 % 10)
      (mulRepeatedly (power 100) (places / 100) x))

def toBinary64 (x : Extended) : Binary64 :=
  let num := x.significand * twoTo x.exponent.toNat
  let den := twoTo (-x.exponent).toNat
  if (twoTo 53 - 1) * twoTo 971 * den < num then
    .ofMagnitude false Binary64.infinityMagnitude
  else .nearest false num den

end Extended

/-!
# Reading decimals
-/

namespace Scaled

/-- Digits are read as long as their number is below this bound. -/
def digitBound : Nat := 1844674407370955160

def shorten : Nat -> Scaled -> Scaled
  | 0, d => d
  | fuel + 1, d =>
      if digitBound <= d.coefficient / 10 then
        shorten fuel ⟨d.coefficient / 10, d.place + 1⟩
      else d

def lengthen : Nat -> Scaled -> Scaled
  | 0, d => d
  | fuel + 1, d =>
      if 0 < d.place && d.coefficient <= digitBound then
        lengthen fuel ⟨d.coefficient * 10, d.place - 1⟩
      else d

def trimFraction : Nat -> Scaled -> Scaled
  | 0, d => d
  | fuel + 1, d =>
      if d.place < 0 && d.coefficient % 10 = 0 then
        trimFraction fuel ⟨d.coefficient / 10, d.place + 1⟩
      else d

/-- A decimal as it is read by way of numbers of extended precision. -/
def readExtended (d : Scaled) : Binary64 :=
  let d := ((d.shorten d.coefficient.log2).lengthen 20).trimFraction 20
  if d.coefficient = 0 then .zero
  else if d.place = 0 then .nearest false d.coefficient 1
  else if 400 < d.place then .ofMagnitude false Binary64.infinityMagnitude
  else if d.place < -400 then .zero
  else if 0 < d.place then
    (Extended.scale .powerOfTen d.place.toNat ⟨d.coefficient, 0⟩).toBinary64
  else
    (Extended.scale .inversePower (-d.place).toNat ⟨d.coefficient, 0⟩).toBinary64

end Scaled
end Decimal
end TableStore
