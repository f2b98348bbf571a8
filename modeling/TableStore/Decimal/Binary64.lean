import TableStore.Decimal.Power

/-!
# Binary floating point

Numbers of the 64-bit binary format, carried as their bit patterns, so that
equality of values is equality of patterns and every operation is integer
arithmetic.

A finite number is `significand * 2 ^ exponent` with its sign.  Rounding takes
an exact quotient of natural numbers to the nearest number of the format, a tie
to the neighbour with an even significand, and a quotient beyond the largest
finite number to infinity.
-/

namespace TableStore
namespace Decimal

structure Binary64 where
  /-- Sign bit, eleven exponent bits, fifty-two fraction bits. -/
  bits : UInt64
deriving DecidableEq

namespace Binary64

def negative (x : Binary64) : Bool :=
  twoTo 63 <= x.bits.toNat

def magnitude (x : Binary64) : Nat :=
  x.bits.toNat % twoTo 63

def infinityMagnitude : Nat :=
  0x7FF * twoTo 52

def isNaN (x : Binary64) : Bool :=
  infinityMagnitude < x.magnitude

def isFinite (x : Binary64) : Bool :=
  x.magnitude < infinityMagnitude

def ofMagnitude (negative : Bool) (magnitude : Nat) : Binary64 :=
  ⟨UInt64.ofNat (magnitude + if negative then twoTo 63 else 0)⟩

def zero : Binary64 :=
  ofMagnitude false 0

def nan : Binary64 :=
  ofMagnitude false (infinityMagnitude + twoTo 51)

def neg (x : Binary64) : Binary64 :=
  ofMagnitude (!x.negative) x.magnitude

def abs (x : Binary64) : Binary64 :=
  ofMagnitude false x.magnitude

def significand (x : Binary64) : Nat :=
  let field : Nat := x.magnitude / twoTo 52
  let fraction := x.magnitude % twoTo 52
  if field = 0 then fraction else twoTo 52 + fraction

def exponent (x : Binary64) : Int :=
  let field : Nat := x.magnitude / twoTo 52
  if field = 0 then -1074 else (field : Int) - 1075

def mantissa (x : Binary64) : Int :=
  if x.negative then -(x.significand : Int) else x.significand

def numerator (x : Binary64) : Nat :=
  x.significand * twoTo x.exponent.toNat

def denominator (x : Binary64) : Nat :=
  twoTo (-x.exponent).toNat

/-!
# Rounding
-/

/-- A quotient rounded to the nearest natural number, a half to the even one. -/
def roundHalfEven (num den : Nat) : Nat :=
  let quotient := num / den
  let rest := num % den
  if 2 * rest < den then quotient
  else if den < 2 * rest then quotient + 1
  else quotient + quotient % 2

def binaryScale (num den : Nat) : Int :=
  let guess : Int := (num.log2 : Int) - den.log2
  if num * twoTo (-guess).toNat < den * twoTo guess.toNat then guess - 1 else guess

def nearestMagnitude (num den : Nat) : Nat :=
  if num = 0 then 0
  else
    let shift : Int := max (binaryScale num den - 52) (-1074)
    let rounded :=
      roundHalfEven (num * twoTo (-shift).toNat) (den * twoTo shift.toNat)
    min ((shift + 1074).toNat * twoTo 52 + rounded) infinityMagnitude

def nearest (negative : Bool) (num den : Nat) : Binary64 :=
  ofMagnitude negative (nearestMagnitude num den)

def ofInt (n : Int) : Binary64 :=
  nearest (n < 0) n.natAbs 1

/--
The number nearest to `digits * 10 ^ exponent`.  A value with its first digit
beyond the four-hundredth place on either side of the point is infinite or zero
without being computed.
-/
def ofDecimal (negative : Bool) (digits : Nat) (exponent : Int) : Binary64 :=
  if digits = 0 then ofMagnitude negative 0
  else
    let top : Int := (digits.log2 * 30103 / 100000 : Nat) + exponent
    if 400 < top then ofMagnitude negative infinityMagnitude
    else if top < -400 then ofMagnitude negative 0
    else
      nearest negative (digits * tenTo exponent.toNat) (tenTo (-exponent).toNat)

def ofBinary32 (bits : Nat) : Binary64 :=
  let negative := twoTo 31 <= bits
  let field := bits / twoTo 23 % twoTo 8
  let fraction := bits % twoTo 23
  if field = 255 then
    ofMagnitude negative (infinityMagnitude + fraction * twoTo 29)
  else if field = 0 then
    nearest negative fraction (twoTo 149)
  else
    nearest negative ((twoTo 23 + fraction) * twoTo field) (twoTo 150)

/-!
# Arithmetic and order
-/

def addFinite (x y : Binary64) : Binary64 :=
  let scale := min x.exponent y.exponent
  let sum : Int :=
    x.mantissa * twoTo (x.exponent - scale).toNat +
      y.mantissa * twoTo (y.exponent - scale).toNat
  if sum = 0 then ofMagnitude (x.negative && y.negative) 0
  else
    nearest (sum < 0) (sum.natAbs * twoTo scale.toNat) (twoTo (-scale).toNat)

def add (x y : Binary64) : Binary64 :=
  if x.isNaN || y.isNaN then nan
  else if x.isFinite && y.isFinite then addFinite x y
  else if x.isFinite then y
  else if y.isFinite then x
  else if x.negative == y.negative then x
  else nan

def sub (x y : Binary64) : Binary64 :=
  add x y.neg

/-- A whole number that orders the numbers; both zeros have the same one. -/
def orderKey (x : Binary64) : Int :=
  if x.negative then -(x.magnitude : Int) else x.magnitude

def compare (x y : Binary64) : Ordering :=
  Ord.compare x.orderKey y.orderKey

def compareInt (n : Int) (x : Binary64) : Ordering :=
  if x.isFinite then
    Ord.compare (n * x.denominator)
      (if x.negative then -(x.numerator : Int) else x.numerator)
  else if x.negative then .gt
  else .lt

def toInt? (x : Binary64) : Option Int :=
  if x.isFinite && x.numerator % x.denominator == 0 then
    let n : Int := (x.numerator / x.denominator : Nat)
    some (if x.negative then -n else n)
  else none

end Binary64

end Decimal
end TableStore
