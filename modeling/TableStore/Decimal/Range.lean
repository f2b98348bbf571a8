/-!
# Ranges of whole numbers

The whole numbers that fit into a fixed number of bits.
-/

namespace TableStore
namespace Decimal

def int64Bound : Int := 9223372036854775808

def uint64Bound : Int := 18446744073709551616

def int32Bound : Int := 2147483648

def uint32Bound : Int := 4294967296

def signed (negative : Bool) (size : Nat) : Int :=
  if negative then -(size : Int) else size

theorem signed_natAbs (n : Int) : signed (n < 0) n.natAbs = n := by
  simp only [signed, decide_eq_true_eq]
  split <;> omega

def int64? (n : Int) : Option Int64 :=
  if -int64Bound <= n && n < int64Bound then some (Int64.ofInt n) else none

def uint32? (n : Int) : Option UInt32 :=
  if 0 <= n && n < uint32Bound then some (UInt32.ofNat n.toNat) else none

theorem toInt_of_int64? {n : Int} {x : Int64} (h : int64? n = some x) :
    x.toInt = n := by
  simp only [int64?, Bool.and_eq_true, decide_eq_true_eq] at h
  split at h
  · rename_i hn
    obtain ⟨hlow, hhigh⟩ := hn
    have hx : Int64.ofInt n = x := by simpa using h
    rw [← hx, Int64.toInt_ofInt_of_le]
    · simpa [int64Bound] using hlow
    · simpa [int64Bound] using hhigh
  · simp at h

theorem int64?_toInt (x : Int64) : int64? x.toInt = some x := by
  have hlow : -int64Bound <= x.toInt := Int64.le_toInt x
  have hhigh : x.toInt < int64Bound := Int64.toInt_lt x
  simp [int64?, hlow, hhigh]

theorem uint32?_toNat (x : UInt32) : uint32? x.toNat = some x := by
  have hlt := x.toNat_lt
  have hhigh : (x.toNat : Int) < uint32Bound := by
    unfold uint32Bound
    omega
  simp [uint32?, hhigh]

end Decimal
end TableStore
