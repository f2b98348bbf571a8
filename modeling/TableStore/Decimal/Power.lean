/-!
# Powers

The powers of two, five and ten that binary and decimal numbers are made of.
-/

namespace TableStore
namespace Decimal

def twoTo (n : Nat) : Nat :=
  Nat.pow 2 n

def fiveTo (n : Nat) : Nat :=
  Nat.pow 5 n

def tenTo (n : Nat) : Nat :=
  Nat.pow 10 n

@[simp] theorem twoTo_zero : twoTo 0 = 1 := rfl

theorem twoTo_succ (n : Nat) : twoTo (n + 1) = twoTo n * 2 := rfl

@[simp] theorem tenTo_zero : tenTo 0 = 1 := rfl

theorem tenTo_succ (n : Nat) : tenTo (n + 1) = tenTo n * 10 := rfl

theorem twoTo_pos (n : Nat) : 0 < twoTo n :=
  Nat.pow_pos (by decide)

theorem tenTo_pos (n : Nat) : 0 < tenTo n :=
  Nat.pow_pos (by decide)

end Decimal
end TableStore
