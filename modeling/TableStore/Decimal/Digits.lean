/-!
# Decimal digits

Whole numbers written in base ten, and read back.

## Main statements

The digits of a number, read as a number, give the number back.
-/

namespace TableStore
namespace Decimal

def isDigit (c : Char) : Bool :=
  48 <= c.toNat && c.toNat <= 57

def digitValue (c : Char) : Nat :=
  c.toNat - 48

def digitChar (n : Nat) : Char :=
  Char.ofNat (48 + n % 10)

/-- The digits of a number, without leading zeros; zero is the one digit `0`. -/
def digits (n : Nat) : List Char :=
  if _h : n < 10 then [digitChar n]
  else digits (n / 10) ++ [digitChar n]
termination_by n
decreasing_by omega

structure Scaled where
  coefficient : Nat
  place : Int
deriving DecidableEq

def ofDigits (s : List Char) : Nat :=
  s.foldl (fun sum c => 10 * sum + digitValue c) 0

def intDigits (n : Int) : List Char :=
  if n < 0 then '-' :: digits n.natAbs else digits n.natAbs

def natText (n : Nat) : String :=
  String.ofList (digits n)

def intText (n : Int) : String :=
  String.ofList (intDigits n)

/--
Reads a text that is nothing but digits, after one sign at most.  A text
without a digit is no number.
-/
def readInt? (s : List Char) : Option Int :=
  let read (t : List Char) : Option Nat :=
    if t.isEmpty || !t.all isDigit then none else some (ofDigits t)
  match s with
  | '-' :: rest => (read rest).map fun n => -(n : Int)
  | '+' :: rest => (read rest).map fun n => (n : Int)
  | _ => (read s).map fun n => (n : Int)

theorem digitValue_digitChar (n : Nat) : digitValue (digitChar n) = n % 10 := by
  have all : ∀ d : Fin 10, digitValue (Char.ofNat (48 + d.val)) = d.val := by
    decide
  exact all ⟨n % 10, Nat.mod_lt _ (by decide)⟩

theorem ofDigits_append_singleton (s : List Char) (c : Char) :
    ofDigits (s ++ [c]) = 10 * ofDigits s + digitValue c := by
  simp [ofDigits]

theorem ofDigits_digits (n : Nat) : ofDigits (digits n) = n := by
  induction n using Nat.strongRecOn with
  | _ n ih =>
      rw [digits]
      split
      · rename_i h
        simp [ofDigits, digitValue_digitChar]
        omega
      · rename_i h
        rw [ofDigits_append_singleton, ih (n / 10) (by omega),
          digitValue_digitChar]
        omega

end Decimal
end TableStore
