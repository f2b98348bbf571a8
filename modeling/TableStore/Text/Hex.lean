/-!
# Hexadecimal text

Bytes and fixed-width numbers written in base sixteen.

## Main statements

The digits of a run of bytes are read as these bytes, and none of them is a
quote.
-/

namespace TableStore
namespace Text

def upperHexDigit (n : Nat) : Char :=
  if n < 10 then Char.ofNat (48 + n) else Char.ofNat (55 + n)

def lowerHexDigit (n : Nat) : Char :=
  if n < 10 then Char.ofNat (48 + n) else Char.ofNat (87 + n)

def hexValue? (c : Char) : Option Nat :=
  let n := c.toNat
  if 48 <= n && n <= 57 then some (n - 48)
  else if 65 <= n && n <= 70 then some (n - 55)
  else if 97 <= n && n <= 102 then some (n - 87)
  else none

def hexOfBytes (digit : Nat -> Char) : List UInt8 -> List Char
  | [] => []
  | b :: rest =>
      digit (b.toNat / 16) :: digit (b.toNat % 16) :: hexOfBytes digit rest

def bytesOfHex? : List Char -> Option (List UInt8)
  | [] => some []
  | high :: low :: rest => do
      let h <- hexValue? high
      let l <- hexValue? low
      let bytes <- bytesOfHex? rest
      return UInt8.ofNat (16 * h + l) :: bytes
  | [_] => none

def numberOfHex? (s : List Char) : Option Nat :=
  s.foldl (fun sum c => do return 16 * (<- sum) + (<- hexValue? c)) (some 0)

/-- The last `width` hexadecimal digits of a number, with small letters. -/
def hexOfNumber : Nat -> Nat -> List Char
  | 0, _ => []
  | width + 1, n => hexOfNumber width (n / 16) ++ [lowerHexDigit (n % 16)]

theorem hexValue?_upperHexDigit {n : Nat} (h : n < 16) :
    hexValue? (upperHexDigit n) = some n := by
  have all : ∀ d : Fin 16, hexValue? (upperHexDigit d.val) = some d.val := by
    decide
  exact all ⟨n, h⟩

theorem bytesOfHex?_hexOfBytes (bytes : List UInt8) :
    bytesOfHex? (hexOfBytes upperHexDigit bytes) = some bytes := by
  induction bytes with
  | nil => rfl
  | cons b rest ih =>
      have hb := b.toNat_lt
      have hhigh := hexValue?_upperHexDigit (show b.toNat / 16 < 16 by omega)
      have hlow := hexValue?_upperHexDigit (show b.toNat % 16 < 16 by omega)
      have hsum : 16 * (b.toNat / 16) + b.toNat % 16 = b.toNat := by omega
      have hbyte : UInt8.ofNat (16 * (b.toNat / 16) + b.toNat % 16) = b := by
        rw [hsum, UInt8.ofNat_toNat]
      rw [hexOfBytes, bytesOfHex?, hhigh, hlow, ih]
      exact congrArg (fun first => some (first :: rest)) hbyte

theorem quote_not_mem_hexOfBytes (bytes : List UInt8) :
    '\'' ∉ hexOfBytes upperHexDigit bytes := by
  have digit (n : Nat) (h : n < 16) : '\'' ≠ upperHexDigit n := by
    have all : ∀ d : Fin 16, '\'' ≠ upperHexDigit d.val := by decide
    exact all ⟨n, h⟩
  induction bytes with
  | nil => simp [hexOfBytes]
  | cons b rest ih =>
      have hb := b.toNat_lt
      simp only [hexOfBytes, List.mem_cons, not_or]
      exact ⟨digit _ (by omega), digit _ (by omega), ih⟩

end Text
end TableStore
